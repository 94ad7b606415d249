import M5DayLog.Lib.Prog
import Mathlib.Algebra.Ring.Nat

/-! What a program does, whatever its operations answer. A trace is the list of the operations carried out so far, with
their answers. `Does p t q` says that `p` goes on as `q` after the trace `t`, so that the traces of a program are what it may
have done at any moment, in any environment. `Always` is the rule for what holds of all of them. -/

universe u v w

namespace Prog

variable {Op : Type u} {Ans : Op → Type v} {α β : Type w}

abbrev Trace (Op : Type u) (Ans : Op → Type v) := List (Σ o : Op, Ans o)

inductive Does : Prog Op Ans α → Trace Op Ans → Prog Op Ans α → Prop
  | rest (p : Prog Op Ans α) : Does p [] p
  | call (o : Op) (k : Ans o → Prog Op Ans α) (r : Ans o) (t : Trace Op Ans) (q : Prog Op Ans α) (h : Does (k r) t q) :
      Does (.call o k) (⟨o, r⟩ :: t) q

/-- From the history `h` on, every operation of the program leaves a history that satisfies `I`, and a return satisfies `Q`
with the history at that time. -/
def Always (I : Trace Op Ans → Prop) : Prog Op Ans α → (α → Trace Op Ans → Prop) → Trace Op Ans → Prop
  | .ret a, Q, h => Q a h
  | .call o k, Q, h => ∀ r, I (h ++ [⟨o, r⟩]) ∧ Always I (k r) Q (h ++ [⟨o, r⟩])

variable {I : Trace Op Ans → Prop} {Q R : α → Trace Op Ans → Prop} {h : Trace Op Ans}

@[simp] theorem always_ret (a : α) : Always I (.ret a) Q h ↔ Q a h := Iff.rfl

theorem always_call (o : Op) (k : Ans o → Prog Op Ans α) :
    Always I (.call o k) Q h ↔ ∀ r, I (h ++ [⟨o, r⟩]) ∧ Always I (k r) Q (h ++ [⟨o, r⟩]) := Iff.rfl

theorem always_bind (p : Prog Op Ans α) (f : α → Prog Op Ans β) (Q : β → Trace Op Ans → Prop) (h : Trace Op Ans) :
    Always I (p >>= f) Q h ↔ Always I p (fun a h' => Always I (f a) Q h') h := by
  induction p generalizing h with
  | ret a => rfl
  | call o k ih => simp only [bind_call, always_call, ih]

theorem always_mono (p : Prog Op Ans α) (hp : Always I p Q h) (hQ : ∀ a h', Q a h' → R a h') : Always I p R h := by
  induction p generalizing h with
  | ret a => exact hQ a h hp
  | call o k ih => exact fun r => ⟨(hp r).1, ih r (hp r).2⟩

theorem always_imp {J : Trace Op Ans → Prop} (p : Prog Op Ans α) (hp : Always I p Q h) (hI : ∀ h', I h' → J h')
    (hQ : ∀ a h', Q a h' → R a h') : Always J p R h := by
  induction p generalizing h with
  | ret a => exact hQ a h hp
  | call o k ih => exact fun r => ⟨hI _ (hp r).1, ih r (hp r).2⟩

theorem always_any (p : Prog Op Ans α) (hQ : ∀ a h', h <+: h' → Q a h') : Always (fun _ => True) p Q h := by
  induction p generalizing h with
  | ret a => exact hQ a h List.prefix_rfl
  | call o k ih => exact fun r => ⟨trivial, ih r fun a h' hp => hQ a h' ((List.prefix_append _ _).trans hp)⟩

/-- Where nothing is asked of the operations, what comes first may return anything. -/
theorem always_bind_any {p : Prog Op Ans α} {f : α → Prog Op Ans β} {Q : β → Trace Op Ans → Prop}
    (hf : ∀ a h', Always (fun _ => True) (f a) Q h') : Always (fun _ => True) (p >>= f) Q h := by
  induction p generalizing h with
  | ret a => exact hf a h
  | call o k ih => exact fun r => ⟨trivial, ih r⟩

/-- A program that may raise goes on where its first part returns. -/
theorem always_raises {ε : Type w} {p : ExceptT ε (Prog Op Ans) α} {f : α → ExceptT ε (Prog Op Ans) β}
    {Q : Except ε β → Trace Op Ans → Prop} : Always I (p >>= f).run Q h ↔
      Always I p.run (fun r h' => match r with
        | .ok a => Always I (f a).run Q h'
        | .error e => Q (.error e) h') h := by
  have hcont : (fun r h' => Always I (ExceptT.bindCont f r) Q h') = fun r h' => match r with
      | .ok a => Always I (f a).run Q h'
      | .error e => Q (.error e) h' := by
    funext r h'
    cases r <;> rfl
  show Always I (p.run >>= ExceptT.bindCont f) Q h ↔ _
  rw [always_bind, hcont]

/-- At every moment of every run the invariant holds of what has been done, and a run that has returned satisfies the
postcondition. -/
theorem Does.sat {p q : Prog Op Ans α} {t : Trace Op Ans} (hd : Does p t q) (hp : Always I p Q h) (hI : I h) :
    I (h ++ t) ∧ ∀ a, q = .ret a → Q a (h ++ t) := by
  induction hd generalizing h with
  | rest p =>
    rw [List.append_nil]
    refine ⟨hI, ?_⟩
    rintro a rfl
    exact hp
  | call o k r t q hd ih =>
    have hstep := ih (hp r).2 (hp r).1
    rwa [List.append_assoc, List.singleton_append] at hstep

theorem does_ret {a b : α} {t : Trace Op Ans} : Does (.ret a : Prog Op Ans α) t (.ret b) ↔ t = [] ∧ a = b := by
  constructor
  · intro h
    cases h
    exact ⟨rfl, rfl⟩
  · rintro ⟨rfl, rfl⟩
    exact .rest _

theorem does_call {o : Op} {k : Ans o → Prog Op Ans α} {b : α} {t : Trace Op Ans} :
    Does (.call o k) t (.ret b) ↔ ∃ r t', t = ⟨o, r⟩ :: t' ∧ Does (k r) t' (.ret b) := by
  constructor
  · intro h
    cases h with
    | call o k r t q h => exact ⟨r, t, rfl, h⟩
  · rintro ⟨r, t', rfl, h⟩
    exact .call o k r t' _ h

theorem exists_does_call {o : Op} {k : Ans o → Prog Op Ans α} {b : α} (r : Ans o) (h : ∃ t, Does (k r) t (.ret b)) :
    ∃ t, Does (.call o k) t (.ret b) := by
  obtain ⟨t, h⟩ := h
  exact ⟨_, .call o k r t _ h⟩

theorem does_bind {p : Prog Op Ans α} {f : α → Prog Op Ans β} {b : β} {t : Trace Op Ans} :
    Does (p >>= f) t (.ret b) ↔ ∃ a t₁ t₂, t = t₁ ++ t₂ ∧ Does p t₁ (.ret a) ∧ Does (f a) t₂ (.ret b) := by
  induction p generalizing t with
  | ret a =>
    constructor
    · intro h
      exact ⟨a, [], t, rfl, .rest _, h⟩
    · rintro ⟨a', t₁, t₂, rfl, h, hf⟩
      obtain ⟨rfl, rfl⟩ := does_ret.mp h
      exact hf
  | call o k ih =>
    rw [bind_call, does_call]
    constructor
    · rintro ⟨r, t', rfl, h⟩
      obtain ⟨a, t₁, t₂, rfl, ha, hf⟩ := (ih r).mp h
      exact ⟨a, ⟨o, r⟩ :: t₁, t₂, rfl, .call o k r t₁ _ ha, hf⟩
    · rintro ⟨a, t₁, t₂, rfl, h, hf⟩
      obtain ⟨r, t', rfl, hrest⟩ := does_call.mp h
      exact ⟨r, t' ++ t₂, rfl, (ih r).mpr ⟨a, t', t₂, rfl, hrest, hf⟩⟩

theorem does_bind_ret {p : Prog Op Ans α} {f : α → β} {b : β} {t : Trace Op Ans} :
    Does (p >>= fun a => .ret (f a)) t (.ret b) ↔ ∃ a, Does p t (.ret a) ∧ b = f a := by
  rw [does_bind]
  constructor
  · rintro ⟨a, t₁, t₂, rfl, h, hf⟩
    obtain ⟨rfl, rfl⟩ := does_ret.mp hf
    exact ⟨a, by rwa [List.append_nil], rfl⟩
  · rintro ⟨a, h, rfl⟩
    exact ⟨a, t, [], (List.append_nil t).symm, h, .rest _⟩

/-- A program that may raise returns where both of its parts do. -/
theorem does_raises {ε : Type w} {p : ExceptT ε (Prog Op Ans) α} {f : α → ExceptT ε (Prog Op Ans) β} {b : β}
    {t : Trace Op Ans} : Does (p >>= f).run t (.ret (.ok b)) ↔
      ∃ a t₁ t₂, t = t₁ ++ t₂ ∧ Does p.run t₁ (.ret (.ok a)) ∧ Does (f a).run t₂ (.ret (.ok b)) := by
  show Does (p.run >>= ExceptT.bindCont f) t (.ret (.ok b)) ↔ _
  rw [does_bind]
  constructor
  · rintro ⟨a, t₁, t₂, rfl, hp, hf⟩
    cases a with
    | ok a => exact ⟨a, t₁, t₂, rfl, hp, hf⟩
    | error e => cases (does_ret.mp hf).2
  · rintro ⟨a, t₁, t₂, rfl, hp, hf⟩
    exact ⟨.ok a, t₁, t₂, rfl, hp, hf⟩

/-- A run of a program whose operations are carried out by programs is a run of it on what these return. -/
theorem Does.of_interp {Op' : Type u} {Ans' : Op' → Type v} {Ans : Op → Type w} {f : (o : Op) → Prog Op' Ans' (Ans o)}
    {P : (o : Op) → Ans o → Prop} (hf : ∀ o t r, Does (f o) t (.ret r) → P o r) {p : Prog Op Ans α} {a : α}
    {t : Trace Op' Ans'} (h : Does (p.interp f) t (.ret a)) :
    ∃ t' : Trace Op Ans, Does p t' (.ret a) ∧ ∀ e ∈ t', P e.1 e.2 := by
  induction p generalizing t with
  | ret b =>
    obtain ⟨rfl, rfl⟩ := does_ret.mp h
    exact ⟨[], .rest _, fun e he => by cases he⟩
  | call o k ih =>
    obtain ⟨r, t₁, t₂, rfl, ho, hk⟩ := does_bind.mp h
    obtain ⟨t', hdoes, hP⟩ := ih r hk
    refine ⟨⟨o, r⟩ :: t', .call o k r t' _ hdoes, fun e he => ?_⟩
    rcases List.mem_cons.mp he with rfl | he
    · exact hf o t₁ r ho
    · exact hP e he

section Fuel

variable {S stop : Op → Prop} {step : (o : Op) → Ans o → ℕ} {n m : ℕ}

/-- Every operation of the program satisfies `S`, and it comes to an operation that satisfies `stop` only after `n` of what
`step` counts. -/
inductive Within (S stop : Op → Prop) (step : (o : Op) → Ans o → ℕ) : ℕ → Prog Op Ans α → Prop
  | ret (n : ℕ) (a : α) : Within S stop step n (.ret a)
  | call (n : ℕ) (o : Op) (k : Ans o → Prog Op Ans α) (ho : S o) (hstop : stop o → n = 0)
      (hk : ∀ r, Within S stop step (n - step o r) (k r)) : Within S stop step n (.call o k)

theorem Within.fewer {p : Prog Op Ans α} (hp : Within S stop step n p) (h : m ≤ n) : Within S stop step m p := by
  induction hp generalizing m with
  | ret n a => exact .ret m a
  | call n o k ho hstop hk ih =>
    apply Within.call m o k ho
    · intro hs
      have := hstop hs
      omega
    · intro r
      apply ih r
      omega

theorem Within.bind {p : Prog Op Ans α} {f : α → Prog Op Ans β} (hp : Within S stop step n p)
    (hf : ∀ a, Within S stop step n (f a)) : Within S stop step n (p >>= f) := by
  induction hp with
  | ret n a => exact hf a
  | call n o k ho hstop hk ih =>
    apply Within.call n o _ ho hstop
    intro r
    apply ih r
    intro a
    apply (hf a).fewer
    omega

theorem Within.bindExcept {ε : Type w} {p : ExceptT ε (Prog Op Ans) α} {f : α → ExceptT ε (Prog Op Ans) β}
    (hp : Within S stop step n p.run) (hf : ∀ a, Within S stop step n (f a).run) :
    Within S stop step n (p >>= f).run := by
  apply Within.bind hp
  intro r
  cases r with
  | ok a => exact hf a
  | error e => exact .ret n _

theorem Within.any {R : Op → Prop} {p : Prog Op Ans α} (hp : Within S stop step n p) (h : ∀ o, S o → R o) :
    Within R stop step n p := by
  induction hp with
  | ret n a => exact .ret n a
  | call n o k ho hstop hk ih => exact .call n o k (h o ho) hstop ih

/-- A run that has come to a stop has counted as many steps as there was fuel. -/
theorem Does.stopped {p : Prog Op Ans α} {t : Trace Op Ans} {o : Op} {k : Ans o → Prog Op Ans α} (hd : Does p t (.call o k))
    (hp : Within S stop step n p) (ho : stop o) : n ≤ (t.map fun e => step e.1 e.2).sum := by
  generalize hq : Prog.call o k = q at hd
  induction hd generalizing n with
  | rest p =>
    subst hq
    cases hp with
    | call _ _ _ _ hstop _ =>
      have := hstop ho
      omega
  | call o' k' r t q hd ih =>
    cases hp with
    | call _ _ _ _ _ hk =>
      have := ih (hk r) hq
      simp only [List.map_cons, List.sum_cons]
      omega

/-- What is done from a history on is a run of the program, of operations that satisfy `S`. -/
theorem Within.always {p : Prog Op Ans α} (hp : Within S stop step n p) (h : Trace Op Ans) :
    Always (fun h' => ∃ t, h' = h ++ t ∧ ∀ e ∈ t, S e.1) p
      (fun a h' => ∃ t, h' = h ++ t ∧ (∀ e ∈ t, S e.1) ∧ Does p t (.ret a)) h := by
  suffices ∀ h₀ t₀, h = h₀ ++ t₀ → (∀ e ∈ t₀, S e.1) → Always (fun h' => ∃ t, h' = h₀ ++ t ∧ ∀ e ∈ t, S e.1) p
      (fun a h' => ∃ t, h' = h₀ ++ (t₀ ++ t) ∧ (∀ e ∈ t₀ ++ t, S e.1) ∧ Does p t (.ret a)) h by
    simpa using this h [] (by simp) (by simp)
  induction hp generalizing h with
  | ret n a =>
    intro h₀ t₀ hh ht
    exact ⟨[], by simpa using hh, by simpa using ht, .rest _⟩
  | call n o k ho hstop hk ih =>
    intro h₀ t₀ hh ht r
    have ht' : ∀ e ∈ t₀ ++ [⟨o, r⟩], S e.1 := by
      intro e he
      rcases List.mem_append.mp he with he | he
      · exact ht e he
      · rw [List.mem_singleton.mp he]
        exact ho
    have hh' : h ++ [⟨o, r⟩] = h₀ ++ (t₀ ++ [⟨o, r⟩]) := by rw [hh, List.append_assoc]
    apply And.intro ⟨_, hh', ht'⟩
    apply always_mono _ (ih r _ h₀ _ hh' ht')
    rintro a h' ⟨t, rfl, hall, hdoes⟩
    rw [List.append_assoc, List.singleton_append] at hall ⊢
    exact ⟨_, rfl, hall, .call o k r t _ hdoes⟩

/-- All that a program does satisfies `S`. -/
theorem Does.all {p q : Prog Op Ans α} {t : Trace Op Ans} (hd : Does p t q) (hp : Within S stop step n p) :
    ∀ e ∈ t, S e.1 := by
  obtain ⟨⟨t', ht, hall⟩, -⟩ := hd.sat (hp.always []) ⟨[], rfl, by simp⟩
  rw [List.nil_append, List.nil_append] at ht
  exact ht ▸ hall

end Fuel

section Answers

variable (answer : (o : Op) → Option (Ans o))

/-- The run in which each operation has its one answer, and what it returns unless an operation has none. -/
def record : Prog Op Ans α → Trace Op Ans × Option α
  | .ret a => ([], some a)
  | .call o k =>
    match answer o with
    | none => ([], none)
    | some r =>
      match record (k r) with
      | (t, a) => (⟨o, r⟩ :: t, a)

variable {answer}

theorem does_record {p : Prog Op Ans α} {a : α} (h : (record answer p).2 = some a) :
    Does p (record answer p).1 (.ret a) := by
  induction p with
  | ret b =>
    cases h
    exact .rest _
  | call o k ih =>
    cases hr : answer o with
    | none => simp [record, hr] at h
    | some r =>
      have hrest : (record answer (k r)).2 = some a := by simpa [record, hr] using h
      have htrace : (record answer (.call o k)).1 = ⟨o, r⟩ :: (record answer (k r)).1 := by simp [record, hr]
      rw [htrace]
      exact .call o k r _ _ (ih r hrest)

end Answers

end Prog
