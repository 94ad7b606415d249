import M5DayLog.Lib.Prog
import Mathlib.Algebra.BigOperators.Fin
import Mathlib.Logic.Function.Basic

/-! Threads over shared memory. A thread calls a procedure, whose body is a program over atomic operations; any thread
that is inside a call may take the next step, and an observer, who changes nothing, keeps a record of calls, operations
and returns.

An invariant may speak of a private mark of each thread besides the memory and the record. `Keeps` says that a program
preserves such an invariant at each of its operations, whatever other threads have done between them, so that one walk
through every procedure establishes the invariant for every interleaving. A mark that is not calm stands only between
the last operation of a call and its return, where no other thread can come. -/

namespace Threads

/-- What the threads run. `act` is an atomic operation, under a choice for what the machine leaves open, and `none` where
it can never be taken. `fuel` bounds the loops of a call: a call that has used it up takes no further step, so that every
finite run is a run for all large enough fuel. -/
structure Code (ι Op : Type) (Ans : Op → Type) (Choice Mem Call : Type) (Ret : Call → Type) (Local : Type) where
  act : (o : Op) → Choice → Mem → Option (Ans o × Mem)
  may : ι → Call → Local → Mem → Bool
  body : (c : Call) → Local → (fuel : ℕ) → Prog Op Ans (Ret c)
  after : (c : Call) → Ret c → Local → Local

inductive Note (ι Op : Type) (Ans : Op → Type) (Call : Type) (Ret : Call → Type)
  | called (t : ι) (c : Call)
  | acted (t : ι) (o : Op) (r : Ans o)
  | returned (t : ι) (c : Call) (v : Ret c)

inductive Thread (Op : Type) (Ans : Op → Type) (Call : Type) (Ret : Call → Type) (Local : Type)
  | idle (l : Local)
  | busy (l : Local) (c : Call) (p : Prog Op Ans (Ret c))

inductive Event (ι Choice Call : Type)
  | call (t : ι) (c : Call) (fuel : ℕ)
  | act (t : ι) (choice : Choice)

structure Pool (ι Op : Type) (Ans : Op → Type) (Mem Call : Type) (Ret : Call → Type) (Local Seen : Type) where
  mem : Mem
  thread : ι → Thread Op Ans Call Ret Local
  seen : Seen

variable {ι Op : Type} [DecidableEq ι] {Ans : Op → Type} {Choice Mem Call : Type} {Ret : Call → Type} {Local Seen : Type}
variable (D : Code ι Op Ans Choice Mem Call Ret Local) (note : Note ι Op Ans Call Ret → Seen → Seen)

section Step

/-- Thread `t` goes on at `p`; where nothing is left to do, its call returns. -/
def resume (t : ι) (l : Local) (c : Call) (p : Prog Op Ans (Ret c)) (P : Pool ι Op Ans Mem Call Ret Local Seen) :
    Pool ι Op Ans Mem Call Ret Local Seen :=
  match p with
  | .ret v => { P with thread := Function.update P.thread t (.idle (D.after c v l)), seen := note (.returned t c v) P.seen }
  | .call o k => { P with thread := Function.update P.thread t (.busy l c (.call o k)) }

theorem resume_mem (t : ι) (l : Local) (c : Call) (p : Prog Op Ans (Ret c)) (P : Pool ι Op Ans Mem Call Ret Local Seen) :
    (resume D note t l c p P).mem = P.mem := by
  cases p <;> rfl

def step (P : Pool ι Op Ans Mem Call Ret Local Seen) : Event ι Choice Call → Option (Pool ι Op Ans Mem Call Ret Local Seen)
  | .call t c fuel =>
    match P.thread t with
    | .idle l =>
      if D.may t c l P.mem then some (resume D note t l c (D.body c l fuel) { P with seen := note (.called t c) P.seen })
      else none
    | .busy .. => none
  | .act t choice =>
    match P.thread t with
    | .busy l c (.call o k) =>
      match D.act o choice P.mem with
      | some (r, m) => some (resume D note t l c (k r) { P with mem := m, seen := note (.acted t o r) P.seen })
      | none => none
    | _ => none

/-- The operation that an event carries out meets `ok`, which may look at the memory and the record before it. -/
def Meets (ok : Mem → Seen → ι → (o : Op) → Ans o → Prop) (P : Pool ι Op Ans Mem Call Ret Local Seen) :
    Event ι Choice Call → Prop
  | .call .. => True
  | .act t choice => ∀ l c o k r m, P.thread t = .busy l c (.call o k) → D.act o choice P.mem = some (r, m) →
      ok P.mem P.seen t o r

/-- The pools that a run reaches whose steps all meet `ok`. -/
inductive Reach (ok : Mem → Seen → ι → (o : Op) → Ans o → Prop) (P₀ : Pool ι Op Ans Mem Call Ret Local Seen) :
    Pool ι Op Ans Mem Call Ret Local Seen → Prop
  | start : Reach ok P₀ P₀
  | step {P P' : Pool ι Op Ans Mem Call Ret Local Seen} (e : Event ι Choice Call) (h : Reach ok P₀ P)
      (hok : Meets D ok P e) (hs : step D note P e = some P') : Reach ok P₀ P'

section Run

variable (ok : Mem → Seen → ι → (o : Op) → Ans o → Prop) [∀ s h t o r, Decidable (ok s h t o r)]

instance (P : Pool ι Op Ans Mem Call Ret Local Seen) : (e : Event ι Choice Call) → Decidable (Meets D ok P e)
  | .call .. => .isTrue trivial
  | .act t choice =>
    match h : P.thread t with
    | .idle l => .isTrue fun l' c' o k r m hp => by rw [h] at hp; cases hp
    | .busy l c (.ret v) => .isTrue fun l' c' o k r m hp => by rw [h] at hp; cases hp
    | .busy l c (.call o k) =>
      match ha : D.act o choice P.mem with
      | none => .isTrue fun l' c' o' k' r m hp hr => by rw [h] at hp; cases hp; rw [ha] at hr; cases hr
      | some (r, m) =>
        decidable_of_iff (ok P.mem P.seen t o r)
          ⟨fun hok l' c' o' k' r' m' hp hr => by rw [h] at hp; cases hp; rw [ha] at hr; cases hr; exact hok,
            fun hok => hok l c o k r m h ha⟩

/-- The pool after a schedule whose steps all can be taken and meet `ok`. -/
def run : List (Event ι Choice Call) → Pool ι Op Ans Mem Call Ret Local Seen →
    Option (Pool ι Op Ans Mem Call Ret Local Seen)
  | [], P => some P
  | e :: es, P => if Meets D ok P e then (step D note P e).bind (run es) else none

variable {D note ok} {P₀ P P' : Pool ι Op Ans Mem Call Ret Local Seen}

theorem reach_run (es : List (Event ι Choice Call)) (h : Reach D note ok P₀ P) (hr : run D note ok es P = some P') :
    Reach D note ok P₀ P' := by
  induction es generalizing P with
  | nil =>
    obtain rfl := Option.some.inj hr
    exact h
  | cons e es ih =>
    rw [run] at hr
    split at hr
    case isTrue hok =>
      rw [Option.bind_eq_some_iff] at hr
      obtain ⟨Q, hs, hr⟩ := hr
      exact ih (.step e h hok hs) hr
    case isFalse => cases hr

end Run

end Step

section Alone

variable (act : (o : Op) → Choice → Mem → Option (Ans o × Mem)) (rest : Choice)

/-- A program with no other thread between its operations: its result, what it leaves of the machine's choices, and the
memory; `none` where it can go no further. Where the choices have ended, the machine chooses `rest`. -/
def alone {α : Type} : Prog Op Ans α → List Choice → Mem → Option (α × List Choice × Mem)
  | .ret a, cs, s => some (a, cs, s)
  | .call o k, cs, s =>
    match act o (cs.headD rest) s with
    | some (r, s') => alone (k r) cs.tail s'
    | none => none

variable {act rest} {α β : Type}

theorem alone_call (o : Op) (k : Ans o → Prog Op Ans α) (cs : List Choice) (s : Mem) : alone act rest (.call o k) cs s =
    (act o (cs.headD rest) s).bind fun r => alone act rest (k r.1) cs.tail r.2 := by
  rw [alone]
  cases act o (cs.headD rest) s <;> rfl

theorem alone_bind (p : Prog Op Ans α) (f : α → Prog Op Ans β) (cs : List Choice) (s : Mem) :
    alone act rest (p >>= f) cs s = (alone act rest p cs s).bind fun r => alone act rest (f r.1) r.2.1 r.2.2 := by
  induction p generalizing cs s with
  | ret a => rfl
  | call o k ih =>
    rw [Prog.bind_call, alone_call, alone_call, Option.bind_assoc]
    congr 1
    funext r
    exact ih r.1 cs.tail r.2

variable {D note} {ok : Mem → Seen → ι → (o : Op) → Ans o → Prop} {P₀ P : Pool ι Op Ans Mem Call Ret Local Seen}

/-- What a thread does alone it does in the pool, while the others wait. -/
theorem reach_resume {t : ι} {l : Local} {c : Call} {p : Prog Op Ans (Ret c)} {cs cs' : List Choice} {v : Ret c} {m : Mem}
    (hok : ∀ s h o r, ok s h t o r) (h : Reach D note ok P₀ (resume D note t l c p P))
    (hp : alone D.act rest p cs P.mem = some (v, cs', m)) :
    ∃ seen, Reach D note ok P₀ ⟨m, Function.update P.thread t (.idle (D.after c v l)), seen⟩ := by
  induction p generalizing P cs with
  | ret a =>
    cases hp
    exact ⟨_, h⟩
  | call o k ih =>
    rw [alone_call, Option.bind_eq_some_iff] at hp
    obtain ⟨⟨r, s'⟩, hact, hp⟩ := hp
    let P' : Pool ι Op Ans Mem Call Ret Local Seen :=
      ⟨s', Function.update P.thread t (.busy l c (.call o k)), note (.acted t o r) P.seen⟩
    have hstep : Reach D note ok P₀ (resume D note t l c (k r) P') := by
      apply h.step (.act t (cs.headD rest)) fun l' c' o' k' r' m' _ _ => hok _ _ o' r'
      simp only [resume, step, Function.update_self, hact]
      rfl
    obtain ⟨seen, hreach⟩ := ih r hstep hp
    rw [Function.update_idem] at hreach
    exact ⟨seen, hreach⟩

/-- A whole call of a thread at rest, alone. -/
theorem reach_alone {t : ι} {l : Local} {c : Call} {fuel : ℕ} {cs cs' : List Choice} {v : Ret c} {m : Mem}
    (hok : ∀ s h o r, ok s h t o r) (h : Reach D note ok P₀ P) (hidle : P.thread t = .idle l)
    (hmay : D.may t c l P.mem = true) (hp : alone D.act rest (D.body c l fuel) cs P.mem = some (v, cs', m)) :
    ∃ seen, Reach D note ok P₀ ⟨m, Function.update P.thread t (.idle (D.after c v l)), seen⟩ := by
  let P' : Pool ι Op Ans Mem Call Ret Local Seen := { P with seen := note (.called t c) P.seen }
  have hstep : Reach D note ok P₀ (resume D note t l c (D.body c l fuel) P') := by
    apply h.step (.call t c fuel) trivial
    simp only [step, hidle, hmay, if_true]
    rfl
  exact reach_resume (P := P') hok hstep hp

end Alone

section Keeps

variable {γ : Type} {α β : Type} (I : Mem → Seen → (ι → γ) → Prop) (ok : Mem → Seen → ι → (o : Op) → Ans o → Prop)
variable (calm : γ → Prop)

/-- Thread `t` with the mark `g` keeps the invariant at every operation of the program that meets `ok`, and returns with a
result and a mark that satisfy `Q`. -/
def Keeps (t : ι) : Prog Op Ans α → (α → γ → Prop) → γ → Prop
  | .ret a, Q, g => Q a g
  | .call o k, Q, g => calm g ∧ ∀ s h G, I s h G → (∀ u, calm (G u)) → G t = g → ∀ choice r s',
      D.act o choice s = some (r, s') → ok s h t o r →
        ∃ g', I s' (note (.acted t o r) h) (Function.update G t g') ∧ Keeps t (k r) Q g'

/-- A call may return with this mark, which becomes that of the thread at rest. -/
def Returns (rest : Local → γ) (t : ι) (l : Local) (c : Call) (v : Ret c) (g : γ) : Prop :=
  ∀ s h G, I s h G → G t = g → I s (note (.returned t c v) h) (Function.update G t (rest (D.after c v l)))

/-- Every call keeps the invariant. -/
def KeepsCalls (rest : Local → γ) : Prop :=
  ∀ t c l s h G, I s h G → (∀ u, calm (G u)) → G t = rest l → D.may t c l s = true →
    ∃ g', I s (note (.called t c) h) (Function.update G t g') ∧
      ∀ fuel, Keeps D note I ok calm t (D.body c l fuel) (Returns D note I rest t l c) g'

/-- The marks are calm and fit what the threads are at. -/
def Good (rest : Local → γ) (P : Pool ι Op Ans Mem Call Ret Local Seen) : Prop :=
  ∃ G : ι → γ, I P.mem P.seen G ∧ (∀ t, calm (G t)) ∧ ∀ t, match P.thread t with
    | .idle l => G t = rest l
    | .busy l c p => Keeps D note I ok calm t p (Returns D note I rest t l c) (G t)

variable {D note I ok calm} {t : ι} {Q R : α → γ → Prop} {g : γ}

@[simp] theorem keeps_ret (a : α) : Keeps D note I ok calm t (.ret a) Q g ↔ Q a g := Iff.rfl

theorem keeps_call (o : Op) (k : Ans o → Prog Op Ans α) : Keeps D note I ok calm t (.call o k) Q g ↔
    calm g ∧ ∀ s h G, I s h G → (∀ u, calm (G u)) → G t = g → ∀ choice r s', D.act o choice s = some (r, s') →
      ok s h t o r → ∃ g', I s' (note (.acted t o r) h) (Function.update G t g') ∧ Keeps D note I ok calm t (k r) Q g' :=
  Iff.rfl

theorem keeps_bind (p : Prog Op Ans α) (f : α → Prog Op Ans β) (Q : β → γ → Prop) :
    Keeps D note I ok calm t (p >>= f) Q g ↔ Keeps D note I ok calm t p (fun a g => Keeps D note I ok calm t (f a) Q g) g := by
  induction p generalizing g with
  | ret a => rfl
  | call o k ih => simp only [Prog.bind_call, keeps_call, ih]

theorem keeps_mono {p : Prog Op Ans α} (hp : Keeps D note I ok calm t p Q g) (h : ∀ a g', Q a g' → R a g') :
    Keeps D note I ok calm t p R g := by
  induction p generalizing g with
  | ret a => exact h a g hp
  | call o k ih =>
    refine ⟨hp.1, fun s h' G hI hothers hG choice r s' hs hok => ?_⟩
    obtain ⟨g', hI', hk⟩ := hp.2 s h' G hI hothers hG choice r s' hs hok
    exact ⟨g', hI', ih r hk⟩

theorem keeps_then {p : Prog Op Ans α} {f : α → Prog Op Ans β} {Q : β → γ → Prop} (hp : Keeps D note I ok calm t p R g)
    (hf : ∀ a g', R a g' → Keeps D note I ok calm t (f a) Q g') : Keeps D note I ok calm t (p >>= f) Q g :=
  (keeps_bind p f Q).mpr (keeps_mono hp hf)

/-- Sequencing of programs that may raise: what follows an exception is skipped. -/
theorem keeps_raises {ε : Type} {p : ExceptT ε (Prog Op Ans) α} {f : α → ExceptT ε (Prog Op Ans) β}
    {Q : Except ε β → γ → Prop} {R : Except ε α → γ → Prop} (hp : Keeps D note I ok calm t p.run R g)
    (hok : ∀ a g', R (.ok a) g' → Keeps D note I ok calm t (f a).run Q g')
    (herror : ∀ e g', R (.error e) g' → Q (.error e) g') : Keeps D note I ok calm t (p >>= f).run Q g := by
  refine keeps_then hp fun r g' h => ?_
  cases r with
  | ok a => exact hok a g' h
  | error e => exact herror e g' h

/-- A program of operations that keep the invariant under an unchanged mark. -/
theorem keeps_of_only {p : Prog Op Ans α} {S : Op → Prop} (hp : Device.Only S p) (hcalm : calm g)
    (hact : ∀ o, S o → ∀ s h G, I s h G → (∀ u, calm (G u)) → G t = g → ∀ choice r s',
      D.act o choice s = some (r, s') → ok s h t o r → I s' (note (.acted t o r) h) G)
    (hQ : ∀ a, Q a g) : Keeps D note I ok calm t p Q g := by
  induction hp with
  | ret a => exact hQ a
  | call o k ho _ ih =>
    refine ⟨hcalm, fun s h G hI hothers hG choice r s' hs hok => ⟨g, ?_, ih r⟩⟩
    rw [← hG, Function.update_eq_self]
    exact hact o ho s h G hI hothers hG choice r s' hs hok

theorem keeps_op {o : Op} {Q : Ans o → γ → Prop} (hcalm : calm g)
    (hact : ∀ s h G, I s h G → (∀ u, calm (G u)) → G t = g → ∀ choice r s', D.act o choice s = some (r, s') →
      ok s h t o r → ∃ g', I s' (note (.acted t o r) h) (Function.update G t g') ∧ Q r g') :
    Keeps D note I ok calm t (.op o) Q g := ⟨hcalm, hact⟩

variable {rest : Local → γ} {P P' : Pool ι Op Ans Mem Call Ret Local Seen}

/-- A weight summed over the threads changes by that of the thread that moves. -/
theorem sum_update [Fintype ι] (weight : γ → ℕ) (G : ι → γ) (t : ι) (g : γ) :
    ∑ u, weight (Function.update G t g u) + weight (G t) = ∑ u, weight (G u) + weight g := by
  have hnew := Finset.add_sum_erase Finset.univ (fun u => weight (Function.update G t g u)) (Finset.mem_univ t)
  have hold := Finset.add_sum_erase Finset.univ (fun u => weight (G u)) (Finset.mem_univ t)
  have hrest : ∑ u ∈ Finset.univ.erase t, weight (Function.update G t g u) = ∑ u ∈ Finset.univ.erase t, weight (G u) := by
    refine Finset.sum_congr rfl fun u hu => ?_
    rw [Function.update_of_ne (Finset.ne_of_mem_erase hu)]
  simp only [Function.update_self] at hnew
  omega

/-- A thread that has moved and keeps the invariant leaves the pool good. -/
theorem good_resume {G : ι → γ} {l : Local} {c : Call} {p : Prog Op Ans (Ret c)} (hrest : ∀ l, calm (rest l))
    (hI : I P.mem P.seen (Function.update G t g)) (hcalm : ∀ u, calm (G u))
    (hp : Keeps D note I ok calm t p (Returns D note I rest t l c) g)
    (hothers : ∀ u, u ≠ t → match P.thread u with
      | .idle l => G u = rest l
      | .busy l c p => Keeps D note I ok calm u p (Returns D note I rest u l c) (G u)) :
    Good D note I ok calm rest (resume D note t l c p P) := by
  have hupdate : ∀ g, calm g → ∀ u, calm (Function.update G t g u) := by
    intro g hg u
    by_cases hu : u = t
    · subst hu
      rwa [Function.update_self]
    · rw [Function.update_of_ne hu]
      exact hcalm u
  cases p with
  | ret v =>
    refine ⟨Function.update G t (rest (D.after c v l)), ?_, hupdate _ (hrest _), fun u => ?_⟩
    · have hreturn := hp P.mem P.seen _ hI (Function.update_self ..)
      rwa [Function.update_idem] at hreturn
    · by_cases hu : u = t
      · subst hu
        simp [resume]
      · simpa [resume, hu] using hothers u hu
  | call o k =>
    refine ⟨Function.update G t g, hI, hupdate _ hp.1, fun u => ?_⟩
    by_cases hu : u = t
    · subst hu
      simpa [resume] using hp
    · simpa [resume, hu] using hothers u hu

/-- One step of any thread. -/
theorem good_step (hrest : ∀ l, calm (rest l)) (hcalls : KeepsCalls D note I ok calm rest)
    (hgood : Good D note I ok calm rest P) (e : Event ι Choice Call) (hok : Meets D ok P e)
    (hs : step D note P e = some P') : Good D note I ok calm rest P' := by
  obtain ⟨G, hI, hcalm, hthreads⟩ := hgood
  cases e with
  | call t c fuel =>
    simp only [step] at hs
    split at hs
    case h_1 l hl =>
      split at hs
      case isTrue hmay =>
        obtain rfl := Option.some.inj hs
        have hidle := hthreads t
        simp only [hl] at hidle
        obtain ⟨g', hI', hbody⟩ := hcalls t c l P.mem P.seen G hI hcalm hidle hmay
        exact good_resume (P := { P with seen := note (.called t c) P.seen }) hrest hI' hcalm (hbody fuel)
          fun u _ => hthreads u
      case isFalse => cases hs
    case h_2 => cases hs
  | act t choice =>
    simp only [step] at hs
    split at hs
    case h_1 l c o k hl =>
      split at hs
      case h_1 r m hact =>
        obtain rfl := Option.some.inj hs
        have hkeeps := hthreads t
        simp only [hl] at hkeeps
        obtain ⟨g', hI', hk⟩ := hkeeps.2 P.mem P.seen G hI hcalm rfl choice r m hact (hok l c o k r m hl hact)
        exact good_resume (P := { P with mem := m, seen := note (.acted t o r) P.seen }) hrest hI' hcalm hk
          fun u _ => hthreads u
      case h_2 => cases hs
    case h_2 => cases hs

/-- The invariant holds in every pool that is reached. -/
theorem good_reach {P₀ : Pool ι Op Ans Mem Call Ret Local Seen} (hrest : ∀ l, calm (rest l))
    (hcalls : KeepsCalls D note I ok calm rest) (hgood : Good D note I ok calm rest P₀) (h : Reach D note ok P₀ P) :
    Good D note I ok calm rest P := by
  induction h with
  | start => exact hgood
  | step e _ hok hs ih => exact good_step hrest hcalls ih e hok hs

/-- A pool whose threads are all at rest. -/
theorem good_idle {s : Mem} {h : Seen} {l : Local} (hrest : ∀ l, calm (rest l)) (hI : I s h fun _ => rest l) :
    Good D note I ok calm rest ⟨s, fun _ => .idle l, h⟩ :=
  ⟨fun _ => rest l, hI, fun _ => hrest l, fun _ => rfl⟩

end Keeps

section Remember

/-- The same threads over a memory that also remembers what it was before its last operation. -/
def Code.remember (D : Code ι Op Ans Choice Mem Call Ret Local) : Code ι Op Ans Choice (Mem × Mem) Call Ret Local where
  act o c s := (D.act o c s.1).map fun r => (r.1, r.2, s.1)
  may t c l s := D.may t c l s.1
  body := D.body
  after := D.after

def Pool.remember (P : Pool ι Op Ans Mem Call Ret Local Seen) (before : Mem) : Pool ι Op Ans (Mem × Mem) Call Ret Local Seen :=
  ⟨(P.mem, before), P.thread, P.seen⟩

variable {D note}

theorem resume_remember (t : ι) (l : Local) (c : Call) (p : Prog Op Ans (Ret c)) (P : Pool ι Op Ans Mem Call Ret Local Seen)
    (before : Mem) : resume D.remember note t l c p (P.remember before) = (resume D note t l c p P).remember before := by
  cases p <;> rfl

/-- A step goes on in the remembering threads; what they then remember is the memory before it, unless it has changed
nothing. -/
theorem step_remember {P P' : Pool ι Op Ans Mem Call Ret Local Seen} {e : Event ι Choice Call} (before : Mem)
    (h : step D note P e = some P') :
    ∃ before', step D.remember note (P.remember before) e = some (P'.remember before') ∧
      (P'.mem = P.mem ∨ before' = P.mem) := by
  cases e with
  | call t c fuel =>
    simp only [step] at h
    split at h
    case h_1 l hl =>
      split at h
      case isTrue hmay =>
        obtain rfl := Option.some.inj h
        refine ⟨before, ?_, Or.inl (resume_mem ..)⟩
        have hmay' : D.remember.may t c l (P.remember before).mem = true := hmay
        have hl' : (P.remember before).thread t = .idle l := hl
        simp only [step, hl', hmay', if_true]
        exact congrArg some (resume_remember t l c (D.body c l fuel) { P with seen := note (.called t c) P.seen } before)
      case isFalse => cases h
    case h_2 => cases h
  | act t choice =>
    simp only [step] at h
    split at h
    case h_1 l c o k hl =>
      split at h
      case h_1 r m hact =>
        obtain rfl := Option.some.inj h
        refine ⟨P.mem, ?_, Or.inr rfl⟩
        have hl' : (P.remember before).thread t = .busy l c (.call o k) := hl
        have hact' : D.remember.act o choice (P.remember before).mem = some (r, m, P.mem) := by
          simp only [Code.remember, Pool.remember, hact, Option.map_some]
        simp only [step, hl', hact']
        exact congrArg some
          (resume_remember t l c (k r) { P with mem := m, seen := note (.acted t o r) P.seen } P.mem)
      case h_2 => cases h
    case h_2 => cases h

end Remember

end Threads
