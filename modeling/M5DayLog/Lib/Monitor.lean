import M5DayLog.Lib.Threads

/-! Monitors. Every call of a component takes one lock, runs its body and gives the lock back; where there is no lock yet,
one of the threads may make it. In whatever order the threads move, the component is as if the calls had been made one after
the other, in the order in which they return, and at most one further body had been begun. -/

namespace Monitor

open Threads

/-- The lock, with the call that holds it. -/
inductive Lock (Call : Type)
  | absent
  | free
  | held (c : Call)

def Lock.present {Call : Type} : Lock Call → Bool
  | absent => false
  | _ => true

namespace Lock

variable {Call : Type} (c : Call)

theorem held_ne_absent : held c ≠ absent := fun h => by cases h

theorem free_ne_held : free ≠ held c := fun h => by cases h

theorem absent_ne_held : absent ≠ held c := fun h => by cases h

end Lock

structure Mem (Call State : Type) where
  lock : Lock Call
  state : State

inductive LockOp (Op Call : Type)
  | present
  | make
  | take (c : Call)
  | give
  | inner (o : Op)

abbrev LockOp.Ans {Op Call : Type} (Ans : Op → Type) : LockOp Op Call → Type
  | present | make | take _ => Bool
  | give => Unit
  | inner o => Ans o

variable {ι Op : Type} {Ans : Op → Type} {State Fault Call : Type} {Ret : Call → Type}

section Sequence

variable (D : Device Op Ans State Fault)

/-- The program goes from one point to another. -/
inductive Steps {α : Type} (p : Prog Op Ans α) (s : State) : Prog Op Ans α → State → Prop
  | refl : Steps p s p s
  | step {o : Op} {k : Ans o → Prog Op Ans α} {s' : State} (h : Steps p s (.call o k) s') (f : Option Fault) :
      Steps p s (k (D.act o f s').1) (D.act o f s').2

/-- What has been shown of a program holds at each point that it goes to. -/
theorem wp_steps {D : Device Op Ans State Fault} {α : Type} {p q : Prog Op Ans α} {C : State → Prop}
    {Q : α → State → Prop} {s s' : State} (h : Steps D p s q s') (hp : D.wp (fun _ => True) C p Q s) :
    D.wp (fun _ => True) C q Q s' := by
  induction h with
  | refl => exact hp
  | step _ f ih => exact ih.2 f fun _ _ => trivial

/-- What has been shown of a program holds of the state at each of its points. -/
theorem wp_now {D : Device Op Ans State Fault} {α : Type} {p q : Prog Op Ans α} {C : State → Prop}
    {Q : α → State → Prop} {s s' : State} (h : Steps D p s q s') (hcut : ∀ o s, D.cut o 0 s = s)
    (hp : D.wp (fun _ => True) C p Q s) (hQ : ∀ v t, Q v t → C t) : C s' := by
  have hq := wp_steps h hp
  cases q with
  | ret v => exact hQ v s' hq
  | call o k => exact hcut o s' ▸ hq.1 0

theorem Steps.head {D : Device Op Ans State Fault} {α : Type} {o : Op} {k : Ans o → Prog Op Ans α} {q : Prog Op Ans α}
    {s s' : State} (f : Option Fault) (h : Steps D (k (D.act o f s).1) (D.act o f s).2 q s') : Steps D (.call o k) s q s' := by
  induction h with
  | refl => exact .step .refl f
  | step _ g ih => exact ih.step g

/-- A run that returns goes through the program. -/
theorem steps_of_run {D : Device Op Ans State Fault} {α : Type} {a : α} {s' : State} (p : Prog Op Ans α)
    (es : List (Event Fault)) (s : State) (h : D.run p es s = .done a s') : Steps D p s (.ret a) s' := by
  induction p generalizing es s with
  | ret b =>
    cases es <;> cases h <;> exact .refl
  | call o k ih =>
    rcases es with _ | ⟨f | n, es⟩
    · exact .head none (ih _ _ _ h)
    · exact .head f (ih _ _ _ h)
    · cases h

variable (body : (c : Call) → Prog Op Ans (Ret c)) (skip : (c : Call) → Ret c → Prop)

/-- The state after calls that were made one after the other, of which some may have been skipped; the last return comes
first. -/
inductive Serial (s₀ : State) : List ((c : Call) × Ret c) → State → Prop
  | start : Serial s₀ [] s₀
  | ran {hist : List ((c : Call) × Ret c)} {s s' : State} {c : Call} {v : Ret c} (h : Serial s₀ hist s)
      (hs : Steps D (body c) s (.ret v) s') : Serial s₀ (⟨c, v⟩ :: hist) s'
  | passed {hist : List ((c : Call) × Ret c)} {s : State} {c : Call} {v : Ret c} (h : Serial s₀ hist s)
      (hv : skip c v) : Serial s₀ (⟨c, v⟩ :: hist) s

variable {D body skip} {s₀ : State} {J : List ((c : Call) × Ret c) → State → Prop}

/-- What every call keeps holds after every sequence of calls. -/
theorem Serial.keeps (hstart : J [] s₀)
    (hbody : ∀ c hist s, J hist s → D.wp (fun _ => True) (fun _ => True) (body c) (fun v s' => J (⟨c, v⟩ :: hist) s') s)
    (hpass : ∀ c v hist s, skip c v → J hist s → J (⟨c, v⟩ :: hist) s)
    {hist : List ((c : Call) × Ret c)} {s : State} (h : Serial D body skip s₀ hist s) : J hist s := by
  induction h with
  | start => exact hstart
  | ran _ hs ih => exact wp_steps hs (hbody _ _ _ ih)
  | passed _ hv ih => exact hpass _ _ _ _ hv ih

end Sequence

/-- A component: its operations, the bodies of its calls, what a call answers where there is no lock or where the lock is not
given to it, and the thread whose calls may make the lock. -/
structure Component (ι Op : Type) (Ans : Op → Type) (State Fault Call : Type) (Ret : Call → Type) where
  device : Device Op Ans State Fault
  body : (c : Call) → Prog Op Ans (Ret c)
  maker : ι
  makes : Call → Bool
  absent : (c : Call) → Ret c
  refused : (c : Call) → Ret c

/-- The answers of a call that has no body to run. -/
def Component.Skips (M : Component ι Op Ans State Fault Call Ret) (c : Call) (v : Ret c) : Prop :=
  v = M.absent c ∨ v = M.refused c

/-- The calls of the component one after the other. -/
abbrev Component.Serial (M : Component ι Op Ans State Fault Call Ret) (s₀ : State) :
    List ((c : Call) × Ret c) → State → Prop :=
  Monitor.Serial M.device M.body M.Skips s₀

section Calls

variable [DecidableEq ι] (M : Component ι Op Ans State Fault Call Ret)

/-- The body under the lock. -/
def guarded (c : Call) : Prog (LockOp Op Call) (LockOp.Ans Ans) (Ret c) := do
  let taken ← @Prog.op _ (LockOp.Ans Ans) (.take c)
  if taken then
    let v ← (M.body c).lift LockOp.inner fun _ r => r
    let _ ← @Prog.op _ (LockOp.Ans Ans) .give
    return v
  else return M.refused c

def callBody (c : Call) : Prog (LockOp Op Call) (LockOp.Ans Ans) (Ret c) := do
  let present ← @Prog.op _ (LockOp.Ans Ans) .present
  if present then guarded M c
  else if M.makes c then
    let made ← @Prog.op _ (LockOp.Ans Ans) .make
    if made then guarded M c else return M.absent c
  else return M.absent c

/-- A lock that is held keeps a thread waiting, unless the wait is given up. -/
def act : (o : LockOp Op Call) → Option Fault → Mem Call State → Option (o.Ans Ans × Mem Call State)
  | .present, _, m => some (m.lock.present, m)
  | .make, some _, m => some (false, m)
  | .make, none, m => some (true, { m with lock := .free })
  | .take _, some _, m => some (false, m)
  | .take c, none, m =>
    match m.lock with
    | .free => some (true, { m with lock := .held c })
    | _ => none
  | .give, _, m => some ((), { m with lock := .free })
  | .inner o, f, m => some ((M.device.act o f m.state).1, { m with state := (M.device.act o f m.state).2 })

def code : Code ι (LockOp Op Call) (LockOp.Ans Ans) (Option Fault) (Mem Call State) Call Ret Unit where
  act := act M
  may t c _ _ := !M.makes c || t = M.maker
  body c _ _ := callBody M c
  after _ _ l := l

/-- The record of the returns. -/
def note : Note ι (LockOp Op Call) (LockOp.Ans Ans) Call Ret → List ((c : Call) × Ret c) → List ((c : Call) × Ret c)
  | .returned _ c v, hist => ⟨c, v⟩ :: hist
  | _, hist => hist

/-- The threads over the component, all at rest. -/
def idle (lock : Lock Call) (s₀ : State) :
    Pool ι (LockOp Op Call) (LockOp.Ans Ans) (Mem Call State) Call Ret Unit (List ((c : Call) × Ret c)) :=
  ⟨⟨lock, s₀⟩, fun _ => .idle (), []⟩

/-- The pools that the threads reach from there. -/
abbrev Reached (lock : Lock Call) (s₀ : State)
    (P : Pool ι (LockOp Op Call) (LockOp.Ans Ans) (Mem Call State) Call Ret Unit (List ((c : Call) × Ret c))) : Prop :=
  Reach (code M) note (fun _ _ _ _ _ => True) (idle lock s₀) P

end Calls

section Order

variable [DecidableEq ι] {M : Component ι Op Ans State Fault Call Ret} {s₀ : State}

/-- Where a thread stands: outside, about to make the lock, in a body with the rest of it to run, or past it with its answer. -/
inductive Place (Op : Type) (Ans : Op → Type) (Call : Type) (Ret : Call → Type)
  | out
  | making
  | inside (c : Call) (p : Prog Op Ans (Ret c))
  | past (c : Call) (v : Ret c)

namespace Place

def Calm : Place Op Ans Call Ret → Prop
  | past _ _ => False
  | _ => True

/-- The body that a thread has begun and whose return is still to come, with what is left of it. -/
def begun : Place Op Ans Call Ret → Option ((c : Call) × Prog Op Ans (Ret c))
  | inside c p => some ⟨c, p⟩
  | past c v => some ⟨c, .ret v⟩
  | _ => none

def Inside (c : Call) : Place Op Ans Call Ret → Prop
  | inside c' _ => c' = c
  | _ => False

end Place

variable (M s₀) in
/-- The lock is held by the one thread that is in a body, and the calls that have returned lead to the state in which that
body was begun. -/
structure Orderly (m : Mem Call State) (hist : List ((c : Call) × Ret c)) (G : ι → Place Op Ans Call Ret) : Prop where
  one : ∀ t u, (G t).begun.isSome = true → (G u).begun.isSome = true → t = u
  held : ∀ c, m.lock = .held c ↔ ∃ t, (G t).Inside c
  making : ∀ t, G t = .making → t = M.maker ∧ m.lock = .absent
  shut : (∀ t, (G t).begun = none) → M.Serial s₀ hist m.state
  opened : ∀ t c p, (G t).begun = some ⟨c, p⟩ → ∃ s, M.Serial s₀ hist s ∧ Steps M.device (M.body c) s p m.state

variable {m : Mem Call State} {hist : List ((c : Call) × Ret c)} {G : ι → Place Op Ans Call Ret} {t : ι}

/-- A thread that is in no body moves to another place that is in none, and the component stays as it is. -/
theorem Orderly.move (h : Orderly M s₀ m hist G) {g : Place Op Ans Call Ret} {m' : Mem Call State} (ht : (G t).begun = none)
    (hg : g.begun = none) (hstate : m'.state = m.state) (hheld : ∀ c, m'.lock = .held c ↔ m.lock = .held c)
    (hmaking : ∀ u, Function.update G t g u = .making → u = M.maker ∧ m'.lock = .absent) :
    Orderly M s₀ m' hist (Function.update G t g) := by
  have hopen : ∀ u, (Function.update G t g u).begun = (G u).begun := fun u => by
    rcases eq_or_ne u t with rfl | hu
    · rw [Function.update_self, hg, ht]
    · rw [Function.update_of_ne hu]
  have hinside : ∀ c u, (Function.update G t g u).Inside c ↔ (G u).Inside c := fun c u => by
    have hnone : ∀ {g : Place Op Ans Call Ret}, g.begun = none → ¬ g.Inside c := fun {g} hg => by
      cases g <;> first | exact id | cases hg
    rcases eq_or_ne u t with rfl | hu
    · rw [Function.update_self]
      exact iff_of_false (hnone hg) (hnone ht)
    · rw [Function.update_of_ne hu]
  refine ⟨fun u v => ?_, ?_, hmaking, fun hall => ?_, fun u c p => ?_⟩
  · rw [hopen, hopen]
    exact h.one u v
  · intro c
    rw [hheld, h.held]
    exact exists_congr fun u => (hinside c u).symm
  · rw [hstate]
    exact h.shut fun u => hopen u ▸ hall u
  · rw [hopen, hstate]
    exact h.opened u c p

/-- A call that returns without a body is one more call of the record. -/
theorem Orderly.pass (h : Orderly M s₀ m hist G) (hg : (G t).begun = none) {c : Call} {v : Ret c}
    (hv : M.Skips c v) : Orderly M s₀ m (⟨c, v⟩ :: hist) (Function.update G t .out) := by
  have hmove : Orderly M s₀ m hist (Function.update G t .out) := by
    refine h.move hg rfl rfl (fun _ => Iff.rfl) fun u hu => ?_
    rcases eq_or_ne u t with rfl | hne
    · rw [Function.update_self] at hu
      cases hu
    · rw [Function.update_of_ne hne] at hu
      exact h.making u hu
  refine ⟨hmove.one, hmove.held, hmove.making, fun hall => (hmove.shut hall).passed hv, fun u c' p hu => ?_⟩
  obtain ⟨s, hs, hsteps⟩ := hmove.opened u c' p hu
  exact ⟨s, hs.passed hv, hsteps⟩

omit [DecidableEq ι] in
/-- Nobody else is in a body while a thread is. -/
theorem Orderly.others (h : Orderly M s₀ m hist G) {x : (c : Call) × Prog Op Ans (Ret c)} (ht : (G t).begun = some x) {u : ι}
    (hu : u ≠ t) : (G u).begun = none := by
  by_contra hne
  exact hu (h.one u t (Option.isSome_iff_ne_none.mpr hne) (by rw [ht]; rfl))

/-- The thread in the body moves on. -/
theorem Orderly.advance (h : Orderly M s₀ m hist G) {c : Call} {p q : Prog Op Ans (Ret c)} {g : Place Op Ans Call Ret}
    {m' : Mem Call State} (ht : (G t).begun = some ⟨c, p⟩) (hg : g.begun = some ⟨c, q⟩)
    (hlock : ∀ c', m'.lock = .held c' ↔ g.Inside c') (hmade : m.lock ≠ .absent)
    (hstep : ∀ s, Steps M.device (M.body c) s p m.state → Steps M.device (M.body c) s q m'.state) :
    Orderly M s₀ m' hist (Function.update G t g) := by
  have hother : ∀ u, (Function.update G t g u).begun.isSome = true → u = t := fun u hu => by
    by_contra hne
    rw [Function.update_of_ne hne, h.others ht hne] at hu
    cases hu
  refine ⟨fun u v hu hv => (hother u hu).trans (hother v hv).symm, ?_, fun u hu => ?_, fun hall => ?_, fun u c' q' hu => ?_⟩
  · intro c'
    rw [hlock]
    constructor
    · intro hin
      exact ⟨t, by rwa [Function.update_self]⟩
    · rintro ⟨u, hu⟩
      obtain rfl : u = t := hother u (by
        generalize hx : Function.update G t g u = x at hu ⊢
        cases x <;> first | rfl | exact hu.elim)
      rwa [Function.update_self] at hu
  · rcases eq_or_ne u t with rfl | hne
    · rw [Function.update_self] at hu
      rw [hu] at hg
      cases hg
    · rw [Function.update_of_ne hne] at hu
      exact absurd (h.making u hu).2 hmade
  · have := hall t
    rw [Function.update_self, hg] at this
    cases this
  · obtain rfl : u = t := hother u (by rw [hu]; rfl)
    rw [Function.update_self, hg] at hu
    cases hu
    obtain ⟨s, hs, hsteps⟩ := h.opened u c p ht
    exact ⟨s, hs, hstep s hsteps⟩

theorem begun_of_calm {g : Place Op Ans Call Ret} (hg : g.Calm) (hin : ∀ c, ¬ g.Inside c) : g.begun = none := by
  cases g with
  | out | making => rfl
  | inside c p => exact absurd rfl (hin c)
  | past c v => exact hg.elim

/-- A thread takes the lock and is at the start of its body. -/
theorem Orderly.enter (h : Orderly M s₀ m hist G) (hfree : m.lock = .free) (hcalm : ∀ u, (G u).Calm) (c : Call) :
    Orderly M s₀ { m with lock := .held c } hist (Function.update G t (.inside c (M.body c))) := by
  have hnone : ∀ u, (G u).begun = none := fun u => begun_of_calm (hcalm u) fun c' hin => by
    have := (h.held c').mpr ⟨u, hin⟩
    rw [hfree] at this
    cases this
  have hother : ∀ u, (Function.update G t (.inside c (M.body c)) u).begun.isSome = true → u = t := fun u hu => by
    by_contra hne
    rw [Function.update_of_ne hne, hnone u] at hu
    cases hu
  refine ⟨fun u v hu hv => (hother u hu).trans (hother v hv).symm, fun c' => ⟨fun hc' => ⟨t, ?_⟩, ?_⟩, fun u hu => ?_,
    fun hall => ?_, fun u c' p hu => ?_⟩
  · rw [Function.update_self]
    cases hc'
    rfl
  · rintro ⟨u, hu⟩
    obtain rfl : u = t := hother u (by
      generalize Function.update G t (Place.inside c (M.body c)) u = x at hu ⊢
      cases x <;> first | rfl | exact hu.elim)
    rw [Function.update_self] at hu
    exact congrArg Lock.held hu
  · rcases eq_or_ne u t with rfl | hne
    · rw [Function.update_self] at hu
      cases hu
    · rw [Function.update_of_ne hne] at hu
      have := (h.making u hu).2
      rw [hfree] at this
      cases this
  · have := hall t
    rw [Function.update_self] at this
    cases this
  · obtain rfl : u = t := hother u (by rw [hu]; rfl)
    rw [Function.update_self] at hu
    cases hu
    exact ⟨m.state, h.shut hnone, .refl⟩

/-- The call returns from its body. -/
theorem Orderly.finish (h : Orderly M s₀ m hist G) {c : Call} {v : Ret c} (ht : G t = .past c v) :
    Orderly M s₀ m (⟨c, v⟩ :: hist) (Function.update G t .out) := by
  have hopen : (G t).begun = some ⟨c, .ret v⟩ := by rw [ht]; rfl
  have hnone : ∀ u, (Function.update G t .out u).begun = none := fun u => by
    rcases eq_or_ne u t with rfl | hne
    · rw [Function.update_self]
      rfl
    · rw [Function.update_of_ne hne]
      exact h.others hopen hne
  have hout : ∀ c' u, ¬ (Function.update G t .out u).Inside c' := fun c' u hu => by
    have := hnone u
    generalize Function.update G t .out u = x at this hu
    cases x <;> first | exact hu | cases this
  refine ⟨fun u _ hu _ => ?_, ?_, fun u hu => ?_, fun _ => ?_, fun u c' p hu => ?_⟩
  · rw [hnone u] at hu
    cases hu
  · intro c'
    rw [h.held]
    refine iff_of_false ?_ fun ⟨u, hu⟩ => hout c' u hu
    rintro ⟨u, hu⟩
    rcases eq_or_ne u t with rfl | hne
    · rw [ht] at hu
      exact hu
    · have := hout c' u
      rw [Function.update_of_ne hne] at this
      exact this hu
  · rcases eq_or_ne u t with rfl | hne
    · rw [Function.update_self] at hu
      cases hu
    · rw [Function.update_of_ne hne] at hu
      exact h.making u hu
  · obtain ⟨s, hs, hsteps⟩ := h.opened t c _ hopen
    exact hs.ran hsteps
  · rw [hnone u] at hu
    cases hu

end Order

section Runs

variable [DecidableEq ι] {M : Component ι Op Ans State Fault Call Ret} {s₀ : State} {t : ι}

/-- How a call may end: out of its body, or without one. -/
def Ends (M : Component ι Op Ans State Fault Call Ret) (c : Call) (v : Ret c) (g : Place Op Ans Call Ret) : Prop :=
  g = .past c v ∨ g.begun = none ∧ M.Skips c v

abbrev KeepsOrder (M : Component ι Op Ans State Fault Call Ret) (s₀ : State) (t : ι) {α : Type}
    (p : Prog (LockOp Op Call) (LockOp.Ans Ans) α) (Q : α → Place Op Ans Call Ret → Prop) (g : Place Op Ans Call Ret) : Prop :=
  Keeps (code M) note (fun m hist G => Orderly M s₀ m hist G) (fun _ _ _ _ _ => True) Place.Calm t p Q g

theorem keeps_body (c : Call) (p : Prog Op Ans (Ret c)) :
    KeepsOrder M s₀ t (p.lift LockOp.inner (fun _ r => r) >>= fun v => Prog.op .give >>= fun _ => return v) (Ends M c)
      (.inside c p) := by
  have hmade : ∀ {m : Mem Call State} {hist G} {q : Prog Op Ans (Ret c)}, Orderly M s₀ m hist G → G t = .inside c q →
      m.lock = .held c := fun hI hG => (hI.held c).mpr ⟨t, by rw [hG]; rfl⟩
  induction p with
  | ret v =>
    refine ⟨trivial, fun m hist G hI _ hG f r m' hact _ => ⟨.past c v, ?_, Or.inl rfl⟩⟩
    cases hact
    exact hI.advance (by rw [hG]; rfl) rfl (fun c' => iff_of_false (Lock.free_ne_held c') id)
      (by rw [hmade hI hG]; exact Lock.held_ne_absent c)
      fun s hs => hs
  | call o k ih =>
    refine ⟨trivial, fun m hist G hI _ hG f r m' hact _ => ?_⟩
    have hheld := hmade hI hG
    cases hact
    refine ⟨.inside c (k (M.device.act o f m.state).1), ?_, ih _⟩
    have hlock : ∀ c', m.lock = .held c' ↔ c = c' := fun c' =>
      ⟨fun hc' => Lock.held.inj (hheld.symm.trans hc'), fun hc' => hheld.trans (congrArg Lock.held hc')⟩
    exact hI.advance (by rw [hG]; rfl) rfl hlock (by rw [hheld]; exact Lock.held_ne_absent c) fun s hs => hs.step f

theorem keeps_guarded (c : Call) : KeepsOrder M s₀ t (guarded M c) (Ends M c) .out := by
  refine ⟨trivial, fun m hist G hI hcalm hG f r m' hact _ => ?_⟩
  cases f with
  | some f =>
    cases hact
    refine ⟨.out, ?_, Or.inr ⟨rfl, Or.inr rfl⟩⟩
    rwa [← hG, Function.update_eq_self]
  | none =>
    simp only [code, act] at hact
    split at hact
    case h_1 hfree =>
      cases hact
      exact ⟨.inside c (M.body c), hI.enter hfree hcalm c, keeps_body c _⟩
    case h_2 => cases hact

theorem keeps_making (hmaker : t = M.maker) (c : Call) :
    KeepsOrder M s₀ t (do
      let made ← @Prog.op _ (LockOp.Ans Ans) .make
      if made then guarded M c else return M.absent c) (Ends M c) .making := by
  refine ⟨trivial, fun m hist G hI _ hG f r m' hact _ => ?_⟩
  cases f with
  | some f =>
    cases hact
    refine ⟨.making, ?_, Or.inr ⟨rfl, Or.inl rfl⟩⟩
    rwa [← hG, Function.update_eq_self]
  | none =>
    cases hact
    refine ⟨.out, ?_, keeps_guarded c⟩
    have hlock := (hI.making t hG).2
    refine hI.move (by rw [hG]; rfl) rfl rfl (fun c' => ?_) fun u hu => ?_
    · rw [hlock]
      exact iff_of_false (Lock.free_ne_held c') (Lock.absent_ne_held c')
    · rcases eq_or_ne u t with rfl | hne
      · rw [Function.update_self] at hu
        cases hu
      · rw [Function.update_of_ne hne] at hu
        exact absurd ((hI.making u hu).1.trans hmaker.symm) hne

/-- What a call does once it knows whether there is a lock. -/
def entered (M : Component ι Op Ans State Fault Call Ret) (c : Call) (present : Bool) :
    Prog (LockOp Op Call) (LockOp.Ans Ans) (Ret c) :=
  if present then guarded M c
  else if M.makes c then do
    let made ← @Prog.op _ (LockOp.Ans Ans) .make
    if made then guarded M c else return M.absent c
  else return M.absent c

theorem keeps_callBody (c : Call) (hmay : M.makes c = true → t = M.maker) : KeepsOrder M s₀ t (callBody M c) (Ends M c) .out := by
  refine ⟨trivial, fun m hist G hI _ hG f r m' hact _ => ?_⟩
  change ∃ g', _ ∧ KeepsOrder M s₀ t (entered M c r) (Ends M c) g'
  cases hact
  have hstay : Orderly M s₀ m hist (Function.update G t .out) := by rwa [← hG, Function.update_eq_self]
  by_cases hlock : m.lock = .absent
  · rw [show m.lock.present = false by rw [hlock]; rfl, entered, if_neg Bool.false_ne_true]
    by_cases hmakes : M.makes c = true
    · refine ⟨.making, hI.move (by rw [hG]; rfl) rfl rfl (fun _ => Iff.rfl) fun u hu => ?_, ?_⟩
      · rcases eq_or_ne u t with rfl | hne
        · exact ⟨hmay hmakes, hlock⟩
        · rw [Function.update_of_ne hne] at hu
          exact hI.making u hu
      · rw [if_pos hmakes]
        exact keeps_making (hmay hmakes) c
    · refine ⟨.out, hstay, ?_⟩
      rw [if_neg hmakes]
      exact Or.inr ⟨rfl, Or.inl rfl⟩
  · have hpresent : m.lock.present = true := by
      cases h : m.lock with
      | absent => exact absurd h hlock
      | free | held => rfl
    rw [hpresent, entered, if_pos rfl]
    exact ⟨.out, hstay, keeps_guarded c⟩

theorem keepsCalls : KeepsCalls (code M) note (fun m hist G => Orderly M s₀ m hist G) (fun _ _ _ _ _ => True) Place.Calm
    fun _ => .out := by
  intro t c l m hist G hI _ hG hmay
  have hstay : Orderly M s₀ m hist (Function.update G t .out) := by
    rw [← show G t = .out from hG, Function.update_eq_self]
    exact hI
  refine ⟨.out, hstay, fun fuel => ?_⟩
  have hmaker : M.makes c = true → t = M.maker := fun hmakes => by simpa [code, hmakes] using hmay
  refine keeps_mono (keeps_callBody c hmaker) fun v g hends m hist G hI hG => ?_
  rcases hends with rfl | ⟨hopen, hv⟩
  · exact hI.finish hG
  · exact hI.pass (by rw [hG]; exact hopen) hv

variable {lock : Lock Call}
variable {P : Pool ι (LockOp Op Call) (LockOp.Ans Ans) (Mem Call State) Call Ret Unit (List ((c : Call) × Ret c))}

/-- The calls that have returned account for the state, but for what the call that holds the lock has done so far. -/
theorem reached_serial (hlock : ∀ c, lock ≠ .held c) (h : Reached M lock s₀ P) :
    (∀ c, P.mem.lock = .held c → ∃ p s, M.Serial s₀ P.seen s ∧ Steps M.device (M.body c) s p P.mem.state) ∧
      ((∀ c, P.mem.lock ≠ .held c) → M.Serial s₀ P.seen P.mem.state) := by
  have hinit : Orderly M s₀ ⟨lock, s₀⟩ [] fun _ : ι => (.out : Place Op Ans Call Ret) :=
    ⟨fun _ _ h => by (cases h), fun c => iff_of_false (hlock c) fun ⟨_, h⟩ => h, fun _ h => by (cases h), fun _ => .start,
      fun _ _ _ h => by (cases h)⟩
  obtain ⟨G, hI, hcalm, -⟩ := good_reach (fun _ => trivial) keepsCalls (good_idle (fun _ => trivial) hinit) h
  refine ⟨fun c hheld => ?_, fun hnot => hI.shut fun t => begun_of_calm (hcalm t) fun c hin => hnot c ((hI.held c).mpr ⟨t, hin⟩)⟩
  obtain ⟨t, hin⟩ := (hI.held c).mp hheld
  generalize hg : G t = g at hin
  cases g with
  | inside c' p =>
    obtain rfl : c' = c := hin
    obtain ⟨s, hs, hsteps⟩ := hI.opened t c' p (by rw [hg]; rfl)
    exact ⟨p, s, hs, hsteps⟩
  | out | making | past => exact hin.elim

variable {J : List ((c : Call) × Ret c) → State → Prop} {K : Call → List ((c : Call) × Ret c) → State → Prop}

/-- `J` holds whenever the lock is not held, and `K` all along every call that holds it. -/
theorem reached_keeps (hlock : ∀ c, lock ≠ .held c) (hcut : ∀ o s, M.device.cut o 0 s = s) (hstart : J [] s₀)
    (hbody : ∀ c hist s, J hist s → M.device.wp (fun _ => True) (K c hist) (M.body c) (fun v s' => J (⟨c, v⟩ :: hist) s') s)
    (hpass : ∀ c v hist s, M.Skips c v → J hist s → J (⟨c, v⟩ :: hist) s)
    (hlast : ∀ c v hist s, J (⟨c, v⟩ :: hist) s → K c hist s) (h : Reached M lock s₀ P) :
    (∀ c, P.mem.lock = .held c → K c P.seen P.mem.state) ∧ ((∀ c, P.mem.lock ≠ .held c) → J P.seen P.mem.state) := by
  obtain ⟨hheld, hfree⟩ := reached_serial hlock h
  have hJ : ∀ {hist s}, M.Serial s₀ hist s → J hist s := fun hs =>
    hs.keeps hstart (fun c hist s hs => Device.wp_crash_mono _ (hbody c hist s hs) fun _ _ => trivial) hpass
  refine ⟨fun c hc => ?_, fun hnot => hJ (hfree hnot)⟩
  obtain ⟨p, s, hs, hsteps⟩ := hheld c hc
  exact wp_now hsteps hcut (hbody c P.seen s (hJ hs)) fun v t ht => hlast c v P.seen t ht

/-- A whole call while the other threads wait, under these faults. -/
theorem reached_call (h : Reached M lock s₀ P) (t : ι) (c : Call) (faults : List (Option Fault)) {v : Ret c}
    {rest : List (Option Fault)} {m : Mem Call State} (hidle : P.thread t = .idle ()) (hmay : (!M.makes c || decide (t = M.maker)) = true)
    (hrun : alone (act M) none (callBody M c) faults P.mem = some (v, rest, m)) :
    ∃ seen, Reached M lock s₀ ⟨m, Function.update P.thread t (.idle ()), seen⟩ := by
  have hbody : alone (code M).act none ((code M).body c () 0) faults P.mem = some (v, rest, m) := hrun
  exact reach_alone (fun _ _ _ _ => trivial) h hidle hmay hbody

end Runs

end Monitor
