import M5DayLog.Lib.Prog

/-! Machines in layers: programs over calls that a machine carries out by programs of its own. Their triples promise a crash
condition in every state reached and a postcondition at the return, in every run that has not lost its claim to them. -/

universe u v w

namespace Device

section Triples

variable {Op Op' : Type u} {Ans : Op → Type w} {Ans' : Op' → Type v} {State Fault α β : Type w}

/-- A machine that carries out each call by a program. In every state it reaches it keeps `crash`, until `excused` holds: that
is never taken back. -/
structure Layer (Op : Type u) (Ans : Op → Type w) (Op' : Type u) (Ans' : Op' → Type v) (State Fault : Type w) where
  device : Device Op' Ans' State Fault
  carry : (o : Op) → Prog Op' Ans' (Ans o)
  crash : State → Prop
  excused : State → Prop
  excused_act : ∀ o f s, excused s → excused (device.act o f s).2
  excused_cut : ∀ o n s, excused s → excused (device.cut o n s)

variable (L : Layer Op Ans Op' Ans' State Fault)

/-- A run of the program from a state in `P` keeps the crash condition and returns in `Q`, or is excused. -/
def Layer.Ensures (p : Prog Op Ans α) (P : State → Prop) (Q : α → State → Prop) : Prop :=
  ∀ s, P s → L.device.wp (fun _ => True) (fun s' => L.excused s' ∨ L.crash s') (p.interp L.carry)
    (fun a s' => L.excused s' ∨ Q a s') s

variable {L} {P R : State → Prop} {Q T : α → State → Prop} {S : β → State → Prop}

namespace Layer

theorem wp_excused (p : Prog Op' Ans' α) {s : State} (h : L.excused s) :
    L.device.wp (fun _ => True) (fun s' => L.excused s' ∨ L.crash s') p (fun a s' => L.excused s' ∨ Q a s') s := by
  induction p generalizing s with
  | ret a => exact .inl h
  | call o k ih => exact ⟨fun n => .inl (L.excused_cut o n s h), fun f _ => ih _ (L.excused_act o f s h)⟩

theorem ensures_ret {a : α} (h : ∀ s, P s → Q a s) : L.Ensures (.ret a) P Q := fun s hs => .inr (h s hs)

theorem ensures_bind {p : Prog Op Ans α} {f : α → Prog Op Ans β} (hp : L.Ensures p P Q)
    (hf : ∀ a, L.Ensures (f a) (Q a) S) : L.Ensures (p >>= f) P S := by
  intro s hs
  rw [Prog.interp_bind, wp_bind]
  apply wp_mono _ (hp s hs)
  intro a s' hs'
  cases hs' with
  | inl h => exact wp_excused _ h
  | inr h => exact hf a s' h

theorem ensures_mono {p : Prog Op Ans α} (hp : L.Ensures p R T) (hP : ∀ s, P s → R s)
    (hQ : ∀ a s, T a s → Q a s) : L.Ensures p P Q :=
  fun s hs => wp_mono _ (hp s (hP s hs)) fun a s' hs' => hs'.imp_right (hQ a s')

theorem ensures_op {o : Op} {Q : Ans o → State → Prop}
    (h : ∀ s, P s → L.device.wp (fun _ => True) (fun s' => L.excused s' ∨ L.crash s') (L.carry o)
      (fun a s' => L.excused s' ∨ Q a s') s) : L.Ensures (.op o) P Q := by
  intro s hs
  rw [Prog.op, Prog.interp, wp_bind]
  exact h s hs

/-- What no call takes back is kept beside the rest. -/
theorem ensures_and {p : Prog Op Ans α} {I : State → Prop} (hI : ∀ o f s, I s → I (L.device.act o f s).2)
    (hp : L.Ensures p P Q) : L.Ensures p (fun s => I s ∧ P s) (fun a s => I s ∧ Q a s) := by
  intro s hs
  have hkeep : ∀ (q : Prog Op' Ans' α) (s : State), I s → L.device.wp (fun _ => True) (fun _ => True) q (fun _ s' => I s') s := by
    intro q
    induction q with
    | ret a => exact fun s hs => hs
    | call o k ih => exact fun s hs => ⟨fun _ => trivial, fun f _ => ih _ _ (hI o f s hs)⟩
  apply wp_mono _ (wp_crash_mono _ (wp_and _ (hkeep _ s hs.1) (hp s hs.2)) _)
  · intro a s' hs'
    exact hs'.2.imp_right fun h => ⟨hs'.1, h⟩
  · exact fun s' hs' => hs'.2

/-- Every run keeps the promise, or is excused from it. -/
theorem Ensures.run {p : Prog Op Ans α} (h : L.Ensures p P Q) {s : State} (hs : P s) (es : List (Event Fault)) :
    (L.device.run (p.interp L.carry) es s).Sat (fun s' => L.excused s' ∨ L.crash s') fun a s' => L.excused s' ∨ Q a s' :=
  run_sat _ es (h s hs) fun _ _ _ _ => trivial

end Layer

end Triples

end Device
