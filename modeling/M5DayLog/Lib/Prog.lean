import Mathlib.Logic.Basic
import Mathlib.Data.List.Basic

/-! Programs that talk to a faulty device. A program is a tree of device operations; a device answers each
operation, either without a fault or under a chosen fault, and may lose power in the middle of one. `wp` is
the weakest precondition over all such runs: it asks for a postcondition at every return and a crash condition
at every moment at which power can go. -/

universe u v w

/-- A program over the operations `Op`: return, or call one operation and go on with its answer. -/
inductive Prog (Op : Type u) (Ans : Op → Type v) (α : Type w) : Type (max u v w)
  | ret (a : α) : Prog Op Ans α
  | call (o : Op) (k : Ans o → Prog Op Ans α) : Prog Op Ans α

namespace Prog

variable {Op : Type u} {Ans : Op → Type v} {α β γ : Type w}

def bind : Prog Op Ans α → (α → Prog Op Ans β) → Prog Op Ans β
  | ret a, f => f a
  | call o k, f => call o fun r => (k r).bind f

instance : Monad (Prog Op Ans) where
  pure := ret
  bind := bind

/-- One operation as a program. -/
def op (o : Op) : Prog Op Ans (Ans o) := call o ret

@[simp] theorem pure_eq (a : α) : (pure a : Prog Op Ans α) = ret a := rfl

@[simp] theorem bind_ret (a : α) (f : α → Prog Op Ans β) : ret a >>= f = f a := rfl

@[simp] theorem bind_call (o : Op) (k : Ans o → Prog Op Ans α) (f : α → Prog Op Ans β) :
    call o k >>= f = call o fun r => k r >>= f := rfl

@[simp] theorem bind_op {Ans : Op → Type w} (o : Op) (f : Ans o → Prog Op Ans β) :
    op o >>= f = call o f := rfl

theorem bind_assoc (p : Prog Op Ans α) (f : α → Prog Op Ans β) (g : β → Prog Op Ans γ) :
    p >>= f >>= g = p >>= fun a => f a >>= g := by
  induction p with
  | ret a => rfl
  | call o k ih =>
    simp only [bind_call]
    congr 1
    funext r
    exact ih r

theorem bind_ret_right (p : Prog Op Ans α) : p >>= ret = p := by
  induction p with
  | ret a => rfl
  | call o k ih =>
    rw [bind_call]
    congr 1
    funext r
    exact ih r

/-- The program over the operations `inj o` of a larger machine. -/
def lift {Op' : Type u} {Ans' : Op' → Type v} (inj : Op → Op') (ans : ∀ o, Ans' (inj o) → Ans o) :
    Prog Op Ans α → Prog Op' Ans' α
  | ret a => ret a
  | call o k => call (inj o) fun r => lift inj ans (k (ans o r))

theorem lift_bind {Op' : Type u} {Ans' : Op' → Type v} (inj : Op → Op') (ans : ∀ o, Ans' (inj o) → Ans o)
    (p : Prog Op Ans α) (f : α → Prog Op Ans β) :
    (p >>= f).lift inj ans = p.lift inj ans >>= fun a => (f a).lift inj ans := by
  induction p with
  | ret a => rfl
  | call o k ih =>
    simp only [bind_call, lift]
    congr 1
    funext r
    exact ih (ans o r)

/-- The program that carries out `f o` for each operation `o`. -/
def interp {Op' : Type u} {Ans' : Op' → Type v} {Ans : Op → Type w} (f : (o : Op) → Prog Op' Ans' (Ans o)) :
    Prog Op Ans α → Prog Op' Ans' α
  | ret a => ret a
  | call o k => f o >>= fun r => interp f (k r)

theorem interp_bind {Op' : Type u} {Ans' : Op' → Type v} {Ans : Op → Type w} (f : (o : Op) → Prog Op' Ans' (Ans o))
    (p : Prog Op Ans α) (g : α → Prog Op Ans β) : (p >>= g).interp f = p.interp f >>= fun a => (g a).interp f := by
  induction p with
  | ret a => rfl
  | call o k ih =>
    simp only [bind_call, interp, bind_assoc]
    congr 1
    funext r
    exact ih r

end Prog

/-- A device: the answer and next state of each operation, without a fault (`none`) or under one, and the
state in which power lost inside an operation leaves it. -/
structure Device (Op : Type u) (Ans : Op → Type v) (State : Type w) (Fault : Type w) where
  act : (o : Op) → Option Fault → State → Ans o × State
  cut : Op → ℕ → State → State

/-- What a schedule does at one operation: let it act, or lose power `n` steps into it. -/
inductive Event (Fault : Type w)
  | act (f : Option Fault)
  | cut (n : ℕ)

/-- How a run ends: it returns, or power is lost. -/
inductive Outcome (α State : Type w)
  | done (a : α) (s : State)
  | cut (s : State)

namespace Outcome

variable {α State : Type w}

def state : Outcome α State → State
  | done _ s => s
  | cut s => s

/-- The outcome satisfies the crash condition `C` or the postcondition `Q`. -/
def Sat (C : State → Prop) (Q : α → State → Prop) : Outcome α State → Prop
  | done a s => Q a s
  | cut s => C s

@[simp] theorem sat_done (C : State → Prop) (Q : α → State → Prop) (a : α) (s : State) :
    (done a s).Sat C Q ↔ Q a s := Iff.rfl

@[simp] theorem sat_cut (C : State → Prop) (Q : α → State → Prop) (s : State) :
    (cut s : Outcome α State).Sat C Q ↔ C s := Iff.rfl

theorem sat_state (C : State → Prop) (r : Outcome α State) : r.Sat C (fun _ => C) ↔ C r.state := by
  cases r <;> rfl

end Outcome

namespace Device

variable {Op : Type u} {Ans : Op → Type v} {State Fault α β : Type w}
variable (D : Device Op Ans State Fault)

/-- Run a program under a schedule; where the schedule has ended every operation acts without a fault. -/
def run : Prog Op Ans α → List (Event Fault) → State → Outcome α State
  | .ret a, _, s => .done a s
  | .call o k, [], s => run (k (D.act o none s).1) [] (D.act o none s).2
  | .call o k, .act f :: es, s => run (k (D.act o f s).1) es (D.act o f s).2
  | .call o _, .cut n :: _, s => .cut (D.cut o n s)

/-- The fault-free run. -/
def eval : Prog Op Ans α → State → α × State
  | .ret a, s => (a, s)
  | .call o k, s => eval (k (D.act o none s).1) (D.act o none s).2

/-- Weakest precondition of a program: under every fault in `A` each return satisfies `Q`, and wherever power
can be lost `C` holds. -/
def wp (A : Fault → Prop) (C : State → Prop) : Prog Op Ans α → (α → State → Prop) → State → Prop
  | .ret a, Q, s => Q a s
  | .call o k, Q, s => (∀ n, C (D.cut o n s)) ∧
      ∀ f, (∀ x ∈ f, A x) → wp A C (k (D.act o f s).1) Q (D.act o f s).2

/-- The events of a schedule use only the faults in `A`. -/
def Admits (A : Fault → Prop) (es : List (Event Fault)) : Prop :=
  ∀ f, Event.act f ∈ es → ∀ x ∈ f, A x

variable {D} {A : Fault → Prop} {C : State → Prop} {Q R : α → State → Prop} {s : State}

@[simp] theorem wp_ret (a : α) : D.wp A C (.ret a) Q s ↔ Q a s := Iff.rfl

theorem wp_call (o : Op) (k : Ans o → Prog Op Ans α) :
    D.wp A C (.call o k) Q s ↔ (∀ n, C (D.cut o n s)) ∧
      ∀ f, (∀ x ∈ f, A x) → D.wp A C (k (D.act o f s).1) Q (D.act o f s).2 := Iff.rfl

theorem wp_bind (p : Prog Op Ans α) (f : α → Prog Op Ans β) (Q : β → State → Prop) (s : State) :
    D.wp A C (p >>= f) Q s ↔ D.wp A C p (fun a s' => D.wp A C (f a) Q s') s := by
  induction p generalizing s with
  | ret a => rfl
  | call o k ih => simp only [Prog.bind_call, wp_call, ih]

theorem wp_mono (p : Prog Op Ans α) (h : D.wp A C p Q s) (hQ : ∀ a s', Q a s' → R a s') :
    D.wp A C p R s := by
  induction p generalizing s with
  | ret a => exact hQ a s h
  | call o k ih => exact ⟨h.1, fun f hf => ih _ (h.2 f hf)⟩

/-- Sequencing of programs that may raise: what follows an exception is skipped. -/
theorem wp_raises {ε : Type w} {p : ExceptT ε (Prog Op Ans) α} {f : α → ExceptT ε (Prog Op Ans) β}
    {R : Except ε α → State → Prop} {Q : Except ε β → State → Prop} (hp : D.wp A C p.run R s)
    (hok : ∀ a s', R (.ok a) s' → D.wp A C (f a).run Q s') (herror : ∀ e s', R (.error e) s' → Q (.error e) s') :
    D.wp A C (p >>= f).run Q s := by
  refine (wp_bind _ _ _ _).mpr (wp_mono _ hp fun r s' h => ?_)
  cases r with
  | ok a => exact hok a s' h
  | error e => exact herror e s' h

theorem wp_crash_mono {C' : State → Prop} (p : Prog Op Ans α) (h : D.wp A C p Q s)
    (hC : ∀ s', C s' → C' s') : D.wp A C' p Q s := by
  induction p generalizing s with
  | ret a => exact h
  | call o k ih => exact ⟨fun n => hC _ (h.1 n), fun f hf => ih _ (h.2 f hf)⟩

theorem wp_faults_mono {A' : Fault → Prop} (p : Prog Op Ans α) (h : D.wp A C p Q s)
    (hA : ∀ x, A' x → A x) : D.wp A' C p Q s := by
  induction p generalizing s with
  | ret a => exact h
  | call o k ih => exact ⟨h.1, fun f hf => ih _ (h.2 f fun x hx => hA x (hf x hx))⟩

theorem wp_trivial (p : Prog Op Ans α) (h : ∀ a s', Q a s') : D.wp A (fun _ => True) p Q s := by
  induction p generalizing s with
  | ret a => exact h a s
  | call o k ih => exact ⟨fun _ => trivial, fun f _ => ih _⟩

/-- Two facts about the same run hold together. -/
theorem wp_and {C' : State → Prop} (p : Prog Op Ans α) (h : D.wp A C p Q s) (h' : D.wp A C' p R s) :
    D.wp A (fun s => C s ∧ C' s) p (fun a s => Q a s ∧ R a s) s := by
  induction p generalizing s with
  | ret a => exact ⟨h, h'⟩
  | call o k ih => exact ⟨fun n => ⟨h.1 n, h'.1 n⟩, fun f hf => ih _ (h.2 f hf) (h'.2 f hf)⟩

/-- Every scheduled run of a program meets its weakest precondition. -/
theorem run_sat (p : Prog Op Ans α) (es : List (Event Fault)) (h : D.wp A C p Q s)
    (hes : Admits A es) : (D.run p es s).Sat C Q := by
  induction p generalizing es s with
  | ret a => cases es <;> exact h
  | call o k ih =>
    rcases es with _ | ⟨f | n, es⟩
    · exact ih _ [] (h.2 none (by simp)) hes
    · exact ih _ es (h.2 f (hes f (by simp))) fun g hg => hes g (by simp [hg])
    · exact h.1 n

/-- The fault-free run meets the weakest precondition, whatever faults it allows. -/
theorem eval_sat (p : Prog Op Ans α) (h : D.wp A C p Q s) : Q (D.eval p s).1 (D.eval p s).2 := by
  induction p generalizing s with
  | ret a => exact h
  | call o k ih => exact ih _ (h.2 none (by simp))

theorem run_nil (p : Prog Op Ans α) (s : State) :
    D.run p [] s = .done (D.eval p s).1 (D.eval p s).2 := by
  induction p generalizing s with
  | ret a => rfl
  | call o k ih => exact ih _ _

theorem eval_bind (p : Prog Op Ans α) (f : α → Prog Op Ans β) (s : State) :
    D.eval (p >>= f) s = D.eval (f (D.eval p s).1) (D.eval p s).2 := by
  induction p generalizing s with
  | ret a => rfl
  | call o k ih => exact ih _ _

/-- The calls of the fault-free run. -/
def calls (D : Device Op Ans State Fault) : Prog Op Ans α → State → ℕ
  | .ret _, _ => 0
  | .call o k, s => calls D (k (D.act o none s).1) (D.act o none s).2 + 1

/-- A schedule under which a program runs without a fault goes on with what follows the program. -/
theorem run_bind_calls (p : Prog Op Ans α) (f : α → Prog Op Ans β) (es : List (Event Fault)) (s : State) :
    D.run (p >>= f) (List.replicate (D.calls p s) (.act none) ++ es) s = D.run (f (D.eval p s).1) es (D.eval p s).2 := by
  induction p generalizing s with
  | ret a => rfl
  | call o k ih => exact ih _ _

theorem run_op (o : Op) {Ans : Op → Type w} (D : Device Op Ans State Fault) (k : Ans o → Prog Op Ans α) (f : Option Fault)
    (es : List (Event Fault)) (s : State) :
    D.run (Prog.op o >>= k) (.act f :: es) s = D.run (k (D.act o f s).1) es (D.act o f s).2 := rfl

/-- Without a loss of power a run returns. -/
theorem run_done (p : Prog Op Ans α) (es : List (Event Fault)) (s : State) (hcut : ∀ n, Event.cut n ∉ es) :
    ∃ a s', D.run p es s = .done a s' := by
  induction p generalizing es s with
  | ret a => cases es <;> exact ⟨a, s, rfl⟩
  | call o k ih =>
    rcases es with _ | ⟨f | n, es⟩
    · exact ih _ [] _ (by simp)
    · exact ih _ es _ fun n hn => hcut n (by simp [hn])
    · exact absurd List.mem_cons_self (hcut n)

section Watch

variable {W : Type w} (D)

/-- The device with a record that `note` keeps of its calls. -/
def watch (note : Op → Option Fault → W → W) : Device Op Ans (State × W) Fault where
  act o f s := ((D.act o f s.1).1, (D.act o f s.1).2, note o f s.2)
  cut o n s := (D.cut o n s.1, s.2)

end Watch

section Shield

variable (D)

/-- The device on which an operation meets only the faults that `P` lets through. -/
def shield (P : Op → Fault → Bool) : Device Op Ans State Fault where
  act o f s := D.act o (f.filter (P o)) s
  cut := D.cut

variable {D} {P : Op → Fault → Bool}

theorem wp_shield {Ans : Op → Type w} {D : Device Op Ans State Fault} {o : Op} {Q : Ans o → State → Prop}
    (h : D.wp (fun x => A x ∧ P o x = true) C (.op o) Q s) : (D.shield P).wp A C (.op o) Q s := by
  refine ⟨h.1, fun f hf => h.2 (f.filter (P o)) fun x hx => ?_⟩
  obtain ⟨hx, hP⟩ := Option.mem_filter_iff.mp hx
  exact ⟨hf x hx, hP⟩

/-- Without a fault nothing is kept out. -/
theorem eval_shield (p : Prog Op Ans α) (s : State) : (D.shield P).eval p s = D.eval p s := by
  induction p generalizing s with
  | ret a => rfl
  | call o k ih => exact ih _ _

end Shield

section Frame

/-- Every operation the program can reach satisfies `P`. -/
inductive Only (P : Op → Prop) : Prog Op Ans α → Prop
  | ret (a : α) : Only P (.ret a)
  | call (o : Op) (k : Ans o → Prog Op Ans α) (h : P o) (hk : ∀ r, Only P (k r)) : Only P (.call o k)

theorem Only.bind {P : Op → Prop} {p : Prog Op Ans α} {f : α → Prog Op Ans β} (hp : Only P p)
    (hf : ∀ a, Only P (f a)) : Only P (p >>= f) := by
  induction hp with
  | ret a => exact hf a
  | call o k h _ ih => exact .call o _ h ih

theorem Only.bindExcept {ε : Type w} {P : Op → Prop} {p : ExceptT ε (Prog Op Ans) α} {f : α → ExceptT ε (Prog Op Ans) β}
    (hp : Only P p.run) (hf : ∀ a, Only P (f a).run) : Only P (p >>= f).run := by
  refine Only.bind hp fun r => ?_
  cases r with
  | ok a => exact hf a
  | error e => exact .ret _

theorem Only.mono {P R : Op → Prop} {p : Prog Op Ans α} (hp : Only P p) (h : ∀ o, P o → R o) : Only R p := by
  induction hp with
  | ret a => exact .ret a
  | call o k ho _ ih => exact .call o k (h o ho) ih

theorem Only.lift {Op' : Type u} {Ans' : Op' → Type v} {inj : Op → Op'} {ans : ∀ o, Ans' (inj o) → Ans o} {P : Op → Prop}
    {P' : Op' → Prop} {p : Prog Op Ans α} (hp : Only P p) (h : ∀ o, P o → P' (inj o)) : Only P' (p.lift inj ans) := by
  induction hp with
  | ret a => exact .ret a
  | call o k ho _ ih => exact .call _ _ (h o ho) fun r => ih (ans o r)

theorem Only.interp {Op' : Type u} {Ans' : Op' → Type v} {Ans : Op → Type w} {f : (o : Op) → Prog Op' Ans' (Ans o)}
    {P : Op → Prop} {P' : Op' → Prop} {p : Prog Op Ans α} (hp : Only P p) (hf : ∀ o, P o → Only P' (f o)) :
    Only P' (p.interp f) := by
  induction hp with
  | ret a => exact .ret a
  | call o k ho _ ih => exact (hf o ho).bind ih

/-- Frame rule: a property that no operation of a program can break holds throughout its runs. -/
theorem wp_of_only {P : Op → Prop} {I : State → Prop} {p : Prog Op Ans α} (hp : Only P p)
    (hact : ∀ o f s, P o → I s → I (D.act o f s).2) (hcut : ∀ o n s, P o → I s → I (D.cut o n s))
    (hs : I s) : D.wp A I p (fun _ s' => I s') s := by
  induction hp generalizing s with
  | ret a => exact hs
  | call o k h _ ih => exact ⟨fun n => hcut o n s h hs, fun f _ => ih _ (hact o f s h hs)⟩

/-- A program whose calls are not noted runs on the watched device as on the device itself. -/
theorem wp_watch {W : Type w} {note : Op → Option Fault → W → W} {P : Op → Prop} {p : Prog Op Ans α} {w : W}
    (hp : Only P p) (hnote : ∀ o f w, P o → note o f w = w) (h : D.wp A C p Q s) :
    (D.watch note).wp A (fun x => C x.1) p (fun a x => Q a x.1 ∧ x.2 = w) (s, w) := by
  induction hp generalizing s with
  | ret a => exact ⟨h, rfl⟩
  | call o k ho _ ih =>
    refine ⟨h.1, fun f hf => ?_⟩
    have := ih _ (h.2 f hf)
    simpa only [watch, hnote o f w ho] using this

end Frame

end Device
