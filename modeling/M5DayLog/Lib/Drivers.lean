import M5DayLog.Lib.Prog
import Mathlib.Data.Int.Notation

/-! Programs over drivers, each of whose calls may fail. A driver gives out handles: a handle is live from when it is given out
until it is handed back, also where the driver refuses to take it back, and a call that names any other handle is a misuse. -/

namespace Drivers

section Calls

/-- A failure of a call, or the number that it reads. -/
inductive Fault (Err : Type)
  | fails (e : Err)
  | reads (n : ℤ)

/-- What calls answer and what they do to the machine. A plain call gives no error; of any other, `failing` is what its failure
leaves behind. -/
structure Driver (Op : Type) (Val : Op → Type) (World : Type) where
  plain : Op → Bool
  answer : (o : Op) → World → ℤ → Val o
  effect : Op → World → World
  failing : Op → World → World

variable {Op : Type} {Val : Op → Type} {World Err α β : Type}

def Driver.device (D : Driver Op Val World) : Device Op (fun o => Except Err (Val o)) World (Fault Err) where
  act o f s :=
    match f with
    | none => (.ok (D.answer o s 0), D.effect o s)
    | some (.reads n) => (.ok (D.answer o s n), D.effect o s)
    | some (.fails e) => if D.plain o then (.ok (D.answer o s 0), D.effect o s) else (.error e, D.failing o s)
  cut _ _ s := s

/-- Programs over the calls, whose errors they pass on. -/
abbrev DriverM (Op : Type) (Val : Op → Type) (Err : Type) := ExceptT Err (Prog Op fun o => Except Err (Val o))

def ask (o : Op) : DriverM Op Val Err (Val o) := ExceptT.mk (Prog.op o)

/-- `(void)f()`. -/
def ignoring (p : DriverM Op Val Err α) : DriverM Op Val Err Unit := ExceptT.mk do
  let _ ← p.run
  return .ok ()

/-- A failure is followed by `cleanup`, and is then passed on. -/
def orElse (p cleanup : DriverM Op Val Err Unit) : DriverM Op Val Err Unit := ExceptT.mk do
  match ← p.run with
  | .ok _ => return .ok ()
  | .error e =>
    let _ ← cleanup.run
    return .error e

def Runs (D : Driver Op Val World) (C : World → Prop) (p : DriverM Op Val Err α) (Q : Except Err α → World → Prop)
    (s : World) : Prop := D.device.wp (fun _ => True) C p.run Q s

variable {D : Driver Op Val World} {C C' : World → Prop} {s : World} {o : Op} {Q Q' : Except Err α → World → Prop}

theorem runs_return {a : α} (h : Q (.ok a) s) : Runs D C (return a) Q s := h

theorem runs_throw {e : Err} (h : Q (.error e) s) : Runs D C (throw e) Q s := h

theorem Runs.mono {p : DriverM Op Val Err α} (hp : Runs D C p Q s) (h : ∀ r t, Q r t → Q' r t) : Runs D C p Q' s :=
  Device.wp_mono _ hp h

theorem Runs.during {p : DriverM Op Val Err α} (hp : Runs D C p Q s) (h : ∀ t, C t → C' t) : Runs D C' p Q s :=
  Device.wp_crash_mono _ hp h

theorem runs_bind {p : DriverM Op Val Err α} {f : α → DriverM Op Val Err β} {R : Except Err α → World → Prop}
    {Q : Except Err β → World → Prop} (hp : Runs D C p R s) (hok : ∀ a t, R (.ok a) t → Runs D C (f a) Q t)
    (herror : ∀ e t, R (.error e) t → Q (.error e) t) : Runs D C (p >>= f) Q s := Device.wp_raises hp hok herror

theorem runs_ask {Q : Except Err (Val o) → World → Prop} (hC : C s) (hok : ∀ n, Q (.ok (D.answer o s n)) (D.effect o s))
    (hfails : D.plain o = false → ∀ e, Q (.error e) (D.failing o s)) : Runs D C (ask o) Q s := by
  refine ⟨fun _ => hC, fun f _ => ?_⟩
  rcases f with _ | ⟨e | n⟩
  · exact hok 0
  · cases ho : D.plain o
    · simpa [Driver.device, ho] using hfails ho e
    · simpa [Driver.device, ho] using hok 0
  · exact hok n

theorem runs_plain {Q : Except Err (Val o) → World → Prop} (hplain : D.plain o = true) (hC : C s)
    (hok : ∀ n, Q (.ok (D.answer o s n)) (D.effect o s)) : Runs D C (ask o) Q s :=
  runs_ask hC hok fun h => by rw [hplain] at h; cases h

theorem runs_ignoring {p : DriverM Op Val Err α} {Q : Except Err Unit → World → Prop} (hp : Runs D C p (fun _ t => Q (.ok ()) t) s) :
    Runs D C (ignoring p) Q s := (Device.wp_bind _ _ _ _).mpr hp

/-- A call whose failure leaves what its success does. -/
theorem runs_void {Q : Except Err Unit → World → Prop} (hC : C s) (hQ : Q (.ok ()) (D.effect o s))
    (hfailing : D.failing o s = D.effect o s) : Runs D C (ignoring (ask o)) Q s :=
  runs_ignoring (runs_ask hC (fun _ => hQ) fun _ _ => hfailing ▸ hQ)

/-- Sequencing of steps that do not fail. -/
theorem runs_then {p : DriverM Op Val Err α} {f : α → DriverM Op Val Err β} {a : α} {s' : World} {Q : Except Err β → World → Prop}
    (hp : Runs D C p (fun r t => r = .ok a ∧ t = s') s) (hf : Runs D C (f a) Q s') : Runs D C (p >>= f) Q s := by
  refine runs_bind hp (fun a' t h => ?_) fun e t h => by cases h.1
  obtain ⟨ha, rfl⟩ := h
  cases ha
  exact hf

/-- Reading of the machine, which changes nothing. -/
theorem runs_load {f : Val o → DriverM Op Val Err β} {v : Val o} {Q : Except Err β → World → Prop} (hplain : D.plain o = true)
    (hv : ∀ n, D.answer o s n = v) (hs : D.effect o s = s) (hC : C s) (hf : Runs D C (f v) Q s) : Runs D C (ask o >>= f) Q s :=
  runs_then (runs_plain hplain hC fun n => ⟨congrArg Except.ok (hv n), hs⟩) hf

theorem runs_orElse {p cleanup : DriverM Op Val Err Unit} {R Q : Except Err Unit → World → Prop} (hp : Runs D C p R s)
    (hok : ∀ t, R (.ok ()) t → Q (.ok ()) t) (herror : ∀ e t, R (.error e) t → Runs D C cleanup (fun _ u => Q (.error e) u) t) :
    Runs D C (orElse p cleanup) Q s := by
  refine (Device.wp_bind _ _ _ _).mpr (Device.wp_mono _ hp fun r t hr => ?_)
  cases r with
  | ok v => exact hok t hr
  | error e => exact (Device.wp_bind _ _ _ _).mpr (herror e t hr)

section Ends

/-- A program whose success leads to `u`, and whose failure to `w`. -/
def Ends (u w : World) : Except Err α → World → Prop
  | .ok _, t => t = u
  | .error _, t => t = w

variable {u w w' : World}

theorem runs_ends (hC : C s) : Runs D C (ask o) (Ends (D.effect o s) (D.failing o s) : Except Err _ → World → Prop) s :=
  runs_ask hC (fun _ => rfl) fun _ _ => rfl

theorem runs_ends_orElse {p cleanup : DriverM Op Val Err Unit} (hp : Runs D C p (Ends u w) s)
    (hcleanup : Runs D C cleanup (fun _ t => t = w') w) : Runs D C (orElse p cleanup) (Ends u w') s :=
  runs_orElse hp (fun _ ht => ht) fun _ _ ht => by rw [show _ = w from ht]; exact hcleanup

theorem runs_cases {p : DriverM Op Val Err α} {f : α → DriverM Op Val Err β} {Q : Except Err β → World → Prop}
    (hp : Runs D C p (Ends u w) s) (herror : ∀ e, Q (.error e) w) (hok : ∀ a, Runs D C (f a) Q u) : Runs D C (p >>= f) Q s :=
  runs_bind hp (fun a t ht => by rw [show t = u from ht]; exact hok a) fun e t ht => by rw [show t = w from ht]; exact herror e

end Ends

section Reaches

variable {I R R' : World → Prop}

/-- A program of which `I` holds all along and whose success has brought about `R`. -/
def Reaches (I R : World → Prop) (r : Except Err α) (t : World) : Prop := I t ∧ ((∃ v, r = .ok v) → R t)

theorem runs_step (hC : C s) (ho : I (D.effect o s)) (hR : R (D.effect o s)) (hfailing : I (D.failing o s)) :
    Runs D C (ask o) (Reaches I R : Except Err _ → World → Prop) s :=
  runs_ask hC (fun _ => ⟨ho, fun _ => hR⟩) fun _ _ => ⟨hfailing, fun ⟨_, hv⟩ => by cases hv⟩

theorem runs_next {p : DriverM Op Val Err α} {f : α → DriverM Op Val Err β} {Q : Except Err β → World → Prop}
    (hp : Runs D C p (Reaches I R) s) (herror : ∀ e t, I t → Q (.error e) t) (hok : ∀ a t, I t → R t → Runs D C (f a) Q t) :
    Runs D C (p >>= f) Q s := runs_bind hp (fun a t ht => hok a t ht.1 (ht.2 ⟨a, rfl⟩)) fun e t ht => herror e t ht.1

theorem runs_reaches {p : DriverM Op Val Err α} {f : α → DriverM Op Val Err β} (hp : Runs D C p (Reaches I R) s)
    (hf : ∀ a t, I t → R t → Runs D C (f a) (Reaches I R') t) : Runs D C (p >>= f) (Reaches I R') s :=
  runs_next hp (fun _ _ ht => ⟨ht, fun ⟨_, hv⟩ => by cases hv⟩) hf

end Reaches

end Calls

section Handles

/-- The next handle that a driver gives out, those that are live, and whether a call has named another. -/
structure Ledger where
  next : ℕ
  live : List ℕ
  misused : Bool
  deriving DecidableEq

namespace Ledger

def empty : Ledger := ⟨0, [], false⟩

def giveOut (l : Ledger) : Ledger := ⟨l.next + 1, l.next :: l.live, l.misused⟩

/-- A call that is given `v`; no handle at all is a misuse, too. -/
def use (l : Ledger) (v : Option ℕ) : Ledger := { l with misused := l.misused || !v.any l.live.contains }

def handBack (l : Ledger) (v : Option ℕ) : Ledger := { l.use v with live := l.live.filter fun h => v ≠ some h }

/-- A handle that is handed back, where there is one. -/
def released (l : Ledger) (v : Option ℕ) : Ledger := if v = none then l else l.handBack v

/-- The variable holds the live handle, where there is one, and no call has named another. -/
structure OwnedBy (l : Ledger) (v : Option ℕ) : Prop where
  live : l.live = v.toList
  sound : l.misused = false

/-- No call has named a handle that is not live, and none is live that the variable has lost. -/
structure KeptBy (l : Ledger) (v : Option ℕ) : Prop where
  sound : l.misused = false
  kept : ∀ h ∈ l.live, v = some h

variable {l : Ledger} {h : ℕ} {v : Option ℕ}

theorem ownedBy_empty : empty.OwnedBy none := ⟨rfl, rfl⟩

theorem OwnedBy.keptBy (hl : l.OwnedBy v) : l.KeptBy v := ⟨hl.sound, by simp [hl.live, Option.mem_toList]⟩

theorem OwnedBy.giveOut (hl : l.OwnedBy none) : l.giveOut.OwnedBy (some l.next) :=
  ⟨by simp [Ledger.giveOut, hl.live], hl.sound⟩

/-- A call that names the live handle changes nothing. -/
theorem OwnedBy.use_eq (hl : l.OwnedBy (some h)) : l.use (some h) = l := by
  obtain ⟨next, live, misused⟩ := l
  obtain rfl : live = [h] := hl.live
  simp [Ledger.use]

theorem OwnedBy.use (hl : l.OwnedBy (some h)) : (l.use (some h)).OwnedBy (some h) := by rwa [hl.use_eq]

theorem OwnedBy.handBack (hl : l.OwnedBy (some h)) : (l.handBack (some h)).OwnedBy none :=
  ⟨by simp [Ledger.handBack, hl.live], by simp [Ledger.handBack, hl.use.sound]⟩

/-- A handle that is gone is held by any variable. -/
theorem OwnedBy.keptBy_of_none (hl : l.OwnedBy none) : l.KeptBy v := ⟨hl.sound, by simp [hl.live]⟩

theorem OwnedBy.released (hl : l.OwnedBy v) : (l.released v).OwnedBy none := by
  cases v with
  | none => exact hl
  | some h => exact hl.handBack

end Ledger

end Handles

end Drivers
