import M5DayLog.Lib.Threads

/-! The session gate of the USB CDC channel: which receive batches and commands belong to the published session. It is
six atomic words, and every operation on one of them is a step of its own. -/

namespace M5DayLog

open Threads

/-- The type of a counter word. A run with counters in `ℕ` is one in which no counter wraps. -/
class Counter (κ : Type) where
  zero : κ
  succ : κ → κ
  pred : κ → κ
  lt : κ → κ → Bool

instance : Counter ℕ := ⟨0, (· + 1), (· - 1), fun a b => a < b⟩

instance : Counter UInt32 := ⟨0, (· + 1), (· - 1), fun a b => a < b⟩

inductive GatePhase
  | closed
  | opened
  | resetting
  deriving DecidableEq

/-- The receive admission word: its three flags and the count of callbacks that are classifying themselves as stale. -/
structure RxState where
  opened : Bool
  dirty : Bool
  opening : Bool
  count : ℕ
  deriving DecidableEq

namespace RxState

def zero : RxState := ⟨false, false, false, 0⟩

def isOpen : RxState := ⟨true, false, false, 0⟩

def isOpening : RxState := ⟨false, false, true, 0⟩

def countMask : ℕ := 2 ^ 29 - 1

end RxState

structure Gate (κ : Type) where
  generation : κ
  activeCommands : κ
  phase : GatePhase
  rxState : RxState
  rxDiscardEpoch : κ
  rxDrainedEpoch : κ
  deriving DecidableEq

structure SessionSnapshot (κ : Type) where
  generation : κ
  admitted : Bool
  deriving DecidableEq

/-- The atomic operations. An exchange answers `none` when it has replaced the expected value, and otherwise what it has
found; a weak one may fail without cause. `wait` is the caller's delay, and `halt` is never carried out. -/
inductive GateOp (κ : Type)
  | loadPhase
  | storePhase (p : GatePhase)
  | exchangePhase (expected desired : GatePhase)
  | loadGeneration
  | addGeneration
  | loadActive
  | addActive
  | subActive
  | loadRx
  | exchangeRx (expected desired : RxState)
  | exchangeRxWeak (expected desired : RxState)
  | dirtyRx
  | subRx
  | loadDiscard
  | addDiscard
  | loadDrained
  | exchangeDrainedWeak (expected desired : κ)
  | wait
  | halt

abbrev GateOp.Ans {κ : Type} : GateOp κ → Type
  | loadPhase => GatePhase
  | storePhase _ => Unit
  | exchangePhase _ _ => Option GatePhase
  | loadGeneration => κ
  | addGeneration => κ
  | loadActive => κ
  | addActive => Unit
  | subActive => Unit
  | loadRx => RxState
  | exchangeRx _ _ => Option RxState
  | exchangeRxWeak _ _ => Option RxState
  | dirtyRx => Unit
  | subRx => Unit
  | loadDiscard => κ
  | addDiscard => Unit
  | loadDrained => κ
  | exchangeDrainedWeak _ _ => Option κ
  | wait => Unit
  | halt => Empty

variable {κ : Type} [DecidableEq κ] [Counter κ]

open Counter

namespace Gate

/-- One operation; `weak` lets a weak exchange fail. -/
def act : (o : GateOp κ) → (weak : Bool) → Gate κ → Option (o.Ans × Gate κ)
  | .loadPhase, _, g => some (g.phase, g)
  | .storePhase p, _, g => some ((), { g with phase := p })
  | .exchangePhase e d, _, g => some (if g.phase = e then (none, { g with phase := d }) else (some g.phase, g))
  | .loadGeneration, _, g => some (g.generation, g)
  | .addGeneration, _, g => some (g.generation, { g with generation := succ g.generation })
  | .loadActive, _, g => some (g.activeCommands, g)
  | .addActive, _, g => some ((), { g with activeCommands := succ g.activeCommands })
  | .subActive, _, g => some ((), { g with activeCommands := pred g.activeCommands })
  | .loadRx, _, g => some (g.rxState, g)
  | .exchangeRx e d, _, g => some (if g.rxState = e then (none, { g with rxState := d }) else (some g.rxState, g))
  | .exchangeRxWeak e d, weak, g =>
    some (if g.rxState = e ∧ !weak then (none, { g with rxState := d }) else (some g.rxState, g))
  | .dirtyRx, _, g => some ((), { g with rxState := { g.rxState with dirty := true } })
  | .subRx, _, g => some ((), { g with rxState := { g.rxState with count := g.rxState.count - 1 } })
  | .loadDiscard, _, g => some (g.rxDiscardEpoch, g)
  | .addDiscard, _, g => some ((), { g with rxDiscardEpoch := succ g.rxDiscardEpoch })
  | .loadDrained, _, g => some (g.rxDrainedEpoch, g)
  | .exchangeDrainedWeak e d, weak, g =>
    some (if g.rxDrainedEpoch = e ∧ !weak then (none, { g with rxDrainedEpoch := d }) else (some g.rxDrainedEpoch, g))
  | .wait, _, g => some ((), g)
  | .halt, _, _ => none

def init : Gate κ := ⟨succ zero, zero, .closed, .zero, zero, zero⟩

end Gate

abbrev GateProg (κ : Type) := Prog (GateOp κ) GateOp.Ans

section Operations

def loadPhase : GateProg κ GatePhase := .op (GateOp.loadPhase (κ := κ))
def storePhase (p : GatePhase) : GateProg κ Unit := .op (GateOp.storePhase (κ := κ) p)
def exchangePhase (e d : GatePhase) : GateProg κ (Option GatePhase) := .op (GateOp.exchangePhase (κ := κ) e d)
def loadGeneration : GateProg κ κ := .op (GateOp.loadGeneration (κ := κ))
def addGeneration : GateProg κ κ := .op (GateOp.addGeneration (κ := κ))
def loadActive : GateProg κ κ := .op (GateOp.loadActive (κ := κ))
def addActive : GateProg κ Unit := .op (GateOp.addActive (κ := κ))
def subActive : GateProg κ Unit := .op (GateOp.subActive (κ := κ))
def loadRx : GateProg κ RxState := .op (GateOp.loadRx (κ := κ))
def exchangeRx (e d : RxState) : GateProg κ (Option RxState) := .op (GateOp.exchangeRx (κ := κ) e d)
def exchangeRxWeak (e d : RxState) : GateProg κ (Option RxState) := .op (GateOp.exchangeRxWeak (κ := κ) e d)
def dirtyRx : GateProg κ Unit := .op (GateOp.dirtyRx (κ := κ))
def subRx : GateProg κ Unit := .op (GateOp.subRx (κ := κ))
def loadDiscard : GateProg κ κ := .op (GateOp.loadDiscard (κ := κ))
def addDiscard : GateProg κ Unit := .op (GateOp.addDiscard (κ := κ))
def loadDrained : GateProg κ κ := .op (GateOp.loadDrained (κ := κ))
def exchangeDrainedWeak (e d : κ) : GateProg κ (Option κ) := .op (GateOp.exchangeDrainedWeak (κ := κ) e d)
def wait : GateProg κ Unit := .op (GateOp.wait (κ := κ))

/-- A loop that has used up its fuel. -/
def gateHalt {α : Type} : GateProg κ α := .call (GateOp.halt (κ := κ)) fun r => nomatch r

end Operations

section Procedures

def gateHasPendingRxDiscard : GateProg κ Bool := do
  let discard ← loadDiscard
  let drained ← loadDrained
  return discard ≠ drained

def gateRxAdmissionIsOpen : GateProg κ Bool := do
  let state ← loadRx
  return state = .isOpen

def gateTryClearRxDirty : ℕ → GateProg κ Unit
  | 0 => gateHalt
  | fuel + 1 => do
    let state ← loadRx
    if state.opened ∨ state.opening ∨ !state.dirty ∨ state.count ≠ 0 then return ()
    else
      let pending ← gateHasPendingRxDiscard
      if pending then return ()
      else
        match ← exchangeRxWeak state { state with dirty := false } with
        | none => return ()
        | some _ => gateTryClearRxDirty fuel

def gateCancelRxOpeningFrom : ℕ → RxState → GateProg κ Unit
  | 0, _ => gateHalt
  | fuel + 1, state => do
    if !state.opening then return ()
    else
      match ← exchangeRxWeak state { state with opening := false } with
      | none => gateTryClearRxDirty fuel
      | some found => gateCancelRxOpeningFrom fuel found

def gateCancelRxOpening (fuel : ℕ) : GateProg κ Unit := do
  let state ← loadRx
  gateCancelRxOpeningFrom fuel state

/-- Register a synthetic classifier, unless the count is saturated, and withdraw both flags. -/
def boundaryState (state : RxState) : RxState :=
  ⟨false, true, false, if state.count = RxState.countMask then state.count else state.count + 1⟩

/-- The exchange of the boundary; whether it has registered a classifier. -/
def gateRegisterBoundary : ℕ → RxState → GateProg κ Bool
  | 0, _ => gateHalt
  | fuel + 1, state => do
    match ← exchangeRxWeak state (boundaryState state) with
    | none => return state.count ≠ RxState.countMask
    | some found => gateRegisterBoundary fuel found

def gateMarkRxBoundaryStale (fuel : ℕ) : GateProg κ Unit := do
  let state ← loadRx
  let registered ← gateRegisterBoundary fuel state
  addDiscard
  if registered then
    subRx
    gateTryClearRxDirty fuel
  else gateTryClearRxDirty fuel

def gateCloseRxAdmissionFrom : ℕ → RxState → GateProg κ Unit
  | 0, _ => gateHalt
  | fuel + 1, state => do
    if !state.opened ∧ !state.opening then return ()
    else
      match ← exchangeRxWeak state { state with opened := false, opening := false } with
      | none => gateTryClearRxDirty fuel
      | some found => gateCloseRxAdmissionFrom fuel found

def gateCloseRxAdmission (fuel : ℕ) : GateProg κ Unit := do
  let state ← loadRx
  gateCloseRxAdmissionFrom fuel state

/-- Neither of the two flags nor a pending discard stands in the way. -/
def admissionOpen : GateProg κ Bool := do
  let admitted ← gateRxAdmissionIsOpen
  if !admitted then return false
  else
    let pending ← gateHasPendingRxDiscard
    return !pending

def usbCdcSessionGateIsOpen : GateProg κ Bool := do
  let phase ← loadPhase
  if phase ≠ .opened then return false else admissionOpen

/-- The end of an open that must give up its reservation. -/
def openFailed (fuel : ℕ) : GateProg κ Bool := do
  gateCancelRxOpening fuel
  return false

/-- Publish the reservation, unless a cutoff has come first. -/
def openPublish (fuel : ℕ) : GateProg κ Bool := do
  let phase ← loadPhase
  if phase ≠ .opened then openFailed fuel
  else
    match ← exchangeRx .isOpening .isOpen with
    | some _ => openFailed fuel
    | none =>
      let phase ← loadPhase
      if phase ≠ .opened then
        gateMarkRxBoundaryStale fuel
        return false
      else return true

/-- Reserve the clean receive word, then move the phase. -/
def openReserve (fuel : ℕ) : GateProg κ Bool := do
  match ← exchangeRx .zero .isOpening with
  | some _ => return false
  | none =>
    match ← loadPhase with
    | .closed =>
      match ← exchangePhase .closed .opened with
      | none => openPublish fuel
      | some found => if found ≠ .opened then openFailed fuel else openPublish fuel
    | .opened => openPublish fuel
    | .resetting => openFailed fuel

def usbCdcSessionGateOpen (fuel : ℕ) : GateProg κ Bool := do
  let phase ← loadPhase
  if phase = .resetting then return false
  else if phase = .opened then
    let admitted ← gateRxAdmissionIsOpen
    if admitted then
      let pending ← gateHasPendingRxDiscard
      return !pending
    else openReserve fuel
  else openReserve fuel

def usbCdcSessionGateClose (fuel : ℕ) : GateProg κ Unit := do
  match ← exchangePhase .opened .closed with
  | some _ => return ()
  | none =>
    let _ ← addGeneration
    gateMarkRxBoundaryStale fuel

/-- Phase, generation and receive admission, looked at in this order. -/
def generationOpen (generation : κ) : GateProg κ Bool := do
  let phase ← loadPhase
  if phase ≠ .opened then return false
  else
    let current ← loadGeneration
    if current ≠ generation then return false else admissionOpen

def usbCdcSessionGateSnapshot : GateProg κ (SessionSnapshot κ) := do
  let generation ← loadGeneration
  let phase ← loadPhase
  if phase ≠ .opened then return ⟨generation, false⟩
  else
    let admitted ← admissionOpen
    if !admitted then return ⟨generation, false⟩
    else
      let admitted ← generationOpen generation
      return ⟨generation, admitted⟩

def usbCdcSessionGateSnapshotIsCurrent (snapshot : SessionSnapshot κ) : GateProg κ Bool :=
  if !snapshot.admitted then return false else generationOpen snapshot.generation

/-- Join the stale classification. `none`: the session is published, and the callback's bytes are its own; otherwise
whether the count had room for it. -/
def noteRxRegister : ℕ → RxState → GateProg κ (Option Bool)
  | 0, _ => gateHalt
  | fuel + 1, state => do
    if state = .isOpen then return none
    else if state.count = RxState.countMask then return some false
    else
      match ← exchangeRxWeak state { state with count := state.count + 1 } with
      | none => return some true
      | some found => noteRxRegister fuel found

def usbCdcSessionGateNoteRx (fuel : ℕ) : GateProg κ Unit := do
  let state ← loadRx
  match ← noteRxRegister fuel state with
  | none => return ()
  | some registered =>
    addDiscard
    dirtyRx
    if registered then subRx else return ()

def usbCdcSessionGateRxDiscardEpoch : GateProg κ κ := loadDiscard

def usbCdcSessionGateShouldDiscardRx : GateProg κ Bool := gateHasPendingRxDiscard

def markRxDrainedFrom (observed : κ) : ℕ → κ → GateProg κ Unit
  | 0, _ => gateHalt
  | fuel + 1, current => do
    if !lt current observed then return ()
    else
      match ← exchangeDrainedWeak current observed with
      | none => return ()
      | some found => markRxDrainedFrom observed fuel found

def usbCdcSessionGateMarkRxDrained (observed : κ) (fuel : ℕ) : GateProg κ Unit := do
  let current ← loadDrained
  markRxDrainedFrom observed fuel current
  gateTryClearRxDirty fuel

def usbCdcSessionGateCommandBegin (frameGeneration : κ) : GateProg κ Bool := do
  let admitted ← generationOpen frameGeneration
  if !admitted then return false
  else
    addActive
    -- a cutoff may have come between the first look and the count
    let admitted ← generationOpen frameGeneration
    if !admitted then
      subActive
      return false
    else return true

def usbCdcSessionGateCommandEnd : GateProg κ Unit := subActive

def gateWaitIdle : ℕ → GateProg κ Unit
  | 0 => gateHalt
  | fuel + 1 => do
    let active ← loadActive
    if active = zero then return ()
    else
      wait
      gateWaitIdle fuel

def usbCdcSessionGateReset (fuel : ℕ) : GateProg κ Unit := do
  storePhase .resetting
  gateCloseRxAdmission fuel
  let _ ← addGeneration
  gateWaitIdle fuel
  storePhase .closed

end Procedures

section Calls

/-- The calls on a gate. A `commandEnd` ends one command of its caller. -/
inductive GateCall (κ : Type)
  | generation
  | isOpen
  | opens
  | close
  | snapshot
  | snapshotIsCurrent (snapshot : SessionSnapshot κ)
  | noteRx
  | rxDiscardEpoch
  | shouldDiscardRx
  | markRxDrained (observed : κ)
  | commandBegin (frameGeneration : κ)
  | commandEnd (frameGeneration : κ)
  | reset
  deriving DecidableEq

abbrev GateCall.Ret : GateCall κ → Type
  | generation | rxDiscardEpoch => κ
  | isOpen | opens | snapshotIsCurrent _ | shouldDiscardRx | commandBegin _ => Bool
  | snapshot => SessionSnapshot κ
  | close | noteRx | markRxDrained _ | commandEnd _ | reset => Unit

def gateBody : (c : GateCall κ) → (fuel : ℕ) → GateProg κ c.Ret
  | .generation, _ => loadGeneration
  | .isOpen, _ => usbCdcSessionGateIsOpen
  | .opens, fuel => usbCdcSessionGateOpen fuel
  | .close, fuel => usbCdcSessionGateClose fuel
  | .snapshot, _ => usbCdcSessionGateSnapshot
  | .snapshotIsCurrent snapshot, _ => usbCdcSessionGateSnapshotIsCurrent snapshot
  | .noteRx, fuel => usbCdcSessionGateNoteRx fuel
  | .rxDiscardEpoch, _ => usbCdcSessionGateRxDiscardEpoch
  | .shouldDiscardRx, _ => usbCdcSessionGateShouldDiscardRx
  | .markRxDrained observed, fuel => usbCdcSessionGateMarkRxDrained observed fuel
  | .commandBegin generation, _ => usbCdcSessionGateCommandBegin generation
  | .commandEnd _, _ => usbCdcSessionGateCommandEnd
  | .reset, fuel => usbCdcSessionGateReset fuel

/-- The commands that a thread has begun and not ended. -/
abbrev Commands (κ : Type) := List κ

def afterCall : (c : GateCall κ) → c.Ret → Commands κ → Commands κ
  | .commandBegin generation, admitted, held => if admitted then generation :: held else held
  | .commandEnd generation, _, held => held.erase generation
  | _, _, held => held

/-- A thread ends only a command of its own; `observed` says which epochs it may take for drained. -/
def mayCall (observed : Gate κ → κ → Bool) : GateCall κ → Commands κ → Gate κ → Bool
  | .commandEnd generation, held, _ => generation ∈ held
  | .markRxDrained epoch, _, g => observed g epoch
  | _, _, _ => true

def gateCode (ι : Type) (observed : Gate κ → κ → Bool) :
    Code ι (GateOp κ) GateOp.Ans Bool (Gate κ) (GateCall κ) GateCall.Ret (Commands κ) where
  act := Gate.act
  may _ := mayCall observed
  body c _ := gateBody c
  after := afterCall

/-- Threads at rest around a new gate. -/
def gatePool (ι : Type) {Seen : Type} (seen : Seen) :
    Pool ι (GateOp κ) GateOp.Ans (Gate κ) (GateCall κ) GateCall.Ret (Commands κ) Seen :=
  ⟨.init, fun _ => .idle [], seen⟩

end Calls

section Steps

variable {g g' : Gate κ} (weak : Bool)

theorem act_exchangePhase {e d : GatePhase} {r : Option GatePhase} (h : Gate.act (.exchangePhase e d) weak g = some (r, g')) :
    r = none ∧ g.phase = e ∧ g' = { g with phase := d } ∨ r = some g.phase ∧ g.phase ≠ e ∧ g' = g := by
  simp only [Gate.act, Option.some.injEq] at h
  split at h
  case isTrue he =>
    cases h
    exact Or.inl ⟨rfl, he, rfl⟩
  case isFalse he =>
    cases h
    exact Or.inr ⟨rfl, he, rfl⟩

theorem act_exchangeRx {e d : RxState} {r : Option RxState} (h : Gate.act (.exchangeRx e d) weak g = some (r, g')) :
    r = none ∧ g.rxState = e ∧ g' = { g with rxState := d } ∨ r = some g.rxState ∧ g.rxState ≠ e ∧ g' = g := by
  simp only [Gate.act, Option.some.injEq] at h
  split at h
  case isTrue he =>
    cases h
    exact Or.inl ⟨rfl, he, rfl⟩
  case isFalse he =>
    cases h
    exact Or.inr ⟨rfl, he, rfl⟩

theorem act_exchangeRxWeak {e d : RxState} {r : Option RxState}
    (h : Gate.act (.exchangeRxWeak e d) weak g = some (r, g')) :
    r = none ∧ g.rxState = e ∧ g' = { g with rxState := d } ∨ r = some g.rxState ∧ g' = g := by
  simp only [Gate.act, Option.some.injEq] at h
  split at h
  case isTrue he =>
    cases h
    exact Or.inl ⟨rfl, he.1, rfl⟩
  case isFalse =>
    cases h
    exact Or.inr ⟨rfl, rfl⟩

theorem act_exchangeDrainedWeak {e d : κ} {r : Option κ} (h : Gate.act (.exchangeDrainedWeak e d) weak g = some (r, g')) :
    r = none ∧ g.rxDrainedEpoch = e ∧ g' = { g with rxDrainedEpoch := d } ∨ r = some g.rxDrainedEpoch ∧ g' = g := by
  simp only [Gate.act, Option.some.injEq] at h
  split at h
  case isTrue he =>
    cases h
    exact Or.inl ⟨rfl, he.1, rfl⟩
  case isFalse =>
    cases h
    exact Or.inr ⟨rfl, rfl⟩

end Steps

set_option linter.unusedSectionVars false

section Loads

/-- The operation only reads. -/
def GateOp.isLoad : GateOp κ → Bool
  | .loadPhase | .loadGeneration | .loadActive | .loadRx | .loadDiscard | .loadDrained | .wait | .halt => true
  | _ => false

theorem isLoad_op {o : GateOp κ} (h : o.isLoad = true) : Device.Only (fun o => o.isLoad = true) (.op o : GateProg κ o.Ans) :=
  .call o _ h fun r => .ret r

theorem act_load {o : GateOp κ} (h : o.isLoad = true) {weak : Bool} {g g' : Gate κ} {r : o.Ans}
    (hact : Gate.act o weak g = some (r, g')) : g' = g := by
  cases o <;> simp_all [GateOp.isLoad, Gate.act]

/-- A program that only reads. -/
abbrev Loads {α : Type} (p : GateProg κ α) : Prop := Device.Only (fun o => o.isLoad = true) p

theorem loads_hasPending : Loads (gateHasPendingRxDiscard : GateProg κ Bool) :=
  (isLoad_op rfl).bind fun _ => (isLoad_op rfl).bind fun _ => .ret _

theorem loads_rxAdmissionIsOpen : Loads (gateRxAdmissionIsOpen : GateProg κ Bool) :=
  (isLoad_op rfl).bind fun _ => .ret _

theorem loads_admissionOpen : Loads (admissionOpen : GateProg κ Bool) := by
  refine loads_rxAdmissionIsOpen.bind fun admitted => ?_
  split
  · exact .ret _
  · exact loads_hasPending.bind fun _ => .ret _

theorem loads_isOpen : Loads (usbCdcSessionGateIsOpen : GateProg κ Bool) := by
  refine (isLoad_op rfl).bind fun phase => ?_
  split
  · exact .ret _
  · exact loads_admissionOpen

theorem loads_generationOpen (generation : κ) : Loads (generationOpen generation) := by
  refine (isLoad_op rfl).bind fun phase => ?_
  split
  · exact .ret _
  · refine (isLoad_op rfl).bind fun current => ?_
    split
    · exact .ret _
    · exact loads_admissionOpen

theorem loads_snapshot : Loads (usbCdcSessionGateSnapshot : GateProg κ (SessionSnapshot κ)) := by
  refine (isLoad_op rfl).bind fun generation => (isLoad_op rfl).bind fun phase => ?_
  split
  · exact .ret _
  · refine loads_admissionOpen.bind fun admitted => ?_
    split
    · exact .ret _
    · exact (loads_generationOpen generation).bind fun _ => .ret _

theorem loads_snapshotIsCurrent (snapshot : SessionSnapshot κ) : Loads (usbCdcSessionGateSnapshotIsCurrent snapshot) := by
  unfold usbCdcSessionGateSnapshotIsCurrent
  split
  · exact .ret _
  · exact loads_generationOpen _

theorem loads_waitIdle (fuel : ℕ) : Loads (gateWaitIdle fuel : GateProg κ Unit) := by
  induction fuel with
  | zero => exact .call _ _ rfl fun r => nomatch r
  | succ fuel ih =>
    refine (isLoad_op rfl).bind fun active => ?_
    split
    · exact .ret _
    · exact (isLoad_op rfl).bind fun _ => ih

end Loads

section Receives

/-- The operation reads, or works on the receive words without reserving or publishing a session. -/
def GateOp.isReceive : GateOp κ → Bool
  | .exchangeRx e d | .exchangeRxWeak e d => (e.opened || !d.opened) && (e.opening || !d.opening)
  | .dirtyRx | .subRx | .addDiscard => true
  | o => o.isLoad

abbrev Receives {α : Type} (p : GateProg κ α) : Prop := Device.Only (fun o => o.isReceive = true) p

theorem receives_op {o : GateOp κ} (ho : o.isReceive = true) : Receives (.op o : GateProg κ o.Ans) := .call o _ ho fun r => .ret r

theorem loads_receives {α : Type} {p : GateProg κ α} (hp : Loads p) : Receives p :=
  hp.mono fun o ho => by cases o <;> simp_all [GateOp.isReceive, GateOp.isLoad]

/-- An exchange that sets neither flag. -/
theorem receives_exchange {e d : RxState} (hopened : d.opened = true → e.opened = true)
    (hopening : d.opening = true → e.opening = true) : Receives (exchangeRxWeak e d : GateProg κ (Option RxState)) := by
  refine receives_op ?_
  simp only [GateOp.isReceive, Bool.and_eq_true, Bool.or_eq_true, Bool.not_eq_true']
  exact ⟨by cases h : d.opened <;> simp_all, by cases h : d.opening <;> simp_all⟩

theorem receives_halt {α : Type} : Receives (gateHalt : GateProg κ α) := .call _ _ rfl fun r => nomatch r

theorem receives_tryClear (fuel : ℕ) : Receives (gateTryClearRxDirty fuel : GateProg κ Unit) := by
  induction fuel with
  | zero => exact receives_halt
  | succ fuel ih =>
    refine (receives_op rfl).bind fun state => ?_
    split
    · exact .ret _
    · refine (loads_receives loads_hasPending).bind fun pending => ?_
      split
      · exact .ret _
      · refine (receives_exchange (by simp) (by simp)).bind fun r => ?_
        cases r with
        | none => exact .ret _
        | some _ => exact ih

theorem receives_cancelOpening (fuel : ℕ) : Receives (gateCancelRxOpening fuel : GateProg κ Unit) := by
  refine (receives_op rfl).bind fun state => ?_
  induction fuel generalizing state with
  | zero => exact receives_halt
  | succ fuel ih =>
    rw [gateCancelRxOpeningFrom]
    split
    · exact .ret _
    · refine (receives_exchange (by simp) (by simp)).bind fun r => ?_
      cases r with
      | none => exact receives_tryClear fuel
      | some found => exact ih found

theorem receives_closeAdmission (fuel : ℕ) : Receives (gateCloseRxAdmission fuel : GateProg κ Unit) := by
  refine (receives_op rfl).bind fun state => ?_
  induction fuel generalizing state with
  | zero => exact receives_halt
  | succ fuel ih =>
    rw [gateCloseRxAdmissionFrom]
    split
    · exact .ret _
    · refine (receives_exchange (by simp) (by simp)).bind fun r => ?_
      cases r with
      | none => exact receives_tryClear fuel
      | some found => exact ih found

theorem receives_registerBoundary (fuel : ℕ) (state : RxState) : Receives (gateRegisterBoundary fuel state : GateProg κ Bool) := by
  induction fuel generalizing state with
  | zero => exact receives_halt
  | succ fuel ih =>
    refine (receives_exchange (by simp [boundaryState]) (by simp [boundaryState])).bind fun r => ?_
    cases r with
    | none => exact .ret _
    | some found => exact ih found

theorem receives_boundary (fuel : ℕ) : Receives (gateMarkRxBoundaryStale fuel : GateProg κ Unit) := by
  refine (receives_op rfl).bind fun state => (receives_registerBoundary fuel state).bind fun registered => ?_
  refine (receives_op rfl).bind fun _ => ?_
  split
  · exact (receives_op rfl).bind fun _ => receives_tryClear fuel
  · exact receives_tryClear fuel

theorem receives_noteRx (fuel : ℕ) : Receives (usbCdcSessionGateNoteRx fuel : GateProg κ Unit) := by
  have hregister : ∀ fuel state, Receives (noteRxRegister fuel state : GateProg κ (Option Bool)) := by
    intro fuel
    induction fuel with
    | zero => exact fun _ => receives_halt
    | succ fuel ih =>
      intro state
      rw [noteRxRegister]
      split
      · exact .ret _
      · split
        · exact .ret _
        · refine (receives_exchange (by exact fun h => h) (by exact fun h => h)).bind fun r => ?_
          cases r with
          | none => exact .ret _
          | some found => exact ih found
  refine (receives_op rfl).bind fun state => (hregister fuel state).bind fun r => ?_
  cases r with
  | none => exact .ret _
  | some registered =>
    refine (receives_op rfl).bind fun _ => (receives_op rfl).bind fun _ => ?_
    split
    · exact receives_op rfl
    · exact .ret _

end Receives

section Drains

/-- The operation works on the receive words, or on the drained epoch. -/
def GateOp.isDrain : GateOp κ → Bool
  | .exchangeDrainedWeak _ _ => true
  | o => o.isReceive

abbrev Drains {α : Type} (p : GateProg κ α) : Prop := Device.Only (fun o => o.isDrain = true) p

theorem receives_drains {α : Type} {p : GateProg κ α} (hp : Receives p) : Drains p :=
  hp.mono fun o ho => by cases o <;> simp_all [GateOp.isDrain, GateOp.isReceive, GateOp.isLoad]

theorem drains_markRxDrained (epoch : κ) (fuel : ℕ) : Drains (usbCdcSessionGateMarkRxDrained epoch fuel) := by
  have hfrom : ∀ fuel current, Drains (markRxDrainedFrom epoch fuel current) := by
    intro fuel
    induction fuel with
    | zero => exact fun _ => receives_drains receives_halt
    | succ fuel ih =>
      intro current
      rw [markRxDrainedFrom]
      split
      · exact .ret _
      · refine (Device.Only.call (P := fun o : GateOp κ => o.isDrain = true) _ _ rfl fun r => .ret r).bind fun r => ?_
        cases r with
        | none => exact .ret _
        | some found => exact ih found
  exact (receives_drains (receives_op rfl)).bind fun current => (hfrom fuel current).bind fun _ => receives_drains (receives_tryClear fuel)

end Drains

section Opens

/-- The operation reserves or publishes a session, moves the phase, or works on the receive words. -/
def GateOp.isOpens : GateOp κ → Bool
  | .exchangePhase _ _ | .exchangeRx _ _ => true
  | o => o.isReceive

abbrev Opens {α : Type} (p : GateProg κ α) : Prop := Device.Only (fun o => o.isOpens = true) p

theorem opens_op {o : GateOp κ} (ho : o.isOpens = true) : Opens (.op o : GateProg κ o.Ans) := .call o _ ho fun r => .ret r

theorem receives_opens {α : Type} {p : GateProg κ α} (hp : Receives p) : Opens p :=
  hp.mono fun o ho => by cases o <;> simp_all [GateOp.isOpens, GateOp.isReceive, GateOp.isLoad]

theorem opens_openFailed (fuel : ℕ) : Opens (openFailed fuel : GateProg κ Bool) :=
  (receives_opens (receives_cancelOpening fuel)).bind fun _ => .ret _

theorem opens_openPublish (fuel : ℕ) : Opens (openPublish fuel : GateProg κ Bool) := by
  refine (opens_op rfl).bind fun phase => ?_
  split
  · exact opens_openFailed fuel
  · refine (opens_op rfl).bind fun r => ?_
    cases r with
    | some _ => exact opens_openFailed fuel
    | none =>
      refine (opens_op rfl).bind fun phase => ?_
      split
      · exact (receives_opens (receives_boundary fuel)).bind fun _ => .ret _
      · exact .ret _

theorem opens_openReserve (fuel : ℕ) : Opens (openReserve fuel : GateProg κ Bool) := by
  refine (opens_op rfl).bind fun r => ?_
  cases r with
  | some _ => exact .ret _
  | none =>
    refine (opens_op rfl).bind fun phase => ?_
    cases phase with
    | closed =>
      refine (opens_op rfl).bind fun r => ?_
      cases r with
      | none => exact opens_openPublish fuel
      | some found =>
        dsimp only
        split
        · exact opens_openFailed fuel
        · exact opens_openPublish fuel
    | opened => exact opens_openPublish fuel
    | resetting => exact opens_openFailed fuel

theorem opens_open (fuel : ℕ) : Opens (usbCdcSessionGateOpen fuel : GateProg κ Bool) := by
  refine (opens_op rfl).bind fun phase => ?_
  split
  · exact .ret _
  · split
    · refine (receives_opens <| loads_receives loads_rxAdmissionIsOpen).bind fun admitted => ?_
      split
      · exact (receives_opens <| loads_receives loads_hasPending).bind fun _ => .ret _
      · exact opens_openReserve fuel
    · exact opens_openReserve fuel

end Opens

end M5DayLog
