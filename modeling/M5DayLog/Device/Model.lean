import M5DayLog.Recorder.Writer
import M5DayLog.Lib.Threads

/-! The Device's tasks share static variables, two event groups and the NVS partition. Here are this memory, the atomic
operations on it, and the parts that every task uses: the lifecycle of the recorder, the durable shutdown state and the
record of a wake recovery. The hardware, ESP-IDF and the card answer as they like. -/

namespace M5DayLog

open Threads Bytes Fat

section Memory

/-- `shutdown_lifecycle_state_t`. -/
inductive Lifecycle
  | normal
  | armed
  | hostUnresolved
  | wakeRecoveryPending
  deriving DecidableEq

/-- The shutdown state is one of an armed shutdown. -/
def Lifecycle.isArmed (l : Lifecycle) : Bool := l = .armed ∨ l = .wakeRecoveryPending

/-- What outlives the power: the shutdown state, and whether an RTC correction is stored whose event is still to be
written. -/
structure Nvs where
  lifecycle : Lifecycle
  rtcPending : Bool
  deriving DecidableEq

inductive DeviceTask
  | main
  | base
  | writer
  | capture
  | battery
  | usb
  | tinyusb
  | cdc
  deriving DecidableEq

/-- The static variables of boolean type, and of the handles whether they are set. `usbDeviceFsReleased` is the one of
`usb_msc_ownership.c`, `storageCallback` says that the callback of that file is registered, and `driver` that the TinyUSB
task runs. -/
inductive DeviceFlag
  | manualResumePending
  | deviceRecoveryComplete
  | freshRecordingStarted
  | stateLock
  | recEvents
  | stateEventsReady
  | segRecId
  | rtcLock
  | rtcPending
  | mounted
  | usbReleaseRequested
  | deviceFsReleased
  | storage
  | mscDriverInit
  | storageCallback
  | usbEvents
  | initialized
  | starting
  | started
  | storageUsbOwned
  | hostOwned
  | releasePending
  | releaseWaitingResponse
  | provisionalAttached
  | publishTriggered
  | prepareDisconnected
  | transferAuthorized
  | hostSessionDetached
  | physicalSessionCutoff
  | wavFinalized
  | manifestCommitted
  | usbDeviceFsReleased
  | driver
  deriving DecidableEq

/-- The bits of the recorder's event group, then those of the USB one. -/
inductive DeviceBit
  | slotFull
  | stop
  | writerReady
  | recordingReady
  | writerFinalized
  | captureDone
  | batteryDone
  | attach
  | hostOwned
  | releaseRequested
  | releaseQuiesced
  | failed
  | hostReattached
  deriving DecidableEq

/-- `asleep` once deep sleep has been entered, from which only a boot leads out. -/
structure Capsule where
  nvs : Nvs
  flag : DeviceFlag → Bool
  bit : DeviceBit → Bool
  machine : StateMachine
  attemptId : Bytes
  spawned : DeviceTask → Bool
  asleep : Bool

/-- Memory at power-on. -/
def Capsule.boot (nvs : Nvs) : Capsule := ⟨nvs, fun _ => false, fun _ => false, .init, [], fun t => t = .main, false⟩

end Memory

section Operations

inductive MscCallback
  | testUnitReady
  | capacity
  | read10
  | write10
  deriving DecidableEq

/-- Calls out of the modelled code whose only effect here is the answer. -/
inductive PlatformStep
  | powerEnableHold
  | nvsInit
  | disableWakeupSource
  | releaseHold
  | createMutex
  | createEventGroup
  | statusLedInit
  | powerInit
  | readBattery
  | batteryLow
  | pdmCaptureInit
  | pdmCaptureDeinit
  | bufferLoss
  | slotFull
  | spiBusInitialize
  | sdspiHostInit
  | sdspiHostInitDevice
  | sdmmcCardInit
  | mscInstallDriver
  | mscUninstallDriver
  | mscNewStorage
  | mscDeleteStorage
  | mscSetStorageCallback
  | mkdir
  | rtcSyncSystemClock
  | rtcRecoverEvent
  | rtcMutation
  | driverInstall
  | driverUninstall
  | tudConnect
  | tudDisconnect
  | realMsc (cb : MscCallback)
  | tudMscSetSense
  | cdcProtocolInit
  | cdcAcmInit
  | cdcCloseSession
  | cdcResetSession
  | cdcOpenSession
  | flushScsiTrace
  | delay
  deriving DecidableEq

/-- The critical sections of `sd_mount.c` that look at or change more than one variable. -/
inductive SdOp
  | setMounted
  | setUnmounted
  | releaseForUsb
  | transferReady
  | releaseReady
  | noteUsbOwned
  | beginUnmount
  deriving DecidableEq

inductive TransitionResult
  | done
  | refused
  | appendFailed
  deriving DecidableEq

/-- How a read of the microphone ends, and whether the driver reports lost DMA buffers with it. -/
structure CaptureRead where
  error : Bool
  overflow : Bool
  deriving DecidableEq

inductive MountPoint
  | app
  | usb
  deriving DecidableEq

/-- `tinyusb_msc_event_t`. -/
inductive StorageEvent
  | mountStart (mountPoint : MountPoint)
  | mountComplete (mountPoint : MountPoint)
  | mountFailed
  | formatRequired
  | formatFailed
  deriving DecidableEq

/-- The operations. `nvsRead` and `rtcRead` answer `none` for an error; `card` is a call of the writer that touches the card
or the pipeline only, and `setStorageMountPoint` also answers the events that the storage delivers during the call. -/
inductive DeviceOp
  | load (f : DeviceFlag)
  | store (f : DeviceFlag) (b : Bool)
  | nvsRead
  | nvsWrite (l : Lifecycle)
  | rtcRead
  | rtcSet
  | rtcClear
  | machineInit
  | currentState
  | transition (next : RecorderState) (reason : RecorderReason)
  | setBits (bits : List DeviceBit)
  | clearBits (bits : List DeviceBit)
  | waitBits (bits : List DeviceBit) (clear all timed : Bool)
  | testBit (b : DeviceBit)
  | sd (o : SdOp)
  | casReleasePending
  | storeAttemptId (id : Bytes)
  | loadAttemptId
  | spawn (t : DeviceTask)
  | deleteTask (t : DeviceTask)
  | manualWake
  | deepSleep
  | pdmRead
  | pdmStop
  | setStorageMountPoint
  | card (o : WriterOp)
  | platform (p : PlatformStep)
  | halt

abbrev DeviceOp.Ans : DeviceOp → Type
  | load _ | nvsWrite _ | rtcSet | rtcClear | testBit _ | sd _ | casReleasePending | spawn _ | platform _ => Bool
  | nvsRead => Option Lifecycle
  | rtcRead | manualWake => Option Bool
  | currentState => RecorderState
  | transition .. => TransitionResult
  | waitBits .. => DeviceBit → Bool
  | loadAttemptId => Bytes
  | pdmRead | pdmStop => CaptureRead
  | setStorageMountPoint => Bool × List StorageEvent
  | card o => o.Ans
  | halt => Empty
  | _ => Unit

/-- What is left open at a step: whether the call succeeds, whether a durable write that fails has been carried out all the
same, whether a wait times out, and the answers of the hardware and the card. -/
structure DeviceChoice where
  ok : Bool
  written : Bool
  timeout : Bool
  wake : Bool
  read : CaptureRead
  events : List StorageEvent
  card : (o : WriterOp) → o.Ans

namespace Capsule

variable (s : Capsule)

def set (f : DeviceFlag) (b : Bool) : Capsule := { s with flag := Function.update s.flag f b }

def setBitsTo (bits : List DeviceBit) (b : Bool) : Capsule := { s with bit := fun i => if i ∈ bits then b else s.bit i }

/-- A durable write that reports success has been carried out. -/
def write (choice : DeviceChoice) (nvs : Nvs) : Bool × Capsule :=
  (choice.ok, if choice.ok || choice.written then { s with nvs := nvs } else s)

/-- The block of `recorder_transition_state` that holds the lock. `appended` is the answer of
`recorder_state_append_event`. -/
def transition (next : RecorderState) (reason : RecorderReason) (appended : Bool) : TransitionResult × Capsule :=
  match recorderStateTransition s.machine next reason with
  | none => (.refused, s)
  | some candidate =>
    if s.machine.state ≠ next ∧ s.flag .stateEventsReady = true ∧ appended = false then
      (.appendFailed, { s with machine := (recorderStateTransition s.machine .error .sdWrite).getD s.machine })
    else (.done, { s with machine := candidate })

def sd : SdOp → Bool × Capsule
  | .setMounted => (true, ((s.set .mounted true).set .usbReleaseRequested false).set .deviceFsReleased false)
  | .setUnmounted => (true, (s.set .mounted false).set .deviceFsReleased true)
  | .releaseForUsb =>
    if !s.flag .mounted ∨ !s.flag .storage ∨ s.flag .usbReleaseRequested then (false, s)
    else (true, (s.set .usbReleaseRequested true).set .deviceFsReleased false)
  | .transferReady => (s.flag .mounted && s.flag .usbReleaseRequested && s.flag .deviceFsReleased, s)
  | .releaseReady => (!s.flag .mounted && s.flag .usbReleaseRequested && s.flag .deviceFsReleased, s)
  | .noteUsbOwned =>
    (true, if s.flag .usbReleaseRequested && s.flag .deviceFsReleased then s.set .mounted false else s)
  | .beginUnmount => (s.flag .usbReleaseRequested, if s.flag .usbReleaseRequested then s.set .deviceFsReleased true else s)

/-- One operation of a device that is awake. -/
def act : (o : DeviceOp) → DeviceChoice → Capsule → Option (o.Ans × Capsule)
  | .load f, _, s => some (s.flag f, s)
  | .store f b, _, s => some ((), s.set f b)
  | .nvsRead, c, s => some (if c.ok then some s.nvs.lifecycle else none, s)
  | .nvsWrite l, c, s => some (s.write c { s.nvs with lifecycle := l })
  | .rtcRead, c, s => some (if c.ok then some s.nvs.rtcPending else none, s)
  | .rtcSet, c, s => some (s.write c { s.nvs with rtcPending := true })
  | .rtcClear, c, s => some (s.write c { s.nvs with rtcPending := false })
  | .machineInit, _, s => some ((), { s with machine := .init })
  | .currentState, _, s => some (s.machine.state, s)
  | .transition next reason, c, s => some (s.transition next reason c.ok)
  | .setBits bits, _, s => some ((), s.setBitsTo bits true)
  | .clearBits bits, _, s => some ((), s.setBitsTo bits false)
  | .waitBits bits clear all timed, c, s =>
    if (if all then bits.all s.bit else bits.any s.bit) then some (s.bit, if clear then s.setBitsTo bits false else s)
    else if timed && c.timeout then some (s.bit, s) else none
  | .testBit b, _, s => some (s.bit b, s)
  | .sd o, _, s => some (s.sd o)
  | .casReleasePending, _, s => some (!s.flag .releasePending, s.set .releasePending true)
  | .storeAttemptId id, _, s => some ((), { s with attemptId := id })
  | .loadAttemptId, _, s => some (s.attemptId, s)
  | .spawn t, c, s => some (c.ok, if c.ok then { s with spawned := Function.update s.spawned t true } else s)
  | .deleteTask t, _, s => some ((), { s with spawned := Function.update s.spawned t false })
  | .manualWake, c, s => some (if c.ok then some c.wake else none, s)
  | .deepSleep, _, s => some ((), { s with asleep := true })
  | .pdmRead, c, s => some (c.read, s)
  | .pdmStop, c, s => some (c.read, s)
  | .setStorageMountPoint, c, s => some ((c.ok, c.events), s)
  | .card o, c, s => some (c.card o, s)
  | .platform _, c, s => some (c.ok, s)
  | .halt, _, _ => none

/-- Nothing is carried out in deep sleep. -/
def actAwake (o : DeviceOp) (c : DeviceChoice) (s : Capsule) : Option (o.Ans × Capsule) := if s.asleep then none else act o c s

theorem flag_set (f g : DeviceFlag) (b : Bool) : (s.set f b).flag g = if g = f then b else s.flag g := by
  simp only [set, Function.update_apply]

@[simp] theorem nvs_set (f : DeviceFlag) (b : Bool) : (s.set f b).nvs = s.nvs := rfl

@[simp] theorem machine_set (f : DeviceFlag) (b : Bool) : (s.set f b).machine = s.machine := rfl

@[simp] theorem spawned_set (f : DeviceFlag) (b : Bool) : (s.set f b).spawned = s.spawned := rfl

theorem act_of_actAwake {o : DeviceOp} {c : DeviceChoice} {s : Capsule} {r : o.Ans × Capsule}
    (h : actAwake o c s = some r) : act o c s = some r := by
  unfold actAwake at h
  split at h
  case isTrue => cases h
  case isFalse => exact h

end Capsule

section Frame

def SdOp.touches : SdOp → DeviceFlag → Bool
  | .setMounted, f => f ∈ [.mounted, .usbReleaseRequested, .deviceFsReleased]
  | .setUnmounted, f => f ∈ [.mounted, .deviceFsReleased]
  | .releaseForUsb, f => f ∈ [.usbReleaseRequested, .deviceFsReleased]
  | .noteUsbOwned, f => f = .mounted
  | .beginUnmount, f => f = .deviceFsReleased
  | .transferReady, _ | .releaseReady, _ => false

/-- The flags that an operation may change. -/
def DeviceOp.touches : DeviceOp → DeviceFlag → Bool
  | .store f _, g => g = f
  | .sd o, g => o.touches g
  | .casReleasePending, g => g = .releasePending
  | _, _ => false

/-- The operations that may change what is durable. -/
def DeviceOp.durable : DeviceOp → Bool
  | .nvsWrite _ | .rtcSet | .rtcClear => true
  | _ => false

def DeviceOp.moves : DeviceOp → Bool
  | .machineInit | .transition .. => true
  | _ => false

def DeviceOp.creates : DeviceOp → Bool
  | .spawn _ | .deleteTask _ => true
  | _ => false

def DeviceOp.signals : DeviceOp → Bool
  | .setBits _ | .clearBits _ => true
  | .waitBits _ clear _ _ => clear
  | _ => false

namespace Capsule

variable {o : DeviceOp} {c : DeviceChoice} {s s' : Capsule} {r : o.Ans} {f : DeviceFlag}

theorem flag_sd {o : SdOp} (hf : o.touches f = false) : (s.sd o).2.flag f = s.flag f := by
  cases o <;> simp only [SdOp.touches, List.mem_cons, List.not_mem_nil, or_false, decide_eq_false_iff_not, not_or] at hf <;>
    simp only [sd] <;> (try split) <;> simp [flag_set, hf]

/-- The memory that an operation leaves. -/
theorem act_snd (ha : act o c s = some (r, s')) : (act o c s).map Prod.snd = some s' := by
  rw [ha]
  rfl

theorem waitBits_act {bits : List DeviceBit} {clear all timed : Bool} {r : DeviceBit → Bool}
    (ha : act (.waitBits bits clear all timed) c s = some (r, s')) :
    s' = s ∨ clear = true ∧ s' = s.setBitsTo bits false := by
  simp only [act] at ha
  by_cases hready : (if all then bits.all s.bit else bits.any s.bit) = true
  · rw [if_pos hready] at ha
    obtain rfl := congrArg Prod.snd (Option.some.inj ha)
    cases clear
    · exact Or.inl rfl
    · exact Or.inr ⟨rfl, rfl⟩
  · rw [if_neg hready, Option.ite_none_right_eq_some] at ha
    exact Or.inl (congrArg Prod.snd (Option.some.inj ha.2)).symm

/-- What an operation leaves alone. -/
structure Leaves (o : DeviceOp) (s s' : Capsule) : Prop where
  flag : ∀ f, o.touches f = false → s'.flag f = s.flag f
  nvs : o.durable = false → s'.nvs = s.nvs
  machine : o.moves = false → s'.machine = s.machine
  spawned : o.creates = false → s'.spawned = s.spawned
  bit : o.signals = false → s'.bit = s.bit

theorem act_leaves (ha : act o c s = some (r, s')) : Leaves o s s' := by
  have hs := act_snd ha
  cases o with
  | store g b =>
    obtain rfl := Option.some.inj hs
    refine ⟨fun f hf => ?_, fun _ => rfl, fun _ => rfl, fun _ => rfl, fun _ => rfl⟩
    simp only [DeviceOp.touches, decide_eq_false_iff_not] at hf
    simp only [flag_set, if_neg hf]
  | sd o =>
    obtain rfl := Option.some.inj hs
    refine ⟨fun f hf => flag_sd hf, ?_, ?_, ?_, ?_⟩ <;> intro _ <;> cases o <;> simp only [sd] <;> (try split) <;> rfl
  | casReleasePending =>
    obtain rfl := Option.some.inj hs
    refine ⟨fun f hf => ?_, fun _ => rfl, fun _ => rfl, fun _ => rfl, fun _ => rfl⟩
    simp only [DeviceOp.touches, decide_eq_false_iff_not] at hf
    simp only [flag_set, if_neg hf]
  | waitBits bits clear all timed =>
    rcases waitBits_act ha with rfl | ⟨rfl, rfl⟩
    · exact ⟨fun _ _ => rfl, fun _ => rfl, fun _ => rfl, fun _ => rfl, fun _ => rfl⟩
    · exact ⟨fun _ _ => rfl, fun _ => rfl, fun _ => rfl, fun _ => rfl, nofun⟩
  | spawn t =>
    obtain rfl := Option.some.inj hs
    dsimp only
    split <;> exact ⟨fun _ _ => rfl, fun _ => rfl, fun _ => rfl, nofun, fun _ => rfl⟩
  | nvsWrite | rtcSet | rtcClear =>
    obtain rfl := Option.some.inj hs
    simp only [write]
    split <;> exact ⟨fun _ _ => rfl, nofun, fun _ => rfl, fun _ => rfl, fun _ => rfl⟩
  | transition next reason =>
    obtain rfl := Option.some.inj hs
    have hframe : (s.transition next reason c.ok).2 = { s with machine := (s.transition next reason c.ok).2.machine } := by
      simp only [transition]
      split
      · rfl
      · split <;> rfl
    rw [hframe]
    exact ⟨fun _ _ => rfl, fun _ => rfl, nofun, fun _ => rfl, fun _ => rfl⟩
  | halt => cases ha
  | _ =>
    obtain rfl := Option.some.inj hs
    refine ⟨fun _ _ => rfl, fun _ => rfl, ?_, ?_, ?_⟩ <;> intro h <;> first | rfl | cases h

/-- A durable write leaves the old contents or the new, and the new where it reports success. -/
theorem write_cases (s : Capsule) (c : DeviceChoice) (nvs : Nvs) :
    (s.write c nvs).2 = { s with nvs := nvs } ∨ (s.write c nvs).1 = false ∧ (s.write c nvs).2 = s := by
  simp only [write]
  by_cases h : (c.ok || c.written) = true
  · rw [if_pos h]
    exact Or.inl rfl
  · rw [if_neg h]
    simp only [Bool.or_eq_true, not_or, Bool.not_eq_true] at h
    exact Or.inr ⟨h.1, rfl⟩

theorem write_eq {nvs : Nvs} {ok : Bool} (h : s.write c nvs = (ok, s')) :
    s' = { s with nvs := nvs } ∨ ok = false ∧ s' = s := by
  have hcases := write_cases s c nvs
  rwa [h] at hcases

/-- The recorder comes into a state by a transition to it that is done. -/
theorem transition_state {next target : RecorderState} {reason : RecorderReason} {appended : Bool}
    (h : (s.transition next reason appended).2.machine.state = target) :
    s.machine.state = target ∨ target = .error ∨ next = target ∧ (s.transition next reason appended).1 = .done := by
  revert h
  simp only [transition]
  cases hc : recorderStateTransition s.machine next reason with
  | none => exact Or.inl
  | some candidate =>
    dsimp only
    split
    · intro h
      cases he : recorderStateTransition s.machine .error .sdWrite with
      | none => exact Or.inl (by simpa [he] using h)
      | some m =>
        simp only [he, Option.getD_some, recorderStateTransition_state he] at h
        exact Or.inr (Or.inl h.symm)
    · intro h
      exact Or.inr (Or.inr ⟨(recorderStateTransition_state hc).symm.trans h, rfl⟩)

end Capsule

end Frame

abbrev DeviceProg := Prog DeviceOp DeviceOp.Ans

namespace DeviceProg

def load (f : DeviceFlag) : DeviceProg Bool := .op (DeviceOp.load f)
def store (f : DeviceFlag) (b : Bool) : DeviceProg Unit := .op (DeviceOp.store f b)
def platform (p : PlatformStep) : DeviceProg Bool := .op (DeviceOp.platform p)
def sd (o : SdOp) : DeviceProg Bool := .op (DeviceOp.sd o)

/-- A call whose answer is ignored. -/
def perform (p : PlatformStep) : DeviceProg Unit := do
  let _ ← platform p
  return ()

def setBits (bits : List DeviceBit) : DeviceProg Unit := .op (DeviceOp.setBits bits)
def waitBits (bits : List DeviceBit) (clear all timed : Bool) : DeviceProg (DeviceBit → Bool) :=
  .op (DeviceOp.waitBits bits clear all timed)
def spawn (t : DeviceTask) : DeviceProg Bool := .op (DeviceOp.spawn t)

/-- A loop that has used up its fuel. -/
def halt {α : Type} : DeviceProg α := .call DeviceOp.halt fun r => nomatch r

def isClear (f : DeviceFlag) : DeviceProg Bool := do
  let b ← load f
  return !b

def onlyIf (b : Bool) (p : DeviceProg Unit) : DeviceProg Unit := if b then p else return ()

/-- `p || q || ...`, from the left. -/
def anyOf : List (DeviceProg Bool) → DeviceProg Bool
  | [] => return false
  | p :: ps => do
    let b ← p
    if b then return true else anyOf ps

/-- `ESP_OK` of each step in turn, up to the first that fails. -/
def allOf : List (DeviceProg Bool) → DeviceProg Bool
  | [] => return true
  | p :: ps => do
    let b ← p
    if b then allOf ps else return false

end DeviceProg

end Operations

open DeviceProg

section Recorder

def recorderRequestStop : DeviceProg Unit := do
  let events ← load .recEvents
  onlyIf events (setBits [.stop, .slotFull])

def recorderStopRequested : DeviceProg Bool := do
  let events ← load .recEvents
  if !events then return true else .op (DeviceOp.testBit .stop)

def recorderSetEventsReady (ready : Bool) : DeviceProg Unit := do
  let lock ← load .stateLock
  onlyIf lock (store .stateEventsReady ready)

def recorderCurrentState : DeviceProg RecorderState := do
  let lock ← load .stateLock
  if lock then .op DeviceOp.currentState else return .error

def recorderTransitionState (next : RecorderState) (reason : RecorderReason) : DeviceProg Bool := do
  let lock ← load .stateLock
  if !lock then return false
  else
    let r ← Prog.op (DeviceOp.transition next reason)
    match r with
    | .done => return true
    | .refused => return false
    | .appendFailed =>
      recorderRequestStop
      return false

def recorderEnterError (reason : RecorderReason) : DeviceProg Unit := do
  let _ ← recorderTransitionState .error reason
  recorderRequestStop

/-- Deep sleep is entered only behind a released hold. -/
def recorderPowerShutdown : DeviceProg Bool := do
  let ready ← allOf [platform .disableWakeupSource, platform .releaseHold]
  if ready then
    .op DeviceOp.deepSleep
    return true
  else return false

end Recorder

section Shutdown

/-- `shutdown_armed_write`, and what its callers write. -/
def shutdownArmedWrite (l : Lifecycle) : DeviceProg Bool := .op (DeviceOp.nvsWrite l)

def shutdownArmedReadState : DeviceProg (Option Lifecycle) := .op DeviceOp.nvsRead

def shutdownArmedMarkHostUnresolved : DeviceProg Bool := shutdownArmedWrite .hostUnresolved

def shutdownArmedCommit : DeviceProg Bool := shutdownArmedWrite .armed

def shutdownArmedMarkWakeRecoveryPending : DeviceProg Bool := do
  match ← shutdownArmedReadState with
  | some .wakeRecoveryPending => return true
  | some .armed => shutdownArmedWrite .wakeRecoveryPending
  | _ => return false

def shutdownArmedCompleteWakeRecovery : DeviceProg Bool := do
  match ← shutdownArmedReadState with
  | some .wakeRecoveryPending => shutdownArmedWrite .normal
  | _ => return false

inductive BootAction
  | staysShutdown
  | normal
  | manualResume
  deriving DecidableEq

def Lifecycle.bootAction (manualWake : Bool) : Lifecycle → BootAction
  | .normal => .normal
  | .armed | .wakeRecoveryPending => if manualWake then .manualResume else .staysShutdown
  | .hostUnresolved => .staysShutdown

def shutdownArmedBootAction (manualWake : Bool) : DeviceProg (Option BootAction) := do
  let state ← shutdownArmedReadState
  return state.map (Lifecycle.bootAction manualWake)

end Shutdown

section RtcCorrection

/-- Only the durable record is loaded; the clock chip is left alone. -/
def rtcCorrectionInit : DeviceProg Bool := do
  let ready ← platform .nvsInit
  if !ready then return false
  else
    let lock ← load .rtcLock
    let made ← (if lock then pure true else platform .createMutex : DeviceProg Bool)
    if !made then return false
    else
      store .rtcLock true
      match ← Prog.op DeviceOp.rtcRead with
      | none => return false
      | some pending =>
        store .rtcPending pending
        return true

/-- Write the event of the stored correction to the card, then clear the record. -/
def rtcCorrectionFlushPendingEvent : DeviceProg Bool := do
  let lock ← load .rtcLock
  if !lock then return false
  else
    perform .rtcSyncSystemClock
    let pending ← load .rtcPending
    if !pending then return true
    else
      let recovered ← platform .rtcRecoverEvent
      if !recovered then return false
      else
        let cleared ← Prog.op DeviceOp.rtcClear
        if cleared then
          store .rtcPending false
          return true
        else return false

/-- `SET_TIME` with a time that parses: the clock is changed before the record of it is stored. -/
def rtcCorrectionApply : DeviceProg Bool := do
  let lock ← load .rtcLock
  if !lock then return false
  else
    let pending ← load .rtcPending
    if pending then return false
    else
      let changed ← platform .rtcMutation
      if !changed then return false
      else
        let stored ← Prog.op DeviceOp.rtcSet
        if stored then
          store .rtcPending true
          return true
        else return false

end RtcCorrection

section WakeRecovery

def task87WakeRecoveryInit (manualResume : Bool) : DeviceProg Unit := do
  store .manualResumePending manualResume
  store .deviceRecoveryComplete false
  store .freshRecordingStarted false

def task87WakeRecoveryPending : DeviceProg Bool := load .manualResumePending

def task87WakeRecoveryCompleteDeviceRecovery : DeviceProg Bool := do
  let refused ← anyOf [isClear .manualResumePending, load .deviceRecoveryComplete]
  if refused then return false
  else
    let done ← allOf [rtcCorrectionFlushPendingEvent, shutdownArmedMarkWakeRecoveryPending]
    if done then
      store .deviceRecoveryComplete true
      return true
    else return false

def task87WakeRecoveryNoteRecordingStarted (freshRecordingIdPresent : Bool) : DeviceProg Bool := do
  let pending ← load .manualResumePending
  if !pending then return true
  else
    let refused ← anyOf [isClear .deviceRecoveryComplete, pure !freshRecordingIdPresent]
    if refused then return false
    else
      let completed ← shutdownArmedCompleteWakeRecovery
      if completed then
        store .freshRecordingStarted true
        store .manualResumePending false
        return true
      else return false

def task87WakeRecoveryRequiresShutdown : DeviceProg Bool := load .manualResumePending

def task87WakeRecoveryUsbRearmAllowed : DeviceProg Bool := isClear .manualResumePending

end WakeRecovery

end M5DayLog
