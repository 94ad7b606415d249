import M5DayLog.Config
import M5DayLog.Lib.Fat

/-! The recorder's lifecycle: its states, the transitions between them, and the line that records a transition in
the event log. -/

namespace M5DayLog

open Bytes Fat

inductive RecorderState
  | boot
  | recover
  | recording
  | usbPrepare
  | usbSync
  | remount
  | lowBatteryStop
  | error
  deriving DecidableEq

inductive RecorderReason
  | none
  | boot
  | recovery
  | sdMount
  | sdWrite
  | sdFlush
  | micInit
  | i2sRead
  | dmaOverrun
  | bufferOverflow
  | lowBattery
  | manifest
  | finalize
  | internal
  | usb
  deriving DecidableEq

structure StateMachine where
  state : RecorderState
  reason : RecorderReason
  transitionCount : ℕ
  deriving DecidableEq

def recorderStateIsTerminal (s : RecorderState) : Bool := s = .lowBatteryStop ∨ s = .error

/-- `ERROR` is absorbing, and supersedes a low-battery stop; every other step is one of the lifecycle. -/
def recorderStateTransitionAllowed (source target : RecorderState) : Bool :=
  if source = .error then false
  else if source = target then true
  else if target = .error then true
  else if recorderStateIsTerminal source then false
  else
    match source with
    | .boot => target = .recover
    | .recover => target = .recording
    | .recording => target = .usbPrepare ∨ target = .lowBatteryStop
    | .usbPrepare => target = .usbSync
    | .usbSync => target = .remount
    | .remount => target = .recover
    | .lowBatteryStop | .error => false

def StateMachine.init : StateMachine := ⟨.boot, .boot, 0⟩

def recorderStateTransition (m : StateMachine) (next : RecorderState) (reason : RecorderReason) : Option StateMachine :=
  if !recorderStateTransitionAllowed m.state next then none
  else if m.state ≠ next then some ⟨next, reason, m.transitionCount + 1⟩
  else some { m with reason := reason }

/-- Nothing leaves the error state. -/
theorem recorderStateTransition_error {m : StateMachine} (next : RecorderState) (reason : RecorderReason)
    (h : m.state = .error) : recorderStateTransition m next reason = none := by
  simp [recorderStateTransition, recorderStateTransitionAllowed, h]

theorem recorderStateTransition_state {m m' : StateMachine} {next : RecorderState} {reason : RecorderReason}
    (h : recorderStateTransition m next reason = some m') : m'.state = next := by
  unfold recorderStateTransition at h
  split_ifs at h with _ hstate
  · exact Option.some.inj h ▸ rfl
  · exact Option.some.inj h ▸ not_not.mp hstate

def recorderStateStr : RecorderState → Bytes
  | .boot => lit "BOOT"
  | .recover => lit "RECOVER"
  | .recording => lit "RECORDING"
  | .usbPrepare => lit "USB_PREPARE"
  | .usbSync => lit "USB_SYNC"
  | .remount => lit "REMOUNT"
  | .lowBatteryStop => lit "LOW_BATTERY_STOP"
  | .error => lit "ERROR"

def recorderReasonStr : RecorderReason → Bytes
  | .none => lit "none"
  | .boot => lit "boot"
  | .recovery => lit "recovery"
  | .sdMount => lit "sd-mount"
  | .sdWrite => lit "sd-write"
  | .sdFlush => lit "sd-flush"
  | .micInit => lit "mic-init"
  | .i2sRead => lit "i2s-read"
  | .dmaOverrun => lit "dma-overrun"
  | .bufferOverflow => lit "buffer-overflow"
  | .lowBattery => lit "low-battery"
  | .manifest => lit "manifest"
  | .finalize => lit "finalize"
  | .internal => lit "internal"
  | .usb => lit "usb"

end M5DayLog
