import M5DayLog.Lib.Threads
import Mathlib.Data.Rat.Defs

/-! The PC's release of a synchronised Device: the session gate, on which every Device I/O takes a lease, and the
coordinator that synchronises, seals the gate, locks the volume and asks the Device to let go of its storage. The port to
the Device and the host answers or raises as it likes. -/

namespace M5DayLog

open Threads

section Gate

/-- The exceptions, by what the coordinator tells apart. `baseException` is one that `except Exception` lets through. -/
inductive ReleaseExc
  | wrongTarget
  | unsupportedTarget
  | alreadyRemoved
  | hostQuiesceError
  | releaseTimeout
  | volumeBusy
  | volumeLockError
  | volumeDismountError
  | releaseRejected
  | releaseIndeterminate
  | gateClosed
  | valueError
  | exception
  | baseException
  deriving DecidableEq

inductive GateState
  | opened
  | sealedForRelease
  | hostQuiesced
  | releaseAccepted
  | released
  deriving DecidableEq

/-- The order in which a session goes through its states. -/
def GateState.rank : GateState → ℕ
  | opened => 0
  | sealedForRelease => 1
  | hostQuiesced => 2
  | releaseAccepted => 3
  | released => 4

structure UsbSessionIoGate where
  ordinary : ℕ
  control : Bool
  drained : Bool
  state : GateState
  deriving DecidableEq

namespace UsbSessionIoGate

def init : UsbSessionIoGate := ⟨0, false, false, .opened⟩

/-- The blocks that hold the gate's condition, one by one. `seal` stands for its own block up to the first wait, and
`sealResume` for what follows each wait. -/
inductive Op
  | admission
  | leave
  | seal (timeoutS : ℚ)
  | sealResume (deadline : ℚ)
  | control
  | endControl
  | hostQuiesced
  | accepted
  | released
  deriving DecidableEq

/-- A block raises or goes through, and answers the deadline of a wait that it leaves to come. -/
abbrev Ans := Except ReleaseExc (Option ℚ)

/-- Drained, out of time, or to be waited for. -/
def drain (gate : UsbSessionIoGate) (deadline now : ℚ) : Ans × UsbSessionIoGate :=
  if gate.ordinary = 0 then (.ok none, { gate with drained := true })
  else if deadline - now ≤ 0 then (.error .releaseTimeout, gate)
  else (.ok (some deadline), gate)

/-- One block, with what the clock shows at its start and at its end. -/
def act (gate : UsbSessionIoGate) : Op → (start now : ℚ) → Ans × UsbSessionIoGate
  | .admission, _, _ =>
    if gate.state ≠ .opened then (.error .gateClosed, gate) else (.ok none, { gate with ordinary := gate.ordinary + 1 })
  | .leave, _, _ => (.ok none, { gate with ordinary := gate.ordinary - 1 })
  | .seal timeoutS, start, now =>
    if gate.state ≠ .opened then (.error .gateClosed, gate)
    else drain { gate with state := .sealedForRelease } (start + timeoutS) now
  | .sealResume deadline, _, now => gate.drain deadline now
  | .control, _, _ =>
    if gate.state ≠ .sealedForRelease ∨ !gate.drained ∨ gate.control then (.error .gateClosed, gate)
    else (.ok none, { gate with control := true })
  | .endControl, _, _ => (.ok none, { gate with control := false })
  | .hostQuiesced, _, _ =>
    if gate.state ≠ .sealedForRelease ∨ !gate.control then (.error .gateClosed, gate)
    else (.ok none, { gate with state := .hostQuiesced })
  | .accepted, _, _ =>
    if gate.state ≠ .hostQuiesced ∨ !gate.control then (.error .gateClosed, gate)
    else (.ok none, { gate with state := .releaseAccepted })
  | .released, _, _ =>
    if gate.state ≠ .releaseAccepted then (.error .gateClosed, gate) else (.ok none, { gate with state := .released })

end UsbSessionIoGate

end Gate

section Port

structure EjectTarget where
  expectedDeviceId : String
  mountRoot : String
  volumeGuid : String
  diskNumber : ℤ
  diskInstanceId : String
  ejectInstanceId : String
  usbPhysicalInstanceId : String
  deriving DecidableEq

structure SyncSummary where
  copied : ℕ
  reused : ℕ
  conflicts : ℕ
  deriving DecidableEq

structure AckFlushResult where
  handlesClosed : Bool
  deriving DecidableEq

inductive Transport
  | msc
  | cdc
  deriving DecidableEq

/-- The calls out of the gate: the port, the callables that a run is given, the clock, and the work done under a lease. -/
inductive PortOp
  | deviceId
  | sync
  | ackFlush
  | cdcMutations
  | resolveTarget (mountRoot expectedDeviceId : String)
  | revalidateTarget (target : EjectTarget) (cdcPort : String)
  | volumeAvailable (target : EjectTarget)
  | quiesce (target : EjectTarget)
  | enter
  | exit (raised : Option ReleaseExc)
  | uuid4
  | releaseStorage (cdcPort attemptId : String) (target : EjectTarget)
  | volumeDisappeared (target : EjectTarget)
  | clock
  | sleep (seconds : ℚ)
  | work (transport : Transport)
  deriving DecidableEq

/-- What a call returns where it does not raise. `exit` says whether it swallows an exception, and `ackFlush` may return
an object of another type. -/
abbrev PortOp.Val : PortOp → Type
  | deviceId | uuid4 => String
  | sync => SyncSummary
  | ackFlush => Option AckFlushResult
  | resolveTarget _ _ => EjectTarget
  | volumeAvailable _ | volumeDisappeared _ | exit _ => Bool
  | clock => ℚ
  | _ => Unit

inductive ReleaseOp
  | gate (o : UsbSessionIoGate.Op)
  | port (o : PortOp)
  | halt
  deriving DecidableEq

abbrev ReleaseOp.Ans : ReleaseOp → Type
  | gate _ => UsbSessionIoGate.Ans
  | port o => Except ReleaseExc o.Val
  | halt => Empty

/-- What is left open at a step: the answer of the port to every call, and the clock. -/
structure Answers where
  port : (o : PortOp) → Except ReleaseExc o.Val
  start : ℚ
  now : ℚ

def releaseAct : (o : ReleaseOp) → Answers → UsbSessionIoGate → Option (o.Ans × UsbSessionIoGate)
  | .gate o, c, gate => some (gate.act o c.start c.now)
  | .port o, c, gate => some (c.port o, gate)
  | .halt, _, _ => none

end Port

section Run

/-- The local variables of a run that its handler reads. -/
structure Locals where
  attemptId : Option String := none
  target : Option EjectTarget := none
  deriving DecidableEq

/-- An exception, with the variables as they are where it is raised. -/
structure Raised where
  exc : ReleaseExc
  locals : Locals
  deriving DecidableEq

abbrev ReleaseM := ExceptT Raised (Prog ReleaseOp ReleaseOp.Ans)

def raising {α : Type} (locals : Locals) (p : Prog ReleaseOp ReleaseOp.Ans (Except ReleaseExc α)) : ReleaseM α :=
  ExceptT.mk do
    let r ← p
    return r.mapError fun e => ⟨e, locals⟩

def port (locals : Locals) (o : PortOp) : ReleaseM o.Val := raising locals (.op (ReleaseOp.port o))

def block (locals : Locals) (o : UsbSessionIoGate.Op) : ReleaseM (Option ℚ) := raising locals (.op (ReleaseOp.gate o))

/-- `with gate.ordinary(transport)`. -/
def ordinary {α : Type} (locals : Locals) (body : ReleaseM α) : ReleaseM α := do
  let _ ← block locals .admission
  ExceptT.mk do
    let r ← body.run
    let _ ← Prog.op (ReleaseOp.gate .leave)
    return r

def sealWait (locals : Locals) : ℕ → ℚ → ReleaseM Unit
  | 0, _ => ExceptT.mk (.call .halt fun r => nomatch r)
  | fuel + 1, deadline => do
    match ← block locals (.sealResume deadline) with
    | none => return ()
    | some deadline => sealWait locals fuel deadline

def UsbSessionIoGate.seal (locals : Locals) (timeoutS : ℚ) (fuel : ℕ) : ReleaseM Unit := do
  if timeoutS < 0 then throw ⟨.valueError, locals⟩
  else
    match ← block locals (.seal timeoutS) with
    | none => return ()
    | some deadline => sealWait locals fuel deadline

/-- `with gate.release_control()`. -/
def releaseControl {α : Type} (locals : Locals) (body : ReleaseM α) : ReleaseM α := do
  let _ ← block locals .control
  ExceptT.mk do
    let r ← body.run
    let _ ← Prog.op (ReleaseOp.gate .endControl)
    return r

/-- `with self.port.quiesce(target)`: the volume is locked from `enter` to `exit`. Nothing is returned where the exit has
swallowed an exception. -/
def withVolume {α : Type} (locals : Locals) (target : EjectTarget) (body : ReleaseM α) : ReleaseM (Option α) := do
  port locals (.quiesce target)
  port locals .enter
  ExceptT.mk do
    match ← body.run with
    | .ok a =>
      let left ← (port locals (.exit none)).run
      return left.map fun _ => some a
    | .error e =>
      let left ← (port locals (.exit (some e.exc))).run
      return left.bind fun swallowed => if swallowed then .ok none else .error e

/-- `try ... except Exception`. -/
def exceptException {α : Type} (body : ReleaseM α) (handler : Raised → α) : ReleaseM α := ExceptT.mk do
  match ← body.run with
  | .ok a => return .ok a
  | .error e => return if e.exc = .baseException then .error e else .ok (handler e)

inductive ReleaseStatus
  | syncInterrupted
  | syncCompleteReleaseFailed
  | syncCompleteReleased
  deriving DecidableEq

inductive ReleaseReason
  | syncConflict
  | syncError
  | released
  | wrongTarget
  | unsupportedTarget
  | alreadyRemovedUnproven
  | releaseRejected
  | indeterminate
  | busy
  | lockFailed
  | dismountFailed
  | timeout
  | gateClosed
  | releaseError
  deriving DecidableEq

structure ReleaseOutcome where
  status : ReleaseStatus
  reason : ReleaseReason
  attemptId : Option String := none
  target : Option EjectTarget := none
  deriving DecidableEq

def ReleaseOutcome.success (outcome : ReleaseOutcome) : Bool := outcome.status = .syncCompleteReleased

def ReleaseExc.reason : ReleaseExc → ReleaseReason
  | wrongTarget => .wrongTarget
  | unsupportedTarget => .unsupportedTarget
  | alreadyRemoved => .alreadyRemovedUnproven
  | releaseRejected => .releaseRejected
  | releaseIndeterminate => .indeterminate
  | volumeBusy => .busy
  | volumeLockError => .lockFailed
  | volumeDismountError => .dismountFailed
  | releaseTimeout => .timeout
  | gateClosed => .gateClosed
  | hostQuiesceError | valueError | exception | baseException => .releaseError

structure SyncReleaseCoordinator where
  timeoutS : ℚ
  pollIntervalS : ℚ
  timeout_pos : 0 < timeoutS
  poll_pos : 0 < pollIntervalS

/-- The arguments of a run; the two callables are optional. -/
structure RunArgs where
  mountRoot : String
  cdcPort : String
  ackFlush : Bool
  cdcMutations : Bool
  deriving DecidableEq

/-- No release-side I/O before the synchronisation has returned: the early outcome, or the id of the Device. -/
def syncStage : ReleaseM (ReleaseOutcome ⊕ String) :=
  exceptException
    (do
      let (expectedId, summary) ← ordinary {} (do
        let expectedId ← port {} .deviceId
        let summary ← port {} .sync
        return (expectedId, summary))
      if summary.conflicts ≠ 0 then return .inl ⟨.syncInterrupted, .syncConflict, none, none⟩ else return .inr expectedId)
    fun _ => .inl ⟨.syncInterrupted, .syncError, none, none⟩

def ackStage : ReleaseM Unit :=
  ordinary {} do
    let ack ← port {} .ackFlush
    if ack.any (·.handlesClosed) then return () else throw ⟨.hostQuiesceError, {}⟩

def targetStage (args : RunArgs) (expectedId : String) : ReleaseM EjectTarget :=
  ordinary {} do
    let target ← port {} (.resolveTarget args.mountRoot expectedId)
    port { target } (.revalidateTarget target args.cdcPort)
    let available ← port { target } (.volumeAvailable target)
    if available then return target else throw ⟨.alreadyRemoved, { target }⟩

/-- Look for the volume until it has gone or the deadline is over. -/
def pollRemoval (coordinator : SyncReleaseCoordinator) (locals : Locals) (target : EjectTarget) (deadline : ℚ) :
    ℕ → ReleaseM ReleaseOutcome
  | 0 => ExceptT.mk (.call .halt fun r => nomatch r)
  | fuel + 1 => do
    let disappeared ← port locals (.volumeDisappeared target)
    if disappeared then
      let _ ← block locals .released
      return ⟨.syncCompleteReleased, .released, locals.attemptId, locals.target⟩
    else
      let now ← port locals .clock
      if deadline ≤ now then throw ⟨.releaseTimeout, locals⟩
      else
        let now ← port locals .clock
        port locals (.sleep (min coordinator.pollIntervalS (max 0 (deadline - now))))
        pollRemoval coordinator locals target deadline fuel

def releaseStage (coordinator : SyncReleaseCoordinator) (args : RunArgs) (target : EjectTarget) (attemptId : String)
    (fuel : ℕ) : ReleaseM (Option ReleaseOutcome) :=
  let locals : Locals := ⟨attemptId, target⟩
  releaseControl locals <| withVolume locals target do
    let _ ← block locals .hostQuiesced
    port locals (.releaseStorage args.cdcPort attemptId target)
    let _ ← block locals .accepted
    let now ← port locals .clock
    pollRemoval coordinator locals target (now + coordinator.timeoutS) fuel

def runStages (coordinator : SyncReleaseCoordinator) (args : RunArgs) (expectedId : String) (fuel : ℕ) :
    ReleaseM (Option ReleaseOutcome) := do
  (if args.ackFlush then ackStage else pure () : ReleaseM Unit)
  (if args.cdcMutations then ordinary {} (port {} .cdcMutations) else pure () : ReleaseM Unit)
  let target ← targetStage args expectedId
  UsbSessionIoGate.seal { target } coordinator.timeoutS fuel
  let attemptId ← port { target } .uuid4
  releaseStage coordinator args target attemptId fuel

def SyncReleaseCoordinator.run (coordinator : SyncReleaseCoordinator) (args : RunArgs) (fuel : ℕ) :
    ReleaseM (Option ReleaseOutcome) := do
  match ← syncStage with
  | .inl outcome => return outcome
  | .inr expectedId =>
    exceptException (runStages coordinator args expectedId fuel)
      fun e => some ⟨.syncCompleteReleaseFailed, e.exc.reason, e.locals.attemptId, e.locals.target⟩

end Run

section Calls

/-- The callers of a gate: runs of coordinators, and other Device I/O under a lease. -/
inductive ReleaseCall
  | run (coordinator : SyncReleaseCoordinator) (args : RunArgs)
  | lease (transport : Transport)

abbrev ReleaseCall.Ret : ReleaseCall → Type
  | run _ _ => Except Raised (Option ReleaseOutcome)
  | lease _ => Except Raised Unit

def releaseBody : (c : ReleaseCall) → (fuel : ℕ) → Prog ReleaseOp ReleaseOp.Ans c.Ret
  | .run coordinator args, fuel => coordinator.run args fuel
  | .lease transport, _ => ordinary {} (port {} (.work transport))

def releaseCode (ι : Type) : Code ι ReleaseOp ReleaseOp.Ans Answers UsbSessionIoGate ReleaseCall ReleaseCall.Ret Unit where
  act := releaseAct
  may _ _ _ _ := true
  body c _ := releaseBody c
  after _ _ l := l

end Calls

end M5DayLog
