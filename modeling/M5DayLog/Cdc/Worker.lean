import M5DayLog.Cdc.Gate

/-! The CDC worker. It reads the receive FIFO batch by batch, frames lines out of the bytes and executes each line as a
command of the session gate, while USB callbacks and the coordinator open, close and reset the session. What a command
does beyond the channel is left to the callbacks of the configuration. -/

namespace M5DayLog

open Threads

section Framer

/-- A byte in the receive FIFO. `epoch` is the last discard epoch that was published while the byte waited there, `0` while
none has been. -/
structure RxByte where
  value : UInt8
  epoch : ℕ
  deriving DecidableEq

/-- A byte of a batch, with the generation of the batch's snapshot. -/
structure BatchByte extends RxByte where
  generation : ℕ
  deriving DecidableEq

def usbCdcProtocolMaxLineBytes : ℕ := 1024

/-- The line buffer. Only a full buffer is oversized. -/
structure Framer where
  line : List BatchByte
  oversized : Bool
  length_le : line.length ≤ usbCdcProtocolMaxLineBytes + 1
  full : oversized = true → line.length = usbCdcProtocolMaxLineBytes + 1

namespace Framer

def reset : Framer := ⟨[], false, Nat.zero_le _, fun h => nomatch h⟩

/-- Without the `\r` that may stand before the line feed. -/
def payload (line : List BatchByte) : List BatchByte :=
  if line.getLast?.map (·.value) = some 13 then line.dropLast else line

/-- Take in a byte. A line feed ends the line; one that is too large is handed on as the whole buffer. -/
def feed (framer : Framer) (byte : BatchByte) : Option (List BatchByte) × Framer :=
  if byte.value ≠ 10 then
    if ho : framer.oversized then (none, framer)
    else if h : framer.line.length < usbCdcProtocolMaxLineBytes + 1 then
      (none, ⟨framer.line ++ [byte], false, by simpa using Nat.le_of_lt_succ h, fun h => nomatch h⟩)
    else (none, ⟨framer.line, true, framer.length_le, fun _ => le_antisymm framer.length_le (not_lt.mp h)⟩)
  else if framer.oversized ∨ usbCdcProtocolMaxLineBytes < (payload framer.line).length then (some framer.line, reset)
  else (some (payload framer.line), reset)

/-- Where a frame begins with the next byte. -/
def isEmpty (framer : Framer) : Bool := framer.line.isEmpty && !framer.oversized

theorem mem_payload {line : List BatchByte} {b : BatchByte} (h : b ∈ payload line) : b ∈ line := by
  unfold payload at h
  split at h
  · exact List.mem_of_mem_dropLast h
  · exact h

/-- Every byte that is kept or handed on was kept before, or is the byte itself. -/
theorem mem_feed {framer : Framer} {byte b : BatchByte}
    (h : b ∈ (framer.feed byte).2.line ∨ ∃ line, (framer.feed byte).1 = some line ∧ b ∈ line) : b ∈ framer.line ∨ b = byte := by
  unfold feed at h
  split_ifs at h
  · simpa using Or.inl h
  · simpa using h
  · simpa using Or.inl h
  · exact Or.inl (by simpa [reset] using h)
  · exact Or.inl (mem_payload (by simpa [reset] using h))

end Framer

end Framer

section Machine

inductive CdcFlag
  | connected
  | resetLine
  | openRequested
  deriving DecidableEq

/-- The operations on the transmit side, whose answers are the USB stack's. -/
inductive TxOp
  | queue (data : List UInt8)
  | queueChar (c : UInt8)
  | flush (timeoutMs : ℕ)
  | fifoDrained
  | edptBusy
  | nowTicks
  | delayTicks (ticks : UInt32)
  deriving DecidableEq

abbrev TxOp.Ans : TxOp → Type
  | queue _ | queueChar _ => ℕ
  | flush _ | fifoDrained | edptBusy => Bool
  | nowTicks => UInt32
  | delayTicks _ => Unit

/-- The operations of the channel over those of its environment. `read` answers `none` where the stack reports an error;
`receive` is the host's bytes coming in, and `process` marks the hand-over of a line to the command processor. -/
inductive CdcOp (ε : Type)
  | gate (o : GateOp ℕ)
  | env (o : ε)
  | tx (o : TxOp)
  | loadFlag (f : CdcFlag)
  | storeFlag (f : CdcFlag) (b : Bool)
  | notifyTake
  | notifyGive
  | read
  | receive (data : List UInt8)
  | loadTxCompleted
  | addTxCompleted
  | process (line : List BatchByte)

variable {ε : Type} {A : ε → Type} {X χ : Type}

abbrev CdcOp.Ans (A : ε → Type) : CdcOp ε → Type
  | gate o => o.Ans
  | env o => A o
  | tx o => o.Ans
  | loadFlag _ => Bool
  | read => Option (List RxByte)
  | loadTxCompleted => UInt32
  | storeFlag .. | notifyTake | notifyGive | receive _ | addTxCompleted | process _ => Unit

structure Cdc (X : Type) where
  gate : Gate ℕ
  flag : CdcFlag → Bool
  notified : Bool
  fifo : List RxByte
  txCompleted : UInt32
  env : X

def cdcRxChunkBytes : ℕ := 256

namespace Cdc

/-- What waits in the FIFO when an epoch is published is marked with it. -/
def published (epoch : ℕ) : GateOp ℕ → List RxByte → List RxByte
  | .addDiscard, fifo => fifo.map fun b => { b with epoch := epoch }
  | _, fifo => fifo

def txAct : (o : TxOp) → ℕ → o.Ans
  | .queue _, n | .queueChar _, n => n
  | .flush _, n | .fifoDrained, n | .edptBusy, n => n != 0
  | .nowTicks, n => n.toUInt32
  | .delayTicks _, _ => ()

/-- One operation. The number chosen settles whether a weak exchange fails, how much a read takes and what the USB stack
answers. A read takes nothing only where nothing waits. -/
def act (envAct : (o : ε) → χ → X → Option (A o × X)) :
    (o : CdcOp ε) → ℕ × χ → Cdc X → Option (o.Ans A × Cdc X)
  | .gate o, (n, _), s =>
    (Gate.act o (n != 0) s.gate).map fun (r, g) => (r, { s with gate := g, fifo := published g.rxDiscardEpoch o s.fifo })
  | .env o, (_, x), s => (envAct o x s.env).map fun (r, e) => (r, { s with env := e })
  | .tx o, (n, _), s => some (txAct o n, s)
  | .loadFlag f, _, s => some (s.flag f, s)
  | .storeFlag f b, _, s => some ((), { s with flag := Function.update s.flag f b })
  | .notifyTake, _, s => if s.notified then some ((), { s with notified := false }) else none
  | .notifyGive, _, s => some ((), { s with notified := true })
  | .read, (0, _), s => some (none, s)
  | .read, (n + 1, _), s =>
    some (some (s.fifo.take (min (n + 1) cdcRxChunkBytes)), { s with fifo := s.fifo.drop (min (n + 1) cdcRxChunkBytes) })
  | .receive data, _, s => some ((), { s with fifo := s.fifo ++ data.map fun value => ⟨value, 0⟩ })
  | .loadTxCompleted, _, s => some (s.txCompleted, s)
  | .addTxCompleted, _, s => some ((), { s with txCompleted := s.txCompleted + 1 })
  | .process _, _, s => some ((), s)

def init (x : X) : Cdc X := ⟨.init, fun _ => false, false, [], 0, x⟩

end Cdc

abbrev CdcProg (A : ε → Type) := Prog (CdcOp ε) (CdcOp.Ans A)

def onGate {α : Type} (p : GateProg ℕ α) : CdcProg A α := p.lift .gate fun _ => id
def onEnv {α : Type} (p : Prog ε A α) : CdcProg A α := p.lift .env fun _ => id
def tx (o : TxOp) : CdcProg A o.Ans := .op (CdcOp.tx o)
def loadFlag (f : CdcFlag) : CdcProg A Bool := .op (CdcOp.loadFlag f)
def storeFlag (f : CdcFlag) (b : Bool) : CdcProg A Unit := .op (CdcOp.storeFlag f b)
def notifyTake : CdcProg A Unit := .op CdcOp.notifyTake
def notifyGive : CdcProg A Unit := .op CdcOp.notifyGive
def cdcacmRead : CdcProg A (Option (List RxByte)) := .op CdcOp.read
def receive (data : List UInt8) : CdcProg A Unit := .op (CdcOp.receive data)
def loadTxCompleted : CdcProg A UInt32 := .op CdcOp.loadTxCompleted
def addTxCompleted : CdcProg A Unit := .op CdcOp.addTxCompleted
def processing (line : List BatchByte) : CdcProg A Unit := .op (CdcOp.process line)

theorem onGate_bind {α β : Type} (p : GateProg ℕ α) (f : α → GateProg ℕ β) :
    (onGate (p >>= f) : CdcProg A β) = onGate p >>= fun a => onGate (f a) := Prog.lift_bind ..

/-- A loop that has used up its fuel. -/
def cdcHalt {α : Type} : CdcProg A α := onGate gateHalt

end Machine

section Response

variable {ε : Type} {A : ε → Type}

/-- What `process_line` leaves: the response text, empty where there is none, and the effect of an accepted release. -/
structure CdcReply where
  response : List UInt8
  releaseAccepted : Bool
  releaseAttemptId : List UInt8
  deriving DecidableEq

/-- The callbacks of the configuration, the active USB configuration descriptor and the length of a tick. -/
structure CdcConfig (A : ε → Type) where
  commandAdmissionOpen : Prog ε A Bool
  processLine : List UInt8 → Prog ε A CdcReply
  releaseResponseComplete : List UInt8 → Prog ε A Bool
  descriptor : List UInt8
  msToTicks : ℕ → UInt32

def cdcReleaseTxCompleteTimeoutMs : ℕ := 500
def cdcReleaseHostReadGraceMs : ℕ := 150
def retryFlushTimeoutMs : ℕ := 20
def finalFlushTimeoutMs : ℕ := 250

/-- The descriptors of a configuration, looked through for the bulk IN endpoint of the CDC data interface; `0` where there
is none. -/
def bulkInFrom : ℕ → (cdcDataInterface : Bool) → List UInt8 → UInt8
  | 0, _, _ => 0
  | fuel + 1, cdcDataInterface, desc =>
    match desc with
    | [] => 0
    | size :: rest =>
      if size < 2 ∨ desc.length < size.toNat then 0
      else
        let type := rest.headD 0
        let next := desc.drop size.toNat
        if type = 4 then
          if size < 9 then 0 else bulkInFrom fuel (desc.getD 5 0 = 10 ∧ desc.getD 3 0 = 0) next
        else if cdcDataInterface ∧ type = 5 then
          if size < 7 then 0
          else if desc.getD 2 0 &&& 0x80 ≠ 0 ∧ desc.getD 3 0 &&& 3 = 2 then desc.getD 2 0
          else bulkInFrom fuel cdcDataInterface next
        else bulkInFrom fuel cdcDataInterface next

def cdcBulkInEndpoint (desc : List UInt8) : UInt8 :=
  if desc.getD 0 0 < 9 ∨ desc.getD 1 0 ≠ 2 then 0
  else
    let total := (desc.getD 2 0).toNat + (desc.getD 3 0).toNat * 256
    if total < 9 ∨ 1024 < total then 0 else bulkInFrom total false (desc.take total)

def cdcTxSessionIsCurrent (generation : ℕ) : CdcProg A Bool :=
  onGate (usbCdcSessionGateSnapshotIsCurrent ⟨generation, true⟩)

def txIsCurrent (generation : ℕ) : CdcProg A Bool := do
  let connected ← loadFlag .connected
  if !connected then return false else cdcTxSessionIsCurrent generation

def usbCdcTxFinalInComplete (callbacksBefore callbacksAfter : UInt32) (fifoDrained endpointBusy : Bool) : Bool :=
  callbacksAfter ≠ callbacksBefore && fifoDrained && !endpointBusy

def txFinalInSampleReady (callbacksBefore : UInt32) : CdcProg A Bool := do
  let after ← loadTxCompleted
  let drained ← tx .fifoDrained
  let busy ← tx .edptBusy
  return usbCdcTxFinalInComplete callbacksBefore after drained busy

def waitFinalInFrom (generation : ℕ) (callbacksBefore timeoutTicks hostGraceTicks start : UInt32) : ℕ → CdcProg A Bool
  | 0 => cdcHalt
  | fuel + 1 => do
    let again : CdcProg A Bool := do
      let now ← tx .nowTicks
      if now - start < timeoutTicks then waitFinalInFrom generation callbacksBefore timeoutTicks hostGraceTicks start fuel
      else return false
    let current ← cdcTxSessionIsCurrent generation
    if !current then return false
    else
      let ready ← txFinalInSampleReady callbacksBefore
      if ready then
        tx (.delayTicks 1)
        let current ← cdcTxSessionIsCurrent generation
        if !current then return false
        else
          let ready ← txFinalInSampleReady callbacksBefore
          if !ready then again
          else
            tx (.delayTicks hostGraceTicks)
            let current ← cdcTxSessionIsCurrent generation
            if !current then return false else txFinalInSampleReady callbacksBefore
      else
        tx (.delayTicks 1)
        again

def usbCdcTxWaitFinalIn (generation : ℕ) (callbacksBefore timeoutTicks hostGraceTicks : UInt32) (fuel : ℕ) : CdcProg A Bool := do
  if timeoutTicks = 0 then return false
  else
    let start ← tx .nowTicks
    waitFinalInFrom generation callbacksBefore timeoutTicks hostGraceTicks start fuel

def cdcReleaseAwaitEndpoint (config : CdcConfig A) (generation : ℕ) (callbacksBefore : UInt32) (fuel : ℕ) : CdcProg A Bool :=
  if cdcBulkInEndpoint config.descriptor = 0 then return false
  else usbCdcTxWaitFinalIn generation callbacksBefore (config.msToTicks cdcReleaseTxCompleteTimeoutMs)
    (config.msToTicks cdcReleaseHostReadGraceMs) fuel

/-- Queue what is left of the response; whether all of it has been taken. -/
def writeQueue (generation : ℕ) : ℕ → List UInt8 → CdcProg A Bool
  | _, [] => return true
  | 0, _ => cdcHalt
  | fuel + 1, data => do
    let current ← txIsCurrent generation
    if !current then return false
    else
      let queued ← tx (.queue data)
      if data.length < queued then return false
      else if queued = 0 then
        let current ← txIsCurrent generation
        if !current then return false
        else
          let flushed ← tx (.flush retryFlushTimeoutMs)
          if flushed then writeQueue generation fuel data
          else
            tx (.delayTicks 1)
            writeQueue generation fuel data
      else writeQueue generation fuel (data.drop queued)

def writeNewline (generation : ℕ) : ℕ → CdcProg A Bool
  | 0 => cdcHalt
  | fuel + 1 => do
    let current ← txIsCurrent generation
    if !current then return false
    else
      let queued ← tx (.queueChar 10)
      if queued ≠ 0 then return true
      else
        let _ ← tx (.flush retryFlushTimeoutMs)
        tx (.delayTicks 1)
        writeNewline generation fuel

/-- Write a response and its line feed under the generation of its command. An accepted release also waits for the last
IN transfer. -/
def usbCdcTxWriteResponse (config : CdcConfig A) (response : List UInt8) (generation : ℕ) (releaseAccepted : Bool)
    (callbacksBefore : UInt32) (fuel : ℕ) : CdcProg A Bool := do
  let queued ← writeQueue generation fuel response
  if !queued then return false
  else
    let ended ← writeNewline generation fuel
    if !ended then return false
    else
      let current ← txIsCurrent generation
      if !current then return false
      else
        let flushed ← tx (.flush finalFlushTimeoutMs)
        if !flushed then return false
        else if releaseAccepted then
          let done ← cdcReleaseAwaitEndpoint config generation callbacksBefore fuel
          if !done then return false else cdcTxSessionIsCurrent generation
        else cdcTxSessionIsCurrent generation

def cdcWriteResponse (config : CdcConfig A) (response : List UInt8) (generation : ℕ) (releaseAccepted : Bool) (fuel : ℕ) :
    CdcProg A Bool := do
  let before ← (if releaseAccepted then loadTxCompleted else pure 0 : CdcProg A UInt32)
  usbCdcTxWriteResponse config response generation releaseAccepted before fuel

def usbCdcTxCompleteAcceptedRelease (config : CdcConfig A) (reply : CdcReply) (responseComplete : Bool) : CdcProg A Bool :=
  if !reply.releaseAccepted ∨ !responseComplete then return false
  else onEnv (config.releaseResponseComplete reply.releaseAttemptId)

end Response

section Worker

variable {ε : Type} {A : ε → Type} (config : CdcConfig A)

/-- What the worker keeps from round to round. -/
structure Worker where
  framer : Framer
  frameGeneration : ℕ

def Worker.init : Worker := ⟨.reset, 0⟩

def Worker.reset (w : Worker) : Worker := { w with framer := .reset }

/-- Execute a line as a command, if the gate still admits its generation. `false` where the lifecycle has closed admission
with it. -/
def workerCommand (line : List BatchByte) (frameGeneration fuel : ℕ) : CdcProg A Bool := do
  let admitted ← onGate (usbCdcSessionGateCommandBegin frameGeneration)
  if !admitted then return true
  else
    processing line
    let reply ← onEnv (config.processLine (line.map (·.value)))
    let connected ← loadFlag .connected
    let complete ← (if reply.response ≠ [] ∧ connected then
        cdcWriteResponse config reply.response frameGeneration reply.releaseAccepted fuel
      else pure false : CdcProg A Bool)
    onGate usbCdcSessionGateCommandEnd
    let _ ← usbCdcTxCompleteAcceptedRelease config reply complete
    onEnv config.commandAdmissionOpen

/-- The session of the batch is still the one published, and the lifecycle admits commands. -/
def batchCurrent (snapshot : SessionSnapshot ℕ) (pendingToo : Bool) : CdcProg A Bool := do
  let connected ← loadFlag .connected
  if !connected then return false
  else
    let current ← onGate (usbCdcSessionGateSnapshotIsCurrent snapshot)
    if !current then return false
    else
      let discard ← (if pendingToo then onGate usbCdcSessionGateShouldDiscardRx else pure false : CdcProg A Bool)
      if discard then return false else onEnv config.commandAdmissionOpen

def workerBytes (snapshot : SessionSnapshot ℕ) (fuel : ℕ) : List RxByte → Worker → CdcProg A Worker
  | [], w => return w
  | b :: bytes, w => do
    let reset ← loadFlag .resetLine
    let current ← (if reset then pure false else batchCurrent config snapshot false : CdcProg A Bool)
    if !current then
      storeFlag .resetLine false
      return w.reset
    else
      let frameGeneration := if w.framer.isEmpty then snapshot.generation else w.frameGeneration
      match w.framer.feed ⟨b, snapshot.generation⟩ with
      | (none, framer) => workerBytes snapshot fuel bytes ⟨framer, frameGeneration⟩
      | (some line, framer) =>
        let goes ← workerCommand config line frameGeneration fuel
        if goes then workerBytes snapshot fuel bytes ⟨framer, frameGeneration⟩
        else return ⟨.reset, frameGeneration⟩

def consumeReset (w : Worker) : CdcProg A Worker := do
  let reset ← loadFlag .resetLine
  if reset then
    storeFlag .resetLine false
    return w.reset
  else return w

/-- Read to the end of the FIFO. The snapshot and the discard epoch are taken before each read. -/
def workerBatches (total : ℕ) : ℕ → Worker → CdcProg A Worker
  | 0, _ => cdcHalt
  | fuel + 1, w => do
    let snapshot ← onGate usbCdcSessionGateSnapshot
    let discardEpoch ← onGate usbCdcSessionGateRxDiscardEpoch
    match ← cdcacmRead with
    | none => return w
    | some [] =>
      onGate (usbCdcSessionGateMarkRxDrained discardEpoch total)
      return w
    | some (b :: bytes) =>
      let w ← consumeReset w
      let current ← batchCurrent config snapshot true
      if !current then workerBatches total fuel w.reset
      else
        let w ← workerBytes config snapshot total (b :: bytes) w
        workerBatches total fuel w

/-- One turn of `usb_cdc_worker_task`, from its notification on. -/
def usbCdcWorkerTask (w : Worker) (fuel : ℕ) : CdcProg A Worker := do
  notifyTake
  let w ← consumeReset w
  workerBatches config fuel fuel w

def usbCdcProtocolCloseSession (fuel : ℕ) : CdcProg A Unit := do
  storeFlag .openRequested false
  storeFlag .connected false
  storeFlag .resetLine true
  onGate (usbCdcSessionGateClose fuel)

def usbCdcProtocolResetSession (fuel : ℕ) : CdcProg A Unit := do
  storeFlag .openRequested false
  storeFlag .connected false
  storeFlag .resetLine true
  onGate (usbCdcSessionGateReset fuel)
  onGate (usbCdcSessionGateNoteRx fuel)
  notifyGive

def openSessionWait : ℕ → CdcProg A Unit
  | 0 => cdcHalt
  | fuel + 1 => do
    let requested ← loadFlag .openRequested
    if !requested then return ()
    else
      let opened ← onGate (usbCdcSessionGateOpen fuel)
      if opened then return ()
      else
        notifyGive
        tx (.delayTicks 1)
        openSessionWait fuel

def usbCdcProtocolOpenSession (fuel : ℕ) : CdcProg A Unit := do
  storeFlag .openRequested true
  storeFlag .resetLine true
  notifyGive
  openSessionWait fuel

def usbCdcRxCallback (fuel : ℕ) : CdcProg A Unit := do
  storeFlag .connected true
  onGate (usbCdcSessionGateNoteRx fuel)
  notifyGive

def usbCdcLineStateCallback (dtr rts : Bool) : CdcProg A Unit := do
  storeFlag .connected (dtr || rts)
  storeFlag .resetLine true
  notifyGive

end Worker

section Calls

variable {ε : Type} {A : ε → Type}

/-- The worker's turns, the calls of the other tasks and callbacks, the host's bytes, and whatever the environment does. -/
inductive CdcCall (A : ε → Type)
  | worker
  | closeSession
  | resetSession
  | openSession
  | rxCallback
  | lineState (dtr rts : Bool)
  | txComplete
  | receive (data : List UInt8)
  | env (p : Prog ε A Unit)

abbrev CdcCall.Ret : CdcCall A → Type
  | worker => Worker
  | _ => Unit

def cdcBody (config : CdcConfig A) : (c : CdcCall A) → Worker → (fuel : ℕ) → CdcProg A c.Ret
  | .worker, w, fuel => usbCdcWorkerTask config w fuel
  | .closeSession, _, fuel => usbCdcProtocolCloseSession fuel
  | .resetSession, _, fuel => usbCdcProtocolResetSession fuel
  | .openSession, _, fuel => usbCdcProtocolOpenSession fuel
  | .rxCallback, _, fuel => usbCdcRxCallback fuel
  | .lineState dtr rts, _, _ => usbCdcLineStateCallback dtr rts
  | .txComplete, _, _ => addTxCompleted
  | .receive data, _, _ => receive data
  | .env p, _, _ => onEnv p

def afterCdc : (c : CdcCall A) → c.Ret → Worker → Worker
  | .worker, w, _ => w
  | _, _, w => w

/-- Only the worker's thread takes the worker's turns, and nothing else. -/
def mayCdc {ι : Type} [DecidableEq ι] (worker t : ι) : CdcCall A → Bool
  | .worker => t = worker
  | _ => t ≠ worker

variable {ι : Type} [DecidableEq ι] {X χ : Type}

def cdcCode (config : CdcConfig A) (envAct : (o : ε) → χ → X → Option (A o × X)) (worker : ι) :
    Code ι (CdcOp ε) (CdcOp.Ans A) (ℕ × χ) (Cdc X) (CdcCall A) CdcCall.Ret Worker where
  act := Cdc.act envAct
  may t c _ _ := mayCdc worker t c
  body c w fuel := cdcBody config c w fuel
  after := afterCdc

def cdcPool (ι : Type) {Seen : Type} (x : X) (seen : Seen) :
    Pool ι (CdcOp ε) (CdcOp.Ans A) (Cdc X) (CdcCall A) CdcCall.Ret Worker Seen :=
  ⟨.init x, fun _ => .idle .init, seen⟩

end Calls

end M5DayLog
