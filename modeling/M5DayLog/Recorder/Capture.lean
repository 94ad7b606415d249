import M5DayLog.Recorder.Pipeline
import M5DayLog.Recorder.State
import Mathlib.Data.UInt

/-! The capture task and the driver's receive-overflow callback. The callback counts what the driver has lost; the task drains
these counts at every read and at the teardown, and adds them to the pipeline's counters. The callback may come at any moment
at which the channel runs, and the calls of the driver may fail. -/

namespace M5DayLog.Pdm

open Bytes Device

section Machine

inductive EspErr
  | ok
  | timeout
  | fail
  deriving DecidableEq

/-- What the task calls. The lock around the pipeline is always obtained. -/
inductive CaptureOp
  | waitBits
  | resetOverflow
  | calloc
  | newChannel
  | initPdmRxMode
  | registerEventCallback
  | arm (armed : Bool)
  | enable
  | disable
  | delChannel
  | read
  | drainOverflow
  | stopRequested
  | requestStop
  | transitionRecording
  | setRecordingReady
  | setSlotFull
  | enterError (reason : RecorderReason)
  | delay
  | noteDriverOverflow (events dropBytes : UInt32)
  | noteReadStall
  | produce (data : Bytes)
  | hasFull

structure PdmOverflowSnapshot where
  events : UInt32
  dropBytes : UInt32
  deriving DecidableEq

/-- `waitBits` answers whether the writer is ready and whether a stop has been asked for. -/
abbrev CaptureOp.Ans : CaptureOp → Type
  | waitBits => Bool × Bool
  | calloc | newChannel | initPdmRxMode | registerEventCallback | enable | disable | delChannel | stopRequested
  | transitionRecording | hasFull => Bool
  | read => EspErr × Bytes
  | drainOverflow => PdmOverflowSnapshot
  | produce _ => ℕ
  | resetOverflow | arm _ | requestStop | setRecordingReady | setSlotFull | enterError _ | delay | noteDriverOverflow _ _
  | noteReadStall => Unit

/-- What the writer does to the pipeline at the same time. -/
inductive WriterCall
  | peekFull
  | releaseFull
  | noteSdWrite (latencyUs : UInt32)
  | noteSdError

def WriterCall.act (p : PcmPipeline) : WriterCall → PcmPipeline
  | peekFull => p
  | releaseFull => p.releaseFull
  | noteSdWrite latencyUs => p.noteSdWrite latencyUs
  | noteSdError => p.noteSdError

/-- What an observer of the driver sees: a callback while the capture is armed, the end of a disable, and a drain. -/
inductive PdmEvent
  | fired (size : UInt32)
  | disabled (ok : Bool)
  | drained
  deriving DecidableEq

/-- The channel runs from the moment it has been enabled until a disable has succeeded. -/
structure Capture where
  running : Bool
  ovfArmed : Bool
  ovfEvents : UInt32
  ovfDropBytes : UInt32
  pipeline : PcmPipeline
  history : List PdmEvent

def dmaScratchBytes : ℕ := 4096

/-- What comes before an operation of the task, and what the operation answers. -/
structure Timing where
  callbacks : List UInt32
  writer : List WriterCall
  ok : Bool
  err : EspErr
  data : Bytes

namespace Capture

variable (s : Capture)

def boot (backing : Fin 2 → PcmSlot) : Capture := ⟨false, false, 0, 0, .init backing, []⟩

/-- The callback, with the size of the event. -/
def recorderRxQOvfCb (size : UInt32) : Capture :=
  if s.ovfArmed then
    { s with ovfEvents := s.ovfEvents + 1, ovfDropBytes := s.ovfDropBytes + size, history := s.history ++ [.fired size] }
  else s

/-- The callbacks of the driver and the calls of the writer between two operations. -/
def env (t : Timing) : Capture :=
  let s := { s with pipeline := t.writer.foldl WriterCall.act s.pipeline }
  if s.running then t.callbacks.foldl recorderRxQOvfCb s else s

def answer (t : Timing) : (o : CaptureOp) → o.Ans × Capture
  | .waitBits => ((t.ok, t.err = .fail), s)
  | .resetOverflow => ((), { s with ovfEvents := 0, ovfDropBytes := 0, ovfArmed := false })
  | .calloc | .newChannel | .initPdmRxMode | .registerEventCallback | .delChannel | .stopRequested
  | .transitionRecording => (t.ok, s)
  | .arm armed => ((), { s with ovfArmed := armed })
  | .enable => (t.ok, { s with running := s.running || t.ok })
  | .disable => (t.ok, { s with running := s.running && !t.ok, history := s.history ++ [.disabled t.ok] })
  | .read => ((t.err, t.data.take dmaScratchBytes), s)
  | .drainOverflow =>
    (⟨s.ovfEvents, s.ovfDropBytes⟩, { s with ovfEvents := 0, ovfDropBytes := 0, history := s.history ++ [.drained] })
  | .requestStop | .setRecordingReady | .setSlotFull | .enterError _ | .delay => ((), s)
  | .noteDriverOverflow events dropBytes => ((), { s with pipeline := s.pipeline.noteDriverOverflow events dropBytes })
  | .noteReadStall => ((), { s with pipeline := s.pipeline.noteReadStall })
  | .produce data => ((s.pipeline.produce data).1, { s with pipeline := (s.pipeline.produce data).2 })
  | .hasFull => (s.pipeline.hasFull, s)

/-- Nothing happens meanwhile, and the call succeeds. -/
def calm : Timing := ⟨[], [], true, .ok, []⟩

def device : Device CaptureOp CaptureOp.Ans Capture Timing where
  act o t s := (s.env (t.getD calm)).answer (t.getD calm) o
  cut _ _ s := s

end Capture

end Machine

section Task

abbrev CaptureProg := Prog CaptureOp CaptureOp.Ans

namespace CaptureProg

def op (o : CaptureOp) : CaptureProg o.Ans := Prog.op o

end CaptureProg

open CaptureProg

structure PdmCapture where
  enabled : Bool

def pdmCaptureInit : CaptureProg (Option PdmCapture) := do
  op .resetOverflow
  let allocated ← op .calloc
  if !allocated then return none
  else
    let created ← op .newChannel
    if !created then return none
    else
      let configured ← op .initPdmRxMode
      if !configured then
        let _ ← op .delChannel
        return none
      else
        let registered ← op .registerEventCallback
        if !registered then
          let _ ← op .delChannel
          return none
        else
          op (.arm true)
          let enabled ← op .enable
          if !enabled then
            op (.arm false)
            let _ ← op .delChannel
            return none
          else return some ⟨true⟩

/-- Stop the channel, then drain. After a failed disable nothing counts as drained. -/
def pdmCaptureStopAndDrainFinal (handle : PdmCapture) : CaptureProg (Bool × PdmOverflowSnapshot × PdmCapture) := do
  let disabled ← op .disable
  if !disabled then return (false, ⟨0, 0⟩, handle)
  else
    let snap ← op .drainOverflow
    return (true, snap, ⟨false⟩)

/-- Delete the channel, and disarm the callback. -/
def pdmCaptureDelete (handle : PdmCapture) : CaptureProg (Bool × PdmCapture) := do
  let deleted ← op .delChannel
  if !deleted then return (false, handle)
  else
    op (.arm false)
    return (true, handle)

def pdmCaptureDeinit (handle : PdmCapture) : CaptureProg (Bool × PdmCapture) := do
  if handle.enabled then
    let disabled ← op .disable
    if !disabled then return (false, handle) else pdmCaptureDelete ⟨false⟩
  else pdmCaptureDelete handle

/-- `snap_pending`: the snapshot carries evidence of a loss. -/
def PdmOverflowSnapshot.pending (snap : PdmOverflowSnapshot) : Bool := snap.events != 0 || snap.dropBytes != 0

def noteOverflow (snap : PdmOverflowSnapshot) : CaptureProg Unit :=
  if snap.pending then op (.noteDriverOverflow snap.events snap.dropBytes) else return ()

/-- A read that is late or short without a loss. -/
def noteStall (err : EspErr) (got : Bytes) (snap : PdmOverflowSnapshot) : CaptureProg Unit :=
  if (err = .timeout ∨ err = .ok ∧ got.length < dmaScratchBytes) ∧ !snap.pending then op .noteReadStall else return ()

/-- The bytes of a read with a loss are not enqueued. -/
def enqueue (got : Bytes) (snap : PdmOverflowSnapshot) : CaptureProg ℕ :=
  if got ≠ [] ∧ !snap.pending then op (.produce got) else return 0

/-- The reads until a stop or a loss. `false` where the fuel has been used up. -/
def captureLoop : ℕ → CaptureProg Bool
  | 0 => return false
  | fuel + 1 => do
    let stop ← op .stopRequested
    if stop then return true
    else
      let (err, got) ← op .read
      let snap ← op .drainOverflow
      if err ≠ .ok ∧ err ≠ .timeout then
        noteOverflow snap
        op (.enterError .i2sRead)
        return true
      else
        let stop ← op .stopRequested
        if stop then
          noteStall err got snap
          noteOverflow snap
          if snap.pending then
            op (.enterError .dmaOverrun)
            return true
          else return true
        else
          noteStall err got snap
          noteOverflow snap
          let dropped ← enqueue got snap
          let full ← op .hasFull
          if snap.pending then
            op (.enterError .dmaOverrun)
            return true
          else if dropped ≠ 0 then
            op (.enterError .bufferOverflow)
            return true
          else if full then
            op .setSlotFull
            captureLoop fuel
          else captureLoop fuel

/-- Disable before the last drain, so that no callback comes after it. -/
def captureTeardown (handle : PdmCapture) : CaptureProg PdmCapture := do
  let (stopped, snap, handle) ← pdmCaptureStopAndDrainFinal handle
  if !stopped then
    let interim ← op .drainOverflow
    noteOverflow interim
    op (.enterError .i2sRead)
    return handle
  else if snap.pending then
    noteOverflow snap
    op (.enterError .dmaOverrun)
    return handle
  else return handle

/-- Every twentieth attempt is reported. -/
def surfaceDeinit (attempt : ℕ) : CaptureProg Unit :=
  if attempt % 20 = 0 then op (.enterError .internal) else return ()

/-- Deinitialize until it succeeds. `false` where the fuel has been used up. -/
def deinitLoop : ℕ → ℕ → PdmCapture → CaptureProg Bool
  | 0, _, _ => return false
  | fuel + 1, attempt, handle => do
    let (done, handle) ← pdmCaptureDeinit handle
    if done then return true
    else
      surfaceDeinit attempt
      op .delay
      deinitLoop fuel (attempt + 1) handle

def publishRecording : CaptureProg Unit := do
  let recording ← op .transitionRecording
  if !recording then op (.enterError .internal) else op .setRecordingReady

/-- The task; `false` where it is still running when the fuel has been used up. -/
def recorderCaptureTask (fuel : ℕ) : CaptureProg Bool := do
  let (ready, stop) ← op .waitBits
  if stop then return true
  else if !ready then return true
  else
    match ← pdmCaptureInit with
    | none =>
      op (.enterError .micInit)
      return true
    | some handle =>
      publishRecording
      let ended ← captureLoop fuel
      if !ended then return false
      else
        let handle ← captureTeardown handle
        op .requestStop
        let deleted ← deinitLoop fuel 0 handle
        if !deleted then return false
        else
          op .requestStop
          return true

end Task

section Accounting

/-- The sizes of the callbacks that have come while the capture was armed. -/
def firedSizes : List PdmEvent → List UInt32 := List.filterMap fun e => match e with
  | .fired size => some size
  | _ => none

/-- How far the teardown has come: the first disable has failed, and then the counts have been drained a last time. -/
inductive Teardown
  | ahead
  | failed
  | drained (late : List UInt32)

def Teardown.next : Teardown → PdmEvent → Teardown
  | .ahead, .disabled false => .failed
  | .failed, .drained => .drained []
  | .drained late, .fired size => .drained (late ++ [size])
  | s, _ => s

def teardown (history : List PdmEvent) : Teardown := history.foldl Teardown.next .ahead

def Teardown.late : Teardown → List UInt32
  | .drained late => late
  | .ahead | .failed => []

/-- The callbacks after the drain that has followed a failed disable. -/
def lateSizes (history : List PdmEvent) : List UInt32 := (teardown history).late

def countOf (sizes : List UInt32) : UInt32 := sizes.length.toUInt32
def bytesOf (sizes : List UInt32) : UInt32 := sizes.sum

theorem countOf_append (sizes : List UInt32) (size : UInt32) : countOf (sizes ++ [size]) = countOf sizes + 1 := by
  simp [countOf]

theorem bytesOf_append (sizes : List UInt32) (size : UInt32) : bytesOf (sizes ++ [size]) = bytesOf sizes + size := by
  simp [bytesOf]

variable {s : Capture} {snap : PdmOverflowSnapshot} {handle : PdmCapture} {α : Type}

/-- Every callback is in the counters of the pipeline, in the snapshot that the task holds, or still with the driver. -/
structure Counted (snap : PdmOverflowSnapshot) (s : Capture) : Prop where
  events : s.pipeline.counters.dmaOverrunEvents + snap.events + s.ovfEvents = countOf (firedSizes s.history)
  bytes : s.pipeline.counters.dmaDropBytes + snap.dropBytes + s.ovfDropBytes = bytesOf (firedSizes s.history)

/-- The channel has not been enabled yet. -/
structure Idle (s : Capture) : Prop where
  counted : Counted ⟨0, 0⟩ s
  running : s.running = false
  history : s.history = []
  events : s.ovfEvents = 0
  bytes : s.ovfDropBytes = 0

/-- The task is in its loop, or at the start of the teardown. -/
structure Ahead (snap : PdmOverflowSnapshot) (s : Capture) : Prop where
  counted : Counted snap s
  ahead : teardown s.history = .ahead

/-- The first disable has failed, and the drain is still to come. -/
structure Failing (s : Capture) : Prop where
  counted : Counted ⟨0, 0⟩ s
  failed : teardown s.history = .failed

/-- The disable has succeeded, and the drain is still to come. -/
structure Stopped (s : Capture) : Prop extends Ahead ⟨0, 0⟩ s where
  running : s.running = false

/-- The last drain is over. What the driver still holds is what has come since. -/
structure Drained (snap : PdmOverflowSnapshot) (s : Capture) : Prop where
  counted : Counted snap s
  events : s.ovfEvents = countOf (lateSizes s.history)
  bytes : s.ovfDropBytes = bytesOf (lateSizes s.history)

/-- While the channel still runs after the last drain, this has been the drain after a failed disable. -/
structure Settled (enabled : Bool) (snap : PdmOverflowSnapshot) (s : Capture) : Prop extends Drained snap s where
  late : if enabled then ∃ late, teardown s.history = .drained late else s.running = false

/-- The driver and the writer leave the invariant between two operations of the task. -/
def Stable (I : Capture → Prop) : Prop := ∀ s t, I s → I (s.env t)

theorem recorderRxQOvfCb_running (size : UInt32) : (s.recorderRxQOvfCb size).running = s.running := by
  unfold Capture.recorderRxQOvfCb
  split
  · rfl
  · rfl

theorem recorderRxQOvfCb_of_armed (h : s.ovfArmed = true) (size : UInt32) : s.recorderRxQOvfCb size =
    { s with ovfEvents := s.ovfEvents + 1, ovfDropBytes := s.ovfDropBytes + size, history := s.history ++ [.fired size] } :=
  if_pos h

theorem stable_of {I : Capture → Prop} (hwriter : ∀ s call, I s → I { s with pipeline := WriterCall.act s.pipeline call })
    (hfired : ∀ s size, s.running = true → s.ovfArmed = true → I s → I (s.recorderRxQOvfCb size)) : Stable I := by
  have hcalls (calls : List WriterCall) (s : Capture) (hs : I s) :
      I { s with pipeline := calls.foldl WriterCall.act s.pipeline } := by
    induction calls generalizing s with
    | nil => exact hs
    | cons call calls ih => exact ih _ (hwriter s call hs)
  have hcallbacks (sizes : List UInt32) (s : Capture) (hrunning : s.running = true) (hs : I s) :
      I (sizes.foldl Capture.recorderRxQOvfCb s) := by
    induction sizes generalizing s with
    | nil => exact hs
    | cons size sizes ih =>
      apply ih _ ((recorderRxQOvfCb_running size).trans hrunning)
      by_cases harmed : s.ovfArmed = true
      · exact hfired s size hrunning harmed hs
      · rwa [Capture.recorderRxQOvfCb, if_neg harmed]
  intro s t hs
  have hw := hcalls t.writer s hs
  unfold Capture.env
  dsimp only
  split
  case isTrue hrunning => exact hcallbacks t.callbacks _ hrunning hw
  case isFalse => exact hw

theorem writerAct_dma (p : PcmPipeline) (call : WriterCall) :
    (call.act p).counters.dmaOverrunEvents = p.counters.dmaOverrunEvents ∧
      (call.act p).counters.dmaDropBytes = p.counters.dmaDropBytes := by
  cases call with
  | peekFull => exact ⟨rfl, rfl⟩
  | releaseFull =>
    unfold WriterCall.act PcmPipeline.releaseFull
    dsimp only
    split
    · exact ⟨rfl, rfl⟩
    · exact ⟨rfl, rfl⟩
  | noteSdWrite latencyUs =>
    unfold WriterCall.act PcmPipeline.noteSdWrite
    dsimp only
    split
    · exact ⟨rfl, rfl⟩
    · exact ⟨rfl, rfl⟩
  | noteSdError => exact ⟨rfl, rfl⟩

theorem firedSizes_append (history : List PdmEvent) (size : UInt32) :
    firedSizes (history ++ [.fired size]) = firedSizes history ++ [size] := by
  simp [firedSizes]

theorem Counted.writer (h : Counted snap s) (call : WriterCall) :
    Counted snap { s with pipeline := call.act s.pipeline } := by
  obtain ⟨hevents, hbytes⟩ := writerAct_dma s.pipeline call
  exact ⟨by rw [hevents, h.events], by rw [hbytes, h.bytes]⟩

theorem Counted.fired (h : Counted snap s) (harmed : s.ovfArmed = true) (size : UInt32) :
    Counted snap (s.recorderRxQOvfCb size) := by
  rw [recorderRxQOvfCb_of_armed harmed]
  constructor
  · rw [firedSizes_append, countOf_append, ← h.events, UInt32.add_assoc _ s.ovfEvents]
  · rw [firedSizes_append, bytesOf_append, ← h.bytes, UInt32.add_assoc _ s.ovfDropBytes]

theorem teardown_append (history : List PdmEvent) (e : PdmEvent) : teardown (history ++ [e]) = (teardown history).next e := by
  simp [teardown]

theorem stable_idle : Stable Idle := by
  apply stable_of
  · exact fun s call h => ⟨h.counted.writer call, h.running, h.history, h.events, h.bytes⟩
  · intro s size hrunning _ h
    rw [h.running] at hrunning
    cases hrunning

theorem stable_ahead : Stable (Ahead snap) := by
  apply stable_of
  · exact fun s call h => ⟨h.counted.writer call, h.ahead⟩
  · intro s size _ harmed h
    refine ⟨h.counted.fired harmed size, ?_⟩
    rw [recorderRxQOvfCb_of_armed harmed, teardown_append, h.ahead]
    rfl

theorem stable_stopped : Stable Stopped := by
  apply stable_of
  · exact fun s call h => ⟨⟨h.counted.writer call, h.ahead⟩, h.running⟩
  · intro s size hrunning _ h
    rw [h.running] at hrunning
    cases hrunning

theorem stable_failing : Stable Failing := by
  apply stable_of
  · exact fun s call h => ⟨h.counted.writer call, h.failed⟩
  · intro s size _ harmed h
    refine ⟨h.counted.fired harmed size, ?_⟩
    rw [recorderRxQOvfCb_of_armed harmed, teardown_append, h.failed]
    rfl

theorem stable_settled (enabled : Bool) : Stable (Settled enabled snap) := by
  apply stable_of
  · exact fun s call h => ⟨⟨h.counted.writer call, h.events, h.bytes⟩, h.late⟩
  · intro s size hrunning harmed h
    have hcounted := h.counted.fired harmed size
    have hlate := h.late
    split at hlate
    case isTrue henabled =>
      obtain ⟨late, hlate⟩ := hlate
      have hevents := h.events
      have hbytes := h.bytes
      rw [recorderRxQOvfCb_of_armed harmed] at hcounted ⊢
      have hnext : teardown (s.history ++ [PdmEvent.fired size]) = .drained (late ++ [size]) := by
        rw [teardown_append, hlate, Teardown.next]
      simp only [lateSizes, hlate, Teardown.late] at hevents hbytes
      refine ⟨⟨hcounted, ?_, ?_⟩, ?_⟩
      · simp only [lateSizes, hnext, Teardown.late, countOf_append, hevents]
      · simp only [lateSizes, hnext, Teardown.late, bytesOf_append, hbytes]
      · rw [if_pos henabled]
        exact ⟨_, hnext⟩
    case isFalse =>
      rw [hlate] at hrunning
      cases hrunning

/-- An operation of the task meets a state of the invariant. -/
theorem wp_op {I : Capture → Prop} {o : CaptureOp} {k : o.Ans → CaptureProg α} {Q : α → Capture → Prop} (hI : Stable I)
    (h : I s) (hk : ∀ t s', I s' → Capture.device.wp (fun _ => True) (fun _ => True) (k (s'.answer t o).1) Q (s'.answer t o).2) :
    Capture.device.wp (fun _ => True) (fun _ => True) (CaptureProg.op o >>= k) Q s :=
  ⟨fun _ => trivial, fun t _ => hk (t.getD Capture.calm) _ (hI s _ h)⟩

/-- The task runs, whatever the driver and the writer do, and ends in `Q`. -/
abbrev Runs (p : CaptureProg α) (Q : α → Capture → Prop) (s : Capture) : Prop :=
  Capture.device.wp (fun _ => True) (fun _ => True) p Q s

theorem pending_eq_false (h : snap.pending = false) : snap = ⟨0, 0⟩ := by
  cases snap
  simpa [PdmOverflowSnapshot.pending] using h

/-- The task adds its snapshot to the pipeline's counters. -/
theorem Counted.note (h : Counted snap s) :
    Counted ⟨0, 0⟩ { s with pipeline := s.pipeline.noteDriverOverflow snap.events snap.dropBytes } := by
  have hevents : (s.pipeline.noteDriverOverflow snap.events snap.dropBytes).counters.dmaOverrunEvents =
      s.pipeline.counters.dmaOverrunEvents + snap.events := by
    unfold PcmPipeline.noteDriverOverflow
    dsimp only
    split
    case isTrue hzero => rw [hzero.1, UInt32.add_zero]
    case isFalse => rfl
  have hbytes : (s.pipeline.noteDriverOverflow snap.events snap.dropBytes).counters.dmaDropBytes =
      s.pipeline.counters.dmaDropBytes + snap.dropBytes := by
    unfold PcmPipeline.noteDriverOverflow
    dsimp only
    split
    case isTrue hzero => rw [hzero.2, UInt32.add_zero]
    case isFalse => rfl
  exact ⟨by rw [hevents, UInt32.add_zero, h.events], by rw [hbytes, UInt32.add_zero, h.bytes]⟩

theorem firedSizes_append_of_ne {e : PdmEvent} (history : List PdmEvent) (he : ∀ size, e ≠ .fired size) :
    firedSizes (history ++ [e]) = firedSizes history := by
  cases e with
  | fired size => exact absurd rfl (he size)
  | disabled ok => simp [firedSizes]
  | drained => simp [firedSizes]

/-- A drain moves what the driver holds into the snapshot. -/
theorem Counted.drain (h : Counted ⟨0, 0⟩ s) (t : Timing) :
    Counted (s.answer t .drainOverflow).1 (s.answer t .drainOverflow).2 := by
  have hsizes : firedSizes (s.history ++ [PdmEvent.drained]) = firedSizes s.history := firedSizes_append_of_ne _ nofun
  have hevents := h.events
  have hbytes := h.bytes
  rw [UInt32.add_zero] at hevents hbytes
  constructor
  · show s.pipeline.counters.dmaOverrunEvents + s.ovfEvents + 0 = countOf (firedSizes (s.history ++ [PdmEvent.drained]))
    rw [hsizes, UInt32.add_zero, hevents]
  · show s.pipeline.counters.dmaDropBytes + s.ovfDropBytes + 0 = bytesOf (firedSizes (s.history ++ [PdmEvent.drained]))
    rw [hsizes, UInt32.add_zero, hbytes]

theorem Counted.disabled (h : Counted snap s) (t : Timing) : Counted snap (s.answer t .disable).2 := by
  have hsizes : firedSizes (s.history ++ [PdmEvent.disabled t.ok]) = firedSizes s.history := firedSizes_append_of_ne _ nofun
  exact ⟨h.events.trans (congrArg countOf hsizes.symm), h.bytes.trans (congrArg bytesOf hsizes.symm)⟩

theorem Ahead.note (s : Capture) (t : Timing) (h : Ahead snap s) :
    Ahead ⟨0, 0⟩ (s.answer t (.noteDriverOverflow snap.events snap.dropBytes)).2 := ⟨h.counted.note, h.ahead⟩

theorem Settled.note {enabled : Bool} (s : Capture) (t : Timing) (h : Settled enabled snap s) :
    Settled enabled ⟨0, 0⟩ (s.answer t (.noteDriverOverflow snap.events snap.dropBytes)).2 :=
  ⟨⟨h.counted.note, h.events, h.bytes⟩, h.late⟩

theorem Ahead.drain (h : Ahead ⟨0, 0⟩ s) (t : Timing) : Ahead (s.answer t .drainOverflow).1 (s.answer t .drainOverflow).2 := by
  refine ⟨h.counted.drain t, ?_⟩
  show teardown (s.history ++ [PdmEvent.drained]) = .ahead
  rw [teardown_append, h.ahead]
  rfl

/-- The samples that go into the pipeline do not touch the driver's counters. -/
theorem produceFrom_dma (p : PcmPipeline) (rest : Bytes) :
    (p.produceFrom rest).2.counters.dmaOverrunEvents = p.counters.dmaOverrunEvents ∧
      (p.produceFrom rest).2.counters.dmaDropBytes = p.counters.dmaDropBytes := by
  induction p, rest using PcmPipeline.produceFrom.induct with
  | case1 p =>
    rw [PcmPipeline.produceFrom, dif_pos rfl]
    exact ⟨rfl, rfl⟩
  | case2 p rest hrest hfull =>
    rw [PcmPipeline.produceFrom, dif_neg hrest, dif_pos hfull]
    exact ⟨rfl, rfl⟩
  | case3 p rest hrest hfree hpos ih =>
    rw [PcmPipeline.produceFrom, dif_neg hrest, dif_neg hfree]
    exact ih

theorem Ahead.produce (h : Ahead snap s) (t : Timing) (data : Bytes) : Ahead snap (s.answer t (.produce data)).2 := by
  obtain ⟨hevents, hbytes⟩ :=
    produceFrom_dma s.pipeline (data.take (data.length - data.length % bytesPerSample))
  refine ⟨⟨?_, ?_⟩, h.ahead⟩
  · show (s.pipeline.produceFrom _).2.counters.dmaOverrunEvents + _ + _ = _
    rw [hevents]
    exact h.counted.events
  · show (s.pipeline.produceFrom _).2.counters.dmaDropBytes + _ + _ = _
    rw [hbytes]
    exact h.counted.bytes

theorem runs_bind {β : Type} {p : CaptureProg α} {k : α → CaptureProg β} {I : α → Capture → Prop} {Q : β → Capture → Prop}
    (hp : Runs p I s) (hk : ∀ a s', I a s' → Runs (k a) Q s') : Runs (p >>= k) Q s :=
  (wp_bind p k Q s).mpr (wp_mono p hp hk)

theorem runs_noteOverflow {I : PdmOverflowSnapshot → Capture → Prop} (hI : Stable (I snap))
    (hnote : ∀ s t, I snap s → I ⟨0, 0⟩ (s.answer t (.noteDriverOverflow snap.events snap.dropBytes)).2) (h : I snap s) :
    Runs (noteOverflow snap) (fun _ s' => I ⟨0, 0⟩ s') s := by
  unfold noteOverflow
  split
  case isTrue => exact ⟨fun _ => trivial, fun t _ => hnote _ (t.getD Capture.calm) (hI s _ h)⟩
  case isFalse hno => rwa [pending_eq_false (Bool.eq_false_iff.mpr hno)] at h

theorem runs_noteStall (err : EspErr) (got : Bytes) (h : Ahead snap s) :
    Runs (noteStall err got snap) (fun _ s' => Ahead snap s') s := by
  unfold noteStall
  split
  case isTrue =>
    refine ⟨fun _ => trivial, fun t _ => ?_⟩
    have h' := stable_ahead s (t.getD Capture.calm) h
    exact ⟨⟨h'.counted.events, h'.counted.bytes⟩, h'.ahead⟩
  case isFalse => exact h

theorem runs_enqueue (got : Bytes) {snap' : PdmOverflowSnapshot} (h : Ahead snap s) :
    Runs (enqueue got snap') (fun _ s' => Ahead snap s') s := by
  unfold enqueue
  split
  case isTrue => exact ⟨fun _ => trivial, fun t _ => (stable_ahead s _ h).produce (t.getD Capture.calm) got⟩
  case isFalse => exact h

theorem runs_captureLoop (fuel : ℕ) (h : Ahead ⟨0, 0⟩ s) :
    Runs (captureLoop fuel) (fun _ s' => Ahead ⟨0, 0⟩ s') s := by
  induction fuel generalizing s with
  | zero => exact h
  | succ fuel ih =>
    unfold captureLoop
    apply wp_op stable_ahead h
    intro t s₁ h₁
    cases (s₁.answer t .stopRequested).1 with
    | true => exact h₁
    | false =>
      apply wp_op stable_ahead h₁
      intro t s₂ h₂
      generalize (s₂.answer t .read).1 = answer
      obtain ⟨err, got⟩ := answer
      apply wp_op stable_ahead h₂
      intro t s₃ h₃
      have h₄ := h₃.drain t
      generalize (s₃.answer t .drainOverflow).1 = snap at h₄ ⊢
      generalize (s₃.answer t .drainOverflow).2 = s₄ at h₄ ⊢
      by_cases herr : err ≠ .ok ∧ err ≠ .timeout
      · rw [if_pos herr]
        apply runs_bind (runs_noteOverflow stable_ahead Ahead.note h₄)
        exact fun _ s₅ h₅ => wp_op stable_ahead h₅ fun _ _ h => h
      · rw [if_neg herr]
        apply wp_op stable_ahead h₄
        intro t s₅ h₅
        cases (s₅.answer t .stopRequested).1 with
        | true =>
          rw [if_pos rfl]
          apply runs_bind (runs_noteStall err got ⟨h₅.counted, h₅.ahead⟩)
          intro _ s₆ h₆
          apply runs_bind (runs_noteOverflow stable_ahead Ahead.note h₆)
          intro _ s₇ h₇
          split
          case isTrue => exact wp_op stable_ahead h₇ fun _ _ h => h
          case isFalse => exact h₇
        | false =>
          rw [if_neg Bool.false_ne_true]
          apply runs_bind (runs_noteStall err got ⟨h₅.counted, h₅.ahead⟩)
          intro _ s₆ h₆
          apply runs_bind (runs_noteOverflow stable_ahead Ahead.note h₆)
          intro _ s₇ h₇
          apply runs_bind (runs_enqueue got h₇)
          intro dropped s₈ h₈
          apply wp_op stable_ahead h₈
          intro t s₉ h₉
          split
          case isTrue => exact wp_op stable_ahead h₉ fun _ _ h => h
          case isFalse =>
            split
            case isTrue => exact wp_op stable_ahead h₉ fun _ _ h => h
            case isFalse =>
              split
              case isTrue => exact wp_op stable_ahead h₉ fun _ _ h => ih h
              case isFalse => exact ih h₉

/-- A disable that succeeds leaves nothing to come. -/
theorem runs_stopAndDrainFinal (h : Ahead ⟨0, 0⟩ s) :
    Runs (pdmCaptureStopAndDrainFinal ⟨true⟩)
      (fun r s' => if r.1 then Settled false r.2.1 s' ∧ r.2.2.enabled = false else Failing s' ∧ r.2.2.enabled = true) s := by
  unfold pdmCaptureStopAndDrainFinal
  apply wp_op stable_ahead h
  intro t s₁ h₁
  have hcounted := h₁.counted.disabled t
  have hteardown : teardown (s₁.answer t .disable).2.history = Teardown.next .ahead (.disabled t.ok) := by
    rw [← h₁.ahead, ← teardown_append]
    rfl
  cases hok : t.ok with
  | false =>
    have hanswer : (s₁.answer t .disable).1 = false := hok
    rw [hok] at hteardown
    rw [hanswer]
    exact ⟨⟨hcounted, hteardown⟩, rfl⟩
  | true =>
    have hanswer : (s₁.answer t .disable).1 = true := hok
    have hrunning : (s₁.answer t .disable).2.running = false := by
      show (s₁.running && !t.ok) = false
      rw [hok, Bool.not_true, Bool.and_false]
    rw [hok] at hteardown
    rw [hanswer]
    apply wp_op stable_stopped ⟨⟨hcounted, hteardown⟩, hrunning⟩
    intro t s₂ h₂
    have hlast : teardown (s₂.answer t .drainOverflow).2.history = .ahead := (h₂.toAhead.drain t).ahead
    refine ⟨⟨⟨h₂.counted.drain t, ?_, ?_⟩, h₂.running⟩, rfl⟩
    · simp only [lateSizes, hlast]
      rfl
    · simp only [lateSizes, hlast]
      rfl

/-- The teardown leaves nothing but what comes after the drain that follows a failed disable. -/
theorem runs_captureTeardown (h : Ahead ⟨0, 0⟩ s) :
    Runs (captureTeardown ⟨true⟩) (fun handle s' => Settled handle.enabled ⟨0, 0⟩ s') s := by
  unfold captureTeardown
  apply runs_bind (runs_stopAndDrainFinal h)
  intro r s₁ h₁
  obtain ⟨stopped, snap, handle⟩ := r
  cases stopped with
  | false =>
    obtain ⟨h₁, hhandle⟩ := h₁
    apply wp_op stable_failing h₁
    intro t s₂ h₂
    have h₃ : Settled true (s₂.answer t .drainOverflow).1 (s₂.answer t .drainOverflow).2 := by
      have hlast : teardown (s₂.answer t .drainOverflow).2.history = .drained [] := by
        show teardown (s₂.history ++ [PdmEvent.drained]) = .drained []
        rw [teardown_append, h₂.failed, Teardown.next]
      refine ⟨⟨h₂.counted.drain t, ?_, ?_⟩, ⟨[], hlast⟩⟩
      · simp only [lateSizes, hlast]
        rfl
      · simp only [lateSizes, hlast]
        rfl
    generalize (s₂.answer t .drainOverflow).1 = interim at h₃ ⊢
    apply runs_bind (runs_noteOverflow (stable_settled true) Settled.note h₃)
    intro _ s₄ h₄
    apply wp_op (stable_settled true) h₄
    intro t s₅ h₅
    rw [← hhandle] at h₅
    exact h₅
  | true =>
    obtain ⟨h₁, hhandle⟩ := h₁
    show Runs (if snap.pending = true then _ else _) _ _
    split
    case isTrue =>
      apply runs_bind (runs_noteOverflow (stable_settled false) Settled.note h₁)
      intro _ s₂ h₂
      apply wp_op (stable_settled false) h₂
      intro t s₃ h₃
      rw [← hhandle] at h₃
      exact h₃
    case isFalse hno =>
      rw [pending_eq_false (Bool.eq_false_iff.mpr hno), ← hhandle] at h₁
      exact h₁

theorem runs_captureDelete (h : Settled handle.enabled ⟨0, 0⟩ s) :
    Runs (pdmCaptureDelete handle) (fun r s' => Settled r.2.enabled ⟨0, 0⟩ s') s := by
  unfold pdmCaptureDelete
  apply wp_op (stable_settled _) h
  intro t s₁ h₁
  cases (s₁.answer t .delChannel).1 with
  | false => exact h₁
  | true =>
    apply wp_op (stable_settled _) h₁
    exact fun t s₂ h₂ => ⟨⟨⟨h₂.counted.events, h₂.counted.bytes⟩, h₂.events, h₂.bytes⟩, h₂.late⟩

/-- A disable that comes later drains nothing. -/
theorem runs_deinit (h : Settled handle.enabled ⟨0, 0⟩ s) :
    Runs (pdmCaptureDeinit handle) (fun r s' => Settled r.2.enabled ⟨0, 0⟩ s') s := by
  unfold pdmCaptureDeinit
  split
  case isFalse => exact runs_captureDelete h
  case isTrue henabled =>
    rw [henabled] at h
    apply wp_op (stable_settled true) h
    intro t s₁ h₁
    obtain ⟨late, hlate⟩ := h₁.late
    have hteardown : teardown (s₁.answer t .disable).2.history = .drained late := by
      show teardown (s₁.history ++ [PdmEvent.disabled t.ok]) = .drained late
      rw [teardown_append, hlate]
      rfl
    have hdrained : Drained ⟨0, 0⟩ (s₁.answer t .disable).2 := by
      have hevents := h₁.events
      have hbytes := h₁.bytes
      simp only [lateSizes, hlate, Teardown.late] at hevents hbytes
      refine ⟨h₁.counted.disabled t, ?_, ?_⟩
      · simp only [lateSizes, hteardown, Teardown.late]
        exact hevents
      · simp only [lateSizes, hteardown, Teardown.late]
        exact hbytes
    cases hok : t.ok with
    | false =>
      have hanswer : (s₁.answer t .disable).1 = false := hok
      rw [hanswer]
      show Settled handle.enabled ⟨0, 0⟩ _
      rw [henabled]
      exact ⟨hdrained, ⟨late, hteardown⟩⟩
    | true =>
      have hanswer : (s₁.answer t .disable).1 = true := hok
      rw [hanswer]
      apply runs_captureDelete ⟨hdrained, _⟩
      show (s₁.running && !t.ok) = false
      rw [hok, Bool.not_true, Bool.and_false]

theorem runs_deinitLoop (fuel attempt : ℕ) (handle : PdmCapture) (h : Settled handle.enabled ⟨0, 0⟩ s) :
    Runs (deinitLoop fuel attempt handle) (fun _ s' => ∃ enabled, Settled enabled ⟨0, 0⟩ s') s := by
  induction fuel generalizing s attempt handle with
  | zero => exact ⟨_, h⟩
  | succ fuel ih =>
    unfold deinitLoop
    apply runs_bind (runs_deinit h)
    intro r s₁ h₁
    obtain ⟨done, handle⟩ := r
    cases done with
    | true => exact ⟨_, h₁⟩
    | false =>
      have hsurface : Runs (surfaceDeinit attempt) (fun _ s' => Settled handle.enabled ⟨0, 0⟩ s') s₁ := by
        unfold surfaceDeinit
        split
        case isTrue => exact ⟨fun _ => trivial, fun t _ => stable_settled _ s₁ _ h₁⟩
        case isFalse => exact h₁
      apply runs_bind hsurface
      intro _ s₂ h₂
      exact wp_op (stable_settled _) h₂ fun t s₃ h₃ => ih _ handle h₃

theorem Idle.drained (h : Idle s) : Drained ⟨0, 0⟩ s := by
  have hlate : lateSizes s.history = [] := by rw [h.history]; rfl
  exact ⟨h.counted, by rw [h.events, hlate]; rfl, by rw [h.bytes, hlate]; rfl⟩

theorem Idle.arm (h : Idle s) (t : Timing) (armed : Bool) : Idle (s.answer t (.arm armed)).2 :=
  ⟨⟨h.counted.events, h.counted.bytes⟩, h.running, h.history, h.events, h.bytes⟩

theorem Idle.reset (h : Idle s) (t : Timing) : Idle (s.answer t .resetOverflow).2 := by
  refine ⟨⟨?_, ?_⟩, h.running, h.history, rfl, rfl⟩
  · show s.pipeline.counters.dmaOverrunEvents + 0 + 0 = countOf (firedSizes s.history)
    rw [← h.counted.events, h.events]
  · show s.pipeline.counters.dmaDropBytes + 0 + 0 = bytesOf (firedSizes s.history)
    rw [← h.counted.bytes, h.bytes]

/-- The channel is enabled only where the initialization succeeds. -/
theorem runs_init (h : Idle s) :
    Runs pdmCaptureInit (fun r s' => r = none ∧ Idle s' ∨ r = some ⟨true⟩ ∧ Ahead ⟨0, 0⟩ s') s := by
  have hdelete (s : Capture) (h : Idle s) : Runs (do
      let _ ← CaptureProg.op .delChannel
      return none) (fun (r : Option PdmCapture) s' => r = none ∧ Idle s' ∨ r = some ⟨true⟩ ∧ Ahead ⟨0, 0⟩ s') s := by
    apply wp_op stable_idle h
    exact fun t s' h' => .inl ⟨rfl, h'⟩
  unfold pdmCaptureInit
  apply wp_op stable_idle h
  intro t s₁ h₁
  apply wp_op stable_idle (h₁.reset t)
  intro t s₂ h₂
  cases (s₂.answer t .calloc).1 with
  | false => exact .inl ⟨rfl, h₂⟩
  | true =>
    apply wp_op stable_idle h₂
    intro t s₃ h₃
    cases (s₃.answer t .newChannel).1 with
    | false => exact .inl ⟨rfl, h₃⟩
    | true =>
      apply wp_op stable_idle h₃
      intro t s₄ h₄
      cases (s₄.answer t .initPdmRxMode).1 with
      | false => exact hdelete s₄ h₄
      | true =>
        apply wp_op stable_idle h₄
        intro t s₅ h₅
        cases (s₅.answer t .registerEventCallback).1 with
        | false => exact hdelete s₅ h₅
        | true =>
          apply wp_op stable_idle h₅
          intro t s₆ h₆
          apply wp_op stable_idle (h₆.arm t true)
          intro t s₇ h₇
          cases hok : t.ok with
          | false =>
            have hanswer : (s₇.answer t .enable).1 = false := hok
            have hidle : Idle (s₇.answer t .enable).2 := by
              refine ⟨⟨h₇.counted.events, h₇.counted.bytes⟩, ?_, h₇.history, h₇.events, h₇.bytes⟩
              show (s₇.running || t.ok) = false
              rw [h₇.running, hok]
              rfl
            rw [hanswer]
            apply wp_op stable_idle hidle
            exact fun t s₈ h₈ => hdelete _ (h₈.arm t false)
          | true =>
            have hanswer : (s₇.answer t .enable).1 = true := hok
            rw [hanswer]
            refine .inr ⟨rfl, ⟨h₇.counted.events, h₇.counted.bytes⟩, ?_⟩
            show teardown s₇.history = .ahead
            rw [h₇.history]
            rfl

theorem runs_publishRecording (h : Ahead ⟨0, 0⟩ s) : Runs publishRecording (fun _ s' => Ahead ⟨0, 0⟩ s') s := by
  unfold publishRecording
  apply wp_op stable_ahead h
  intro t s₁ h₁
  cases (s₁.answer t .transitionRecording).1 with
  | false => exact ⟨fun _ => trivial, fun t _ => stable_ahead s₁ _ h₁⟩
  | true => exact ⟨fun _ => trivial, fun t _ => stable_ahead s₁ _ h₁⟩

/-- When the task ends, a callback has been counted unless it has come after the drain that follows a failed disable. -/
theorem runs_recorderCaptureTask (fuel : ℕ) (h : Idle s) :
    Runs (recorderCaptureTask fuel) (fun ended s' => ended = true → Drained ⟨0, 0⟩ s') s := by
  unfold recorderCaptureTask
  apply wp_op stable_idle h
  intro t s₁ h₁
  generalize (s₁.answer t .waitBits).1 = bits
  obtain ⟨ready, stop⟩ := bits
  cases stop with
  | true => exact fun _ => h₁.drained
  | false =>
    cases ready with
    | false => exact fun _ => h₁.drained
    | true =>
      apply runs_bind (runs_init h₁)
      rintro r s₂ (⟨rfl, h₂⟩ | ⟨rfl, h₂⟩)
      · exact wp_op stable_idle h₂ fun t s₃ h₃ _ => h₃.drained
      · apply runs_bind (runs_publishRecording h₂)
        intro _ s₃ h₃
        apply runs_bind (runs_captureLoop fuel h₃)
        intro ended s₄ h₄
        cases ended with
        | false => exact fun hfalse => absurd hfalse Bool.false_ne_true
        | true =>
          apply runs_bind (runs_captureTeardown h₄)
          intro handle s₅ h₅
          apply wp_op (stable_settled _) h₅
          intro t s₆ h₆
          apply runs_bind (runs_deinitLoop fuel 0 handle h₆)
          rintro deleted s₇ ⟨enabled, h₇⟩
          cases deleted with
          | false => exact fun hfalse => absurd hfalse Bool.false_ne_true
          | true => exact wp_op (stable_settled enabled) h₇ fun t s₈ h₈ _ => h₈.toDrained

theorem toNat_countOf (sizes : List UInt32) : (countOf sizes).toNat = sizes.length % 2 ^ 32 := UInt32.toNat_ofNat'

theorem toNat_bytesOf (sizes : List UInt32) : (bytesOf sizes).toNat = (sizes.map UInt32.toNat).sum % 2 ^ 32 := by
  induction sizes with
  | nil => rfl
  | cons size sizes ih =>
    unfold bytesOf at ih ⊢
    rw [List.sum_cons, UInt32.toNat_add, ih, List.map_cons, List.sum_cons, Nat.add_mod_mod]

theorem lateSizes_suffix (history : List PdmEvent) : lateSizes history <:+ firedSizes history := by
  induction history using List.reverseRecOn with
  | nil => exact List.nil_suffix
  | append_singleton history e ih =>
    unfold lateSizes at ih ⊢
    rw [teardown_append]
    cases e with
    | fired size =>
      rw [firedSizes_append]
      obtain ⟨before, hbefore⟩ := ih
      cases hstage : teardown history with
      | ahead => exact List.nil_suffix
      | failed => exact List.nil_suffix
      | drained late =>
        rw [hstage] at hbefore
        rw [← hbefore]
        exact ⟨before, (List.append_assoc ..).symm⟩
    | disabled ok =>
      rw [firedSizes_append_of_ne _ fun size => PdmEvent.noConfusion]
      cases hstage : teardown history with
      | ahead => cases ok <;> exact List.nil_suffix
      | failed => exact List.nil_suffix
      | drained late => rwa [hstage] at ih
    | drained =>
      rw [firedSizes_append_of_ne _ fun size => PdmEvent.noConfusion]
      cases hstage : teardown history with
      | ahead => exact List.nil_suffix
      | failed => exact List.nil_suffix
      | drained late => rwa [hstage] at ih

theorem totals_iff (hcount : (firedSizes s.history).length < 2 ^ 32)
    (hbytes : ((firedSizes s.history).map UInt32.toNat).sum < 2 ^ 32) (h : Drained ⟨0, 0⟩ s) :
    (s.pipeline.counters.dmaOverrunEvents.toNat = (firedSizes s.history).length ∧
      s.pipeline.counters.dmaDropBytes.toNat = ((firedSizes s.history).map UInt32.toNat).sum) ↔ lateSizes s.history = [] := by
  have hevents := h.counted.events
  have hdropped := h.counted.bytes
  rw [UInt32.add_zero, h.events] at hevents
  rw [UInt32.add_zero, h.bytes] at hdropped
  constructor
  · rintro ⟨htotal, -⟩
    have hle := (lateSizes_suffix s.history).length_le
    have hsum := congrArg UInt32.toNat hevents
    rw [UInt32.toNat_add, htotal, toNat_countOf, toNat_countOf, Nat.mod_eq_of_lt hcount,
      Nat.mod_eq_of_lt (hle.trans_lt hcount)] at hsum
    apply List.length_eq_zero_iff.mp
    omega
  · intro hlate
    rw [hlate] at hevents hdropped
    rw [show countOf [] = 0 from rfl, UInt32.add_zero] at hevents
    rw [show bytesOf [] = 0 from rfl, UInt32.add_zero] at hdropped
    rw [hevents, hdropped, toNat_countOf, toNat_bytesOf, Nat.mod_eq_of_lt hcount, Nat.mod_eq_of_lt hbytes]
    exact ⟨rfl, rfl⟩

/-- The capture task, with the driver's counts and the channel as they are at boot. When it ends, the counters of the pipeline
are the totals over all callbacks exactly when none has come between the drain that follows a failed disable and the disable
that has succeeded. -/
theorem recorderCaptureTask_accounts_iff (backing : Fin 2 → PcmSlot) (fuel : ℕ) (schedule : List (Event Timing)) (s : Capture)
    (hrun : Capture.device.run (recorderCaptureTask fuel) schedule (.boot backing) = .done true s)
    (hcount : (firedSizes s.history).length < 2 ^ 32)
    (hbytes : ((firedSizes s.history).map UInt32.toNat).sum < 2 ^ 32) :
    (s.pipeline.counters.dmaOverrunEvents.toNat = (firedSizes s.history).length ∧
      s.pipeline.counters.dmaDropBytes.toNat = ((firedSizes s.history).map UInt32.toNat).sum) ↔ lateSizes s.history = [] := by
  have hidle : Idle (.boot backing) := ⟨⟨rfl, rfl⟩, rfl, rfl, rfl, rfl⟩
  have hsat := run_sat (recorderCaptureTask fuel) schedule (runs_recorderCaptureTask fuel hidle) fun _ _ _ _ => trivial
  rw [hrun] at hsat
  exact totals_iff hcount hbytes (hsat rfl)

/-- The slots at boot. -/
def blankSlots : Fin 2 → PcmSlot := fun _ => ⟨List.replicate bufferBytes 0, List.length_replicate⟩

/-- The task is stopped at once, and its first disable fails. Callbacks come before it and before the second one. -/
def failedDisable (before after : List UInt32) : List (Event Timing) :=
  List.replicate 11 (.act none) ++ [.act (some ⟨before, [], false, .ok, []⟩), .act none, .act none, .act none,
    .act (some ⟨after, [], true, .ok, []⟩)]

def failedDisableEnd (before after : List UInt32) : Capture :=
  (Capture.device.run (recorderCaptureTask 1) (failedDisable before after) (.boot blankSlots)).state

/-- What has come before the failed disable is still counted. -/
theorem recorderCaptureTask_accounts_before :
    ((failedDisableEnd [480] []).pipeline.counters.dmaOverrunEvents.toNat =
        (firedSizes (failedDisableEnd [480] []).history).length ∧
      (failedDisableEnd [480] []).pipeline.counters.dmaDropBytes.toNat =
        ((firedSizes (failedDisableEnd [480] []).history).map UInt32.toNat).sum) ↔
      lateSizes (failedDisableEnd [480] []).history = [] :=
  recorderCaptureTask_accounts_iff blankSlots 1 (failedDisable [480] []) (failedDisableEnd [480] []) rfl
    (show 1 < 2 ^ 32 by decide) (show 480 < 2 ^ 32 by decide)

/-- A callback that comes after the drain is lost. -/
theorem recorderCaptureTask_loses_callback :
    Capture.device.run (recorderCaptureTask 1) (failedDisable [] [480]) (.boot blankSlots) =
        .done true (failedDisableEnd [] [480]) ∧ firedSizes (failedDisableEnd [] [480]).history = [480] ∧
      (failedDisableEnd [] [480]).pipeline.counters.dmaOverrunEvents.toNat ≠
        (firedSizes (failedDisableEnd [] [480]).history).length ∧
      (failedDisableEnd [] [480]).pipeline.counters.dmaDropBytes.toNat ≠
        ((firedSizes (failedDisableEnd [] [480]).history).map UInt32.toNat).sum :=
  ⟨rfl, rfl, show 0 ≠ 1 by decide, show 0 ≠ 480 by decide⟩

end Accounting

end M5DayLog.Pdm
