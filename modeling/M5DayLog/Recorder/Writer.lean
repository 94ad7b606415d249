import M5DayLog.Recorder.State
import M5DayLog.Wav.Part

/-! The writer task: boot preparation, the drain loop over full pipeline slots, rotation, and the terminal finalize.
It is a program over the calls it makes to the other components and to the other tasks. Its loops are bounded by
`fuel`; a task that has used its fuel is still running. -/

namespace M5DayLog

open Bytes Fat

section Clock

/-- `time(NULL)`, and its local broken-down form with the year and month counted from 0 and 1. -/
structure WallClock where
  now : ℤ
  year : ℤ
  month : ℤ
  day : ℤ
  hour : ℤ
  min : ℤ
  sec : ℤ

namespace WallClock

variable (w : WallClock)

/-- The clock has been set, and its fields can be printed. -/
def IsSet : Prop :=
  1577836800 ≤ w.now ∧ 2020 ≤ w.year ∧ w.year ≤ 9999 ∧ 1 ≤ w.month ∧ w.month ≤ 12 ∧ 1 ≤ w.day ∧ w.day ≤ 31 ∧
    0 ≤ w.hour ∧ w.hour ≤ 23 ∧ 0 ≤ w.min ∧ w.min ≤ 59 ∧ 0 ≤ w.sec ∧ w.sec ≤ 60

instance : Decidable w.IsSet := inferInstanceAs (Decidable (_ ∧ _))

end WallClock

/-- The last decimal digit of `n / k`. -/
def digitOf (n : ℤ) (k : ℕ) : UInt8 := (0x30 + n.toNat / k % 10).toUInt8

/-- The date and time that names and stamps are made of; an unset clock reads as the epoch. -/
def recorderCurrentDateTime (w : WallClock) : Bytes × Bytes :=
  if w.IsSet then
    ([digitOf w.year 1000, digitOf w.year 100, digitOf w.year 10, digitOf w.year 1, dash, digitOf w.month 10,
      digitOf w.month 1, dash, digitOf w.day 10, digitOf w.day 1],
     [digitOf w.hour 10, digitOf w.hour 1, digitOf w.min 10, digitOf w.min 1, digitOf w.sec 10, digitOf w.sec 1])
  else (lit "1970-01-01", lit "000000")

def iso8601StrLen : ℕ := 32

def recorderIso8601FromParts (date time : Bytes) : Option Bytes :=
  let out := scanStartedAt date time
  if out.length ≥ iso8601StrLen ∨ !isValidIso8601Offset out then none else some out

def recorderCurrentIso8601 (w : WallClock) : Option Bytes :=
  let now := recorderCurrentDateTime w
  recorderIso8601FromParts now.1 now.2

theorem isDigit_digitOf (n : ℤ) (k : ℕ) : isDigit (digitOf n k) = true :=
  isDigit_digit (Nat.mod_lt _ (by omega))

/-- The names that the clock gives are always well shaped. -/
theorem recorderCurrentDateTime_shape (w : WallClock) :
    validDate (recorderCurrentDateTime w).1 = true ∧ validTime6 (recorderCurrentDateTime w).2 = true := by
  unfold recorderCurrentDateTime
  split
  · constructor
    · simp [validDate, at', List.range_succ, isDigit_digitOf]
    · simp [validTime6, isDigit_digitOf]
  · exact ⟨by with_unfolding_all decide, by with_unfolding_all decide⟩

theorem recorderIso8601FromParts_eq_some {date time started : Bytes}
    (h : recorderIso8601FromParts date time = some started) :
    started = scanStartedAt date time ∧ isValidIso8601Offset started = true := by
  unfold recorderIso8601FromParts at h
  simp only [Option.ite_none_left_eq_some, not_or, Bool.not_eq_true', Bool.not_eq_false, Option.some.injEq] at h
  obtain ⟨⟨-, hiso⟩, rfl⟩ := h
  exact ⟨rfl, hiso⟩

end Clock

section Ids

def hexDigit (n : ℕ) : UInt8 := at' (lit "0123456789abcdef") n

/-- A UUID of version 4 from sixteen random bytes. -/
def deviceIdentityFormatUuidV4 (rand16 : Fin 16 → UInt8) : Option Bytes :=
  let b := fun i : Fin 16 =>
    if i = 6 then rand16 i &&& 0x0f ||| 0x40 else if i = 8 then rand16 i &&& 0x3f ||| 0x80 else rand16 i
  let out := (List.finRange 16).flatMap fun i =>
    (if i = 4 ∨ i = 6 ∨ i = 8 ∨ i = 10 then [dash] else []) ++ [hexDigit ((b i).toNat / 16), hexDigit ((b i).toNat % 16)]
  if out.length = 36 ∧ isValidUuid out then some out else none

theorem formatUuidV4_valid {rand16 : Fin 16 → UInt8} {id : Bytes} (h : deviceIdentityFormatUuidV4 rand16 = some id) :
    isValidUuid id = true := by
  unfold deviceIdentityFormatUuidV4 at h
  simp only [Option.ite_none_right_eq_some] at h
  obtain ⟨⟨-, hok⟩, hid⟩ := h
  exact Option.some.inj hid ▸ hok

end Ids

/-- The calls of the writer task. -/
inductive WriterOp
  | mountRecordings
  | unmount
  | setEventsReady (ready : Bool)
  | transitionState (next : RecorderState) (reason : RecorderReason)
  | enterError (reason : RecorderReason)
  | ensureDeviceId
  | ensureDeviceJson (deviceId : Bytes)
  | ensureManifest (deviceId now : Bytes)
  | ensureQuarantineDir
  | scanRecordings
  | syncWavDir (deviceId now : Bytes)
  | wallClock
  | random16
  | ensureDateDir (date : Bytes)
  | canAdmitSegment (deviceId : Bytes)
  | sinkOpen (sink : Sink) (path : Path)
  | sinkWriteChunk (sink : Sink) (data : Bytes)
  | sinkFlush (sink : Sink)
  | sinkClose (sink : Sink)
  | finalizePaths (part wav : Path)
  | hashWavFile (wav : Path)
  | upsertFile (deviceId now entry : Bytes)
  | signalReady
  | waitSlotFull
  | peekFull
  | releaseFull
  | noteSdError
  | stopRequested
  | tickCount

abbrev WriterOp.Ans : WriterOp → Type
  | mountRecordings | transitionState _ _ | ensureDeviceJson _ | ensureManifest _ _ | ensureQuarantineDir
  | scanRecordings | syncWavDir _ _ | ensureDateDir _ | canAdmitSegment _ | sinkFlush _ | finalizePaths _ _
  | stopRequested => Bool
  | unmount | setEventsReady _ | enterError _ | signalReady | waitSlotFull | releaseFull | noteSdError => Unit
  | ensureDeviceId => Option Bytes
  | wallClock => WallClock
  | random16 => Fin 16 → UInt8
  | sinkOpen _ _ | sinkWriteChunk _ _ | sinkClose _ => Bool × Sink
  | hashWavFile _ => Option (Bytes × ℕ)
  | upsertFile _ _ _ => ManifestResult
  | peekFull => Option Bytes
  | tickCount => UInt32

abbrev Writer := Prog WriterOp WriterOp.Ans

namespace Writer

def op (o : WriterOp) : Writer o.Ans := Prog.op o

end Writer

open Writer

/-- The variables of the open segment. -/
structure Segment where
  part : Path
  wav : Path
  recId : Bytes
  started : Bytes
  date : Bytes
  bytes : UInt32
  startTick : UInt32
  sinceFlush : ℕ
  sink : Sink
  state : RotationState

def Segment.blank : Segment := ⟨[], [], [], [], [], 0, 0, 0, .closed, ⟨[], [], false, false⟩⟩

/-- Flush the header of the part every so many slots. -/
def flushEveryChunks : ℕ := 4

/-- FreeRTOS's default tick rate, which the build leaves unchanged. -/
def tickRateHz : UInt32 := 100

def m5daylogPrefix : Bytes := lit "/sdcard/M5DAYLOG/"

section Segments

def finalizeSegment (seg : Segment) : Writer (Bool × Segment) := do
  let r ← finalizeOnce (fun sink => op (.sinkClose sink)) (fun part wav => op (.finalizePaths part wav)) seg.state seg.sink
  return (r.1, { seg with state := r.2.1, sink := r.2.2 })

/-- Commit the manifest entry of a finalized recording. -/
def recorderManifestRecordWav (deviceId wav recId started state : Bytes) : Writer Bool :=
  if ¬ m5daylogPrefix <+: wav then return false
  else do
    let rel := wav.drop m5daylogPrefix.length
    let w ← op .wallClock
    match recorderCurrentIso8601 w with
    | none => return false
    | some now =>
      match ← op (.hashWavFile wav) with
      | none => return false
      | some (sha, sizeBytes) =>
        if sizeBytes < wavHeaderSize then return false
        else
          let pcmBytes := sizeBytes - wavHeaderSize
          let duration := deviceManifestDurationMs (pcmBytes - pcmBytes % bytesPerSample)
          match deviceManifestBuildEntry recId rel started duration.toUInt32 sizeBytes.toUInt32 sha sampleRateHz
              bitsPerSample channelCount state none manifestEntryMax with
          | none => return false
          | some entry =>
            let r ← op (.upsertFile deviceId now entry)
            return r = .ok

/-- Take a fresh id and stamp, then make the date directory, admit and open the part. The identity is replaced before
the steps that can fail; everything else of the segment only after them. -/
def nextSegment (deviceId : Bytes) (seg : Segment) : Writer (Except RecorderReason Unit × Segment) := do
  let w ← op .wallClock
  let (date, time) := recorderCurrentDateTime w
  let rand16 ← op .random16
  match deviceIdentityFormatUuidV4 rand16 with
  | none => return (.error .manifest, seg)
  | some recId =>
    match recorderIso8601FromParts date time with
    | none => return (.error .manifest, { seg with started := [] })
    | some started =>
      let seg := { seg with recId := recId, started := started }
      match wavRotationBuildPartPath maxPathLen date time recId, wavRotationBuildWavPath maxPathLen date time recId with
      | some part, some wav =>
        let made ← op (.ensureDateDir date)
        if !made then return (.error .sdWrite, seg)
        else
          let admitted ← op (.canAdmitSegment deviceId)
          if !admitted then return (.error .manifest, seg)
          else
            let (opened, sink) ← op (.sinkOpen seg.sink part)
            let seg := { seg with sink := sink }
            if !opened then return (.error .sdWrite, seg)
            else
              let tick ← op .tickCount
              return (.ok (), ⟨part, wav, recId, started, date, 0, tick, 0, sink, wavRotationStateInit part wav⟩)
      | _, _ => return (.error .internal, seg)

/-- Finalize and record the segment, then open the next one. The result says whether the task goes on. -/
def rotateSegment (deviceId : Bytes) (seg : Segment) : Writer (Bool × Segment) := do
  let (finalized, seg) ← finalizeSegment seg
  if !finalized then
    op .noteSdError
    op (.enterError .finalize)
    return (false, seg)
  else
    let recorded ← recorderManifestRecordWav deviceId seg.wav seg.recId seg.started stateFinalized
    if !recorded then
      op .noteSdError
      op (.enterError .manifest)
      return (false, seg)
    else
      let (r, seg) ← nextSegment deviceId seg
      match r with
      | .ok () => return (true, seg)
      | .error reason =>
        op (.enterError reason)
        return (false, seg)

end Segments

section Loop

/-- Write out the full slots. The result is `none` when the fuel is used, else whether the task goes on. -/
def drainSlots : ℕ → Segment → Writer (Option (Bool × Segment))
  | 0, _ => return none
  | fuel + 1, seg => do
    match ← op .peekFull with
    | none => return some (true, seg)
    | some full =>
      let (wrote, sink) ← op (.sinkWriteChunk seg.sink full)
      let seg := { seg with sink := sink }
      if !wrote then
        op .noteSdError
        op (.enterError .sdWrite)
        return some (false, seg)
      else
        op .releaseFull
        let seg := { seg with bytes := seg.bytes + full.length.toUInt32, sinceFlush := seg.sinceFlush + 1 }
        if seg.sinceFlush < flushEveryChunks then drainSlots fuel seg
        else
          let seg := { seg with sinceFlush := 0 }
          let flushed ← op (.sinkFlush seg.sink)
          if !flushed then
            op .noteSdError
            op (.enterError .sdFlush)
            return some (false, seg)
          else drainSlots fuel seg

/-- Rotate when the time, the payload or the date asks for it. -/
def checkRotation (deviceId : Bytes) (seg : Segment) : Writer (Bool × Segment) := do
  let w ← op .wallClock
  let tick ← op .tickCount
  let elapsed := (tick - seg.startTick) / tickRateHz
  match wavRotationShouldRotate elapsed seg.bytes ((recorderCurrentDateTime w).1 ≠ seg.date) (some ⟨false, false, false⟩) with
  | .usb | .lowBattery | .stopRequest => return (false, seg)
  | .time30min | .midnight => rotateSegment deviceId seg
  | .none => return (true, seg)

/-- The recording loop: drain, and rotate between drains, until a stop is seen. -/
def writerLoop (deviceId : Bytes) : ℕ → Segment → Writer (Option Segment)
  | 0, _ => return none
  | fuel + 1, seg => do
    op .waitSlotFull
    match ← drainSlots (fuel + 1) seg with
    | none => return none
    | some (drained, seg) =>
      if ← op .stopRequested then return some seg
      else
        let (goOn, seg) ← checkRotation deviceId seg
        if !goOn then return some seg
        else
          let stop ← op .stopRequested
          if stop ∨ !drained then return some seg else writerLoop deviceId fuel seg

end Loop

section Task

inductive TaskStatus
  | running
  | deleted

/-- A step of the preparation that fails with a reason. -/
def require {α : Type} (step : Writer Bool) (reason : RecorderReason) (rest : Writer (Except RecorderReason α)) :
    Writer (Except RecorderReason α) := do
  let ok ← step
  if !ok then return .error reason else rest

/-- A step that stamps the manifest needs a clock reading that can be printed. -/
def recorderEnsureManifestExists (deviceId : Bytes) : Writer Bool := do
  let w ← op .wallClock
  match recorderCurrentIso8601 w with
  | none => return false
  | some now => op (.ensureManifest deviceId now)

def recorderSyncManifest (deviceId : Bytes) : Writer Bool := do
  let w ← op .wallClock
  match recorderCurrentIso8601 w with
  | none => return false
  | some now => op (.syncWavDir deviceId now)

/-- Everything between the mount and the first slot: recovery, reconciliation, and the first segment. -/
def writerPrepare : Writer (Except RecorderReason (Bytes × Segment)) :=
  require (op (.transitionState .recover .recovery)) .internal do
    match ← op .ensureDeviceId with
    | none => return .error .manifest
    | some deviceId =>
      require (op (.ensureDeviceJson deviceId)) .manifest <|
      require (recorderEnsureManifestExists deviceId) .manifest <|
      require (op .ensureQuarantineDir) .sdWrite <|
      require (op .scanRecordings) .recovery <|
      require (recorderSyncManifest deviceId) .manifest do
        let (r, seg) ← nextSegment deviceId .blank
        match r with
        | .error reason => return .error reason
        | .ok () => return .ok (deviceId, seg)

/-- Finalize and record the last segment, unless a rotation has done so already. -/
def finishSegment (deviceId : Bytes) (seg : Segment) : Writer Unit := do
  let (finalized, seg) ← finalizeSegment seg
  if !finalized then
    op .noteSdError
    op (.enterError .finalize)
  else
    let recorded ← recorderManifestRecordWav deviceId seg.wav seg.recId seg.started stateFinalized
    if !recorded then
      op .noteSdError
      op (.enterError .manifest)

def recorderWriterTask (fuel : ℕ) : Writer TaskStatus := do
  let mounted ← op .mountRecordings
  if !mounted then
    op (.enterError .sdMount)
    return .deleted
  else
    op (.setEventsReady true)
    match ← writerPrepare with
    | .error reason =>
      op (.enterError reason)
      op (.setEventsReady false)
      op .unmount
      return .deleted
    | .ok (deviceId, seg) =>
      op .signalReady
      match ← writerLoop deviceId fuel seg with
      | none => return .running
      | some seg =>
        finishSegment deviceId seg
        op (.setEventsReady false)
        op .unmount
        return .deleted

end Task

end M5DayLog
