import M5DayLog.Wav.Rotation
import M5DayLog.Wav.Header

/-! The open segment: a `.wav.part` file whose header is patched at every checkpoint, and the sink through which the
writer appends whole pipeline slots to it. -/

namespace M5DayLog

open Bytes Fat

/-- An open part: the file, and how much payload it has been given. -/
structure WavPart where
  path : Path
  pcmBytes : UInt32
  opened : Bool
  deriving DecidableEq

structure Sink where
  wav : WavPart
  opened : Bool
  deriving DecidableEq

def WavPart.closed : WavPart := ⟨[], 0, false⟩

def Sink.closed : Sink := ⟨.closed, false⟩

namespace WavPart

variable (part : WavPart)

/-- Where the next payload byte goes. -/
def tail : ℕ := wavHeaderSize + part.pcmBytes.toNat

def header : Bytes := wavPartBuildHeader part.pcmBytes.toNat

end WavPart

section Part

variable (part : WavPart)

/-- Flush the stream, and the volume's caches behind it. -/
def wavPartSyncMedia (path : Path) : Sys Bool := do
  let flushed ← fflush path
  if !flushed then return false else fsync path

/-- Patch the header, and return to the append position. -/
def wavPartRewriteHeader : Sys Bool := do
  let rewound ← fseek part.path 0
  if !rewound then return false
  else
    let wrote ← fwrite part.path 0 part.header
    if wrote ≠ wavHeaderSize then return false
    else
      let synced ← wavPartSyncMedia part.path
      if !synced then return false else fseek part.path part.tail

/-- Create the part with the header of an empty payload. -/
def wavPartOpen (path : Path) : Sys (Bool × WavPart) :=
  if !hasPartSuffix path then return (false, part)
  else do
    let fp ← fopen path .write
    if !fp then return (false, { part with opened := false })
    else
      let wrote ← fwrite path 0 (wavPartBuildHeader 0)
      if wrote ≠ wavHeaderSize then
        let _ ← fclose path
        return (false, .closed)
      else
        let synced ← wavPartSyncMedia path
        if !synced then
          let _ ← fclose path
          return (false, .closed)
        else return (true, ⟨path, 0, true⟩)

/-- Append whole samples. -/
def wavPartWrite (pcm : Bytes) : Sys (Bool × WavPart) :=
  if !part.opened then return (false, part)
  else
    let usable := pcm.length - pcm.length % bytesPerSample
    if usable = 0 then return (true, part)
    else do
      let wrote ← fwrite part.path part.tail (pcm.take usable)
      if wrote ≠ usable then return (false, part)
      else return (true, { part with pcmBytes := part.pcmBytes + usable.toUInt32 })

def wavPartFlush : Sys Bool :=
  if !part.opened then return false else wavPartRewriteHeader part

/-- Patch the header and close. The part is closed whatever fails. -/
def wavPartClose : Sys (Bool × WavPart) :=
  if !part.opened then return (true, part)
  else do
    let patched ← wavPartRewriteHeader part
    let closed ← fclose part.path
    return (patched && closed, { part with opened := false })

end Part

section Sink

variable (sink : Sink)

def sdPcmSinkOpen (path : Path) : Sys (Bool × Sink) := do
  let r ← wavPartOpen sink.wav path
  return (r.1, ⟨r.2, r.1⟩)

/-- The sink takes whole slots only. -/
def sdPcmSinkWriteChunk (data : Bytes) : Sys (Bool × Sink) :=
  if !sink.opened ∨ data.length ≠ bufferBytes then return (false, sink)
  else do
    let r ← wavPartWrite sink.wav data
    return (r.1, { sink with wav := r.2 })

def sdPcmSinkFlush : Sys Bool :=
  if !sink.opened then return false else wavPartFlush sink.wav

def sdPcmSinkClose : Sys (Bool × Sink) :=
  if !sink.opened then return (true, sink)
  else do
    let r ← wavPartClose sink.wav
    return (r.1, ⟨r.2, false⟩)

end Sink

section Finalize

variable {m : Type → Type} [Monad m]

/-- Close and rename once; a later call gives the first result again. The two steps are parameters, because the writer
task is a program over its calls to other components. -/
def finalizeOnce (close : Sink → m (Bool × Sink)) (finalizePaths : Path → Path → m Bool) (state : RotationState)
    (sink : Sink) : m (Bool × RotationState × Sink) :=
  if state.finalizeCalled then return (state.finalizedOk, state, sink)
  else
    let state := { state with finalizeCalled := true, finalizedOk := false }
    if state.partPath = [] ∨ state.wavPath = [] then return (false, state, sink)
    else do
      let closed ← close sink
      if !closed.1 then return (false, state, closed.2)
      else
        let renamed ← finalizePaths state.partPath state.wavPath
        return (renamed, { state with finalizedOk := renamed }, closed.2)

def wavRotationFinalizeOnce : RotationState → Sink → Sys (Bool × RotationState × Sink) :=
  finalizeOnce sdPcmSinkClose wavRotationFinalizePaths

end Finalize

end M5DayLog
