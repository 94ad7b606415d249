import M5DayLog.Lib.Layers
import M5DayLog.Recorder.Naming
import M5DayLog.Recorder.Pipeline
import M5DayLog.Wav.Finalize

/-! The recorded audio on the card. The writer task runs here against the pipeline and the card, call by call, while the capture
fills the slots and the other tasks use the rest of the card. What the card holds of the audio is the payload of the segments, in the
order in which they were opened, be they parts or finalized. -/

namespace M5DayLog

open Bytes Fat

namespace Audio

section Machine

/-- The calls of the writer task and, for those on its segments, the calls on the card that they come to. -/
inductive TapeOp
  | card (o : Call)
  | writer (o : WriterOp)

abbrev TapeOp.Ans : TapeOp → Type
  | .card o => o.Ans
  | .writer o => o.Ans

def onCard (o : Call) : Prog TapeOp TapeOp.Ans o.Ans := .op (TapeOp.card o)

def carry : (o : WriterOp) → Prog TapeOp TapeOp.Ans o.Ans
  | .sinkOpen sink path => (sdPcmSinkOpen sink path).interp onCard
  | .sinkWriteChunk sink data => (sdPcmSinkWriteChunk sink data).interp onCard
  | .sinkFlush sink => (sdPcmSinkFlush sink).interp onCard
  | .sinkClose sink => (sdPcmSinkClose sink).interp onCard
  | .finalizePaths part wav => (wavRotationFinalizePaths part wav).interp onCard
  | o => .op (TapeOp.writer o)

/-- What comes with one call: the capture's calls before it, what other tasks have made of the card, the fault of a call on the card,
how much is put down of a write beyond the largest file, and the answers of the other components. -/
structure Moment where
  calls : List PcmCall
  card : Option Card
  fault : Option Fault
  fits : ℕ
  ans : (o : WriterOp) → o.Ans

/-- Nothing happens. -/
def Moment.still : Moment := ⟨[], none, none, 0, Choice.calm.ans⟩

/-- The part without the last suffix of its name. -/
def wavName (part : Path) : Path := part.take (part.length - (lit ".part").length)

/-- The names of the segments that were opened as these parts. -/
def segmentNames (parts : List Path) : List Path := parts.flatMap fun part => [part, wavName part]

/-- The card and the pipeline, the parts opened since boot, whether one was given a name already taken, and whether the task has
entered the error state. -/
structure Tape where
  card : Card
  pcm : PcmRun
  parts : List Path
  clash : Bool
  failed : Bool

namespace Tape

variable (s : Tape)

def boot (card : Card) (backing : Fin 2 → PcmSlot) : Tape := ⟨card, .start backing, [], false, false⟩

/-- The capture gives no slot back, and the other tasks leave the segments alone. -/
def meanwhile (m : Moment) : Tape where
  card := match m.card with
    | some card => if (segmentNames s.parts).all fun p => card.vol.lookup p = s.card.vol.lookup p then card else s.card
    | none => s.card
  pcm := (m.calls.filter fun call => decide (call ≠ .releaseFull)).foldl PcmRun.step s.pcm
  parts := s.parts
  clash := s.clash
  failed := s.failed

def taken (part : Path) : Bool :=
  [part, wavName part].any fun p => (s.card.vol.lookup p).isSome || (segmentNames s.parts).any (· = p)

/-- A part is a segment from when its file is created. -/
def note : Call → Tape
  | .fopen p .write => { s with parts := s.parts ++ [p], clash := s.clash || s.taken p }
  | _ => s

/-- No file of a FAT volume has 4 GiB. -/
def beyond : Call → Bool
  | .fwrite _ pos d => 2 ^ 32 ≤ pos + d.length
  | _ => false

def actCard (o : Call) (m : Moment) : o.Ans × Tape :=
  let r := device.act o (if beyond o then some (.io 28 m.fits) else m.fault) s.card
  (r.1, { s.note o with card := r.2 })

/-- The task's calls on the pipeline. An error sets the stop bit, which stays set. -/
def actWriter (m : Moment) : (o : WriterOp) → o.Ans × Tape
  | .peekFull => (s.pcm.pipeline.peekFull.map fun i => (s.pcm.pipeline.slot i).1, s)
  | .releaseFull => ((), { s with pcm := s.pcm.step .releaseFull })
  | .noteSdError => ((), { s with pcm := s.pcm.step .noteSdError })
  | .enterError _ => ((), { s with failed := true })
  | .stopRequested => (s.failed || m.ans .stopRequested, s)
  | o => (m.ans o, s)

def act (m : Moment) : (o : TapeOp) → o.Ans × Tape
  | .card o => (s.meanwhile m).actCard o m
  | .writer o => (s.meanwhile m).actWriter m o

def cut : TapeOp → ℕ → Tape
  | .card o, n => { s with card := device.cut o n s.card }
  | .writer _, _ => s

/-- What the card has of a segment behind its header. -/
def payload (card : Card) (part : Path) : Bytes :=
  (((card.file? (wavName part)).or (card.file? part)).getD []).drop wavHeaderSize

def payloads (card : Card) (parts : List Path) : Bytes := parts.flatMap (payload card)

/-- The audio on the card. -/
def kept : Bytes := payloads s.card s.parts

/-- The segment is a finalized recording. -/
def Filed (card : Card) (part : Path) : Prop := ∃ data, card.file? (wavName part) = some data ∧ FinalizedWav data

/-- The card has every slot that was given back and nothing that was not captured, each byte once and in order; and of the segments
only the last may be open. -/
structure Sound : Prop where
  conserves : s.pcm.Conserves
  names : (segmentNames s.parts).Nodup
  released : s.pcm.released <+: s.kept
  accepted : s.kept <+: s.pcm.accepted
  filed : ∀ part ∈ s.parts.dropLast, Filed s.card part

end Tape

/-- The task on the machine. -/
def tape : Device TapeOp TapeOp.Ans Tape Moment where
  act o f s := s.act (f.getD .still) o
  cut o n s := s.cut o n

end Machine

section Meanwhile

variable {s s' s'' : Tape} {m : Moment} {p part : Path} {parts : List Path} {c c' : Card} {data : Bytes} {i : Fin 2}

/-- What the other tasks may have done. -/
structure Later (s s' : Tape) : Prop where
  parts : s'.parts = s.parts
  clash : s'.clash = s.clash
  failed : s'.failed = s.failed
  files : ∀ p ∈ segmentNames s.parts, s'.card.vol.lookup p = s.card.vol.lookup p
  calls : ∃ calls : List PcmCall, .releaseFull ∉ calls ∧ s'.pcm = calls.foldl PcmRun.step s.pcm

theorem later_meanwhile (m : Moment) (s : Tape) : Later s (s.meanwhile m) := by
  refine ⟨rfl, rfl, rfl, ?_, _, by simp, rfl⟩
  intro p hp
  unfold Tape.meanwhile
  dsimp only
  split
  · split
    case isTrue h => exact of_decide_eq_true (List.all_eq_true.mp h p hp)
    case isFalse => rfl
  · rfl

theorem foldl_accepted (calls : List PcmCall) (r : PcmRun) : r.accepted <+: (calls.foldl PcmRun.step r).accepted := by
  induction calls generalizing r with
  | nil => exact List.prefix_refl _
  | cons call calls ih =>
    apply List.IsPrefix.trans _ (ih (r.step call))
    cases call with
    | produce data => exact List.prefix_append _ _
    | _ => exact List.prefix_refl _

theorem foldl_released (calls : List PcmCall) (r : PcmRun) (h : .releaseFull ∉ calls) :
    (calls.foldl PcmRun.step r).released = r.released := by
  induction calls generalizing r with
  | nil => rfl
  | cons call calls ih =>
    rw [List.mem_cons, not_or] at h
    rw [List.foldl_cons, ih _ h.2]
    cases call with
    | releaseFull => exact absurd rfl h.1
    | _ => rfl

theorem foldl_conserves (calls : List PcmCall) (r : PcmRun) (h : r.Conserves) : (calls.foldl PcmRun.step r).Conserves := by
  induction calls generalizing r with
  | nil => exact h
  | cons call calls ih => exact ih _ (PcmRun.conserves_step h call)

theorem Later.released (h : Later s s') : s'.pcm.released = s.pcm.released := by
  obtain ⟨calls, hno, hpcm⟩ := h.calls
  rw [hpcm, foldl_released calls _ hno]

theorem Later.accepted (h : Later s s') : s.pcm.accepted <+: s'.pcm.accepted := by
  obtain ⟨calls, -, hpcm⟩ := h.calls
  rw [hpcm]
  exact foldl_accepted calls _

theorem Later.conserves (h : Later s s') (hs : s.pcm.Conserves) : s'.pcm.Conserves := by
  obtain ⟨calls, -, hpcm⟩ := h.calls
  rw [hpcm]
  exact foldl_conserves calls _ hs

theorem mem_segmentNames (hp : part ∈ parts) : part ∈ segmentNames parts ∧ wavName part ∈ segmentNames parts :=
  ⟨List.mem_flatMap.mpr ⟨part, hp, by simp⟩, List.mem_flatMap.mpr ⟨part, hp, by simp⟩⟩

theorem file?_congr (h : c'.vol.lookup p = c.vol.lookup p) : c'.file? p = c.file? p := by
  unfold Card.file?
  rw [h]

/-- The segments are what is at their names. -/
theorem payloads_congr (h : ∀ p ∈ segmentNames parts, c'.vol.lookup p = c.vol.lookup p) :
    Tape.payloads c' parts = Tape.payloads c parts := by
  apply List.flatMap_congr
  intro part hpart
  obtain ⟨hp, hw⟩ := mem_segmentNames hpart
  unfold Tape.payload
  rw [file?_congr (h _ hp), file?_congr (h _ hw)]

theorem filed_congr (h : ∀ p ∈ segmentNames parts, c'.vol.lookup p = c.vol.lookup p) (hpart : part ∈ parts)
    (hf : Tape.Filed c part) : Tape.Filed c' part := by
  obtain ⟨data, hdata, hwav⟩ := hf
  exact ⟨data, by rw [file?_congr (h _ (mem_segmentNames hpart).2), hdata], hwav⟩

theorem Later.kept (h : Later s s') : s'.kept = s.kept := by
  unfold Tape.kept
  rw [h.parts, payloads_congr h.files]

theorem Tape.Sound.later (hs : s.Sound) (h : Later s s') : s'.Sound where
  conserves := h.conserves hs.conserves
  names := h.parts ▸ hs.names
  released := by
    rw [h.released, h.kept]
    exact hs.released
  accepted := by
    rw [h.kept]
    exact hs.accepted.trans h.accepted
  filed := by
    rw [h.parts]
    intro part hpart
    exact filed_congr h.files (List.mem_of_mem_dropLast hpart) (hs.filed part hpart)

end Meanwhile

section Segments

variable {s s' : Tape} {older : List Path} {part p q : Path} {sink : Sink} {whole : Bool} {more data pcm : Bytes} {c : Card}
variable {n : ℕ}

theorem kept_append (h : s.parts = older ++ [part]) : s.kept = Tape.payloads s.card older ++ Tape.payload s.card part := by
  unfold Tape.kept Tape.payloads
  rw [h, List.flatMap_append, List.flatMap_singleton]

theorem payload_part (hfree : c.vol.lookup (wavName part) = none) (hfile : c.vol.lookup part = some (.file data)) :
    Tape.payload c part = data.drop wavHeaderSize := by
  have hwav : c.file? (wavName part) = none := by simp [Card.file?, hfree]
  rw [Tape.payload, hwav, Card.file?_eq_some.mpr hfile]
  rfl

theorem payload_wav (h : c.file? (wavName part) = some data) : Tape.payload c part = data.drop wavHeaderSize := by
  rw [Tape.payload, h]
  rfl

theorem segmentNames_append : segmentNames (older ++ [part]) = segmentNames older ++ [part, wavName part] := by
  unfold segmentNames
  rw [List.flatMap_append, List.flatMap_singleton]

/-- The names of the last segment are not those of an older one. -/
theorem older_ne (h : (segmentNames (older ++ [part])).Nodup) (hq : q ∈ segmentNames older) : q ≠ part ∧ q ≠ wavName part := by
  rw [segmentNames_append, List.nodup_append] at h
  exact ⟨h.2.2 q hq part (by simp), h.2.2 q hq (wavName part) (by simp)⟩

/-- A change of the last segment leaves the others as they are. -/
theorem Tape.Sound.frame (h : s.Sound) (hparts : s.parts = older ++ [part])
    (hc : ∀ q, q ≠ part → q ≠ wavName part → c.vol.lookup q = s.card.vol.lookup q) :
    ∀ q ∈ segmentNames older, c.vol.lookup q = s.card.vol.lookup q := by
  have hnames := h.names
  rw [hparts] at hnames
  intro q hq
  obtain ⟨hp, hw⟩ := older_ne hnames hq
  exact hc q hp hw

theorem Tape.Sound.kept_edit (h : s.Sound) (hparts : s.parts = older ++ [part])
    (hc : ∀ q, q ≠ part → q ≠ wavName part → c.vol.lookup q = s.card.vol.lookup q) :
    Tape.kept { s with card := c } = Tape.payloads s.card older ++ Tape.payload c part := by
  rw [kept_append (s := { s with card := c }) hparts, payloads_congr (h.frame hparts hc)]

theorem Tape.Sound.edit (h : s.Sound) (hparts : s.parts = older ++ [part])
    (hc : ∀ q, q ≠ part → q ≠ wavName part → c.vol.lookup q = s.card.vol.lookup q)
    (hrel : s.pcm.released <+: Tape.payloads s.card older ++ Tape.payload c part)
    (hacc : Tape.payloads s.card older ++ Tape.payload c part <+: s.pcm.accepted) : Tape.Sound { s with card := c } := by
  have hkept := h.kept_edit hparts hc
  refine ⟨h.conserves, h.names, ?_, ?_, ?_⟩
  · rw [hkept]
    exact hrel
  · rw [hkept]
    exact hacc
  · intro q hq
    apply filed_congr (h.frame hparts hc) _ (h.filed q hq)
    rwa [hparts, List.dropLast_concat] at hq

/-- The counter of the open part, and a payload that has been written whole. -/
structure Counts (wav : WavPart) (pcm : Bytes) : Prop where
  length : pcm.length = wav.pcmBytes.toNat
  even : pcm.length % blockAlign = 0
  fits : wavHeaderSize + pcm.length < 2 ^ 32

/-- The last segment is open. Unless one of its writes has failed, the card has what was given back, and `more` of the slot that
the writer has been shown. -/
structure Taping (whole : Bool) (part : Path) (sink : Sink) (more : Bytes) (s : Tape) : Prop where
  sound : s.Sound
  last : ∃ older, s.parts = older ++ [part]
  free : s.card.vol.lookup (wavName part) = none
  file : ∃ header pcm, header.length = wavHeaderSize ∧ s.card.vol.lookup part = some (.file (header ++ pcm)) ∧
    (whole = true → Counts sink.wav pcm)
  opened : sink.opened = true ∧ sink.wav.opened = true ∧ sink.wav.path = part
  level : whole = true → s.kept = s.pcm.released ++ more

/-- The header of the open part is that of its counter. -/
def Patched (part : Path) (sink : Sink) (s : Tape) : Prop :=
  ∃ pcm, s.card.vol.lookup part = some (.file (sink.wav.header ++ pcm))

/-- The slot that the writer has been shown. -/
def Shown (data : Bytes) (s : Tape) : Prop := ∃ i, s.pcm.pipeline.peekFull = some i ∧ (s.pcm.pipeline.slot i).1 = data

/-- The last segment is closed and not yet renamed. -/
structure Closed (whole : Bool) (part : Path) (s : Tape) : Prop where
  sound : s.Sound
  last : ∃ older, s.parts = older ++ [part]
  free : s.card.vol.lookup (wavName part) = none
  file : ∃ data, s.card.vol.lookup part = some (.file data) ∧ (whole = true → FinalizedWav data)
  level : whole = true → s.kept = s.pcm.released

/-- Every segment is a finalized recording, and together they have what was given back. -/
structure Shelved (s : Tape) : Prop where
  sound : s.Sound
  filed : ∀ part ∈ s.parts, Tape.Filed s.card part
  level : s.kept = s.pcm.released

theorem Later.lookup (h : Later s s') (hlast : ∃ older, s.parts = older ++ [part]) :
    s'.card.vol.lookup part = s.card.vol.lookup part ∧ s'.card.vol.lookup (wavName part) = s.card.vol.lookup (wavName part) := by
  obtain ⟨older, hparts⟩ := hlast
  obtain ⟨hp, hw⟩ := mem_segmentNames (show part ∈ s.parts by simp [hparts])
  exact ⟨h.files _ hp, h.files _ hw⟩

theorem Taping.later (ht : Taping whole part sink more s) (h : Later s s') : Taping whole part sink more s' := by
  obtain ⟨hpart, hwav⟩ := h.lookup ht.last
  refine ⟨ht.sound.later h, ?_, hwav.trans ht.free, ?_, ht.opened, ?_⟩
  · rw [h.parts]
    exact ht.last
  · rw [hpart]
    exact ht.file
  · rw [h.kept, h.released]
    exact ht.level

theorem Patched.later (hp : Patched part sink s) (hlast : ∃ older, s.parts = older ++ [part]) (h : Later s s') :
    Patched part sink s' := by
  obtain ⟨pcm, hpcm⟩ := hp
  exact ⟨pcm, (h.lookup hlast).1.trans hpcm⟩

theorem Closed.later (hc : Closed whole part s) (h : Later s s') : Closed whole part s' := by
  obtain ⟨hpart, hwav⟩ := h.lookup hc.last
  refine ⟨hc.sound.later h, ?_, hwav.trans hc.free, ?_, ?_⟩
  · rw [h.parts]
    exact hc.last
  · rw [hpart]
    exact hc.file
  · rw [h.kept, h.released]
    exact hc.level

theorem Shelved.later (hs : Shelved s) (h : Later s s') : Shelved s' := by
  refine ⟨hs.sound.later h, ?_, ?_⟩
  · rw [h.parts]
    intro part hpart
    exact filed_congr h.files hpart (hs.filed part hpart)
  · rw [h.kept, h.released]
    exact hs.level

/-- The capture does not touch the slot. -/
theorem Shown.later (hd : Shown data s) (hs : s.Sound) (h : Later s s') : Shown data s' := by
  obtain ⟨i, hpeek, hslot⟩ := hd
  obtain ⟨calls, hno, hpcm⟩ := h.calls
  obtain ⟨hpeek', hslot'⟩ := PcmRun.foldl_peeked calls hs.conserves hno hpeek
  refine ⟨i, ?_, ?_⟩
  · rw [hpcm]
    exact hpeek'
  · rw [hpcm, hslot']
    exact hslot

/-- The slot is what the capture gave next. -/
theorem Shown.accepted (hd : Shown data s) (h : s.pcm.Conserves) : s.pcm.released ++ data <+: s.pcm.accepted := by
  obtain ⟨i, hpeek, rfl⟩ := hd
  have hqueue := (PcmPipeline.releaseFull_spec h.ordered).2
  rw [hpeek] at hqueue
  rw [← h.bytes, ← hqueue]
  exact ⟨s.pcm.pipeline.releaseFull.queued, by simp⟩

theorem Shown.length (hd : Shown data s) : data.length = bufferBytes := by
  obtain ⟨i, -, rfl⟩ := hd
  exact (s.pcm.pipeline.slot i).2

end Segments

end Audio

end M5DayLog
