import M5DayLog.Wav.Part

/-! From the first header to the finalized name. The part's byte counter, the length of its file and the header patched
at close are three separate values; they agree unless a failing write has left bytes of its chunk behind. -/

namespace M5DayLog

open Bytes Fat Device

section Specs

variable {A : Fault → Prop} {C : Card → Prop} {c : Card} {part : WavPart} {path : Path}

theorem wp_wavPartSyncMedia {Q : Bool → Card → Prop} (hC : C c) (h : Q true c) (hf : IoFault A → Q false c) :
    device.wp A C (wavPartSyncMedia path) Q c := by
  unfold wavPartSyncMedia
  rw [wp_bind]
  refine wp_fflush hC ?_ hf
  exact wp_fsync hC h hf

/-- The card with the first `n` bytes of the header patched. -/
def WavPart.patch (part : WavPart) (n : ℕ) (c : Card) : Card := c.writeAt part.path 0 part.header n

theorem WavPart.header_length (part : WavPart) : part.header.length = wavHeaderSize := wavPartBuildHeader_length _

/-- The header is patched in one write, which a failing or interrupted call leaves unfinished. -/
theorem wp_wavPartRewriteHeader {Q : Bool → Card → Prop} (hC : C c) (hpatch : ∀ n, C (part.patch n c))
    (h : Q true (part.patch wavHeaderSize c)) (hf : IoFault A → Q false c ∧ ∀ n, Q false (part.patch n c)) :
    device.wp A C (wavPartRewriteHeader part) Q c := by
  unfold wavPartRewriteHeader
  rw [wp_bind]
  refine wp_fseek hC ?_ fun hA => (hf hA).1
  simp only [Bool.not_true, Bool.false_eq_true, if_false]
  rw [wp_bind]
  refine wp_fwrite hpatch ?_ fun hA n hn => ?_
  · rw [if_neg (by simp [part.header_length]), part.header_length, wp_bind]
    refine wp_wavPartSyncMedia (hpatch _) ?_ fun hA => (hf hA).2 _
    exact wp_fseek (hpatch _) h fun hA => (hf hA).2 _
  · rw [if_pos]
    · exact (hf hA).2 n
    · rw [part.header_length] at hn
      have : wavHeaderSize = 44 := rfl
      omega

/-- The card with a part that holds the first `n` bytes of the header of an empty payload. -/
def freshPart (path : Path) (n : ℕ) (c : Card) : Card := c.put path (.file ((wavPartBuildHeader 0).take n))

theorem wp_wavPartOpen {Q : Bool × WavPart → Card → Prop} (hC : C c) (hnew : ∀ n, C (freshPart path n c))
    (h : hasPartSuffix path = true → c.isDir path = false → Q (true, ⟨path, 0, true⟩) (freshPart path wavHeaderSize c))
    (hf : ∀ part', Q (false, part') c ∧ ∀ n, Q (false, part') (freshPart path n c)) :
    device.wp A C (wavPartOpen part path) Q c := by
  have hhdr := wavPartBuildHeader_length 0
  have hempty : c.put path (.file []) = freshPart path 0 c := by simp [freshPart]
  have hwrite : ∀ n, (freshPart path 0 c).writeAt path 0 (wavPartBuildHeader 0) n = freshPart path n c := by
    intro n
    rw [← hempty, Card.writeAt_new (by simp), Card.put_put]
    rfl
  unfold wavPartOpen
  split
  case isTrue => exact (hf _).1
  case isFalse hsuf =>
    simp only [Bool.not_eq_true', Bool.not_eq_false] at hsuf
    rw [wp_bind]
    refine wp_fopen hC ?_ fun _ => (hf _).1
    simp only [Card.openAns]
    split
    case isTrue => exact (hf _).1
    case isFalse hdir =>
      simp only [not_or, Bool.not_eq_true] at hdir
      rw [hempty]
      simp only [Bool.not_true, Bool.false_eq_true, if_false]
      rw [wp_bind]
      refine wp_fwrite (fun n => hwrite n ▸ hnew n) ?_ fun hA n hn => ?_
      · rw [hwrite, if_neg (by simp [hhdr]), wp_bind, hhdr]
        refine wp_wavPartSyncMedia (hnew _) ?_ fun hA => ?_
        · exact h hsuf hdir.1
        · simp only [Bool.not_false, if_true]
          rw [wp_bind]
          exact wp_fclose (hnew _) ((hf _).2 _) fun _ => (hf _).2 _
      · rw [hwrite, if_pos, wp_bind]
        · exact wp_fclose (hnew _) ((hf _).2 _) fun _ => (hf _).2 _
        · rw [hhdr] at hn
          have : wavHeaderSize = 44 := rfl
          omega

theorem wp_wavPartClose {Q : Bool × WavPart → Card → Prop} (hopen : part.opened = true) (hC : C c)
    (hpatch : ∀ n, C (part.patch n c)) (h : Q (true, { part with opened := false }) (part.patch wavHeaderSize c))
    (hf : IoFault A → Q (false, { part with opened := false }) c ∧
      ∀ n, Q (false, { part with opened := false }) (part.patch n c)) : device.wp A C (wavPartClose part) Q c := by
  unfold wavPartClose
  rw [hopen]
  simp only [Bool.not_true, Bool.false_eq_true, if_false]
  rw [wp_bind]
  refine wp_wavPartRewriteHeader hC hpatch ?_ fun hA => ⟨?_, fun n => ?_⟩
  · rw [wp_bind]
    exact wp_fclose (hpatch _) h fun hA => (hf hA).2 _
  · rw [wp_bind]
    exact wp_fclose hC (hf hA).1 fun _ => (hf hA).1
  · rw [wp_bind]
    exact wp_fclose (hpatch _) ((hf hA).2 n) fun _ => (hf hA).2 n

/-- Probing a path never changes the card; under a fault it may miss a file. -/
theorem wp_pathExists {Q : Bool → Card → Prop} (hC : C c) (h : Q (c.file? path).isSome c) (hf : IoFault A → Q false c) :
    device.wp A C (pathExists path) Q c := by
  unfold pathExists
  rw [wp_bind]
  refine wp_fopen hC ?_ hf
  cases hopen : (c.file? path).isSome with
  | false => simpa [Card.openAns, hopen] using h
  | true =>
    simp only [Card.openAns, hopen, Bool.not_true, Bool.false_eq_true, if_false]
    rw [wp_bind]
    rw [hopen] at h
    exact wp_fclose hC h fun _ => h

/-- Where the finalized name is free, finalizing moves the part there. -/
theorem wp_wavRotationFinalizePaths {Q : Bool → Card → Prop} {wav : Path} (hfree : c.vol.lookup wav = none) (hC : C c)
    (h : ∀ data, c.vol.lookup path = some (.file data) → wavRotationPartToWav path maxPathLen = some wav →
      Q true (c.move path wav (.file data)))
    (hf : (IoFault A ∨ c.file? path = none ∨ wavRotationPartToWav path maxPathLen ≠ some wav) → Q false c) :
    device.wp A C (wavRotationFinalizePaths path wav) Q c := by
  have hwav : c.file? wav = none := by simp [Card.file?, hfree]
  unfold wavRotationFinalizePaths
  split
  case isTrue hbad =>
    refine hf (Or.inr (Or.inr fun hname => ?_))
    simp [hasPartSuffix_of_partToWav hname, hasWavSuffix_of_partToWav hname, hname] at hbad
  case isFalse hok =>
    simp only [not_or, ne_eq, not_not] at hok
    have hwavFree : ∀ Q' : Bool → Card → Prop, Q' false c → device.wp A C (pathExists wav) Q' c := fun Q' hQ =>
      wp_pathExists hC (by simpa [hwav] using hQ) fun _ => hQ
    rw [wp_bind]
    refine wp_pathExists hC ?_ fun hA => ?_
    · cases hpart : c.file? path with
      | none =>
        rw [wp_bind]
        exact hwavFree _ (by simpa using hf (Or.inr (Or.inl hpart)))
      | some data =>
        have hl := Card.file?_eq_some.mp hpart
        rw [wp_bind]
        refine hwavFree _ ?_
        simp only [Option.isSome_some, if_true, Bool.false_eq_true, if_false]
        rw [wp_bind]
        refine wp_rename hC ?_ fun hA _ => by simpa using hf (Or.inl hA)
        simp only [Card.renameAns, hl, hfree, Option.isSome_none, Bool.false_eq_true, if_false]
        exact h data hl hok.2.2
    · rw [wp_bind]
      exact hwavFree _ (by simpa using hf (Or.inl hA))

end Specs

section Record

/-- A call that the writer makes on an open sink. -/
inductive SinkCall
  | write (data : Bytes)
  | flush

/-- The writer's calls; it stops at the first that fails. -/
def sinkCalls : List SinkCall → Sink → Sys Sink
  | [], sink => return sink
  | .write data :: calls, sink => do
    let r ← sdPcmSinkWriteChunk sink data
    if !r.1 then return r.2 else sinkCalls calls r.2
  | .flush :: calls, sink => do
    let flushed ← sdPcmSinkFlush sink
    if !flushed then return sink else sinkCalls calls sink

/-- A segment from its open to its finalize. -/
def recordSegment (part wav : Path) (calls : List SinkCall) : Sys Bool := do
  let r ← sdPcmSinkOpen .closed part
  if !r.1 then return false
  else
    let sink ← sinkCalls calls r.2
    let r ← wavRotationFinalizeOnce (wavRotationStateInit part wav) sink
    return r.1

/-- A write of payload: every write but those of a header, which start the file. -/
def behindHeader : Call → Bool
  | .fwrite _ pos _ => pos ≠ 0
  | _ => false

/-- Whether a failing write of payload has put down some of its bytes. -/
def strays (o : Call) (f : Option Fault) (strayed : Bool) : Bool :=
  match o, f with
  | .fwrite _ pos d, some (.io _ n) => strayed || (pos ≠ 0 && 0 < min n (d.length - 1))
  | _, _ => strayed

def watched : Device Call Call.Ans (Card × Bool) Fault := device.watch strays

/-- The calls of a program write no payload. -/
abbrev HeaderOnly {α : Type} (p : Sys α) : Prop := Only (fun o => behindHeader o = false) p

/-- The calls on a part's own file. -/
def partCall (path : Path) : Call → Bool
  | .fopen p _ | .fwrite p _ _ | .fflush p | .fsync p | .fseek p _ | .fclose p => p = path
  | _ => false

/-- The calls of a program are on the part's file, and write no payload. -/
abbrev HeaderCalls {α : Type} (path : Path) (p : Sys α) : Prop :=
  Only (fun o => partCall path o = true ∧ behindHeader o = false) p

theorem strays_header {o : Call} (h : behindHeader o = false) (f : Option Fault) (w : Bool) : strays o f w = w := by
  cases o <;> simp only [strays]
  case fwrite p pos d =>
    simp only [behindHeader, ne_eq, decide_not, Bool.not_eq_false', decide_eq_true_eq] at h
    split <;> simp_all

variable {A : Fault → Prop} {c : Card} {part : WavPart} {path wav : Path} {sink : Sink}

theorem headerOnly_op {o : Call} (h : behindHeader o = false) : HeaderOnly (.op o : Sys o.Ans) :=
  .call o _ h fun r => .ret r

theorem HeaderCalls.headerOnly {α : Type} {p : Sys α} (h : HeaderCalls path p) : HeaderOnly p := h.mono fun _ ho => ho.2

theorem headerCalls_op {o : Call} (hpart : partCall path o = true) (h : behindHeader o = false) :
    HeaderCalls path (.op o : Sys o.Ans) :=
  .call o _ ⟨hpart, h⟩ fun r => .ret r

theorem headerCalls_syncMedia (path : Path) : HeaderCalls path (wavPartSyncMedia path) := by
  refine Only.bind (headerCalls_op (by simp [partCall]) rfl) fun flushed => ?_
  split
  · exact .ret _
  · exact headerCalls_op (by simp [partCall]) rfl

theorem headerCalls_rewriteHeader (part : WavPart) : HeaderCalls part.path (wavPartRewriteHeader part) := by
  refine Only.bind (headerCalls_op (by simp [partCall]) rfl) fun rewound => ?_
  split
  · exact .ret _
  · refine Only.bind (headerCalls_op (by simp [partCall]) rfl) fun wrote => ?_
    split
    · exact .ret _
    · refine Only.bind (headerCalls_syncMedia _) fun synced => ?_
      split
      · exact .ret _
      · exact headerCalls_op (by simp [partCall]) rfl

theorem headerCalls_open (part : WavPart) (path : Path) : HeaderCalls path (wavPartOpen part path) := by
  have hclose : HeaderCalls path (do let _ ← fclose path; return (false, WavPart.closed)) :=
    Only.bind (headerCalls_op (by simp [partCall]) rfl) fun _ => .ret _
  unfold wavPartOpen
  split
  · exact .ret _
  · refine Only.bind (headerCalls_op (by simp [partCall]) rfl) fun fp => ?_
    split
    · exact .ret _
    · refine Only.bind (headerCalls_op (by simp [partCall]) rfl) fun wrote => ?_
      split
      · exact hclose
      · refine Only.bind (headerCalls_syncMedia _) fun synced => ?_
        split
        · exact hclose
        · exact .ret _

theorem headerCalls_close (part : WavPart) : HeaderCalls part.path (wavPartClose part) := by
  unfold wavPartClose
  split
  · exact .ret _
  · refine Only.bind (headerCalls_rewriteHeader part) fun patched => ?_
    exact Only.bind (headerCalls_op (by simp [partCall]) rfl) fun _ => .ret _

theorem headerOnly_pathExists (path : Path) : HeaderOnly (pathExists path) := by
  refine Only.bind (headerOnly_op rfl) fun fp => ?_
  split
  · exact .ret _
  · exact Only.bind (headerOnly_op rfl) fun _ => .ret _

theorem headerOnly_finalizePaths (path wav : Path) : HeaderOnly (wavRotationFinalizePaths path wav) := by
  unfold wavRotationFinalizePaths
  split
  · exact .ret _
  · refine Only.bind (headerOnly_pathExists _) fun partPresent => ?_
    refine Only.bind (headerOnly_pathExists _) fun wavPresent => ?_
    split
    · split
      · exact .ret _
      · refine Only.bind (headerOnly_op rfl) fun r => ?_
        cases r <;> exact .ret _
    · exact .ret _

/-- A header-only program on the watched device. -/
theorem wp_headerOnly {α : Type} {p : Sys α} {Q : α → Card × Bool → Prop} {strayed : Bool} (hp : HeaderOnly p)
    (h : device.wp A (fun _ => True) p (fun a c' => Q a (c', strayed)) c) :
    watched.wp A (fun _ => True) p Q (c, strayed) := by
  refine wp_mono _ (wp_watch hp (fun o f w ho => strays_header ho f w) h) ?_
  rintro a ⟨c', w⟩ ⟨hq, rfl⟩
  exact hq

/-- The part's file is as long as its counter says, or longer once a write has strayed, while it is one that a FAT volume
can hold; the finalized name is free. -/
structure Fill (part : WavPart) (wav : Path) (data : Bytes) (c : Card) (strayed : Bool) : Prop where
  file : c.vol.lookup part.path = some (.file data)
  free : c.vol.lookup wav = none
  header : wavHeaderSize ≤ data.length
  even : part.pcmBytes.toNat % blockAlign = 0
  exact : data.length < 2 ^ 32 → strayed = false → data.length = part.tail
  longer : data.length < 2 ^ 32 → strayed = true → part.tail < data.length

theorem Fill.ne {data : Bytes} {strayed : Bool} (h : Fill part wav data c strayed) : wav ≠ part.path := by
  rintro rfl
  simpa [h.file] using h.free

/-- Patching the header moves no byte behind it. -/
theorem Fill.patch {data : Bytes} {strayed : Bool} (h : Fill part wav data c strayed) (n : ℕ) :
    ∃ data', Fill part wav data' (part.patch n c) strayed ∧ (n = wavHeaderSize → data' = part.header ++ data.drop wavHeaderSize) := by
  have hfile := Card.file?_writeAt (d := part.header) (i := 0) (k := n) (Card.file?_eq_some.mpr h.file)
  have hlen : (Card.overwrite 0 (part.header.take n) data).length = data.length := by
    have hhdr := part.header_length
    have := h.header
    rw [Card.overwrite_length, List.length_take]
    omega
  refine ⟨_, ⟨Card.file?_eq_some.mp hfile, ?_, hlen ▸ h.header, h.even, hlen ▸ h.exact, hlen ▸ h.longer⟩, ?_⟩
  · rw [WavPart.patch, Card.lookup_writeAt h.ne]
    exact h.free
  · rintro rfl
    rw [← part.header_length, List.take_length, Card.overwrite, part.header_length]
    simp

/-- A write at the tail, complete or cut short. -/
theorem Fill.append {data : Bytes} (h : Fill part wav data c false) (pcm : Bytes) (n : ℕ) :
    ∃ data', (c.writeAt part.path part.tail pcm n).vol.lookup part.path = some (.file data') ∧
      (c.writeAt part.path part.tail pcm n).vol.lookup wav = none ∧ data.length ≤ data'.length ∧
      (data'.length < 2 ^ 32 → data'.length = part.tail + (pcm.take n).length) := by
  have hfile := Card.file?_writeAt (d := pcm) (i := part.tail) (k := n) (Card.file?_eq_some.mpr h.file)
  refine ⟨_, Card.file?_eq_some.mp hfile, ?_, ?_, fun hlt => ?_⟩
  · rw [Card.lookup_writeAt h.ne]
    exact h.free
  · rw [Card.overwrite_length]
    omega
  · rw [Card.overwrite_length] at hlt ⊢
    have hexact := h.exact (by omega) rfl
    omega

/-- A whole slot is appended, or part of it strays. -/
theorem wp_wavPartWrite {data pcm : Bytes} {Q : Bool × WavPart → Card × Bool → Prop} (h : Fill part wav data c false)
    (hopen : part.opened = true) (hlen : pcm.length = bufferBytes)
    (hok : ∀ part' data' c', part'.path = part.path → part'.opened = true → Fill part' wav data' c' false → Q (true, part') (c', false))
    (hf : ∀ data' c' strayed, Fill part wav data' c' strayed → Q (false, part) (c', strayed)) :
    watched.wp A (fun _ => True) (wavPartWrite part pcm) Q (c, false) := by
  obtain ⟨file, count, opened⟩ := part
  obtain rfl : opened = true := hopen
  have husable : pcm.length - pcm.length % bytesPerSample = bufferBytes := by rw [hlen]; decide
  have htake : pcm.take bufferBytes = pcm := by rw [← hlen, List.take_length]
  set part : WavPart := ⟨file, count, true⟩ with hpart
  have htail : part.tail ≠ 0 := by simp [WavPart.tail, wavHeaderSize]
  unfold wavPartWrite
  simp only [husable, htake]
  rw [if_neg (by simp [hpart]), if_neg (by decide), wp_bind]
  have hfull : watched.wp A (fun _ => True) (if pcm.length ≠ bufferBytes then return (false, part)
      else return (true, { part with pcmBytes := part.pcmBytes + bufferBytes.toUInt32 })) Q
      (c.writeAt part.path part.tail pcm pcm.length, false) := by
    obtain ⟨data', hfile, hfree, hgrow, hexact⟩ := h.append pcm pcm.length
    rw [if_neg (by simp [hlen])]
    refine hok _ data' _ (rfl : file = file) rfl ⟨hfile, hfree, h.header.trans hgrow, ?_, fun hlt _ => ?_, by simp⟩
    · have heven := h.even
      simp only [blockAlign, channelCount, bytesPerSample, bufferBytes, UInt32.toNat_add] at heven ⊢
      simp only [Nat.toUInt32, UInt32.toNat_ofNat']
      omega
    · have htot := hexact hlt
      rw [List.take_length, hlen] at htot
      have hb : bufferBytes = 32768 := rfl
      simp only [WavPart.tail, UInt32.toNat_add, Nat.toUInt32, UInt32.toNat_ofNat'] at htot ⊢
      omega
  refine ⟨fun _ => trivial, fun f hA => ?_⟩
  rcases f with _ | ⟨code, n⟩ | ⟨names, error⟩
  · exact hfull
  · obtain ⟨data', hfile, hfree, hgrow, hexact⟩ := h.append pcm (min n (pcm.length - 1))
    have hshort : min n (pcm.length - 1) ≠ bufferBytes := by
      have hb : bufferBytes = 32768 := rfl
      omega
    have hcount : (pcm.take (min n (pcm.length - 1))).length = min n (pcm.length - 1) := by
      rw [List.length_take]
      omega
    rw [hcount] at hexact
    have hstray : strays (.fwrite part.path part.tail pcm) (some (.io code n)) false = decide (0 < min n (pcm.length - 1)) := by
      simp [strays, htail]
    have hq : Q (false, part) (c.writeAt part.path part.tail pcm (min n (pcm.length - 1)), decide (0 < min n (pcm.length - 1))) := by
      refine hf data' _ _ ⟨hfile, hfree, h.header.trans hgrow, h.even, fun hlt hs => ?_, fun hlt hs => ?_⟩
      · have := hexact hlt
        have := of_decide_eq_false hs
        omega
      · have := hexact hlt
        have := of_decide_eq_true hs
        omega
    simpa [watched, watch, device, Card.act, Card.broken, hshort, hstray] using hq
  · exact hfull

/-- The writer's calls keep the file and the counter together, up to a failing write that strays. -/
theorem wp_sinkCalls {data : Bytes} {Q : Sink → Card × Bool → Prop} (calls : List SinkCall)
    (h : Fill sink.wav wav data c false) (hopen : sink.opened = true) (hwav : sink.wav.opened = true)
    (hQ : ∀ sink' data' c' strayed, Fill sink'.wav wav data' c' strayed → sink'.opened = true → sink'.wav.opened = true →
      sink'.wav.path = sink.wav.path → Q sink' (c', strayed)) :
    watched.wp A (fun _ => True) (sinkCalls calls sink) Q (c, false) := by
  induction calls generalizing sink data c with
  | nil => exact hQ sink data c false h hopen hwav rfl
  | cons call calls ih =>
    cases call with
    | write pcm =>
      unfold sinkCalls sdPcmSinkWriteChunk
      rw [wp_bind]
      by_cases hlen : pcm.length = bufferBytes
      · rw [if_neg (by simp [hopen, hlen]), wp_bind]
        refine wp_wavPartWrite h hwav hlen (fun part' data' c' hpath hpart h' => ?_) fun data' c' strayed h' => ?_
        · exact ih h' hopen hpart fun sink' data' c' strayed h' ho hw hp => hQ sink' data' c' strayed h' ho hw (hp.trans hpath)
        · exact hQ sink data' c' strayed h' hopen hwav rfl
      · rw [if_pos (by simp [hlen])]
        exact hQ sink data c false h hopen hwav rfl
    | flush =>
      unfold sinkCalls sdPcmSinkFlush wavPartFlush
      rw [if_neg (by simp [hopen]), if_neg (by simp [hwav]), wp_bind]
      refine wp_headerOnly (headerCalls_rewriteHeader _).headerOnly ?_
      have hstop : ∀ data' c', Fill sink.wav wav data' c' false → Q sink (c', false) :=
        fun data' c' h' => hQ sink data' c' false h' hopen hwav rfl
      refine wp_wavPartRewriteHeader trivial (fun _ => trivial) ?_ fun _ => ⟨hstop _ _ h, fun n => ?_⟩
      · obtain ⟨data', h', -⟩ := h.patch wavHeaderSize
        exact ih h' hopen hwav hQ
      · obtain ⟨data', h', -⟩ := h.patch n
        exact hstop _ _ h'

/-- Patching the header at close settles the file: it is a finalized recording exactly when no write has strayed. -/
theorem Fill.finalized {data : Bytes} {strayed : Bool} (h : Fill part wav data c strayed) :
    FinalizedWav (part.header ++ data.drop wavHeaderSize) ↔ strayed = false ∧ data.length < 2 ^ 32 := by
  have hhdr := part.header_length
  have hlen := h.header
  have htotal : (part.header ++ data.drop wavHeaderSize).length = data.length := by
    rw [List.length_append, hhdr, List.length_drop]
    omega
  by_cases hlt : data.length < 2 ^ 32
  · have hpatched := finalizedWav_patched (data.drop wavHeaderSize) part.pcmBytes.toNat_lt h.even
      (by rw [List.length_drop]; omega)
    rw [WavPart.header, hpatched, List.length_drop]
    simp only [hlt, and_true]
    cases strayed with
    | false =>
      have := h.exact hlt rfl
      simp only [WavPart.tail] at this
      simp only [iff_true]
      omega
    | true =>
      have := h.longer hlt rfl
      simp only [WavPart.tail] at this
      simp only [Bool.true_eq_false, iff_false]
      omega
  · simp only [hlt, and_false, iff_false]
    intro hw
    exact hlt (htotal ▸ hw.2.1)

theorem wp_recordSegment (calls : List SinkCall) (hfree : c.vol.lookup wav = none) :
    watched.wp A (fun _ => True) (recordSegment path wav calls) (fun ok x => ok = true →
      ∃ data, x.1.file? wav = some data ∧ (FinalizedWav data ↔ x.2 = false ∧ data.length < 2 ^ 32)) (c, false) := by
  unfold recordSegment sdPcmSinkOpen
  rw [wp_bind, wp_bind]
  refine wp_headerOnly (headerCalls_open _ _).headerOnly ?_
  refine wp_wavPartOpen trivial (fun _ => trivial) (fun hsuf _ => ?_) fun part' => ⟨by simp, fun n => by simp⟩
  simp only [Prog.pure_eq, Bool.not_true, Bool.false_eq_true, if_false, wp_ret]
  have hstate : wavRotationStateInit path wav = ⟨[], [], false, false⟩ ∨
      wavRotationStateInit path wav = ⟨path, wav, false, false⟩ := by
    unfold wavRotationStateInit
    split
    · exact Or.inl rfl
    · exact Or.inr rfl
  rw [wp_bind]
  by_cases hname : wavRotationPartToWav path maxPathLen = some wav
  · have hne : wav ≠ path := by
      rintro rfl
      exact partToWav_ne hname
    have hfill : Fill ⟨path, 0, true⟩ wav (wavPartBuildHeader 0) (freshPart path wavHeaderSize c) false := by
      have hhdr := wavPartBuildHeader_length 0
      have hfile : freshPart path wavHeaderSize c = c.put path (.file (wavPartBuildHeader 0)) := by
        rw [freshPart, ← hhdr, List.take_length]
      refine ⟨?_, ?_, hhdr.ge, rfl, fun _ _ => hhdr, by simp⟩
      · simp [hfile]
      · simpa [hfile, hne] using hfree
    refine wp_sinkCalls calls hfill rfl rfl fun sink data c1 strayed h1 ho how hpath => ?_
    unfold wavRotationFinalizeOnce finalizeOnce
    rw [wp_bind]
    rcases hstate with hs | hs
    · simp [hs]
    · rw [hs]
      simp only [Bool.false_eq_true, if_false]
      split
      · simp
      · unfold sdPcmSinkClose
        rw [if_neg (by simp [ho]), wp_bind, wp_bind]
        refine wp_headerOnly (headerCalls_close _).headerOnly ?_
        refine wp_wavPartClose how trivial (fun _ => trivial) ?_ fun _ => ⟨by simp, fun n => by simp⟩
        obtain ⟨data2, h2, hdata2⟩ := h1.patch wavHeaderSize
        simp only [Prog.pure_eq, wp_ret, Bool.not_true, Bool.false_eq_true, if_false]
        rw [wp_bind]
        refine wp_headerOnly (headerOnly_finalizePaths _ _) ?_
        refine wp_wavRotationFinalizePaths h2.free trivial (fun data3 hl3 _ => ?_) fun _ => by simp
        have hfile2 := h2.file
        rw [hpath] at hfile2
        obtain rfl : data2 = data3 := by simpa [hfile2] using hl3
        refine fun _ => ⟨data2, Card.file?_eq_some.mpr (by simp), ?_⟩
        have hlen2 : data2.length = data.length := by
          have hhdr := sink.wav.header_length
          have := h1.header
          rw [hdata2 rfl, List.length_append, hhdr, List.length_drop]
          omega
        rw [hlen2, hdata2 rfl]
        exact h1.finalized
  · -- the finalized name is not that of the part: nothing is renamed
    have hrename : wavRotationFinalizePaths path wav = return false := by
      rw [wavRotationFinalizePaths, if_pos (Or.inr (Or.inr hname))]
    refine wp_mono _ (wp_trivial (Q := fun _ _ => True) _ fun _ _ => trivial) fun sink x _ => ?_
    unfold wavRotationFinalizeOnce finalizeOnce
    rw [wp_bind]
    rcases hstate with hs | hs
    · simp [hs]
    · rw [hs]
      simp only [Bool.false_eq_true, if_false, hrename]
      split
      · simp
      · rw [wp_bind]
        refine wp_mono _ (wp_trivial (Q := fun _ _ => True) _ fun _ _ => trivial) fun r x _ => ?_
        split <;> simp

/-- The finalized file of a segment that was recorded and renamed with success. -/
def finalizedFile (wav : Path) : Outcome Bool (Card × Bool) → Option Bytes
  | .done true x => x.1.file? wav
  | _ => none

/-- Where finalizing reports success, the recording is one that the manifest accepts exactly when no write has strayed and
the file is one that a FAT volume can hold. The finalized name carries a fresh id, so that it is free. -/
theorem recordSegment_finalized (part wav : Path) (calls : List SinkCall) (es : List (Event Fault)) (c : Card)
    (hfree : c.vol.lookup wav = none) :
    (watched.run (recordSegment part wav calls) es (c, false)).Sat (fun _ => True) fun ok x => ok = true →
      ∃ data, x.1.file? wav = some data ∧ (FinalizedWav data ↔ x.2 = false ∧ data.length < 2 ^ 32) :=
  run_sat (A := fun _ => True) _ es (wp_recordSegment calls hfree) fun _ _ _ _ => trivial

section Stray

def strayCard : Card := ⟨List.toAList [⟨lit "/r", .dir⟩], false⟩

def strayPart : Path := lit "/r/a.wav.part"

def strayWav : Path := lit "/r/a.wav"

/-- The open makes four calls; the write of the first slot fails after two bytes. -/
def strayEvents : List (Event Fault) := [.act none, .act none, .act none, .act none, .act (some (.io 5 2))]

theorem strayWav_free : strayCard.vol.lookup strayWav = none := by
  with_unfolding_all decide

/-- On an open sink a slot is one write. -/
theorem sinkCalls_slot {pcm : Bytes} (hlen : pcm.length = bufferBytes) (path : Path) (count : UInt32) :
    sinkCalls [.write pcm] ⟨⟨path, count, true⟩, true⟩ = do
      let wrote ← fwrite path (WavPart.tail ⟨path, count, true⟩) pcm
      if wrote ≠ bufferBytes then return ⟨⟨path, count, true⟩, true⟩
      else return ⟨⟨path, count + bufferBytes.toUInt32, true⟩, true⟩ := by
  have husable : bufferBytes - bufferBytes % bytesPerSample = bufferBytes := by decide
  have htake : pcm.take bufferBytes = pcm := by rw [← hlen, List.take_length]
  have hsome : ¬ bufferBytes = 0 := by decide
  simp only [sinkCalls, sdPcmSinkWriteChunk, wavPartWrite, hlen, husable, htake, hsome, Bool.not_true, Bool.false_eq_true, ne_eq,
    not_true_eq_false, or_self, if_false, Prog.bind_assoc]
  refine congrArg _ (funext fun wrote => ?_)
  by_cases hwrote : wrote = bufferBytes
  · simp [hwrote]
  · simp [hwrote]

theorem watched_fwrite_broken (p : Path) (pos : ℕ) (d : Bytes) (code n : ℕ) (x : Card × Bool) :
    watched.act (.fwrite p pos d) (some (.io code n)) x =
      (min n (d.length - 1), x.1.writeAt p pos d (min n (d.length - 1)), x.2 || (pos ≠ 0 && 0 < min n (d.length - 1))) := rfl

/-- The writer stops at the failing write and finalizes with success; the manifest then rejects the file. -/
theorem recordSegment_stray :
    (finalizedFile strayWav (watched.run (recordSegment strayPart strayWav [.write (List.replicate bufferBytes 0)])
      strayEvents (strayCard, false))).any (fun data => decide (¬ FinalizedWav data)) = true := by
  have hevents : strayEvents = List.replicate (watched.calls (sdPcmSinkOpen .closed strayPart) (strayCard, false)) (.act none) ++
      [.act (some (.io 5 2))] := by
    have hcalls : watched.calls (sdPcmSinkOpen .closed strayPart) (strayCard, false) = 4 := by decide +kernel
    rw [hcalls]
    rfl
  have hopen : (watched.eval (sdPcmSinkOpen .closed strayPart) (strayCard, false)).1 = (true, ⟨⟨strayPart, 0, true⟩, true⟩) := by
    decide +kernel
  rw [hevents, recordSegment, Device.run_bind_calls, hopen]
  simp only [Bool.not_true, Bool.false_eq_true, if_false]
  have hshort : min 2 ((List.replicate bufferBytes (0 : UInt8)).length - 1) = 2 := by
    rw [List.length_replicate]
    decide
  rw [sinkCalls_slot (List.length_replicate ..), Prog.bind_assoc, fwrite, Device.run_op, watched_fwrite_broken, hshort]
  decide +kernel

theorem recordSegment_finalized_stray :
    (watched.run (recordSegment strayPart strayWav [.write (List.replicate bufferBytes 0)]) strayEvents
      (strayCard, false)).Sat (fun _ => True) fun ok x => ok = true →
        ∃ data, x.1.file? strayWav = some data ∧ (FinalizedWav data ↔ x.2 = false ∧ data.length < 2 ^ 32) :=
  recordSegment_finalized strayPart strayWav _ strayEvents strayCard strayWav_free

end Stray

end Record

end M5DayLog
