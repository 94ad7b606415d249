import M5DayLog.Wav.Fate
import M5DayLog.Wav.Finalize

/-! Recovery of a cut recording. The writer leaves a header of the recorder's format, whose two size fields may be stale or
half patched, and behind it a prefix of the payload it was given; recovery reads the payload's size off the length alone. -/

namespace M5DayLog

open Bytes Fat Device

section Header

/-- Bytes 8 to 39 of a header. -/
def headerFormat : Bytes :=
  lit "WAVE" ++ lit "fmt " ++ putU32le 16 ++ putU16le 1 ++ putU16le channelCount ++ putU32le sampleRateHz ++
  putU32le byteRate ++ putU16le blockAlign ++ putU16le bitsPerSample ++ lit "data"

/-- A header with any two size fields. -/
def headerWith (riff size : Bytes) : Bytes := lit "RIFF" ++ (riff ++ (headerFormat ++ size))

/-- A header of the recorder's format, whatever its size fields say. -/
def FixedHeader (h : Bytes) : Prop := ∃ riff size, riff.length = 4 ∧ size.length = 4 ∧ h = headerWith riff size

/-- The file with other size fields. -/
def withSizes (riff size : ℕ) (data : Bytes) : Bytes :=
  data.take 4 ++ (putU32le riff ++ ((data.drop 8).take 32 ++ (putU32le size ++ data.drop wavHeaderSize)))

theorem riff_length : (lit "RIFF").length = 4 := by with_unfolding_all decide

theorem headerFormat_length : headerFormat.length = 32 := by with_unfolding_all decide

theorem wavPartBuildHeader_fixed (pcm : ℕ) : FixedHeader (wavPartBuildHeader pcm) := by
  refine ⟨putU32le (36 + pcm), putU32le pcm, rfl, rfl, ?_⟩
  simp only [wavPartBuildHeader, headerWith, headerFormat, List.append_assoc]

theorem headerWith_length {riff size : Bytes} (hriff : riff.length = 4) (hsize : size.length = 4) :
    (headerWith riff size).length = wavHeaderSize := by
  simp only [headerWith, List.length_append, riff_length, headerFormat_length, hriff, hsize, wavHeaderSize]

theorem FixedHeader.length {h : Bytes} (hh : FixedHeader h) : h.length = wavHeaderSize := by
  obtain ⟨riff, size, hriff, hsize, rfl⟩ := hh
  exact headerWith_length hriff hsize

/-- Two texts of the same parts, the first up to a byte and the second from it on, part by part. -/
theorem mix_append {a b a' b' : Bytes} (hlen : a.length = a'.length) (n : ℕ) :
    (a ++ b).take n ++ (a' ++ b').drop n =
      (a.take n ++ a'.drop n) ++ (b.take (n - a.length) ++ b'.drop (n - a.length)) := by
  rw [List.take_append, List.drop_append, ← hlen]
  rcases Nat.le_total n a.length with hn | hn
  · have hzero : n - a.length = 0 := by omega
    simp [hzero]
  · have hdrop : a'.drop n = [] := List.drop_of_length_le (by omega)
    simp [hdrop]

theorem mix_length {a b : Bytes} (hlen : a.length = b.length) (n : ℕ) : (a.take n ++ b.drop n).length = b.length := by
  rw [List.length_append, List.length_take, List.length_drop]
  omega

/-- A header patched up to any byte is still one of the format. -/
theorem FixedHeader.mix {h h' : Bytes} (hh : FixedHeader h) (hh' : FixedHeader h') (n : ℕ) :
    FixedHeader (h.take n ++ h'.drop n) := by
  obtain ⟨riff, size, hriff, hsize, rfl⟩ := hh
  obtain ⟨riff', size', hriff', hsize', rfl⟩ := hh'
  have hmix₁ := mix_length (hriff.trans hriff'.symm) (n - 4)
  have hmix₂ := mix_length (hsize.trans hsize'.symm) (n - 4 - 4 - 32)
  refine ⟨_, _, hmix₁.trans hriff', hmix₂.trans hsize', ?_⟩
  unfold headerWith
  rw [mix_append rfl, mix_append (hriff.trans hriff'.symm), mix_append rfl, List.take_append_drop, List.take_append_drop,
    riff_length, hriff, headerFormat_length]

/-- A header written over another one up to any byte. -/
theorem overwrite_mix {hdr hd : Bytes} (hlen : hdr.length = hd.length) (n : ℕ) (pcm : Bytes) :
    Card.overwrite 0 (hdr.take n) (hd ++ pcm) = (hdr.take n ++ hd.drop n) ++ pcm := by
  have hdrop : hd.drop (hdr.take n).length = hd.drop n := by
    rw [List.length_take, hlen]
    rcases Nat.le_total n hd.length with hn | hn
    · rw [Nat.min_eq_left hn]
    · rw [Nat.min_eq_right hn, List.drop_length, List.drop_of_length_le hn]
  rw [Card.overwrite, List.take_zero, List.nil_append, Nat.zero_add, List.drop_append_of_le_length, hdrop, List.append_assoc]
  rw [List.length_take]
  omega

/-- Recovery accepts every header of the format. -/
theorem FixedHeader.valid {h : Bytes} (hh : FixedHeader h) : wavRecoveryValidateHeader h = true := by
  obtain ⟨riff, size, hriff, hsize, rfl⟩ := hh
  obtain ⟨a, b, c, d, rfl⟩ : ∃ a b c d, riff = [a, b, c, d] := by
    match riff, hriff with
    | [a, b, c, d], _ => exact ⟨a, b, c, d, rfl⟩
  have hlits : lit "RIFF" = [0x52, 0x49, 0x46, 0x46] ∧ lit "WAVE" = [0x57, 0x41, 0x56, 0x45] ∧
      lit "fmt " = [0x66, 0x6d, 0x74, 0x20] ∧ lit "data" = [0x64, 0x61, 0x74, 0x61] := by with_unfolding_all decide
  simp only [wavRecoveryValidateHeader, headerWith, headerFormat, hlits, putU16le, putU32le, wavU16, wavU32, at',
    List.cons_append, List.nil_append, List.take_succ_cons, List.take_zero, List.drop_succ_cons, List.drop_zero,
    List.getD_cons_zero, List.getD_cons_succ]
  decide

/-- Other size fields leave the payload and the format as they are. -/
theorem withSizes_append {h : Bytes} (hh : FixedHeader h) (riff size : ℕ) (pcm : Bytes) :
    withSizes riff size (h ++ pcm) = headerWith (putU32le riff) (putU32le size) ++ pcm := by
  have hlen := hh.length
  obtain ⟨riff', size', hriff, hsize, rfl⟩ := hh
  have htake : (headerWith riff' size' ++ pcm).take 4 = lit "RIFF" := by
    rw [headerWith, List.append_assoc, ← riff_length, List.take_left]
  have hformat : ((headerWith riff' size' ++ pcm).drop 8).take 32 = headerFormat := by
    have hfront : (lit "RIFF" ++ riff').length = 8 := by
      rw [List.length_append, riff_length, hriff]
    have hsplit : headerWith riff' size' ++ pcm = (lit "RIFF" ++ riff') ++ (headerFormat ++ (size' ++ pcm)) := by
      simp only [headerWith, List.append_assoc]
    rw [hsplit, ← hfront, List.drop_left, ← headerFormat_length, List.take_left]
  have hdrop : (headerWith riff' size' ++ pcm).drop wavHeaderSize = pcm := by
    rw [← hlen, List.drop_left]
  rw [withSizes, htake, hformat, hdrop]
  simp only [headerWith, List.append_assoc]

end Header

section Session

def wholeSamples (pcm : Bytes) : Bytes := pcm.take (pcm.length - pcm.length % bytesPerSample)

/-- The payload that the writes of a list of calls give to the part. -/
def recordedPayload : List SinkCall → Bytes
  | [] => []
  | .write pcm :: calls => wholeSamples pcm ++ recordedPayload calls
  | .flush :: calls => recordedPayload calls

/-- The calls on an open part, up to the first that fails. -/
def partCalls : List SinkCall → WavPart → Sys WavPart
  | [], part => return part
  | .write pcm :: calls, part => do
    let r ← wavPartWrite part pcm
    if !r.1 then return r.2 else partCalls calls r.2
  | .flush :: calls, part => do
    let flushed ← wavPartFlush part
    if !flushed then return part else partCalls calls part

/-- A part is opened and given its calls. -/
def recordPart (path : Path) (calls : List SinkCall) : Sys Bool := do
  let r ← wavPartOpen .closed path
  if !r.1 then return false
  else
    let _ ← partCalls calls r.2
    return true

/-- A file that the calls may leave at any moment: part of the first header, or a header and the beginning of the payload. -/
def RecordedPart (payload data : Bytes) : Prop :=
  data <+: wavPartBuildHeader 0 ∨ ∃ h pcm, FixedHeader h ∧ pcm <+: payload ∧ data = h ++ pcm

/-- Nothing but `path` is changed. -/
def Alone (path : Path) (c c' : Card) : Prop := ∀ q, q ≠ path → c'.vol.lookup q = c.vol.lookup q

/-- The card `c` with a recording at `path`, when the file is one that a FAT volume can hold. -/
structure LeavesRecording (path : Path) (payload : Bytes) (c c' : Card) : Prop where
  alone : Alone path c c'
  file : ∀ data, c'.file? path = some data → data.length < 2 ^ 32 → RecordedPart payload data

/-- The part's file holds the payload but for `rest`, and the counter its size. Where neither the file nor the whole payload
fits a FAT volume nothing is said. -/
structure Recording (part : WavPart) (payload rest data : Bytes) : Prop where
  header : wavHeaderSize ≤ data.length
  given : data.length < 2 ^ 32 ∨ wavHeaderSize + payload.length < 2 ^ 32 → ∃ h pcm, FixedHeader h ∧ data = h ++ pcm ∧ pcm ++ rest = payload ∧
    pcm.length = part.pcmBytes.toNat

variable {A : Fault → Prop} {C : Card → Prop} {c₀ c : Card} {part : WavPart} {path : Path}
  {payload rest more data : Bytes}

theorem Alone.writeAt (h : Alone path c₀ c) (pos : ℕ) (d : Bytes) (n : ℕ) : Alone path c₀ (c.writeAt path pos d n) :=
  fun q hq => (Card.lookup_writeAt hq).trans (h q hq)

theorem Recording.leaves (h : Recording part payload rest data) (hfile : c.file? path = some data) (halone : Alone path c₀ c) :
    LeavesRecording path payload c₀ c := by
  refine ⟨halone, fun data' hfile' hlt => ?_⟩
  rw [hfile] at hfile'
  obtain rfl := Option.some.inj hfile'
  obtain ⟨hd, pcm, hfixed, rfl, hpayload, -⟩ := h.given (Or.inl hlt)
  exact Or.inr ⟨hd, pcm, hfixed, ⟨rest, hpayload⟩, rfl⟩

/-- A new part has been given nothing. -/
theorem Recording.start (path : Path) (calls : List SinkCall) :
    Recording ⟨path, 0, true⟩ (recordedPayload calls) (recordedPayload calls) (wavPartBuildHeader 0) :=
  ⟨(wavPartBuildHeader_length 0).ge, fun _ => ⟨_, [], wavPartBuildHeader_fixed 0, (List.append_nil _).symm, rfl, rfl⟩⟩

/-- A header patched up to any byte leaves the payload as it is. -/
theorem Recording.patch (h : Recording part payload rest data) (hfile : c.file? part.path = some data) (n : ℕ) :
    ∃ data', (part.patch n c).file? part.path = some data' ∧ Recording part payload rest data' := by
  have hlen : (part.header.take n).length ≤ wavHeaderSize := by
    rw [List.length_take, part.header_length]
    omega
  have hsame : (Card.overwrite 0 (part.header.take n) data).length = data.length := by
    have := h.header
    rw [Card.overwrite_length]
    omega
  refine ⟨_, Card.file?_writeAt hfile, by rw [hsame]; exact h.header, fun hlt => ?_⟩
  rw [hsame] at hlt
  obtain ⟨hd, pcm, hfixed, rfl, hpayload, hcount⟩ := h.given hlt
  exact ⟨part.header.take n ++ hd.drop n, pcm, (wavPartBuildHeader_fixed _).mix hfixed n,
    overwrite_mix (part.header_length.trans hfixed.length.symm) n pcm, hpayload, hcount⟩

/-- A write at the tail, complete or cut short. -/
theorem Recording.append (h : Recording part payload (rest ++ more) data) (hfile : c.file? part.path = some data) (n : ℕ) :
    ∃ data', (c.writeAt part.path part.tail rest n).file? part.path = some data' ∧ wavHeaderSize ≤ data'.length ∧
      (data'.length < 2 ^ 32 ∨ wavHeaderSize + payload.length < 2 ^ 32 → ∃ hd pcm, FixedHeader hd ∧
        data' = hd ++ (pcm ++ rest.take n) ∧ pcm ++ (rest ++ more) = payload ∧ pcm.length = part.pcmBytes.toNat) := by
  refine ⟨_, Card.file?_writeAt hfile, ?_, fun hlt => ?_⟩
  · have := h.header
    rw [Card.overwrite_length]
    omega
  · obtain ⟨hd, pcm, hfixed, rfl, hpayload, hcount⟩ := h.given (by rw [Card.overwrite_length] at hlt; omega)
    have htail : part.tail = (hd ++ pcm).length := by
      rw [List.length_append, hfixed.length, hcount]
      rfl
    refine ⟨hd, pcm, hfixed, ?_, hpayload, hcount⟩
    rw [Card.overwrite, htail, List.take_length, List.drop_of_length_le (by omega), List.append_nil, List.append_assoc]

theorem wholeSamples_length (pcm : Bytes) : (wholeSamples pcm).length = pcm.length - pcm.length % bytesPerSample := by
  rw [wholeSamples, List.length_take]
  omega

/-- A complete write moves its samples from what is to come to what the part holds. -/
theorem Recording.written {pcm : Bytes} (h : Recording part payload (wholeSamples pcm ++ rest) data)
    (hfile : c.file? part.path = some data) :
    ∃ data', (c.writeAt part.path part.tail (wholeSamples pcm) (wholeSamples pcm).length).file? part.path = some data' ∧
      Recording { part with pcmBytes := part.pcmBytes + (wholeSamples pcm).length.toUInt32 } payload rest data' := by
  obtain ⟨data', hfile', hheader, hgiven⟩ := h.append hfile (wholeSamples pcm).length
  refine ⟨data', hfile', hheader, fun hlt => ?_⟩
  obtain ⟨hd, held, hfixed, rfl, hpayload, hcount⟩ := hgiven hlt
  rw [List.take_length] at hlt ⊢
  refine ⟨hd, held ++ wholeSamples pcm, hfixed, rfl, by rw [List.append_assoc, hpayload], ?_⟩
  rw [← hpayload] at hlt
  simp only [List.length_append, hcount] at hlt
  rw [List.length_append, hcount, UInt32.toNat_add]
  simp only [Nat.toUInt32, UInt32.toNat_ofNat']
  omega

theorem Recording.leaves_cut (h : Recording part payload (rest ++ more) data) (hfile : c.file? part.path = some data)
    (halone : Alone part.path c₀ c) (n : ℕ) :
    LeavesRecording part.path payload c₀ (c.writeAt part.path part.tail rest n) := by
  obtain ⟨data', hfile', -, hgiven⟩ := h.append hfile n
  refine ⟨halone.writeAt _ _ _, fun data'' hfile'' hlt => ?_⟩
  rw [hfile'] at hfile''
  obtain rfl := Option.some.inj hfile''
  obtain ⟨hd, pcm, hfixed, rfl, hpayload, -⟩ := hgiven (Or.inl hlt)
  refine Or.inr ⟨hd, pcm ++ rest.take n, hfixed, ?_, rfl⟩
  rw [← hpayload, List.prefix_append_right_inj]
  exact (List.take_prefix n rest).trans (List.prefix_append rest more)

/-- A chunk is written, or a part of its samples is. -/
theorem wp_wavPartWrite_recording {Q : Bool × WavPart → Card → Prop} {pcm : Bytes} (hopen : part.opened = true)
    (h : Recording part payload (wholeSamples pcm ++ rest) data) (hfile : c.file? part.path = some data)
    (halone : Alone part.path c₀ c) (hC : ∀ c', LeavesRecording part.path payload c₀ c' → C c')
    (hok : ∀ part' data' c', part'.path = part.path → part'.opened = true → c'.file? part.path = some data' →
      Alone part.path c₀ c' → Recording part' payload rest data' → Q (true, part') c')
    (hf : IoFault A → ∀ c', LeavesRecording part.path payload c₀ c' → Q (false, part) c') :
    device.wp A C (wavPartWrite part pcm) Q c := by
  have hlen := wholeSamples_length pcm
  unfold wavPartWrite
  simp only [hopen, Bool.not_true, Bool.false_eq_true, if_false]
  split
  case isTrue hnone =>
    have hempty : wholeSamples pcm = [] := List.length_eq_zero_iff.mp (hlen.trans hnone)
    rw [hempty, List.nil_append] at h
    exact hok part data c rfl hopen hfile halone h
  case isFalse hsome =>
    rw [← hlen, wp_bind]
    have htake : pcm.take (wholeSamples pcm).length = wholeSamples pcm := by rw [hlen, wholeSamples]
    rw [htake]
    refine wp_fwrite (fun n => hC _ (h.leaves_cut hfile halone n)) ?_ fun hA n hn => ?_
    · obtain ⟨data', hfile', h'⟩ := h.written hfile
      rw [if_neg (fun hne => hne rfl)]
      exact hok _ data' _ rfl rfl hfile' (halone.writeAt _ _ _) (by simpa [hopen] using h')
    · rw [if_pos (by omega)]
      exact hf hA _ (h.leaves_cut hfile halone n)

theorem wp_wavPartFlush_recording {Q : Bool → Card → Prop} (hopen : part.opened = true)
    (h : Recording part payload rest data) (hfile : c.file? part.path = some data) (halone : Alone part.path c₀ c)
    (hC : ∀ c', LeavesRecording part.path payload c₀ c' → C c')
    (hok : ∀ data' c', c'.file? part.path = some data' → Alone part.path c₀ c' → Recording part payload rest data' → Q true c')
    (hf : IoFault A → ∀ c', LeavesRecording part.path payload c₀ c' → Q false c') :
    device.wp A C (wavPartFlush part) Q c := by
  have hpatch : ∀ n, LeavesRecording part.path payload c₀ (part.patch n c) := by
    intro n
    obtain ⟨data', hfile', h'⟩ := h.patch hfile n
    exact h'.leaves hfile' (halone.writeAt _ _ _)
  unfold wavPartFlush
  rw [if_neg (by simp [hopen])]
  refine wp_wavPartRewriteHeader (hC _ (h.leaves hfile halone)) (fun n => hC _ (hpatch n)) ?_ fun hA => ⟨?_, fun n => ?_⟩
  · obtain ⟨data', hfile', h'⟩ := h.patch hfile wavHeaderSize
    exact hok data' _ hfile' (halone.writeAt _ _ _) h'
  · exact hf hA _ (h.leaves hfile halone)
  · exact hf hA _ (hpatch n)

/-- The calls, one after the other, keep a recording; without a fault it ends complete. -/
theorem wp_partCalls {Q : WavPart → Card → Prop} (calls : List SinkCall) (hopen : part.opened = true)
    (h : Recording part payload (recordedPayload calls) data) (hfile : c.file? part.path = some data)
    (halone : Alone part.path c₀ c) (hC : ∀ c', LeavesRecording part.path payload c₀ c' → C c')
    (hok : ∀ part' data' c', part'.path = part.path → part'.opened = true → c'.file? part.path = some data' →
      Alone part.path c₀ c' → Recording part' payload [] data' → Q part' c')
    (hf : IoFault A → ∀ part' c', LeavesRecording part.path payload c₀ c' → Q part' c') :
    device.wp A C (partCalls calls part) Q c := by
  induction calls generalizing part data c with
  | nil => exact hok part data c rfl hopen hfile halone h
  | cons call calls ih =>
    cases call with
    | write pcm =>
      unfold partCalls
      rw [wp_bind]
      apply wp_wavPartWrite_recording hopen h hfile halone hC
      · intro part' data' c' hpath hopen' hfile' halone' h'
        rw [← hpath] at hfile' halone' hC hf
        refine ih hopen' h' hfile' halone' hC (fun part'' data'' c'' hpath' hopen'' hfile'' halone'' h'' => ?_) hf
        rw [hpath] at hpath' hfile'' halone''
        exact hok part'' data'' c'' hpath' hopen'' hfile'' halone'' h''
      · intro hA c' h'
        exact hf hA part c' h'
    | flush =>
      unfold partCalls
      rw [wp_bind]
      apply wp_wavPartFlush_recording hopen h hfile halone hC
      · intro data' c' hfile' halone' h'
        exact ih hopen h' hfile' halone' hC hok hf
      · intro hA c' h'
        exact hf hA part c' h'

/-- Every moment of a session leaves a recording. -/
theorem wp_recordPart (calls : List SinkCall) (hnew : c.file? path = none) :
    device.wp A (LeavesRecording path (recordedPayload calls) c) (recordPart path calls)
      (fun _ => LeavesRecording path (recordedPayload calls) c) c := by
  have hfresh : ∀ n, (freshPart path n c).file? path = some ((wavPartBuildHeader 0).take n) := fun n => Card.file?_put
  have halone : ∀ n, Alone path c (freshPart path n c) := by
    intro n q hq
    rw [freshPart, Card.lookup_put, if_neg hq]
  have hleaves : ∀ n, LeavesRecording path (recordedPayload calls) c (freshPart path n c) := by
    refine fun n => ⟨halone n, fun data hfile _ => ?_⟩
    rw [hfresh] at hfile
    exact Or.inl (Option.some.inj hfile ▸ List.take_prefix _ _)
  have hbefore : LeavesRecording path (recordedPayload calls) c c := by
    refine ⟨fun _ _ => rfl, fun data hfile => ?_⟩
    rw [hnew] at hfile
    cases hfile
  unfold recordPart
  rw [wp_bind]
  refine wp_wavPartOpen hbefore hleaves (fun _ _ => ?_) fun part' => ⟨hbefore, hleaves⟩
  have hhdr := wavPartBuildHeader_length 0
  have hfile : (freshPart path wavHeaderSize c).file? path = some (wavPartBuildHeader 0) := by
    rw [hfresh, ← hhdr, List.take_length]
  simp only [Bool.not_true, Bool.false_eq_true, if_false]
  rw [wp_bind]
  apply wp_partCalls calls rfl (Recording.start path calls) hfile (halone _) (fun _ h => h)
  · intro part' data' c' _ _ hfile' halone' h'
    exact h'.leaves hfile' halone'
  · intro _ part' c' h'
    exact h'

end Session

section Cut

variable {c : Card} {part wav quarantineDir : Path} {payload data : Bytes}

/-- `pcm` is the longest beginning of `left` with whole samples. -/
structure LongestSamples (left pcm : Bytes) : Prop where
  isPrefix : pcm <+: left
  whole : pcm.length % bytesPerSample = 0
  longest : left.length < pcm.length + bytesPerSample

/-- A file cut behind its header is a header of the format and a beginning of the payload. -/
theorem RecordedPart.cut (h : RecordedPart payload data) {n : ℕ} (hn : wavHeaderSize ≤ n) (hle : n ≤ data.length) (riff size : ℕ) :
    ∃ hd, FixedHeader hd ∧ (withSizes riff size data).take n = hd ++ payload.take (n - wavHeaderSize) := by
  obtain ⟨hd, pcm, hfixed, hpcm, rfl⟩ : ∃ hd pcm, FixedHeader hd ∧ pcm <+: payload ∧ data = hd ++ pcm := by
    rcases h with hfirst | h
    · have hlen := hfirst.length_le
      rw [wavPartBuildHeader_length] at hlen
      have heq := hfirst.eq_of_length (by rw [wavPartBuildHeader_length]; omega)
      exact ⟨_, [], wavPartBuildHeader_fixed 0, List.nil_prefix, by rw [heq, List.append_nil]⟩
    · exact h
  have hnew : (headerWith (putU32le riff) (putU32le size)).length = wavHeaderSize := headerWith_length rfl rfl
  refine ⟨_, ⟨putU32le riff, putU32le size, rfl, rfl, rfl⟩, ?_⟩
  rw [withSizes_append hfixed, List.take_append, List.take_of_length_le (hnew.le.trans hn), hnew]
  congr 1
  rw [List.length_append, hfixed.length] at hle
  rw [List.prefix_iff_eq_take.mp hpcm, List.take_take, Nat.min_eq_left (by omega)]

/-- Recovery makes a finalized recording of a header of the format with a payload behind it. -/
theorem eval_recoverFile_recorded {hd pcm : Bytes} (hfixed : FixedHeader hd) (hpart : c.file? part = some (hd ++ pcm))
    (hlt : (hd ++ pcm).length < 2 ^ 31) (hname : wavRotationPartToWav part maxPathLen = some wav) (hne : quarantineDir ≠ [])
    (hfree : c.vol.lookup wav = none) :
    ∃ pcm', LongestSamples pcm pcm' ∧ FinalizedWav (wavPartBuildHeader pcm'.length ++ pcm') ∧
      (device.eval (wavRecoveryRecoverFile part wav quarantineDir) c).1 = (.recovered, pcm'.length) ∧
      Moved c (device.eval (wavRecoveryRecoverFile part wav quarantineDir) c).2 part wav
        (wavPartBuildHeader pcm'.length ++ pcm') := by
  have hhd := hfixed.length
  have htotal : (hd ++ pcm).length = wavHeaderSize + pcm.length := by rw [List.length_append, hhd]
  have hdrop : (hd ++ pcm).drop wavHeaderSize = pcm := by rw [← hhd, List.drop_left]
  have hrec : Recoverable (hd ++ pcm) := by
    refine ⟨by omega, hlt, ?_⟩
    rw [← hhd, List.take_left]
    exact hfixed.valid
  obtain ⟨halign, hsum⟩ := recoveredPcm_spec (hd ++ pcm).length
  obtain ⟨hresult, hmoved⟩ := eval_recoverFile_recovered hpart hname hne hrec hfree
  set k := recoveredPcm (hd ++ pcm).length with hk
  have hlen : (pcm.take k).length = k := by
    rw [List.length_take]
    omega
  rw [rebuiltPart, hdrop, ← hk] at hmoved
  refine ⟨pcm.take k, ⟨List.take_prefix k pcm, ?_, ?_⟩, ?_, ?_, ?_⟩
  · rw [hlen]
    exact halign
  · rw [hlen, bytesPerSample] at *
    omega
  · refine finalizedWav_header _ (by rw [hlen]; omega) ?_
    rw [hlen]
    exact halign
  · rw [hlen, hresult]
  · rw [hlen]
    exact hmoved

/-- A recording of less than 2 GiB, cut at any byte behind its header and with any size fields, is recovered as the longest
payload of whole samples that is left. A part without a whole header of the format goes to quarantine as it is, when the
quarantine directory is there or can be made and one of its names is free. -/
theorem wavRecoveryRecoverFile_cut (hname : wavRotationPartToWav part maxPathLen = some wav) (hne : quarantineDir ≠ []) :
    (∀ (calls : List SinkCall) (es : List (Event Fault)) (c x : Card) (data : Bytes) (riff size n : ℕ), c.file? part = none →
      (device.run (recordPart part calls) es c).state.file? part = some data → data.length < 2 ^ 32 →
      wavHeaderSize ≤ n → n ≤ data.length → n < 2 ^ 31 →
      x = (device.run (recordPart part calls) es c).state.put part (.file ((withSizes riff size data).take n)) →
      x.vol.lookup wav = none →
      ∃ pcm, LongestSamples ((recordedPayload calls).take (n - wavHeaderSize)) pcm ∧
        FinalizedWav (wavPartBuildHeader pcm.length ++ pcm) ∧
        (device.eval (wavRecoveryRecoverFile part wav quarantineDir) x).1 = (.recovered, pcm.length) ∧
        Moved x (device.eval (wavRecoveryRecoverFile part wav quarantineDir) x).2 part wav
          (wavPartBuildHeader pcm.length ++ pcm)) ∧
    ∀ (x : Card) (data : Bytes), x.file? part = some data →
      (data.length < wavHeaderSize ∨ wavRecoveryValidateHeader (data.take wavHeaderSize) = false) →
      QuarantineReady x part quarantineDir →
      ∃ i d x₁, i < 100 ∧ quarantineName part quarantineDir i = some d ∧ x.vol.lookup d = none ∧
        MadeDir x x₁ quarantineDir ∧
        (device.eval (wavRecoveryRecoverFile part wav quarantineDir) x).1 = (.quarantined, 0) ∧
        Moved x₁ (device.eval (wavRecoveryRecoverFile part wav quarantineDir) x).2 part d data := by
  constructor
  · intro calls es c x data riff size n hnew hdata hlt hn hle hsmall hx hfree
    have hwp := wp_recordPart (A := fun _ => True) calls hnew
    have hleaves := (Outcome.sat_state _ _).mp (run_sat _ es hwp fun _ _ _ _ => trivial)
    obtain ⟨hd, hfixed, hcut⟩ := (hleaves.file data hdata hlt).cut hn hle riff size
    have hpart : x.file? part = some (hd ++ (recordedPayload calls).take (n - wavHeaderSize)) := by
      rw [hx, hcut, Card.file?_put]
    refine eval_recoverFile_recorded hfixed hpart ?_ hname hne hfree
    have := hfixed.length
    rw [List.length_append, List.length_take]
    omega
  · intro x data hpart hbad hready
    refine eval_recoverFile_quarantined hpart hname hne ?_ hready
    rintro ⟨⟨hlen, -, hvalid⟩, -⟩
    rcases hbad with hshort | hinvalid
    · omega
    · rw [hvalid] at hinvalid
      cases hinvalid

section Limits

/-- The open of a part succeeds in a directory that is there. -/
theorem eval_wavPartOpen {path : Path} {part : WavPart} (hsuffix : hasPartSuffix path = true) (hfile : c.isDir path = false)
    (hdir : c.isDir (dirname path) = true) :
    device.eval (wavPartOpen part path) c = ((true, ⟨path, 0, true⟩), freshPart path wavHeaderSize c) := by
  have hhdr := wavPartBuildHeader_length 0
  have hopen : device.eval (fopen path .write) c = (true, c.put path (.file [])) := by
    show c.openAns path .write = _
    simp [Card.openAns, hfile, hdir]
  have hwrite : device.eval (fwrite path 0 (wavPartBuildHeader 0)) (c.put path (.file [])) =
      (wavHeaderSize, freshPart path wavHeaderSize c) := by
    show ((wavPartBuildHeader 0).length, (c.put path (.file [])).writeAt path 0 _ (wavPartBuildHeader 0).length) = _
    rw [Card.writeAt_new (by simp), Card.put_put, hhdr]
    rfl
  have hsync : ∀ c', device.eval (wavPartSyncMedia path) c' = (true, c') := fun _ => rfl
  unfold wavPartOpen
  rw [if_neg (by simp [hsuffix]), eval_bind, hopen]
  simp only [Bool.not_true, Bool.false_eq_true, if_false]
  rw [eval_bind, hwrite]
  simp only [ne_eq, not_true_eq_false, if_false]
  rw [eval_bind, hsync]
  rfl

/-- The fault-free calls leave a recording of the whole payload. -/
theorem run_recordPart (part : Path) (c : Card) (calls : List SinkCall) (hsuffix : hasPartSuffix part = true) (hfile : c.isDir part = false)
    (hdir : c.isDir (dirname part) = true) (hfit : wavHeaderSize + (recordedPayload calls).length < 2 ^ 32) :
    ∃ data, (device.run (recordPart part calls) [] c).state.file? part = some data ∧
      Alone part c (device.run (recordPart part calls) [] c).state ∧
      data.length = wavHeaderSize + (recordedPayload calls).length := by
  have hstate : (device.run (recordPart part calls) [] c).state =
      (device.eval (partCalls calls ⟨part, 0, true⟩) (freshPart part wavHeaderSize c)).2 := by
    rw [run_nil, Outcome.state, recordPart, eval_bind, eval_wavPartOpen hsuffix hfile hdir]
    simp only [Bool.not_true, Bool.false_eq_true, if_false]
    rw [eval_bind]
    rfl
  have hfirst : (freshPart part wavHeaderSize c).file? part = some (wavPartBuildHeader 0) := by
    rw [freshPart, Card.file?_put, ← wavPartBuildHeader_length 0, List.take_length]
  have halone : Alone part c (freshPart part wavHeaderSize c) := by
    intro q hq
    rw [freshPart, Card.lookup_put, if_neg hq]
  rw [hstate]
  refine eval_sat (A := fun _ => False) (C := fun _ => True) (Q := fun _ c' => ∃ data, c'.file? part = some data ∧
    Alone part c c' ∧ data.length = wavHeaderSize + (recordedPayload calls).length) _ (wp_partCalls calls rfl
      (Recording.start part calls) hfirst halone (fun _ _ => trivial) (fun part' data c' _ _ hfile' halone' h => ?_)
      fun hA => absurd hA not_ioFault_false)
  obtain ⟨hd, pcm, hfixed, rfl, hpcm, -⟩ := h.given (Or.inr hfit)
  rw [List.append_nil] at hpcm
  exact ⟨_, hfile', halone', by rw [List.length_append, hfixed.length, hpcm]⟩

theorem recordedPayload_replicate (n : ℕ) (pcm : Bytes) :
    (recordedPayload (List.replicate n (.write pcm))).length = n * (wholeSamples pcm).length := by
  induction n with
  | zero => simp [recordedPayload]
  | succ n ih =>
    rw [List.replicate_succ, recordedPayload, List.length_append, ih, Nat.succ_mul, Nat.add_comm]

/-- No recording is made of a part of 2 GiB or more. -/
theorem eval_recoverFile_huge (hpart : c.file? part = some data) (hbig : 2 ^ 31 ≤ data.length)
    (hname : wavRotationPartToWav part maxPathLen = some wav) (hne : quarantineDir ≠ []) (hfree : c.vol.lookup wav = none)
    (hout : ∀ n, wav ≠ join quarantineDir n) (hdir : wav ≠ quarantineDir) :
    (device.eval (wavRecoveryRecoverFile part wav quarantineDir) c).2.vol.lookup wav = none := by
  have hwav : wav ≠ part := by
    rintro rfl
    exact partToWav_ne hname
  have hmade : ∀ c₁, MadeDir c c₁ quarantineDir → c₁.vol.lookup wav = none := fun c₁ h => by
    rw [h.lookup hdir, hfree]
  refine Settles.eval (Q := fun _ c' => c'.vol.lookup wav = none) ⟨?_, ?_, ?_⟩ hpart hname hne
  · intro data' c' _ hrec
    exact absurd hrec.2.1 (Nat.not_lt_of_le hbig)
  · intro data' i d c₁ c' _ _ hm _ hd _ hmoved
    obtain ⟨n, hn, -⟩ := quarantineName_join hd
    rw [hmoved, if_neg (hn ▸ hout n), if_neg hwav, hmade c₁ hm]
  · intro data' c₁ c' _ _ hm hmoved
    rw [hmoved, if_neg hwav, if_neg hwav, hmade c₁ hm]

/-- The chunks of a recording of 2 GiB. -/
def hugeCalls : List SinkCall := List.replicate 65536 (.write (List.replicate bufferBytes 0))

/-- A short part, and a file where the quarantine directory should be. -/
def blockedCard : Card :=
  ⟨List.toAList [⟨lit "/r", .dir⟩, ⟨strayPart, .file [1, 2, 3]⟩, ⟨lit "/q", .file []⟩], false⟩

/-- A part whose finalized name does not fit the path buffer. -/
def longPart : Path := lit "/r/" ++ List.replicate 256 0x61 ++ partSuffix

def longWav : Path := lit "/r/" ++ List.replicate 256 0x61 ++ wavSuffix

def longCard : Card := ⟨List.toAList [⟨lit "/r", .dir⟩, ⟨longPart, .file (wavPartBuildHeader 0)⟩], false⟩

theorem hugeCalls_length : wavHeaderSize + (recordedPayload hugeCalls).length = 2 ^ 31 + 44 := by
  rw [hugeCalls, recordedPayload_replicate, wholeSamples_length, List.length_replicate]
  decide

theorem strayWav_ne_join (n : Bytes) : strayWav ≠ join (lit "/q") n := by
  intro heq
  have hbyte := congrArg (fun p : Path => p[1]?) heq
  have hleft : strayWav[1]? = some 0x72 := by with_unfolding_all decide
  have hright : (join (lit "/q") n)[1]? = some 0x71 := by
    have hq : lit "/q" = [0x2f, 0x71] := by with_unfolding_all decide
    rw [hq]
    rfl
  simp only [hleft, hright] at hbyte
  cases hbyte

/-- A recording of 2 GiB is not recovered, whole as it is. A short part stays where it is when the quarantine directory cannot
be made, and so does a part whose finalized name is too long. -/
theorem wavRecoveryRecoverFile_cut_limits :
    (∃ data x, (device.run (recordPart strayPart hugeCalls) [] strayCard).state.file? strayPart = some data ∧
      wavHeaderSize ≤ data.length ∧ data.length < 2 ^ 32 ∧
      x = (device.run (recordPart strayPart hugeCalls) [] strayCard).state.put strayPart (.file (data.take data.length)) ∧
      x.vol.lookup strayWav = none ∧
      (device.eval (wavRecoveryRecoverFile strayPart strayWav (lit "/q")) x).2.vol.lookup strayWav = none) ∧
    ((device.eval (wavRecoveryRecoverFile strayPart strayWav (lit "/q")) blockedCard).1 = (.error, 0) ∧
      (device.eval (wavRecoveryRecoverFile strayPart strayWav (lit "/q")) blockedCard).2.file? strayPart = some [1, 2, 3]) ∧
    (device.eval (wavRecoveryRecoverFile longPart longWav (lit "/q")) longCard).1 = (.error, 0) := by
  refine ⟨?_, by decide +kernel, by decide +kernel⟩
  have hpayload := hugeCalls_length
  obtain ⟨data, hfile, halone, hlen⟩ := run_recordPart strayPart strayCard hugeCalls (by decide +kernel) (by decide +kernel)
    (by decide +kernel) (by omega)
  rw [hpayload] at hlen
  have hne : strayWav ≠ strayPart := by with_unfolding_all decide
  have hname : wavRotationPartToWav strayPart maxPathLen = some strayWav := by decide +kernel
  have hdir : lit "/q" ≠ [] := by with_unfolding_all decide
  set x := (device.run (recordPart strayPart hugeCalls) [] strayCard).state.put strayPart (.file (data.take data.length)) with hx
  have hpart : x.file? strayPart = some data := by rw [hx, List.take_length, Card.file?_put]
  have hfree : x.vol.lookup strayWav = none := by
    rw [hx, Card.lookup_put, if_neg hne, halone _ hne]
    exact strayWav_free
  refine ⟨data, x, hfile, by simp only [wavHeaderSize]; omega, by omega, rfl, hfree, ?_⟩
  exact eval_recoverFile_huge hpart (by omega) hname hdir hfree strayWav_ne_join (by with_unfolding_all decide)

end Limits

section TornRecording

/-- Two chunks with a flush between them; power is lost in the flush, within the size field of its header. -/
def tornCalls : List SinkCall := [.write [1, 2, 3, 4, 5], .flush, .write [6, 7]]

/-- The open makes four calls, the write one, and the flush seeks before it patches the header. -/
def tornEvents : List (Event Fault) := List.replicate 6 (.act none) ++ [.cut 6]

def tornData : Bytes := (wavPartBuildHeader 4).take 6 ++ (wavPartBuildHeader 0).drop 6 ++ [1, 2, 3, 4]

def tornCard : Card := (device.run (recordPart strayPart tornCalls) tornEvents strayCard).state.put strayPart
  (.file ((withSizes 7 9 tornData).take 47))

theorem tornCard_part : (device.run (recordPart strayPart tornCalls) tornEvents strayCard).state.file? strayPart =
    some tornData := by
  decide +kernel

/-- The file loses its last byte, and the odd byte before it; a part without a header goes to quarantine. -/
theorem wavRecoveryRecoverFile_cut_torn :
    (∃ pcm, LongestSamples ((recordedPayload tornCalls).take (47 - wavHeaderSize)) pcm ∧
      FinalizedWav (wavPartBuildHeader pcm.length ++ pcm) ∧
      (device.eval (wavRecoveryRecoverFile strayPart strayWav (lit "/q")) tornCard).1 = (.recovered, pcm.length) ∧
      Moved tornCard (device.eval (wavRecoveryRecoverFile strayPart strayWav (lit "/q")) tornCard).2 strayPart strayWav
        (wavPartBuildHeader pcm.length ++ pcm)) ∧
    ∃ i d x₁, i < 100 ∧ quarantineName strayPart (lit "/r") i = some d ∧ blockedCard.vol.lookup d = none ∧
      MadeDir blockedCard x₁ (lit "/r") ∧
      (device.eval (wavRecoveryRecoverFile strayPart strayWav (lit "/r")) blockedCard).1 = (.quarantined, 0) ∧
      Moved x₁ (device.eval (wavRecoveryRecoverFile strayPart strayWav (lit "/r")) blockedCard).2 strayPart d [1, 2, 3] := by
  have hname : wavRotationPartToWav strayPart maxPathLen = some strayWav := by decide +kernel
  constructor
  · exact (wavRecoveryRecoverFile_cut hname (by with_unfolding_all decide)).1 tornCalls tornEvents strayCard tornCard tornData
      7 9 47 (by decide +kernel) tornCard_part (by decide +kernel) (by decide) (by decide +kernel) (by decide) rfl
      (by decide +kernel)
  · refine (wavRecoveryRecoverFile_cut hname (by with_unfolding_all decide)).2 blockedCard [1, 2, 3] (by decide +kernel)
      (Or.inl (by decide)) ⟨Or.inl (by decide +kernel), 1, by omega,
        ⟨lit "/r/a_1.wav.part", by decide +kernel, by decide +kernel⟩, fun j hj => ?_⟩
    obtain rfl : j = 0 := by omega
    exact ⟨strayPart, by decide +kernel, by decide +kernel⟩

end TornRecording

end Cut

end M5DayLog
