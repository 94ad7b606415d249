import M5DayLog.Manifest.Validate

/-! One manifest entry: the fields, the text the firmware writes, and the canonical parser of that text.
`manifestEntry_eq_some` says that the parser accepts exactly the texts of valid entries. -/

namespace M5DayLog

open Bytes

def quoted (v : Bytes) : Bytes := quote :: (v ++ [quote])

structure Entry where
  recordingId : Bytes
  filename : Bytes
  startedAt : Bytes
  durationMs : ℕ
  sizeBytes : ℕ
  sha256 : Bytes
  state : Bytes
  firmwareVersion : Bytes
  deriving DecidableEq

def stateFinalized : Bytes := lit "finalized"
def stateRecovered : Bytes := lit "recovered"

namespace Entry

/-- The entry object, without a trailing newline. -/
def render (e : Entry) : Bytes :=
  lit "\x7b\"recordingId\":" ++ quoted e.recordingId ++
  lit ",\"filename\":" ++ quoted e.filename ++
  lit ",\"startedAt\":" ++ quoted e.startedAt ++
  lit ",\"durationMs\":" ++ dec e.durationMs ++
  lit ",\"sizeBytes\":" ++ dec e.sizeBytes ++
  lit ",\"sha256\":" ++ quoted e.sha256 ++
  lit ",\"sampleRate\":" ++ dec sampleRateHz ++
  lit ",\"bitDepth\":" ++ dec bitsPerSample ++
  lit ",\"channels\":" ++ dec channelCount ++
  lit ",\"state\":" ++ quoted e.state ++
  lit ",\"firmwareVersion\":" ++ quoted e.firmwareVersion ++ lit "\x7d"

/-- What the builder of an entry checks, and its numbers fit their 32-bit arguments. -/
structure Built (e : Entry) : Prop where
  recordingId : isValidUuid e.recordingId = true
  filename : validFilename e.filename = true
  startedAt : isValidIso8601Offset e.startedAt = true
  duration_lt : e.durationMs < 2 ^ 32
  size_lt : e.sizeBytes < 2 ^ 32
  header : wavHeaderSize ≤ e.sizeBytes
  sha256 : isValidSha256Hex e.sha256 = true
  state : e.state = stateFinalized ∨ e.state = stateRecovered
  firmwareVersion : e.firmwareVersion ≠ [] ∧ e.firmwareVersion.length ≤ 32 ∧ e.firmwareVersion.all plainChar = true

/-- The payload is whole samples and the duration is that of the payload. -/
def Consistent (e : Entry) : Prop :=
  (e.sizeBytes - wavHeaderSize) % blockAlign = 0 ∧ e.durationMs = deviceManifestDurationMs (e.sizeBytes - wavHeaderSize)

instance (e : Entry) : Decidable e.Consistent := inferInstanceAs (Decidable (_ ∧ _))

/-- Every check the canonical parser makes on one entry. -/
structure Valid (e : Entry) : Prop extends e.Built where
  consistent : e.Consistent

end Entry

theorem quoted_length (v : Bytes) : (quoted v).length = v.length + 2 := by
  simp [quoted]

/-- The text of a built entry always fits the firmware's entry buffers. -/
theorem Entry.render_length {e : Entry} (h : e.Built) : e.render.length ≤ 640 := by
  have hdur := dec_length_le (k := 10) (by omega) (h.duration_lt.trans (by norm_num))
  have hsize := dec_length_le (k := 10) (by omega) (h.size_lt.trans (by norm_num))
  have hname := filename_length h.filename
  have hstate : e.state.length ≤ 9 := by
    rcases h.state with h | h <;> rw [h] <;> with_unfolding_all decide
  have hfw := h.firmwareVersion.2.1
  have hconst : (dec sampleRateHz).length = 5 ∧ (dec bitsPerSample).length = 2 ∧ (dec channelCount).length = 1 := by
    decide
  have hlits : (lit "\x7b\"recordingId\":").length = 15 ∧ (lit ",\"filename\":").length = 12 ∧
      (lit ",\"startedAt\":").length = 13 ∧ (lit ",\"durationMs\":").length = 14 ∧
      (lit ",\"sizeBytes\":").length = 13 ∧ (lit ",\"sha256\":").length = 10 ∧
      (lit ",\"sampleRate\":").length = 14 ∧ (lit ",\"bitDepth\":").length = 12 ∧
      (lit ",\"channels\":").length = 12 ∧ (lit ",\"state\":").length = 9 ∧
      (lit ",\"firmwareVersion\":").length = 19 ∧ (lit "\x7d").length = 1 := by with_unfolding_all decide
  unfold Entry.render
  simp only [List.length_append, quoted_length, uuid_length h.recordingId, iso8601_length h.startedAt,
    sha256Hex_length h.sha256, hconst, hlits]
  omega

/-- Build one entry object; `none` on bad input or when it does not fit the buffer. -/
def deviceManifestBuildEntry (recordingId filename startedAt : Bytes) (durationMs sizeBytes : UInt32)
    (sha256Hex : Bytes) (sampleRate bitDepth channels : ℕ) (state : Bytes) (firmware : Option Bytes)
    (outSize : ℕ) : Option Bytes :=
  let fw := firmware.getD firmwareVersion
  let e : Entry := ⟨recordingId, filename, startedAt, durationMs.toNat, sizeBytes.toNat, sha256Hex, state, fw⟩
  if outSize = 0 ∨ !isValidUuid recordingId ∨ !validFilename filename ∨ !isValidIso8601Offset startedAt ∨
      !isValidSha256Hex sha256Hex ∨ (state ≠ stateFinalized ∧ state ≠ stateRecovered) ∨ !safeFreeText fw 32 ∨
      sampleRate ≠ sampleRateHz ∨ bitDepth ≠ bitsPerSample ∨ channels ≠ channelCount ∨
      sizeBytes.toNat < wavHeaderSize ∨ e.render.length ≥ outSize
  then none else some e.render

/-- What the builder gives is the text of a built entry that fits the buffer. -/
theorem deviceManifestBuildEntry_eq_some {recordingId filename startedAt sha256Hex state out : Bytes}
    {durationMs sizeBytes : UInt32} {sampleRate bitDepth channels outSize : ℕ} {firmware : Option Bytes}
    (h : deviceManifestBuildEntry recordingId filename startedAt durationMs sizeBytes sha256Hex sampleRate bitDepth
      channels state firmware outSize = some out) :
    ∃ e : Entry, e = ⟨recordingId, filename, startedAt, durationMs.toNat, sizeBytes.toNat, sha256Hex, state,
      firmware.getD firmwareVersion⟩ ∧ e.Built ∧ out = e.render ∧ out.length < outSize := by
  unfold deviceManifestBuildEntry at h
  dsimp only at h
  rw [Option.ite_none_left_eq_some] at h
  obtain ⟨hok, hout⟩ := h
  obtain rfl := Option.some.inj hout
  simp only [not_or, Bool.not_eq_true', Bool.not_eq_false, not_and, not_not, not_lt, ge_iff_le, not_le, safeFreeText,
    Bool.and_eq_true, decide_eq_true_eq] at hok
  obtain ⟨-, hid, hname, hstart, hsha, hstate, ⟨⟨hne, hlen⟩, hplain⟩, -, -, -, hhdr, hfit⟩ := hok
  refine ⟨_, rfl, ⟨hid, hname, hstart, durationMs.toNat_lt, sizeBytes.toNat_lt, hhdr, hsha, ?_, ?_⟩, rfl, hfit⟩
  · exact or_iff_not_imp_left.mpr hstate
  · exact ⟨by simpa using hne, hlen, hplain⟩

/-- The builder gives the text of every built entry that fits the buffer. -/
theorem deviceManifestBuildEntry_built {e : Entry} (h : e.Built) {outSize : ℕ} (hfit : e.render.length < outSize) :
    deviceManifestBuildEntry e.recordingId e.filename e.startedAt e.durationMs.toUInt32 e.sizeBytes.toUInt32 e.sha256
      sampleRateHz bitsPerSample channelCount e.state (some e.firmwareVersion) outSize = some e.render := by
  have hduration : e.durationMs.toUInt32.toNat = e.durationMs := UInt32.toNat_ofNat_of_lt' h.duration_lt
  have hsize : e.sizeBytes.toUInt32.toNat = e.sizeBytes := UInt32.toNat_ofNat_of_lt' h.size_lt
  have hheader := h.header
  have hstate := or_iff_not_imp_left.mp h.state
  have hfw : safeFreeText e.firmwareVersion 32 = true := by simpa [safeFreeText, and_assoc] using h.firmwareVersion
  unfold deviceManifestBuildEntry
  simp only [hduration, hsize, Option.getD_some, h.recordingId, h.filename, h.startedAt, h.sha256, hfw, Bool.not_true,
    Bool.false_eq_true, ne_eq, not_true_eq_false, false_or]
  rw [if_neg]
  simp only [not_or, not_and, not_not, not_lt, ge_iff_le, not_le]
  exact ⟨by omega, hstate, hheader, hfit⟩

section Cursor

def manifestExpect (cursor literal : Bytes) : Option Bytes :=
  if literal <+: cursor then some (cursor.drop literal.length) else none

/-- The characters of a string up to its closing quote. -/
def stringBody : Bytes → Option (Bytes × Bytes)
  | [] => none
  | c :: t =>
    if c = quote then some ([], t)
    else if c = backslash ∨ c < 0x20 then none
    else (stringBody t).map fun r => (c :: r.1, r.2)

def manifestString : Bytes → Option (Bytes × Bytes)
  | [] => none
  | c :: t => if c = quote then stringBody t else none

def uint32Digits (result : ℕ) : Bytes → Option (ℕ × Bytes)
  | [] => some (result, [])
  | c :: t =>
    if isDigit c then
      if result > (4294967295 - (c.toNat - 0x30)) / 10 then none
      else uint32Digits (result * 10 + (c.toNat - 0x30)) t
    else some (result, c :: t)

def startsDigit : Bytes → Bool
  | [] => false
  | c :: _ => isDigit c

def manifestUint32 : Bytes → Option (ℕ × Bytes)
  | [] => none
  | c :: t =>
    if ¬ isDigit c then none
    else if c = 0x30 ∧ startsDigit t then none
    else uint32Digits 0 (c :: t)

theorem manifestExpect_eq_some {p l q : Bytes} : manifestExpect p l = some q ↔ p = l ++ q := by
  unfold manifestExpect
  split
  · rename_i h
    obtain ⟨t, rfl⟩ := h
    simp
  · rename_i h
    simp only [reduceCtorEq, false_iff]
    rintro rfl
    exact h (List.prefix_append ..)

theorem plainChar_iff (c : UInt8) : plainChar c = true ↔ c ≠ quote ∧ ¬ (c = backslash ∨ c < 0x20) := by
  simp [plainChar, and_assoc, not_or]

theorem stringBody_eq_some {p v q : Bytes} :
    stringBody p = some (v, q) ↔ p = v ++ quote :: q ∧ v.all plainChar = true := by
  induction p generalizing v with
  | nil => simp [stringBody]
  | cons c t ih =>
    rw [stringBody]
    by_cases hq : c = quote
    · rw [if_pos hq]
      cases v with
      | nil => simp [hq, eq_comm]
      | cons d v =>
        simp only [Option.some.injEq, Prod.mk.injEq, List.nil_eq, reduceCtorEq, false_and, List.cons_append,
          List.cons.injEq, List.all_cons, Bool.and_eq_true, false_iff]
        rintro ⟨⟨rfl, -⟩, hd, -⟩
        exact ((plainChar_iff _).mp hd).1 hq
    · rw [if_neg hq]
      by_cases hb : c = backslash ∨ c < 0x20
      · rw [if_pos hb]
        simp only [reduceCtorEq, false_iff]
        rintro ⟨hp, hv⟩
        cases v with
        | nil => exact hq (List.cons.inj hp).1
        | cons d v =>
          obtain ⟨rfl, -⟩ := List.cons.inj hp
          simp only [List.all_cons, Bool.and_eq_true] at hv
          exact ((plainChar_iff _).mp hv.1).2 hb
      · rw [if_neg hb]
        cases v with
        | nil => simp [hq]
        | cons d v =>
          simp only [Option.map_eq_some_iff, Prod.mk.injEq, List.cons.injEq, Prod.exists, List.cons_append,
            List.all_cons, Bool.and_eq_true]
          constructor
          · rintro ⟨a, b, h, ⟨rfl, rfl⟩, rfl⟩
            obtain ⟨rfl, ha⟩ := ih.mp h
            exact ⟨⟨rfl, rfl⟩, (plainChar_iff _).mpr ⟨hq, hb⟩, ha⟩
          · rintro ⟨⟨rfl, hp⟩, -, hv⟩
            exact ⟨v, q, ih.mpr ⟨hp, hv⟩, ⟨rfl, rfl⟩, rfl⟩

theorem manifestString_eq_some {p v q : Bytes} :
    manifestString p = some (v, q) ↔ p = quoted v ++ q ∧ v.all plainChar = true := by
  cases p with
  | nil => simp [manifestString, quoted]
  | cons c t =>
    rw [manifestString]
    split
    · rename_i h
      subst h
      rw [stringBody_eq_some]
      simp [quoted]
    · rename_i h
      simp [quoted, h]

theorem uint32Digits_eq_some {p q : Bytes} {acc n : ℕ} (hacc : acc ≤ 4294967295) :
    uint32Digits acc p = some (n, q) ↔ ∃ ds : Bytes, p = ds ++ q ∧ (∀ c ∈ ds, isDigit c = true) ∧
      startsDigit q = false ∧ n = decVal acc ds ∧ n ≤ 4294967295 := by
  induction p generalizing acc with
  | nil =>
    simp only [uint32Digits, Option.some.injEq, Prod.mk.injEq]
    constructor
    · rintro ⟨rfl, rfl⟩
      exact ⟨[], rfl, by simp, rfl, rfl, hacc⟩
    · rintro ⟨ds, hp, -, -, rfl, -⟩
      obtain ⟨rfl, rfl⟩ := List.append_eq_nil_iff.mp hp.symm
      exact ⟨rfl, rfl⟩
  | cons c t ih =>
    rw [uint32Digits]
    by_cases hc : isDigit c = true
    · have hd := (isDigit_iff c).mp hc
      rw [if_pos hc]
      have hstep : ¬ acc > (4294967295 - (c.toNat - 0x30)) / 10 ↔
          acc * 10 + (c.toNat - 0x30) ≤ 4294967295 := by omega
      by_cases hle : acc * 10 + (c.toNat - 0x30) ≤ 4294967295
      · rw [if_neg (hstep.mpr hle), ih hle]
        constructor
        · rintro ⟨ds, rfl, hds, hq, rfl, hn⟩
          exact ⟨c :: ds, rfl, by simpa [hc] using hds, hq, (decVal_cons ..).symm, hn⟩
        · rintro ⟨ds, hp, hds, hq, rfl, hn⟩
          cases ds with
          | nil =>
            rw [List.nil_append] at hp
            subst hp
            simp [startsDigit, hc] at hq
          | cons d ds =>
            obtain ⟨rfl, rfl⟩ := List.cons.inj hp
            exact ⟨ds, rfl, fun x hx => hds x (by simp [hx]), hq, decVal_cons .., hn⟩
      · rw [if_pos (by omega)]
        simp only [reduceCtorEq, false_iff]
        rintro ⟨ds, hp, hds, hq, rfl, hn⟩
        cases ds with
        | nil =>
          rw [List.nil_append] at hp
          subst hp
          simp [startsDigit, hc] at hq
        | cons d ds =>
          obtain ⟨rfl, rfl⟩ := List.cons.inj hp
          rw [decVal_cons] at hn
          have := le_decVal (acc * 10 + (c.toNat - 0x30)) ds
          omega
    · rw [if_neg hc]
      simp only [Option.some.injEq, Prod.mk.injEq]
      constructor
      · rintro ⟨rfl, rfl⟩
        exact ⟨[], rfl, by simp, by simpa [startsDigit] using hc, rfl, hacc⟩
      · rintro ⟨ds, hp, hds, -, rfl, -⟩
        cases ds with
        | nil => exact ⟨rfl, hp⟩
        | cons d ds =>
          obtain ⟨rfl, -⟩ := List.cons.inj hp
          exact absurd (hds c (by simp)) hc

/-- The decimal reader accepts exactly the printed form of a 32-bit number. -/
theorem manifestUint32_eq_some {p q : Bytes} {n : ℕ} :
    manifestUint32 p = some (n, q) ↔ p = dec n ++ q ∧ startsDigit q = false ∧ n < 2 ^ 32 := by
  cases p with
  | nil =>
    simp only [manifestUint32, reduceCtorEq, List.nil_eq, List.append_eq_nil_iff, false_iff]
    exact fun h => dec_ne_nil n h.1.1
  | cons c t =>
    rw [manifestUint32]
    constructor
    · intro h
      split_ifs at h with hc hz
      obtain ⟨ds, hp, hds, hq, rfl, hn⟩ := (uint32Digits_eq_some (by omega)).mp h
      have hne : ds ≠ [] := by
        rintro rfl
        rw [List.nil_append] at hp
        subst hp
        simp [startsDigit] at hq
        simp [hq] at hc
      refine ⟨?_, hq, by omega⟩
      rw [dec_decVal hds hne, hp]
      rintro s rfl
      obtain ⟨rfl, rfl⟩ := List.cons.inj hp
      cases s with
      | nil => rfl
      | cons d s => exact absurd ⟨rfl, hds d (by simp)⟩ hz
    · rintro ⟨hp, hq, hn⟩
      obtain ⟨d, ds, hdec⟩ := List.exists_cons_of_ne_nil (dec_ne_nil n)
      rw [hdec, List.cons_append] at hp
      obtain ⟨rfl, rfl⟩ := List.cons.inj hp
      have hdig : ∀ x ∈ c :: ds, isDigit x = true := hdec ▸ dec_digits
      have hc : isDigit c = true := hdig c (by simp)
      have hz : ¬ (c = 0x30 ∧ startsDigit (ds ++ q) = true) := by
        rintro ⟨rfl, h⟩
        obtain rfl := dec_head hdec
        simp [hq] at h
      rw [if_neg (by simp [hc]), if_neg hz, uint32Digits_eq_some (by omega)]
      exact ⟨c :: ds, rfl, hdig, hq, by rw [← hdec, decVal_dec], by omega⟩

end Cursor

def manifestIso8601 (value : Bytes) : Bool := value.length = 25 && isValidIso8601Offset value

/-- A literal and the quoted string after it. -/
def manifestStringField (p key : Bytes) : Option (Bytes × Bytes) := do
  let p ← manifestExpect p key
  manifestString p

def manifestUint32Field (p key : Bytes) : Option (ℕ × Bytes) := do
  let p ← manifestExpect p key
  manifestUint32 p

/-- The checks made on the fields of one entry. -/
def manifestEntryFields (e : Entry) : Bool :=
  e.recordingId.length = 36 && (e.filename.length ≠ 0 && e.filename.length < 192) &&
  manifestIso8601 e.startedAt && wavHeaderSize ≤ e.sizeBytes &&
  (e.sizeBytes - wavHeaderSize) % blockAlign = 0 &&
  e.durationMs = deviceManifestDurationMs (e.sizeBytes - wavHeaderSize) && e.sha256.length = 64 &&
  (e.state = stateFinalized || e.state = stateRecovered) &&
  (e.firmwareVersion.length ≠ 0 && e.firmwareVersion.length ≤ 32) &&
  isValidUuid e.recordingId && validFilename e.filename && isValidSha256Hex e.sha256

/-- One entry object of the canonical form. Each field leaves the cursor behind itself. -/
def manifestEntry (p : Bytes) : Option (Entry × Bytes) := do
  let id ← manifestStringField p (lit "\x7b\"recordingId\":")
  let name ← manifestStringField id.2 (lit ",\"filename\":")
  let started ← manifestStringField name.2 (lit ",\"startedAt\":")
  let duration ← manifestUint32Field started.2 (lit ",\"durationMs\":")
  let size ← manifestUint32Field duration.2 (lit ",\"sizeBytes\":")
  let sha ← manifestStringField size.2 (lit ",\"sha256\":")
  let rate ← manifestUint32Field sha.2 (lit ",\"sampleRate\":")
  let bits ← manifestUint32Field rate.2 (lit ",\"bitDepth\":")
  let channels ← manifestUint32Field bits.2 (lit ",\"channels\":")
  let state ← manifestStringField channels.2 (lit ",\"state\":")
  let fw ← manifestStringField state.2 (lit ",\"firmwareVersion\":")
  let p ← manifestExpect fw.2 (lit "\x7d")
  let e : Entry := ⟨id.1, name.1, started.1, duration.1, size.1, sha.1, state.1, fw.1⟩
  if rate.1 = sampleRateHz ∧ bits.1 = bitsPerSample ∧ channels.1 = channelCount ∧ manifestEntryFields e
  then some (e, p) else none

/-- A character with a code in one of the ranges that UUIDs, hashes and timestamps use is plain. -/
theorem plainChar_of_toNat {c : UInt8} (h : (0x2b ≤ c.toNat ∧ c.toNat ≤ 0x5a) ∨
    (0x61 ≤ c.toNat ∧ c.toNat ≤ 0x7a)) : plainChar c = true := by
  simp only [plainChar, quote, backslash, Bool.and_eq_true, decide_eq_true_eq, UInt8.le_iff_toNat_le, ne_eq,
    decide_not, Bool.not_eq_true', decide_eq_false_iff_not, ← UInt8.toNat_inj, UInt8.reduceToNat]
  omega

theorem all_of_getD {s : Bytes} {P : UInt8 → Bool} (h : ∀ i < s.length, P (at' s i) = true) : s.all P = true := by
  rw [List.all_eq_true]
  intro c hc
  obtain ⟨i, hi, rfl⟩ := List.getElem_of_mem hc
  simpa [at', List.getD_eq_getElem?_getD, List.getElem?_eq_getElem hi] using h i hi

theorem uuid_all {s : Bytes} {P : UInt8 → Bool} (h : isValidUuid s = true) (hdash : P dash = true)
    (hhex : ∀ c, isHex c = true → P c = true) : s.all P = true := by
  simp only [isValidUuid, Bool.and_eq_true, decide_eq_true_eq, List.all_eq_true, List.mem_range] at h
  refine all_of_getD fun i hi => ?_
  have := h.2 i (by omega)
  split at this
  · rwa [of_decide_eq_true this]
  · exact hhex _ this

theorem isHex_iff (c : UInt8) : isHex c = true ↔ (0x30 ≤ c.toNat ∧ c.toNat ≤ 0x39) ∨ (0x61 ≤ c.toNat ∧ c.toNat ≤ 0x66) ∨
    (0x41 ≤ c.toNat ∧ c.toNat ≤ 0x46) := by
  simp [isHex, UInt8.le_iff_toNat_le, or_assoc]

theorem uuid_plain {s : Bytes} (h : isValidUuid s = true) : s.all plainChar = true := by
  refine uuid_all h (by decide) fun c hc => plainChar_of_toNat ?_
  have := (isHex_iff c).mp hc
  omega

theorem sha256Hex_plain {s : Bytes} (h : isValidSha256Hex s = true) : s.all plainChar = true := by
  simp only [isValidSha256Hex, Bool.and_eq_true, decide_eq_true_eq, List.all_eq_true] at h
  rw [List.all_eq_true]
  intro c hc
  apply plainChar_of_toNat
  have := h.2 c hc
  simp only [Bool.or_eq_true, Bool.and_eq_true, decide_eq_true_eq, UInt8.le_iff_toNat_le,
    UInt8.reduceToNat] at this
  omega

theorem iso8601_plain {s : Bytes} (h : isValidIso8601Offset s = true) : s.all plainChar = true := by
  have hlen := iso8601_length h
  simp only [isValidIso8601Offset] at h
  split_ifs at h with h1 h2 h3
  refine all_of_getD fun i hi => ?_
  apply plainChar_of_toNat
  simp only [List.all_eq_true, List.mem_range, Bool.or_eq_true, decide_eq_true_eq] at h3
  rcases h3 i (by omega) with hm | hd
  · simp only [not_or, not_and, not_not] at h2
    simp only [List.mem_cons, List.not_mem_nil, or_false] at hm
    rcases hm with rfl | rfl | rfl | rfl | rfl | rfl | rfl
    · rw [h2.1]; decide
    · rw [h2.2.1]; decide
    · rw [h2.2.2.1]; decide
    · rw [h2.2.2.2.1]; decide
    · rw [h2.2.2.2.2.1]; decide
    · by_cases h19 : at' s 19 = 0x2b
      · rw [h19]; decide
      · rw [h2.2.2.2.2.2.1 h19]; decide
    · rw [h2.2.2.2.2.2.2]; decide
  · have := (isDigit_iff _).mp hd
    omega

theorem state_plain {s : Bytes} (h : s = stateFinalized ∨ s = stateRecovered) : s.all plainChar = true := by
  rcases h with rfl | rfl <;> with_unfolding_all decide

section EntryText

variable {p q l v : Bytes} {n : ℕ}

theorem manifestStringField_eq_some {key : Bytes} :
    manifestStringField p key = some (v, q) ↔ p = key ++ (quoted v ++ q) ∧ v.all plainChar = true := by
  simp only [manifestStringField, Option.bind_eq_bind, Option.bind_eq_some_iff, manifestExpect_eq_some,
    manifestString_eq_some]
  constructor
  · rintro ⟨r, rfl, rfl, hv⟩
    exact ⟨rfl, hv⟩
  · rintro ⟨rfl, hv⟩
    exact ⟨_, rfl, rfl, hv⟩

theorem manifestUint32Field_eq_some {key : Bytes} :
    manifestUint32Field p key = some (n, q) ↔
      p = key ++ (dec n ++ q) ∧ startsDigit q = false ∧ n < 2 ^ 32 := by
  simp only [manifestUint32Field, Option.bind_eq_bind, Option.bind_eq_some_iff, manifestExpect_eq_some,
    manifestUint32_eq_some]
  constructor
  · rintro ⟨r, rfl, rfl, hq, hn⟩
    exact ⟨rfl, hq, hn⟩
  · rintro ⟨rfl, hq, hn⟩
    exact ⟨_, rfl, rfl, hq, hn⟩

section Bind

variable {β : Type} {key : Bytes} {b : β}

theorem stringField_bind (key q : Bytes) (f : Bytes × Bytes → Option β) (hv : v.all plainChar = true) :
    (manifestStringField (key ++ (quoted v ++ q)) key >>= f) = f (v, q) := by
  rw [manifestStringField_eq_some.mpr ⟨rfl, hv⟩]
  rfl

theorem uint32Field_bind (key q : Bytes) (f : ℕ × Bytes → Option β) (hn : n < 2 ^ 32)
    (hl : l ≠ [] ∧ startsDigit l = false) :
    (manifestUint32Field (key ++ (dec n ++ (l ++ q))) key >>= f) = f (n, l ++ q) := by
  have hd : startsDigit (l ++ q) = false := by
    cases l with
    | nil => exact absurd rfl hl.1
    | cons c l => exact hl.2
  rw [manifestUint32Field_eq_some.mpr ⟨rfl, hd, hn⟩]
  rfl

theorem expect_bind (key q : Bytes) (f : Bytes → Option β) : (manifestExpect (key ++ q) key >>= f) = f q := by
  rw [manifestExpect_eq_some.mpr rfl]
  rfl

theorem stringField_bind_some {f : Bytes × Bytes → Option β} (h : (manifestStringField p key >>= f) = some b) :
    ∃ v q, p = key ++ (quoted v ++ q) ∧ v.all plainChar = true ∧ f (v, q) = some b := by
  obtain ⟨⟨v, q⟩, hv, hf⟩ := Option.bind_eq_some_iff.mp h
  obtain ⟨hp, hv⟩ := manifestStringField_eq_some.mp hv
  exact ⟨v, q, hp, hv, hf⟩

theorem uint32Field_bind_some {f : ℕ × Bytes → Option β} (h : (manifestUint32Field p key >>= f) = some b) :
    ∃ n q, p = key ++ (dec n ++ q) ∧ n < 2 ^ 32 ∧ f (n, q) = some b := by
  obtain ⟨⟨n, q⟩, hn, hf⟩ := Option.bind_eq_some_iff.mp h
  obtain ⟨hp, -, hn⟩ := manifestUint32Field_eq_some.mp hn
  exact ⟨n, q, hp, hn, hf⟩

theorem expect_bind_some {f : Bytes → Option β} (h : (manifestExpect p key >>= f) = some b) :
    ∃ q, p = key ++ q ∧ f q = some b := by
  obtain ⟨q, hq, hf⟩ := Option.bind_eq_some_iff.mp h
  exact ⟨q, manifestExpect_eq_some.mp hq, hf⟩

end Bind

theorem manifestEntryFields_iff {e : Entry} : (manifestEntryFields e = true ∧ e.sizeBytes < 2 ^ 32 ∧
    e.durationMs < 2 ^ 32 ∧ e.firmwareVersion.all plainChar = true) ↔ e.Valid := by
  simp only [manifestEntryFields, manifestIso8601, Bool.and_eq_true, Bool.or_eq_true, decide_eq_true_eq]
  constructor
  · rintro ⟨⟨⟨⟨⟨⟨⟨⟨⟨⟨⟨⟨-, -⟩, -, hstart⟩, hhdr⟩, hal⟩, hdur⟩, -⟩, hst⟩, hfw⟩, hid⟩, hname⟩, hsha⟩, hsize, hms, hplain⟩
    exact ⟨⟨hid, hname, hstart, hms, hsize, hhdr, hsha, hst, by simpa using hfw.1, hfw.2, hplain⟩, hal, hdur⟩
  · intro h
    have hname := filename_length h.filename
    exact ⟨⟨⟨⟨⟨⟨⟨⟨⟨⟨⟨⟨uuid_length h.recordingId, by omega, by omega⟩, iso8601_length h.startedAt, h.startedAt⟩,
      h.header⟩, h.consistent.1⟩, h.consistent.2⟩, sha256Hex_length h.sha256⟩, h.state⟩,
      by simpa using h.firmwareVersion.1, h.firmwareVersion.2.1⟩, h.recordingId⟩, h.filename⟩, h.sha256⟩,
      h.size_lt, h.duration_lt, h.firmwareVersion.2.2⟩

theorem manifestEntry_render {e : Entry} (h : e.Valid) (q : Bytes) :
    manifestEntry (e.render ++ q) = some (e, q) := by
  unfold Entry.render
  simp only [List.append_assoc]
  unfold manifestEntry
  rw [stringField_bind _ _ _ (uuid_plain h.recordingId), stringField_bind _ _ _ (filename_plain h.filename),
    stringField_bind _ _ _ (iso8601_plain h.startedAt), uint32Field_bind _ _ _ h.duration_lt,
    uint32Field_bind _ _ _ h.size_lt, stringField_bind _ _ _ (sha256Hex_plain h.sha256),
    uint32Field_bind, uint32Field_bind, uint32Field_bind,
    stringField_bind _ _ _ (state_plain h.state), stringField_bind _ _ _ h.firmwareVersion.2.2,
    expect_bind, if_pos ⟨rfl, rfl, rfl, (manifestEntryFields_iff.mpr h).1⟩]
  all_goals with_unfolding_all decide

theorem manifestEntry_eq_some {e : Entry} : manifestEntry p = some (e, q) ↔ p = e.render ++ q ∧ e.Valid := by
  refine ⟨fun h => ?_, fun ⟨hp, he⟩ => hp ▸ manifestEntry_render he q⟩
  unfold manifestEntry at h
  obtain ⟨id, _, rfl, -, h1⟩ := stringField_bind_some h
  clear h
  obtain ⟨name, _, rfl, -, h2⟩ := stringField_bind_some h1
  clear h1
  obtain ⟨started, _, rfl, -, h3⟩ := stringField_bind_some h2
  clear h2
  obtain ⟨duration, _, rfl, hms, h4⟩ := uint32Field_bind_some h3
  clear h3
  obtain ⟨size, _, rfl, hsize, h5⟩ := uint32Field_bind_some h4
  clear h4
  obtain ⟨sha, _, rfl, -, h6⟩ := stringField_bind_some h5
  clear h5
  obtain ⟨rate, _, rfl, -, h7⟩ := uint32Field_bind_some h6
  clear h6
  obtain ⟨bits, _, rfl, -, h8⟩ := uint32Field_bind_some h7
  clear h7
  obtain ⟨channels, _, rfl, -, h9⟩ := uint32Field_bind_some h8
  clear h8
  obtain ⟨state, _, rfl, -, h10⟩ := stringField_bind_some h9
  clear h9
  obtain ⟨fw, _, rfl, hfw, h11⟩ := stringField_bind_some h10
  clear h10
  obtain ⟨_, rfl, h12⟩ := expect_bind_some h11
  clear h11
  dsimp only at h12
  rw [Option.ite_none_right_eq_some] at h12
  obtain ⟨⟨rfl, rfl, rfl, hfields⟩, hs⟩ := h12
  obtain ⟨rfl, rfl⟩ := Prod.mk.inj (Option.some.inj hs)
  refine ⟨?_, manifestEntryFields_iff.mp ⟨hfields, hsize, hms, hfw⟩⟩
  unfold Entry.render
  conv_rhs => simp only [List.append_assoc]

end EntryText

end M5DayLog
