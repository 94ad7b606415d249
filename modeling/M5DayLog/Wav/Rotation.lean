import M5DayLog.Manifest.Scan

/-! Segment rotation: when a segment ends, what its files are called, and the rename that finalizes it. A name built
from a date, a time and an id gives these back to the boot scan (`wavIdentity_wavName`). -/

namespace M5DayLog

open Bytes Fat

section Reasons

inductive RotateReason
  | none
  | time30min
  | midnight
  | usb
  | lowBattery
  | stopRequest
  deriving DecidableEq

structure RotateEvents where
  usbConnected : Bool
  lowBattery : Bool
  stopRequested : Bool

def rotationIntervalSec : UInt32 := 1800
def rotationPayloadBytes : UInt32 := 57600000

/-- A crossing of midnight wins over the periodic triggers, so that dates never mix. -/
def wavRotationShouldRotate (elapsedSec segmentBytes : UInt32) (dateChanged : Bool) (events : Option RotateEvents) :
    RotateReason :=
  if events.any (·.usbConnected) then .usb
  else if events.any (·.lowBattery) then .lowBattery
  else if events.any (·.stopRequested) then .stopRequest
  else if dateChanged then .midnight
  else if elapsedSec ≥ rotationIntervalSec ∨ segmentBytes ≥ rotationPayloadBytes then .time30min
  else .none

end Reasons

section Paths

def validDate (date : Bytes) : Bool :=
  date.length = 10 && (List.range 10).all fun i => if i = 4 ∨ i = 7 then at' date i = dash else isDigit (at' date i)

def validTime6 (time : Bytes) : Bool := time.length = 6 && time.all isDigit

def validRecordingId (id : Bytes) : Bool :=
  id ≠ [] && id.length ≤ 64 && id.all fun c => c ≠ slash && c ≠ backslash

def hasPartSuffix (path : Path) : Bool := partSuffix <:+ path

def hasWavSuffix (path : Path) : Bool := wavSuffix <:+ path

/-- `HHMMSS_<id>` with a suffix. -/
def segmentName (time id suffix : Bytes) : Bytes := time ++ underscore :: (id ++ suffix)

/-- The path of a segment's file; `none` on bad input or when it does not fit the buffer. -/
def buildSegmentPath (suffix : Bytes) (outSize : ℕ) (date time id : Bytes) : Option Path :=
  if outSize = 0 ∨ !validDate date ∨ !validTime6 time ∨ !validRecordingId id then none
  else
    let out := join (join recordingsDir date) (segmentName time id suffix)
    if out.length ≥ outSize then none else some out

def wavRotationBuildPartPath : ℕ → Bytes → Bytes → Bytes → Option Path := buildSegmentPath partSuffix

def wavRotationBuildWavPath : ℕ → Bytes → Bytes → Bytes → Option Path := buildSegmentPath wavSuffix

def wavRotationPartToWav (part : Path) (wavSize : ℕ) : Option Path :=
  if wavSize = 0 ∨ !hasPartSuffix part then none
  else
    let base := part.take (part.length - (lit ".part").length)
    if base.length + 1 > wavSize ∨ !hasWavSuffix base then none else some base

end Paths

theorem hasPartSuffix_of_partToWav {part wav : Path} {wavSize : ℕ} (h : wavRotationPartToWav part wavSize = some wav) :
    hasPartSuffix part = true := by
  simp only [wavRotationPartToWav, Option.ite_none_left_eq_some, not_or] at h
  simpa using h.1.2

theorem hasWavSuffix_of_partToWav {part wav : Path} {wavSize : ℕ} (h : wavRotationPartToWav part wavSize = some wav) :
    hasWavSuffix wav = true := by
  simp only [wavRotationPartToWav, Option.ite_none_left_eq_some, not_or, Option.some.injEq] at h
  obtain ⟨-, ⟨-, hsuffix⟩, rfl⟩ := h
  simpa using hsuffix

theorem partToWav_ne {part : Path} {wavSize : ℕ} : wavRotationPartToWav part wavSize ≠ some part := by
  intro h
  simp only [wavRotationPartToWav, Option.ite_none_left_eq_some, Option.some.injEq] at h
  have hsuffix : (lit ".part").length = 5 := by with_unfolding_all decide
  have hlen := congrArg List.length h.2.2
  have hpart : 9 ≤ part.length := by
    have hs : partSuffix.length = 9 := by with_unfolding_all decide
    have := h.1
    simp only [not_or, hasPartSuffix, Bool.not_eq_true', decide_eq_false_iff_not, not_not] at this
    exact hs ▸ this.2.length_le
  rw [List.length_take, hsuffix] at hlen
  omega

section Finalize

def pathExists (path : Path) : Sys Bool := do
  let fp ← fopen path .read
  if !fp then return false
  else
    let _ ← fclose path
    return true

/-- Rename the part to its finalized name. An existing finalized file is never overwritten, and where the part is
gone already the finalized file is the result of an earlier call. -/
def wavRotationFinalizePaths (part wav : Path) : Sys Bool :=
  if !hasPartSuffix part ∨ !hasWavSuffix wav ∨ wavRotationPartToWav part maxPathLen ≠ some wav then return false
  else do
    let partPresent ← pathExists part
    let wavPresent ← pathExists wav
    if partPresent then
      if wavPresent then return false
      else
        match ← rename part wav with
        | .ok _ => return true
        | .error _ => return false
    else return wavPresent

structure RotationState where
  partPath : Path
  wavPath : Path
  finalizeCalled : Bool
  finalizedOk : Bool

def wavRotationStateInit (part wav : Path) : RotationState :=
  if !hasPartSuffix part ∨ !hasWavSuffix wav ∨ part.length ≥ maxPathLen ∨ wav.length ≥ maxPathLen then ⟨[], [], false, false⟩
  else ⟨part, wav, false, false⟩

end Finalize

section Names

variable {date time id : Bytes}

theorem validDate_length (h : validDate date = true) : date.length = 10 := by
  simp only [validDate, Bool.and_eq_true, decide_eq_true_eq] at h
  exact h.1

theorem validTime6_length (h : validTime6 time = true) : time.length = 6 := by
  simp only [validTime6, Bool.and_eq_true, decide_eq_true_eq] at h
  exact h.1

theorem uuid_validRecordingId (h : isValidUuid id = true) : validRecordingId id = true := by
  have hlen := uuid_length h
  have hne : id ≠ [] := fun h0 => by simp [h0] at hlen
  have hall : (id.all fun c => c ≠ slash && c ≠ backslash) = true := by
    refine uuid_all h (by decide) fun c hc => ?_
    have := (isHex_iff c).mp hc
    simp only [slash, backslash, ← UInt8.toNat_inj, UInt8.reduceToNat, ne_eq, Bool.and_eq_true, decide_eq_true_eq]
    omega
  rw [validRecordingId, hall]
  simp [hne, hlen]

/-- A path built from parts that pass the checks always fits. -/
theorem buildSegmentPath_eq (suffix : Bytes) (hdate : validDate date = true) (htime : validTime6 time = true)
    (hid : isValidUuid id = true) (hlen : suffix.length ≤ 9) : buildSegmentPath suffix maxPathLen date time id =
      some (join (join recordingsDir date) (segmentName time id suffix)) := by
  have hdir : recordingsDir.length = 27 := by with_unfolding_all decide
  have hfit : (join (join recordingsDir date) (segmentName time id suffix)).length < maxPathLen := by
    simp only [join, segmentName, List.length_append, List.length_cons, hdir, validDate_length hdate,
      validTime6_length htime, uuid_length hid, maxPathLen]
    omega
  unfold buildSegmentPath
  rw [if_neg]
  · exact if_neg (not_le.mpr hfit)
  · simp [hdate, htime, uuid_validRecordingId hid, maxPathLen]

/-- No byte of a name before its suffix is one that a hexadecimal digit, a dash or an underscore is not. -/
theorem not_mem_stem {c : UInt8} (htime : validTime6 time = true) (hid : isValidUuid id = true) (hc : isHex c = false)
    (hd : c ≠ dash) (hu : c ≠ underscore) : c ∉ time ++ underscore :: id := by
  have hhex := uuid_all (P := fun d => d ≠ c) hid (by simpa using hd.symm) fun d h => by
    simp only [ne_eq, decide_not, Bool.not_eq_true', decide_eq_false_iff_not]
    rintro rfl
    exact absurd (h.symm.trans hc) (by decide)
  simp only [validTime6, Bool.and_eq_true, decide_eq_true_eq, List.all_eq_true] at htime
  rw [List.mem_append, List.mem_cons]
  rintro (h | h | h)
  · have hdig := htime.2 c h
    simp only [isHex, isDigit] at hc hdig
    simp [hdig] at hc
  · exact hu h
  · simpa using List.all_eq_true.mp hhex c h

theorem at'_append_left {a b : Bytes} {i : ℕ} (h : i < a.length) : at' (a ++ b) i = at' a i := by
  simp [at', List.getElem?_append_left h]

end Names

section Identity

variable {date time id : Bytes}

/-- The base name of a path that ends in a name without separators. -/
theorem baseName_name {name : Bytes} (hs : slash ∉ name) (hb : backslash ∉ name) (dir : Bytes) :
    baseName name = name ∧ baseName (dir ++ slash :: name) = name := by
  have hall : ∀ c ∈ name.reverse, (c ≠ slash && c ≠ backslash) = true := by
    intro c hc
    have hmem := List.mem_reverse.mp hc
    simp only [ne_eq, Bool.and_eq_true, decide_not, Bool.not_eq_true', decide_eq_false_iff_not]
    exact ⟨fun h => hs (h ▸ hmem), fun h => hb (h ▸ hmem)⟩
  unfold baseName
  constructor
  · rw [List.takeWhile_eq_self_iff.mpr hall, List.reverse_reverse]
  · have hrev : (dir ++ slash :: name).reverse = name.reverse ++ slash :: dir.reverse := by simp
    rw [hrev, List.takeWhile_append_of_pos hall, List.takeWhile_cons_of_neg (by simp), List.append_nil, List.reverse_reverse]

/-- The bytes that an id of a name may have. -/
def idChar (c : UInt8) : Bool := !(c = slash || c = backslash || c = quote || c = 0x27 || c ≤ 0x20)

/-- Extraction reads a base name as a time, an id up to the first suffix behind it, and anything more. -/
theorem extractRecordingId_eq_some {path : Bytes} {outSize : ℕ} :
    deviceManifestExtractRecordingId path outSize = some id ↔
      (id ≠ [] ∧ id.length < outSize ∧ id.length ≤ 64 ∧ id.all idChar = true) ∧
      ∃ time more, validTime6 time = true ∧ baseName path = segmentName time id (lit ".wav" ++ more) ∧
        memfind (lit ".wav") ((baseName path).drop 7) = some (lit ".wav" ++ more) := by
  have hlit : (lit ".wav").length = 4 := by with_unfolding_all decide
  unfold deviceManifestExtractRecordingId
  dsimp only
  constructor
  · intro h
    rw [Option.ite_none_left_eq_some, Option.ite_none_left_eq_some, Option.ite_none_left_eq_some,
      Option.ite_none_left_eq_some, Option.ite_none_left_eq_some] at h
    obtain ⟨-, hlen, -, hdigits, hsix, h⟩ := h
    split at h
    case h_1 => cases h
    case h_2 dot hdot =>
      rw [Option.ite_none_left_eq_some, Option.ite_none_left_eq_some] at h
      obtain ⟨hid, hbad, heq⟩ := h
      obtain ⟨l, more, hus, rfl⟩ := memfind_eq_some hdot
      have hcut : ((baseName path).drop 7).take (((baseName path).drop 7).length - (lit ".wav" ++ more).length) = l := by
        rw [hus, List.length_append, Nat.add_sub_cancel, List.take_left]
      rw [hcut] at hid hbad heq
      obtain rfl := Option.some.inj heq
      simp only [not_or, not_lt, gt_iff_lt] at hid
      refine ⟨⟨hid.1, by omega, hid.2.2, ?_⟩, (baseName path).take 6, more, ?_, ?_, hdot⟩
      · rw [List.all_eq_not_any_not, Bool.not_eq_true']
        simpa [idChar] using hbad
      · have htake : ((baseName path).take 6).length = 6 := by
          rw [List.length_take]
          omega
        simpa [validTime6, htake] using hdigits
      · have hsix' : 6 < (baseName path).length := by omega
        have hget : (baseName path)[6] = underscore := by
          simpa [at', List.getElem?_eq_getElem hsix'] using hsix
        rw [segmentName, ← hus, ← hget, ← List.drop_eq_getElem_cons, List.take_append_drop]
  · rintro ⟨⟨hne, hfit, h64, hchars⟩, time, more, htime, hbase, hdot⟩
    have htlen := validTime6_length htime
    have hidlen := List.length_pos_iff.mpr hne
    have hdrop : (baseName path).drop 7 = id ++ (lit ".wav" ++ more) := by
      have hcons : baseName path = (time ++ [underscore]) ++ (id ++ (lit ".wav" ++ more)) := by simp [hbase, segmentName]
      have hseven : (time ++ [underscore]).length = 7 := by simp [htlen]
      rw [hcons, ← hseven, List.drop_left]
    have htake : (baseName path).take 6 = time := by
      rw [hbase, ← htlen, segmentName, List.take_left]
    have hsix : at' (baseName path) 6 = underscore := by
      simp [hbase, at', segmentName, htlen]
    have hpath : path ≠ [] := by
      rintro rfl
      simp [baseName, segmentName] at hbase
    have hlen : ¬ (baseName path).length < 12 := by
      simp only [hbase, segmentName, List.length_append, List.length_cons, htlen, hlit]
      omega
    have hfound : memfind (lit ".wav") (baseName path) ≠ none := by
      rw [← List.take_append_drop 7 (baseName path)]
      exact memfind_append_ne_none (by simp [hdot]) _
    have hdigits : time.all isDigit = true := by
      simp only [validTime6, Bool.and_eq_true] at htime
      exact htime.2
    have hcut : (id ++ (lit ".wav" ++ more)).take ((id ++ (lit ".wav" ++ more)).length - (lit ".wav" ++ more).length) = id := by
      simp
    have hbad : (id.any fun c => c = slash || c = backslash || c = quote || c = 0x27 || c ≤ 0x20) = false := by
      rw [List.all_eq_not_any_not, Bool.not_eq_true'] at hchars
      simpa [idChar] using hchars
    rw [if_neg (by simp [hpath]; omega), if_neg hlen, if_neg hfound, htake, if_neg (by simp [hdigits]), if_neg (by simp [hsix]),
      hdot]
    dsimp only
    rw [hdrop, hcut, if_neg (by simp only [not_or]; exact ⟨hne, by omega, by omega⟩), hbad]
    rfl

theorem idChar_uuid (hid : isValidUuid id = true) : id.all idChar = true := by
  refine uuid_all hid (by decide) fun c hc => ?_
  have := (isHex_iff c).mp hc
  simp only [idChar, slash, backslash, quote, ← UInt8.toNat_inj, UInt8.le_iff_toNat_le, UInt8.reduceToNat, Bool.not_eq_true',
    Bool.or_eq_false_iff, decide_eq_false_iff_not]
  omega

/-- The id of a segment can be read off the base name of its path. -/
theorem extractRecordingId_built {path more : Bytes} {outSize : ℕ} (htime : validTime6 time = true)
    (hid : isValidUuid id = true) (hbase : baseName path = segmentName time id (lit ".wav" ++ more)) (hout : 37 ≤ outSize) :
    deviceManifestExtractRecordingId path outSize = some id := by
  have hlen := uuid_length hid
  have hlit : lit ".wav" = 0x2e :: lit "wav" := by with_unfolding_all decide
  have hne : id ≠ [] := fun h => by simp [h] at hlen
  refine extractRecordingId_eq_some.mpr ⟨⟨hne, by omega, by omega, idChar_uuid hid⟩, time, more, htime, hbase, ?_⟩
  have hdot : (0x2e : UInt8) ∉ id := fun h =>
    not_mem_stem htime hid (c := 0x2e) (by decide) (by decide) (by decide) (by simp [h])
  have hcons : baseName path = (time ++ [underscore]) ++ (id ++ (lit ".wav" ++ more)) := by simp [hbase, segmentName]
  have hseven : (time ++ [underscore]).length = 7 := by simp [validTime6_length htime]
  rw [hcons, ← hseven, List.drop_left, hlit, memfind_skip _ _ hdot]
  exact memfind_prefix (by simp) more

/-- A suffix without separators leaves none in the name. -/
theorem sep_not_mem (suffix : Bytes) (htime : validTime6 time = true) (hid : isValidUuid id = true)
    (hs : slash ∉ suffix) (hb : backslash ∉ suffix) :
    slash ∉ segmentName time id suffix ∧ backslash ∉ segmentName time id suffix := by
  have hname : segmentName time id suffix = (time ++ underscore :: id) ++ suffix := by simp [segmentName]
  rw [hname]
  exact ⟨fun h => (List.mem_append.mp h).elim (not_mem_stem htime hid (by decide) (by decide) (by decide)) hs,
    fun h => (List.mem_append.mp h).elim (not_mem_stem htime hid (by decide) (by decide) (by decide)) hb⟩

theorem wavSuffix_eq : wavSuffix = lit ".wav" ++ [] ∧ partSuffix = lit ".wav" ++ lit ".part" := by
  with_unfolding_all decide

/-- The id of a finalized segment can be read off its name. -/
theorem extractRecordingId_segmentName (htime : validTime6 time = true) (hid : isValidUuid id = true) :
    deviceManifestExtractRecordingId (segmentName time id wavSuffix) 65 = some id := by
  have hsep := sep_not_mem wavSuffix htime hid (by with_unfolding_all decide) (by with_unfolding_all decide)
  exact extractRecordingId_built htime hid (by rw [(baseName_name hsep.1 hsep.2 []).1, ← wavSuffix_eq.1]) (by decide)

/-- The stamp of a shaped date begins with it. -/
theorem scanStartedAt_eq (hdate : validDate date = true) : scanStartedAt date time = date ++ (lit "T" ++ (time.take 2 ++
    (lit ":" ++ ((time.drop 2).take 2 ++ (lit ":" ++ ((time.drop 4).take 2 ++ lit "+00:00")))))) := by
  have hlen := validDate_length hdate
  simp only [validDate, Bool.and_eq_true, List.all_eq_true, List.mem_range] at hdate
  have hdash : ∀ i, i = 4 ∨ i = 7 → ∀ hi : i < date.length, date[i] = dash := by
    intro i hi hlt
    have := hdate.2 i (by omega)
    simpa [hi, at', hlt] using this
  have hlit : lit "-" = [dash] := by with_unfolding_all decide
  have hparts : date.take 4 ++ lit "-" ++ (date.drop 5).take 2 ++ lit "-" ++ (date.drop 8).take 2 = date := by
    have h8 : (date.drop 8).take 2 = date.drop 8 := List.take_of_length_le (by simp [hlen])
    have h7 : date.drop 7 = dash :: date.drop 8 := by
      rw [List.drop_eq_getElem_cons (by omega), hdash 7 (Or.inr rfl)]
    have h5 : (date.drop 5).take 2 ++ date.drop 7 = date.drop 5 := by
      simpa [List.drop_drop] using List.take_append_drop 2 (date.drop 5)
    have h4 : date.drop 4 = dash :: date.drop 5 := by
      rw [List.drop_eq_getElem_cons (by omega), hdash 4 (Or.inl rfl)]
    calc date.take 4 ++ lit "-" ++ (date.drop 5).take 2 ++ lit "-" ++ (date.drop 8).take 2
        = date.take 4 ++ (dash :: ((date.drop 5).take 2 ++ (dash :: date.drop 8))) := by simp [hlit, h8]
      _ = date.take 4 ++ date.drop 4 := by rw [← h7, h5, ← h4]
      _ = date := List.take_append_drop 4 date
  unfold scanStartedAt
  rw [hparts]
  simp only [List.append_assoc]

/-- The boot scan reads off the name of a finalized segment the id and the stamp it was built from. -/
theorem wavIdentity_segmentName (hdate : validDate date = true) (htime : validTime6 time = true)
    (hid : isValidUuid id = true) (hiso : isValidIso8601Offset (scanStartedAt date time) = true) :
    wavIdentity (some date) (segmentName time id wavSuffix) = some (id, scanStartedAt date time) := by
  have hsplit : splitWavName (segmentName time id wavSuffix) = some time := by
    have htlen := validTime6_length htime
    have hidlen := uuid_length hid
    simp only [validTime6, Bool.and_eq_true] at htime
    have htake : (segmentName time id wavSuffix).take 6 = time := by
      rw [← htlen, segmentName, List.take_left]
    unfold splitWavName
    rw [htake, if_neg]
    rintro (h | h | h)
    · simp only [segmentName, List.length_append, List.length_cons, htlen, hidlen] at h
      omega
    · simp [htime.2] at h
    · exact h (by simp [at', segmentName, htlen])
  have hdir : validDateDir date = true := by
    have hat : ∀ i < 10, at' (scanStartedAt date time) i = at' date i := by
      intro i hi
      rw [scanStartedAt_eq hdate]
      exact at'_append_left (by rwa [validDate_length hdate])
    have hcal : validCalendarDate (fourDigits date 0) (twoDigits date 5) (twoDigits date 8) = true := by
      have hfour : fourDigits (scanStartedAt date time) 0 = fourDigits date 0 := by
        simp [fourDigits, digitAt, hat]
      have htwo : ∀ i, i + 1 < 10 → twoDigits (scanStartedAt date time) i = twoDigits date i := by
        intro i hi
        simp [twoDigits, digitAt, hat i (by omega), hat (i + 1) hi]
      simp only [isValidIso8601Offset] at hiso
      split_ifs at hiso with h1 h2 h3 h4
      rw [← hfour, ← htwo 5 (by omega), ← htwo 8 (by omega)]
      simpa using h4
    have hshape : dateDirHasShape date = true := by
      simp only [validDate, Bool.and_eq_true, decide_eq_true_eq, List.all_eq_true, List.mem_range] at hdate
      have h4 := hdate.2 4 (by omega)
      have h7 := hdate.2 7 (by omega)
      simp only [true_or, or_true, if_true, decide_eq_true_eq] at h4 h7
      simp only [dateDirHasShape, hdate.1, h4, h7, decide_true, Bool.true_and, List.all_eq_true, List.mem_range]
      intro i hi
      have := hdate.2 i hi
      by_cases hi : i = 4 ∨ i = 7
      · rcases hi with rfl | rfl <;> rfl
      · rw [if_neg hi] at this
        simp [this]
    simp [validDateDir, hshape, hcal]
  unfold wavIdentity
  rw [extractRecordingId_segmentName htime hid, hsplit]
  simp [hid, hdir, hiso]

end Identity

end M5DayLog
