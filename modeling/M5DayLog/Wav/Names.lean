import M5DayLog.Wav.Rotation

/-! Reading the id back off a recording's name. Every name that the builders give decodes to its id. Extraction stops at
the first suffix behind the time, so that it also decodes names that go on behind it. -/

namespace M5DayLog

open Bytes Fat

variable {date time id path : Bytes} {bufSize outSize : ℕ}

theorem buildFilename_eq_some (h : deviceManifestBuildFilename date time id bufSize = some path) :
    validTime6 time = true ∧ path = (lit "recordings/" ++ date) ++ slash :: segmentName time id (lit ".wav" ++ []) := by
  unfold deviceManifestBuildFilename at h
  rw [Option.ite_none_left_eq_some, Option.ite_none_left_eq_some, Option.ite_none_left_eq_some,
    Option.ite_none_left_eq_some, Option.ite_none_left_eq_some, Option.ite_none_left_eq_some] at h
  obtain ⟨-, -, -, htime, -, -, h⟩ := h
  dsimp only at h
  rw [Option.ite_none_left_eq_some, Option.ite_none_right_eq_some] at h
  obtain ⟨-, -, hpath⟩ := h
  refine ⟨?_, ?_⟩
  · simpa [validTime6] using htime
  · rw [List.append_nil]
    exact (Option.some.inj hpath).symm

theorem buildPartPath_eq_some (h : wavRotationBuildPartPath bufSize date time id = some path) :
    validTime6 time = true ∧ path = join recordingsDir date ++ slash :: segmentName time id (lit ".wav" ++ lit ".part") := by
  unfold wavRotationBuildPartPath buildSegmentPath at h
  dsimp only at h
  rw [Option.ite_none_left_eq_some, Option.ite_none_left_eq_some] at h
  obtain ⟨hgood, -, hpath⟩ := h
  simp only [not_or, Bool.not_eq_true', Bool.not_eq_false] at hgood
  rw [← wavSuffix_eq.2]
  exact ⟨hgood.2.2.1, (Option.some.inj hpath).symm⟩

/-- A path that ends in the name of a segment gives back the id. -/
theorem extractRecordingId_path (dir : Bytes) {more : Bytes} (htime : validTime6 time = true) (hid : isValidUuid id = true)
    (hs : slash ∉ lit ".wav" ++ more) (hb : backslash ∉ lit ".wav" ++ more) (hout : 37 ≤ outSize) :
    deviceManifestExtractRecordingId (dir ++ slash :: segmentName time id (lit ".wav" ++ more)) outSize = some id := by
  have hsep := sep_not_mem (lit ".wav" ++ more) htime hid hs hb
  exact extractRecordingId_built htime hid (baseName_name hsep.1 hsep.2 dir).2 hout

/-- The base name is a time, the id and one of the two suffixes. -/
def IsNameOf (path id : Bytes) : Prop :=
  ∃ time, validTime6 time = true ∧
    (baseName path = segmentName time id wavSuffix ∨ baseName path = segmentName time id partSuffix)

/-- The base name from its first suffix behind the time on. -/
def nameTail (path : Bytes) : Option Bytes := memfind (lit ".wav") ((baseName path).drop 7)

theorem segmentName_inj {time' more more' : Bytes} (htime : validTime6 time = true) (htime' : validTime6 time' = true)
    (h : segmentName time id more = segmentName time' id more') : more = more' := by
  obtain ⟨-, hrest⟩ := List.append_inj h ((validTime6_length htime).trans (validTime6_length htime').symm)
  exact List.append_cancel_left (List.cons.inj hrest).2

/-- Where extraction succeeds, the name is exactly that of the id if and only if nothing but `.part` follows the first
suffix. -/
theorem isNameOf_iff (h : deviceManifestExtractRecordingId path outSize = some id) :
    IsNameOf path id ↔ nameTail path = some wavSuffix ∨ nameTail path = some partSuffix := by
  obtain ⟨-, time, more, htime, hbase, htail⟩ := extractRecordingId_eq_some.mp h
  have hread : ∀ suffix, nameTail path = some suffix ↔ lit ".wav" ++ more = suffix := by
    intro suffix
    rw [nameTail, htail, Option.some.injEq]
  rw [hread, hread]
  constructor
  · rintro ⟨time', htime', hname | hname⟩
    · exact Or.inl (segmentName_inj htime htime' (hbase.symm.trans hname))
    · exact Or.inr (segmentName_inj htime htime' (hbase.symm.trans hname))
  · rintro (hmore | hmore)
    · exact ⟨time, htime, Or.inl (by rw [hbase, hmore])⟩
    · exact ⟨time, htime, Or.inr (by rw [hbase, hmore])⟩

/-- Every built name gives back its id. A name that gives an id is exactly that id's name if and only if its first suffix
behind the time is the last thing in it, or is followed by `.part` alone. -/
theorem recordingName_decodes (date time uuid built path id : Bytes) (bufSize outSize : ℕ) :
    (isValidUuid uuid = true → 37 ≤ outSize →
      deviceManifestBuildFilename date time uuid bufSize = some built ∨
        wavRotationBuildPartPath bufSize date time uuid = some built →
      deviceManifestExtractRecordingId built outSize = some uuid) ∧
    (deviceManifestExtractRecordingId path outSize = some id →
      (IsNameOf path id ↔ nameTail path = some wavSuffix ∨ nameTail path = some partSuffix)) := by
  refine ⟨fun hid hout hbuilt => ?_, isNameOf_iff⟩
  rcases hbuilt with hbuilt | hbuilt
  · obtain ⟨htime, rfl⟩ := buildFilename_eq_some hbuilt
    exact extractRecordingId_path _ htime hid (by with_unfolding_all decide) (by with_unfolding_all decide) hout
  · obtain ⟨htime, rfl⟩ := buildPartPath_eq_some hbuilt
    exact extractRecordingId_path _ htime hid (by with_unfolding_all decide) (by with_unfolding_all decide) hout

section Sample

def sampleUuid : Bytes := lit "1b4e28ba-2fa1-41d2-883f-0016d3cca427"

def sampleTime : Bytes := lit "101500"

theorem sampleName_valid : validTime6 sampleTime = true ∧ isValidUuid sampleUuid = true := by with_unfolding_all decide

/-- A recording's path on the card. -/
def samplePath : Bytes := join (join recordingsDir (lit "2025-06-01")) (segmentName sampleTime sampleUuid partSuffix)

theorem recordingName_decodes_part : deviceManifestExtractRecordingId samplePath 65 = some sampleUuid ∧
    IsNameOf samplePath sampleUuid := by
  have hbuild : wavRotationBuildPartPath maxPathLen (lit "2025-06-01") sampleTime sampleUuid = some samplePath :=
    buildSegmentPath_eq partSuffix (by with_unfolding_all decide) sampleName_valid.1 sampleName_valid.2
      (by with_unfolding_all decide)
  obtain ⟨hdecodes, hexact⟩ := recordingName_decodes (lit "2025-06-01") sampleTime sampleUuid samplePath samplePath sampleUuid
    maxPathLen 65
  have hid := hdecodes sampleName_valid.2 (by decide) (Or.inr hbuild)
  have htail : nameTail samplePath = some partSuffix := by with_unfolding_all decide
  exact ⟨hid, (hexact hid).mpr (Or.inr htail)⟩

theorem segmentName_misread {more : Bytes} (hs : slash ∉ lit ".wav" ++ more) (hb : backslash ∉ lit ".wav" ++ more)
    (hwav : lit ".wav" ++ more ≠ wavSuffix) (hpart : lit ".wav" ++ more ≠ partSuffix) :
    deviceManifestExtractRecordingId (segmentName sampleTime sampleUuid (lit ".wav" ++ more)) 65 = some sampleUuid ∧
    ¬ IsNameOf (segmentName sampleTime sampleUuid (lit ".wav" ++ more)) sampleUuid := by
  have hsep := sep_not_mem (lit ".wav" ++ more) sampleName_valid.1 sampleName_valid.2 hs hb
  have hbase := (baseName_name hsep.1 hsep.2 []).1
  refine ⟨extractRecordingId_built sampleName_valid.1 sampleName_valid.2 hbase (by decide), ?_⟩
  rintro ⟨time', htime', hname | hname⟩
  · exact hwav (segmentName_inj sampleName_valid.1 htime' (hbase.symm.trans hname))
  · exact hpart (segmentName_inj sampleName_valid.1 htime' (hbase.symm.trans hname))

/-- A foreign file with the suffix twice, and one whose name lacks it at the end, are decoded as the recording. -/
theorem recordingName_misread :
    (deviceManifestExtractRecordingId (segmentName sampleTime sampleUuid (lit ".wav" ++ lit ".wav")) 65 = some sampleUuid ∧
      ¬ IsNameOf (segmentName sampleTime sampleUuid (lit ".wav" ++ lit ".wav")) sampleUuid) ∧
    deviceManifestExtractRecordingId (segmentName sampleTime sampleUuid (lit ".wav" ++ lit "x")) 65 = some sampleUuid ∧
    ¬ IsNameOf (segmentName sampleTime sampleUuid (lit ".wav" ++ lit "x")) sampleUuid := by
  refine ⟨segmentName_misread ?_ ?_ ?_ ?_, segmentName_misread ?_ ?_ ?_ ?_⟩ <;> with_unfolding_all decide

end Sample

end M5DayLog
