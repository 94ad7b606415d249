import M5DayLog.Lib.Calendar
import M5DayLog.Manifest.Recover

/-! An upsert of a recording that the manifest has already. The stored entry is found by searching the text and its
start is compared as an instant; `manifestUtcSeconds_eq` says that the firmware's count of seconds is the calendar's. -/

namespace M5DayLog

open Bytes Fat Device Calendar

section Instants

variable {s : Bytes} {y m d : ℕ}

theorem daysInMonth_eq (hm : 1 ≤ m ∧ m ≤ 12) :
    (if m = 2 ∧ y % 4 = 0 ∧ (y % 100 ≠ 0 ∨ y % 400 = 0) then daysInMonth m + 1 else daysInMonth m) = monthDays y m := by
  obtain ⟨h, h'⟩ := hm
  have hleap := isLeap_iff y
  cases hl : isLeap y <;> simp only [hl, Bool.false_eq_true, false_iff, true_iff] at hleap <;>
    interval_cases m <;> simp [daysInMonth, monthDays, hl, hleap]

/-- The firmware's check of a date admits exactly the days of the calendar. -/
theorem validCalendarDate_iff : validCalendarDate y m d = true ↔ (⟨y, m, d⟩ : Date).Valid := by
  unfold validCalendarDate
  split
  case isTrue h =>
    simp only [Bool.false_eq_true, false_iff]
    intro hv
    have := hv.year
    have := hv.month
    have := hv.day.1
    dsimp only at *
    omega
  case isFalse h =>
    have hm : 1 ≤ m ∧ m ≤ 12 := by omega
    dsimp only
    rw [daysInMonth_eq hm, decide_eq_true_eq]
    exact ⟨fun hd => ⟨by dsimp only; omega, hm, by dsimp only; omega, hd⟩, fun hv => hv.day.2⟩

/-- The stamp that a text `YYYY-MM-DDTHH:MM:SS±HH:MM` spells. -/
def stampOf (s : Bytes) : Stamp where
  date := ⟨fourDigits s 0, twoDigits s 5, twoDigits s 8⟩
  hour := twoDigits s 11
  minute := twoDigits s 14
  second := twoDigits s 17
  offset := (if at' s 19 = 0x2b then 1 else -1) * (twoDigits s 20 * 3600 + twoDigits s 23 * 60)

theorem stampOf_valid (h : isValidIso8601Offset s = true) : (stampOf s).date.Valid := by
  have hdate : validCalendarDate (fourDigits s 0) (twoDigits s 5) (twoDigits s 8) = true := by
    simp only [isValidIso8601Offset] at h
    split_ifs at h
    rename_i hvalid _ _
    simpa using hvalid
  exact validCalendarDate_iff.mp hdate

theorem epoch_dayNumber : epoch.dayNumber = 719528 := by
  have h : daysBeforeYear 1970 + 1969 / 100 = 365 * 1969 + 1969 / 4 + 1969 / 400 + 366 := daysBeforeYear_eq 1969
  have hmonth : daysBeforeMonth 1970 1 = 0 := rfl
  simp only [Date.dayNumber, epoch, hmonth]
  omega

/-- The years counted in eras of 400, as the firmware does. -/
theorem era_days (y : ℕ) : (y / 400 : ℤ) * 146097 + ((y - y / 400 * 400 : ℤ) * 365 + (y - y / 400 * 400 : ℤ) / 4 -
    (y - y / 400 * 400 : ℤ) / 100) = 365 * y + y / 4 - y / 100 + y / 400 := by
  omega

/-- The day that the manifest's reader of stamps counts, from the epoch on. -/
def manifestDays (y m d : ℤ) : ℤ :=
  let ya := y - if m ≤ 2 then 1 else 0
  let era := if ya ≥ 0 then ya.tdiv 400 else (ya - 399).tdiv 400
  let yoe := ya - era * 400
  let doy := (153 * (m + if m > 2 then -3 else 9) + 2).tdiv 5 + d - 1
  let doe := yoe * 365 + yoe.tdiv 4 - yoe.tdiv 100 + doy
  era * 146097 + doe - 719468

theorem manifestUtcSeconds_days (h : isValidIso8601Offset s = true) : manifestUtcSeconds s =
    some (manifestDays (fourDigits s 0) (twoDigits s 5) (twoDigits s 8) * 86400 + twoDigits s 11 * 3600 +
      twoDigits s 14 * 60 + twoDigits s 17 +
      (if at' s 19 = 0x2b then -1 else 1) * (twoDigits s 20 * 3600 + twoDigits s 23 * 60)) := by
  unfold manifestUtcSeconds
  rw [if_neg (by simp [h])]
  rfl

theorem manifestDays_eq {d : Date} (h : d.Valid) :
    manifestDays d.year d.month d.day = (d.dayNumber : ℤ) - epoch.dayNumber := by
  have hyear := h.year
  have hmonth := h.month
  obtain ⟨y, hy⟩ : ∃ y, y = if d.month ≤ 2 then d.year - 1 else d.year := ⟨_, rfl⟩
  obtain ⟨k, hk⟩ : ∃ k, k = if d.month ≤ 2 then d.month + 9 else d.month - 3 := ⟨_, rfl⟩
  have hya : ((d.year : ℤ) - if (d.month : ℤ) ≤ 2 then 1 else 0) = y := by
    rw [hy]
    split <;> split <;> omega
  have hmp : ((d.month : ℤ) + if (d.month : ℤ) > 2 then -3 else 9) = k := by
    rw [hk]
    split <;> split <;> omega
  have hera : (if (y : ℤ) ≥ 0 then (y : ℤ).tdiv 400 else ((y : ℤ) - 399).tdiv 400) = (y : ℤ) / 400 := by
    rw [if_pos (by omega), Int.tdiv_eq_ediv_of_nonneg (by omega)]
  have hdoy : (153 * (k : ℤ) + 2).tdiv 5 = (153 * k + 2) / 5 := Int.tdiv_eq_ediv_of_nonneg (by omega)
  have hyoe : (0 : ℤ) ≤ y - y / 400 * 400 := by omega
  have hdays := era_days y
  unfold manifestDays
  dsimp only
  rw [hya, hmp, hera, hdoy, Int.tdiv_eq_ediv_of_nonneg hyoe, Int.tdiv_eq_ediv_of_nonneg hyoe, epoch_dayNumber,
    dayNumber_eq h hy hk]
  omega

/-- On a valid stamp the firmware counts the seconds of the instant that the stamp denotes. -/
theorem manifestUtcSeconds_eq (h : isValidIso8601Offset s = true) :
    manifestUtcSeconds s = some (stampOf s).instant := by
  have hsign : (if at' s 19 = 0x2b then -1 else 1 : ℤ) = -(if at' s 19 = 0x2b then 1 else -1) := by
    split <;> rfl
  have hdays := manifestDays_eq (stampOf_valid h)
  rw [manifestUtcSeconds_days h, Stamp.instant, ← hdays, hsign, neg_mul, ← sub_eq_add_neg]
  rfl

theorem startTimesCompatible_iff {s s' : Bytes} (h : isValidIso8601Offset s = true) (h' : isValidIso8601Offset s' = true) :
    manifestStartTimesCompatible s s' = true ↔ |(stampOf s).instant - (stampOf s').instant| ≤ 2 := by
  rw [manifestStartTimesCompatible, manifestUtcSeconds_eq h, manifestUtcSeconds_eq h', abs_le]
  simp

end Instants

section Present

variable {manifest tmp : Path} {c : Card} {m : Manifest} {e e0 : Entry} {updatedAt : Bytes}

/-- The two entries record the same file, and their starts are at most two seconds apart. -/
def Entry.SameRecording (e0 e : Entry) : Prop :=
  e0.sha256 = e.sha256 ∧ e0.filename = e.filename ∧ e0.sizeBytes = e.sizeBytes ∧ e0.durationMs = e.durationMs ∧
    |(stampOf e0.startedAt).instant - (stampOf e.startedAt).instant| ≤ 2

instance (e0 e : Entry) : Decidable (e0.SameRecording e) := inferInstanceAs (Decidable (_ ∧ _))

theorem matchesKey_iff (h0 : e0.Valid) (he : e.Valid) : e0.matchesKey e.key = true ↔ e0.SameRecording e := by
  simp only [Entry.matchesKey, Bool.and_eq_true, decide_eq_true_eq, and_assoc]
  simp only [Entry.key, startTimesCompatible_iff h0.startedAt he.startedAt, Entry.SameRecording]

/-- An upsert whose id the manifest has compares the two entries, and leaves the card as it is. -/
theorem wp_upsert_present {A : Fault → Prop} (hA : ¬ IoFault A) (hpaths : manifest ≠ [] ∧ tmp ≠ [])
    (hfile : c.vol.lookup manifest = some (.file m.render)) (he : e.Valid) (h0 : e0 ∈ m.entries)
    (hid : e0.recordingId = e.recordingId) (hstamp : isValidIso8601Offset updatedAt = true) :
    device.wp A (fun _ => True) (deviceManifestUpsertFile manifest tmp m.deviceId updatedAt e.render)
      (fun r c' => r = (if e0.matchesKey e.key then .ok else .conflict) ∧ c' = c) c := by
  have hmax : manifestEntryMax = 1024 := rfl
  have hlen := Entry.render_length he.toBuilt
  have hne : e.render ≠ [] := by
    obtain ⟨t, ht⟩ := render_head e
    simp [ht]
  have hver := parseSchemaVersion_document m.deviceId_uuid m.updatedAt_valid m.entries_valid
  have hdev := parseDeviceId_document m.deviceId_uuid m.updatedAt_valid m.entries_valid
  have hfind := memfind_id m.deviceId_uuid m.updatedAt_valid m.entries_valid he.recordingId
  rw [← Snapshot.render] at hver hdev hfind
  unfold deviceManifestUpsertFile
  rw [if_neg]
  · rw [entryKey_render he.toBuilt, if_pos he.consistent]
    simp only
    rw [wp_bind]
    refine wp_readFileBounded trivial ?_ fun h => absurd h hA
    rw [boundedFile_manifest hfile hpaths.1]
    simp only [render_valid, decide_true, hver, hdev, Bool.not_true, Bool.false_eq_true, ne_eq, not_true_eq_false,
      if_false, Entry.key, hfind]
    cases hdw : m.entries.dropWhile (fun e' => e'.recordingId ≠ e.recordingId) with
    | nil =>
      have hall := List.dropWhile_eq_nil_iff.mp hdw e0 h0
      simp [hid] at hall
    | cons e1 rest =>
      obtain ⟨hmem, hid1, hsub⟩ := dropWhile_id hdw
      obtain rfl := List.inj_on_of_nodup_map m.ids_nodup h0 hmem (hid.trans hid1.symm)
      exact wp_upsertPresent (m.entries_valid e0 h0) (fun e' h => m.entries_valid e' (hsub h)) trivial ⟨rfl, rfl⟩
        fun h => absurd h hA
  · simp only [hpaths.1, hpaths.2, m.deviceId_uuid, hstamp, hne, Bool.not_true, Bool.false_eq_true, false_or]
    omega

/-- An upsert of a well-formed entry whose id the manifest has: it is accepted exactly when it is the same recording, a
conflict otherwise, and the card is as before. -/
theorem deviceManifestUpsertFile_present (hpaths : manifest ≠ [] ∧ tmp ≠ [])
    (hfile : c.vol.lookup manifest = some (.file m.render)) (he : e.Valid) (h0 : e0 ∈ m.entries)
    (hid : e0.recordingId = e.recordingId) (hstamp : isValidIso8601Offset updatedAt = true) :
    device.run (deviceManifestUpsertFile manifest tmp m.deviceId updatedAt e.render) [] c =
      .done (if e0.SameRecording e then .ok else .conflict) c := by
  obtain ⟨hr, hc⟩ := eval_sat _
    (wp_upsert_present (A := fun _ => False) (by simp [IoFault]) hpaths hfile he h0 hid hstamp)
  simp only [matchesKey_iff (m.entries_valid e0 h0) he] at hr
  rw [run_nil]
  exact congrArg₂ Outcome.done hr hc

/-- The recording of the sample as one that recovery has repaired, a second later and in another zone. -/
def sampleLater : Entry := { sampleRetry.entry with startedAt := lit "2025-06-01T12:15:01+02:00" }

theorem sampleLater_valid : sampleLater.Valid :=
  { sampleRetry.built with
    startedAt := by
      rw [sampleLater, lit_ofList]
      decide +kernel
    consistent := by decide }

theorem sampleLater_same : sampleEntry.SameRecording sampleLater := by
  have hcompat : manifestStartTimesCompatible sampleStamp sampleLater.startedAt = true := by
    rw [sampleStamp, sampleLater, lit_ofList, lit_ofList]
    decide +kernel
  exact ⟨rfl, rfl, rfl, rfl, (startTimesCompatible_iff sampleEntry_valid.startedAt sampleLater_valid.startedAt).mp hcompat⟩

theorem sampleLater_present : device.run (deviceManifestUpsertFile manifestPath manifestTmpPath sampleId sampleStamp
    sampleLater.render) [] sampleCard = .done .ok sampleCard := by
  have hmem : sampleEntry ∈ sampleManifest.entries := by simp [sampleManifest]
  have hrun := deviceManifestUpsertFile_present ⟨ManifestPaths.production.manifest_ne, ManifestPaths.production.tmp_ne⟩
    sampleRetry_accepted.attached sampleLater_valid hmem rfl sampleStamp_valid
  rwa [if_pos sampleLater_same] at hrun

end Present

end M5DayLog
