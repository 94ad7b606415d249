import M5DayLog.Manifest.Recover

/-! The manifest as a language. The recogniser accepts exactly the canonical texts, each of one snapshot, and its loop
comes to an end; the byte test of extension decides the prefix relation on entry lists; and an append that splices the
old text gives the canonical text of the longer list. -/

namespace M5DayLog

open Bytes Fat Device

section Recogniser

variable {p q doc deviceId : Bytes} {e : Entry}

/-- One round of the loop over the entries: an entry, and the cursor behind its separator. -/
def manifestRound (p : Bytes) : Option (Entry × Bytes) := do
  let e ← manifestEntry p
  if memfind (duplicateNeedle e.1.recordingId) e.2 ≠ none then none
  else do
    let p ← manifestSeparator e.2
    some (e.1, p)

/-- The loop in at most `n` rounds: `none` while it has not ended, then whether the entries are refused. -/
def manifestRounds : ℕ → Bytes → Option (Option (List Entry × Bytes))
  | 0, _ => none
  | n + 1, p =>
    if p = [] ∨ p.head? = some 0x5d then some (some ([], p))
    else
      match manifestRound p with
      | none => some none
      | some (e, p) => (manifestRounds n p).map fun r => r.map fun es => (e :: es.1, es.2)

theorem manifestSeparator_length (h : manifestSeparator p = some q) : q.length ≤ p.length := by
  cases p with
  | nil => simp_all [manifestSeparator]
  | cons c t =>
    rw [manifestSeparator] at h
    split_ifs at h
    · obtain rfl := Option.some.inj h
      simp
    · obtain rfl := Option.some.inj h
      simp

/-- Every round that goes on moves the cursor forward. -/
theorem manifestRound_length (h : manifestRound p = some (e, q)) : q.length < p.length := by
  obtain ⟨⟨e1, r⟩, he, h1⟩ := Option.bind_eq_some_iff.mp h
  dsimp only at h1
  split at h1
  · simp at h1
  · obtain ⟨r', hr, h2⟩ := Option.bind_eq_some_iff.mp h1
    simp only [Option.some.injEq, Prod.mk.injEq] at h2
    obtain ⟨rfl, rfl⟩ := h2
    obtain ⟨hp, -⟩ := manifestEntry_eq_some.mp he
    obtain ⟨t, ht⟩ := render_head e1
    have hlen := manifestSeparator_length hr
    rw [hp, ht, List.length_append, List.length_cons]
    omega

theorem manifestEntries_succ (fuel : ℕ) (hp : ¬ (p = [] ∨ p.head? = some 0x5d)) :
    manifestEntries (fuel + 1) p =
      (manifestRound p).bind fun r => (manifestEntries fuel r.2).map fun es => (r.1 :: es.1, es.2) := by
  rw [manifestEntries, if_neg hp, manifestRound]
  cases manifestEntry p with
  | none => rfl
  | some r =>
    simp only [Option.bind_eq_bind, Option.bind_some]
    split
    · rfl
    · cases manifestSeparator r.2 with
      | none => rfl
      | some p' =>
        simp only [Option.bind_some]
        cases manifestEntries fuel p' <;> rfl

/-- The loop ends within as many rounds as there are bytes left, and more rounds change nothing. -/
theorem manifestRounds_ends {n fuel : ℕ} (hn : p.length < n) (hf : p.length < fuel) :
    manifestRounds n p = some (manifestEntries fuel p) := by
  induction n generalizing p fuel with
  | zero => omega
  | succ n ih =>
    obtain ⟨k, rfl⟩ := Nat.exists_eq_succ_of_ne_zero (by omega : fuel ≠ 0)
    rw [manifestRounds]
    by_cases hp : p = [] ∨ p.head? = some 0x5d
    · rw [if_pos hp, manifestEntries, if_pos hp]
    · rw [if_neg hp, manifestEntries_succ k hp]
      cases hr : manifestRound p with
      | none => rfl
      | some r =>
        have hlen := manifestRound_length hr
        dsimp only
        rw [ih (by omega) (by omega : r.2.length < k)]
        rfl

/-- A text is that of one snapshot only. -/
theorem Snapshot.render_injective {s s' : Snapshot} (h : s.render = s'.render) : s = s' := by
  have hdev := Snapshot.render_deviceId h
  have hparse := manifestSnapshot_render s
  rw [h, hdev, manifestSnapshot_render s'] at hparse
  obtain ⟨hupd, hes⟩ := Prod.mk.inj (Option.some.inj hparse)
  cases s
  cases s'
  simp_all

/-- The recogniser accepts exactly the canonical texts of the device's snapshots, a text has one snapshot, and the loop
over the entries ends on every input. -/
theorem manifestSnapshotValid_grammar (doc deviceId : Bytes) :
    (manifestSnapshotValid doc deviceId = true ↔ ∃ s : Snapshot, s.deviceId = deviceId ∧ s.render = doc) ∧
    (∀ s s' : Snapshot, s.render = doc → s'.render = doc → s = s') ∧
    ∀ p : Bytes, ∃ n, ∀ m ≥ n, manifestRounds m p = some (manifestEntries (p.length + 1) p) := by
  refine ⟨?_, fun s s' h h' => Snapshot.render_injective (h.trans h'.symm), fun p => ⟨p.length + 1, fun m hm => ?_⟩⟩
  · rw [manifestSnapshotValid_iff]
    exact exists_congr fun s => and_congr_right fun _ => eq_comm
  · exact manifestRounds_ends (by omega) (by omega)

end Recogniser

section Extension

variable {c : Card} {candidate old : Path} {deviceId : Bytes}

/-- Both files hold snapshots of the device, and the entries of the old one come first in the new one. -/
def ExtendsOn (c : Card) (candidate old : Path) (deviceId : Bytes) : Prop :=
  ∃ s s' : Snapshot, boundedFile c old manifestMaxBytes = some s.render ∧
    boundedFile c candidate manifestMaxBytes = some s'.render ∧ s.deviceId = deviceId ∧ s'.deviceId = deviceId ∧
    s.entries <+: s'.entries

theorem fileExtends_iff : fileExtends c candidate old deviceId = true ↔ ExtendsOn c candidate old deviceId := by
  unfold fileExtends ExtendsOn
  constructor
  · intro h
    split at h
    case h_2 => cases h
    case h_1 newDoc oldDoc hnew hold =>
      simp only [Bool.and_eq_true, manifestSnapshotValid_iff] at h
      obtain ⟨⟨⟨s', hs', rfl⟩, ⟨s, hs, rfl⟩⟩, hext⟩ := h
      have hprefix := (manifestDocExtends_document s.deviceId_plain s.updatedAt_valid s.entries_valid s'.deviceId_plain
        s'.updatedAt_valid s'.entries_valid).mp hext
      exact ⟨s, s', hold, hnew, hs, hs', hprefix⟩
  · rintro ⟨s, s', hold, hnew, rfl, hs', hprefix⟩
    have hext := (manifestDocExtends_document s.deviceId_plain s.updatedAt_valid s.entries_valid s'.deviceId_plain
      s'.updatedAt_valid s'.entries_valid).mpr hprefix
    rw [hnew, hold]
    simp only [Bool.and_eq_true, manifestSnapshotValid_iff]
    exact ⟨⟨⟨s', hs', rfl⟩, ⟨s, rfl, rfl⟩⟩, hext⟩

/-- On every pair of files the extension test, run without a fault, decides the prefix relation; and under faults it
gives no other answer than that or a refusal. -/
theorem manifestFileExtends_prefix (c : Card) (candidate old : Path) (deviceId : Bytes) :
    ((device.eval (manifestFileExtends candidate old deviceId) c).1 = true ↔ ExtendsOn c candidate old deviceId) ∧
    ∀ es c', device.run (manifestFileExtends candidate old deviceId) es c = .done true c' →
      ExtendsOn c candidate old deviceId := by
  have hcalm := eval_sat _ (wp_manifestFileExtends (A := fun _ => False) (C := fun _ => True)
    (Q := fun b _ => b = fileExtends c candidate old deviceId) trivial rfl (by simp [IoFault]))
  refine ⟨hcalm ▸ fileExtends_iff, fun es c' hrun => ?_⟩
  have hany : device.wp (fun _ => True) (fun _ => True) (manifestFileExtends candidate old deviceId)
      (fun b _ => b = true → ExtendsOn c candidate old deviceId) c :=
    wp_manifestFileExtends trivial (fun h => fileExtends_iff.mp h) fun _ => by simp
  have hsat := run_sat _ es hany fun _ _ _ _ => trivial
  rw [hrun] at hsat
  exact hsat rfl

end Extension

/-- What the builder of an entry is given. -/
structure EntryArgs where
  recordingId : Bytes
  filename : Bytes
  startedAt : Bytes
  durationMs : UInt32
  sizeBytes : UInt32
  sha256Hex : Bytes
  sampleRate : ℕ
  bitDepth : ℕ
  channels : ℕ
  state : Bytes
  firmware : Option Bytes

namespace EntryArgs

variable (a : EntryArgs)

def build (outSize : ℕ) : Option Bytes :=
  deviceManifestBuildEntry a.recordingId a.filename a.startedAt a.durationMs a.sizeBytes a.sha256Hex a.sampleRate
    a.bitDepth a.channels a.state a.firmware outSize

/-- The fields of the entry. -/
def entry : Entry :=
  ⟨a.recordingId, a.filename, a.startedAt, a.durationMs.toNat, a.sizeBytes.toNat, a.sha256Hex, a.state,
    a.firmware.getD firmwareVersion⟩

/-- The size is that of a header and whole samples, and the duration is that of the samples. -/
def WholeSamples : Prop :=
  (a.sizeBytes.toNat - wavHeaderSize) % 2 = 0 ∧ a.durationMs.toNat = (a.sizeBytes.toNat - wavHeaderSize) / 32

variable {a} {outSize : ℕ} {text : Bytes}

theorem build_eq_some (h : a.build outSize = some text) : a.entry.Built ∧ text = a.entry.render := by
  obtain ⟨e, he, hbuilt, htext, -⟩ := deviceManifestBuildEntry_eq_some h
  have hentry : a.entry = e := he.symm
  rw [hentry]
  exact ⟨hbuilt, htext⟩

theorem entry_valid (h : a.build outSize = some text) (hwhole : a.WholeSamples) : a.entry.Valid :=
  ⟨(build_eq_some h).1, hwhole⟩

end EntryArgs

/-- The arguments that give a valid entry. -/
def Entry.args (e : Entry) : EntryArgs :=
  ⟨e.recordingId, e.filename, e.startedAt, e.durationMs.toUInt32, e.sizeBytes.toUInt32, e.sha256, sampleRateHz,
    bitsPerSample, channelCount, e.state, some e.firmwareVersion⟩

theorem Entry.args_build {e : Entry} (he : e.Built) : e.args.build manifestEntryMax = some e.render :=
  deviceManifestBuildEntry_built he (Nat.lt_of_le_of_lt (Entry.render_length he) (by decide))

section Appending

variable {j : ManifestPaths} {m : Manifest} {c : Card} {updatedAt text : Bytes} {a : EntryArgs} {outSize : ℕ}

/-- The manifest is the canonical text of the entries of `m` and `e` behind them, under the given stamp. -/
def Appended (j : ManifestPaths) (m : Manifest) (updatedAt : Bytes) (e : Entry) (c : Card) : Prop :=
  ∃ s : Snapshot, c.vol.lookup j.manifest = some (.file s.render) ∧ s.deviceId = m.deviceId ∧ s.updatedAt = updatedAt ∧
    manifestSnapshot s.render m.deviceId = some (updatedAt, m.entries ++ [e])

theorem Appended.of_adds {m' : Manifest} {e : Entry} (h : m.Adds e m') (hupd : m'.updatedAt = updatedAt)
    (hlookup : c.vol.lookup j.manifest = some (.file m'.render)) : Appended j m updatedAt e c := by
  refine ⟨m'.toSnapshot, hlookup, h.deviceId, hupd, ?_⟩
  have hparse := manifestSnapshot_render m'.toSnapshot
  rwa [h.deviceId, hupd, h.entries] at hparse

/-- An upsert of a valid entry with a new id. -/
theorem upsert_appends {e : Entry} (he : e.Valid) (hfile : c.vol.lookup j.manifest = some (.file m.render))
    (hnew : ∀ e' ∈ m.entries, e'.recordingId ≠ e.recordingId) :
    (∀ es c', device.run (deviceManifestUpsertFile j.manifest j.tmp m.deviceId updatedAt e.render) es c = .done .ok c' →
      Appended j m updatedAt e c') ∧
    (j.Attached True c m c → m.Accepts j c m.deviceId updatedAt e →
      ∃ c', device.run (deviceManifestUpsertFile j.manifest j.tmp m.deviceId updatedAt e.render) [] c = .done .ok c' ∧
        Appended j m updatedAt e c') := by
  refine ⟨fun es c' hrun => ?_, fun hatt haccepts => ?_⟩
  · have hkeeps : j.Keeps False c m c :=
      ⟨_, _, _, ⟨hfile, rfl, rfl, fun _ _ _ _ => rfl, rfl⟩, .attached _ _ False.elim False.elim⟩
    have hwp : device.wp (fun _ => True) (fun _ => True)
        (deviceManifestUpsertFile j.manifest j.tmp m.deviceId updatedAt e.render)
        (fun r c' => r = .ok → Appended j m updatedAt e c') c :=
      wp_deviceManifestUpsertFile he.toBuilt hkeeps (fun _ _ _ _ => trivial)
        (fun m' c' hadd hupd hk _ => .of_adds hadd hupd hk.lookup)
        (fun e0 h0 h0id => absurd h0id (hnew e0 h0)) fun _ _ _ _ _ h => by cases h
    have hsat := run_sat _ es hwp fun _ _ _ _ => trivial
    rw [hrun] at hsat
    exact hsat rfl
  · have hwp : device.wp (fun _ => False) (fun _ => True)
        (deviceManifestUpsertFile j.manifest j.tmp m.deviceId updatedAt e.render)
        (fun r c' => r = .ok ∧ Appended j m updatedAt e c') c :=
      wp_deviceManifestUpsertFile he.toBuilt hatt.keeps (fun _ _ _ _ => trivial)
        (fun m' c' hadd hupd hk => ⟨rfl, .of_adds hadd hupd hk.lookup⟩)
        (fun e0 h0 h0id => absurd h0id (hnew e0 h0)) fun hwhy => absurd hwhy (by simp [IoFault, haccepts])
    obtain ⟨hok, happ⟩ := eval_sat _ hwp
    exact ⟨_, by rw [run_nil, hok], happ⟩

/-- An upsert of a built entry with a new id: where it returns OK, the manifest is the canonical text of the old entries
with that entry behind them, under the given stamp; and it does so when the text fits, the journal is tidy and no call
fails. -/
theorem deviceManifestUpsertFile_appends (hfile : c.vol.lookup j.manifest = some (.file m.render))
    (hbuild : a.build outSize = some text) (hwhole : a.WholeSamples)
    (hnew : ∀ e ∈ m.entries, e.recordingId ≠ a.recordingId) :
    (∀ es c', device.run (deviceManifestUpsertFile j.manifest j.tmp m.deviceId updatedAt text) es c = .done .ok c' →
      Appended j m updatedAt a.entry c') ∧
    (j.Attached True c m c → c.isDir (dirname j.tmp) = true → isValidIso8601Offset updatedAt = true →
      (document m.deviceId updatedAt (m.entries ++ [a.entry])).length ≤ manifestAdmissionCeilingBytes →
      ∃ c', device.run (deviceManifestUpsertFile j.manifest j.tmp m.deviceId updatedAt text) [] c = .done .ok c' ∧
        Appended j m updatedAt a.entry c') := by
  have hvalid := EntryArgs.entry_valid hbuild hwhole
  rw [(EntryArgs.build_eq_some hbuild).2]
  obtain ⟨hany, hcalm⟩ := upsert_appends hvalid hfile hnew
  exact ⟨hany, fun hatt hparent hstamp hfit => hcalm hatt ⟨hfile, hparent, rfl, hstamp, hwhole, hfit⟩⟩

/-- A second recording of the same evening. -/
def sampleNext : Entry :=
  { sampleEntry with
    recordingId := lit "6fa459ea-ee8a-4ca4-894e-db77e160355e"
    filename := lit "recordings/2025-06-01/201500_6fa459ea-ee8a-4ca4-894e-db77e160355e.wav"
    startedAt := lit "2025-06-01T20:15:00+00:00" }

/-- An entry under another id, name and start. -/
theorem Entry.Valid.rename {e : Entry} (h : e.Valid) {id name start : Bytes} (hid : isValidUuid id = true)
    (hname : validFilename name = true) (hstart : isValidIso8601Offset start = true) :
    { e with recordingId := id, filename := name, startedAt := start : Entry }.Valid :=
  { h with recordingId := hid, filename := hname, startedAt := hstart }

theorem sampleNext_valid : sampleNext.Valid := by
  apply sampleEntry_valid.rename
  all_goals
    rw [lit_ofList]
    decide +kernel

theorem sampleNext_new : ∀ e ∈ sampleManifest.entries, e.recordingId ≠ sampleNext.recordingId := by
  have hne : sampleId ≠ sampleNext.recordingId := by
    rw [sampleId, sampleNext, lit_ofList, lit_ofList]
    decide +kernel
  simpa [sampleManifest, sampleEntry] using hne

theorem sampleNext_accepted : sampleManifest.Accepts .production sampleCard sampleId sampleStamp sampleNext :=
  { sampleRetry_accepted with
    consistent := sampleNext_valid.consistent
    fits := (document_length sampleId_uuid sampleStamp_valid fun e h => by
      rcases List.mem_append.mp h with h | h
      · exact (sampleManifest.entries_valid e h).toBuilt
      · exact List.mem_singleton.mp h ▸ sampleNext_valid.toBuilt).trans (by decide) }

theorem sampleNext_whole : sampleNext.args.WholeSamples := ⟨by decide, by decide⟩

theorem sampleNext_appended : ∃ c', device.run (deviceManifestUpsertFile ManifestPaths.production.manifest
    ManifestPaths.production.tmp sampleId sampleStamp sampleNext.render) [] sampleCard = .done .ok c' ∧
    Appended .production sampleManifest sampleStamp sampleNext.args.entry c' :=
  (deviceManifestUpsertFile_appends (j := .production) (m := sampleManifest) sampleRetry_accepted.attached
    (Entry.args_build sampleNext_valid.toBuilt) sampleNext_whole sampleNext_new).2 sampleCard_settled.attached
    sampleNext_accepted.parent sampleStamp_valid sampleNext_accepted.fits

end Appending

end M5DayLog
