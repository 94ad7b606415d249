import M5DayLog.Manifest.Grammar

/-! Admission to a recording. The room that is asked for holds the text of two entries with their commas, and the backup
that the first append keeps is one that the second may retire. -/

namespace M5DayLog

open Bytes Fat Device

/-- Room for two worst-case entries below the admission ceiling, in a valid committed manifest. -/
def deviceManifestHasAppendRoom (manifestPath : Path) (deviceId : Bytes) : Sys Bool := do
  let reserve := 2 * manifestEntryMax + 64
  match ← readFileBounded manifestPath manifestMaxBytes with
  | none => return false
  | some doc =>
    return manifestSnapshotValid doc deviceId && doc.length ≤ manifestAdmissionCeilingBytes &&
      reserve ≤ manifestAdmissionCeilingBytes - doc.length

section Room

variable {j : ManifestPaths} {m : Manifest} {c : Card} {e : Entry} {deviceId updatedAt : Bytes}

/-- What the check answers without a fault. -/
theorem hasAppendRoom_eval (path : Path) : (device.eval (deviceManifestHasAppendRoom path deviceId) c).1 =
    (boundedFile c path manifestMaxBytes).any fun doc => manifestSnapshotValid doc deviceId &&
      doc.length ≤ manifestAdmissionCeilingBytes && 2 * manifestEntryMax + 64 ≤ manifestAdmissionCeilingBytes - doc.length := by
  have hwp : device.wp (fun _ => False) (fun _ => True) (deviceManifestHasAppendRoom path deviceId)
      (fun r _ => r = (boundedFile c path manifestMaxBytes).any fun doc => manifestSnapshotValid doc deviceId &&
        doc.length ≤ manifestAdmissionCeilingBytes &&
        2 * manifestEntryMax + 64 ≤ manifestAdmissionCeilingBytes - doc.length) c := by
    unfold deviceManifestHasAppendRoom
    rw [wp_bind]
    refine wp_readFileBounded trivial ?_ (by simp [IoFault])
    cases boundedFile c path manifestMaxBytes with
    | none => rfl
    | some doc => rfl
  exact eval_sat _ hwp

/-- The journal files of a device at rest: the temporary file, if any, is no directory and has a directory to be in, and
a retained backup is one that the manifest extends. -/
structure TidyOn (j : ManifestPaths) (c : Card) (deviceId : Bytes) : Prop where
  parent : c.isDir (dirname j.tmp) = true
  tmp : c.isDir j.tmp = false
  backup : c.vol.lookup j.backup = none ∨ ExtendsOn c j.manifest j.backup deviceId

/-- A manifest with room is one that the device can have committed, and the text is short. -/
theorem manifest_of_room (huuid : isValidUuid deviceId = true)
    (hroom : (device.eval (deviceManifestHasAppendRoom j.manifest deviceId) c).1 = true) :
    ∃ m : Manifest, m.deviceId = deviceId ∧ c.vol.lookup j.manifest = some (.file m.render) ∧
      m.render.length + (2 * manifestEntryMax + 64) ≤ manifestAdmissionCeilingBytes := by
  rw [hasAppendRoom_eval, Option.any_eq_true] at hroom
  obtain ⟨doc, hdoc, h⟩ := hroom
  simp only [Bool.and_eq_true, decide_eq_true_eq] at h
  obtain ⟨m, hm, hfile⟩ := manifest_of_valid huuid hdoc h.1.1
  have hread := boundedFile_manifest hfile j.manifest_ne
  rw [hdoc] at hread
  obtain rfl := Option.some.inj hread
  refine ⟨m, hm, hfile, ?_⟩
  omega

theorem TidyOn.attached (h : TidyOn j c m.deviceId) (hfile : c.vol.lookup j.manifest = some (.file m.render)) :
    j.Attached True c m c := by
  refine ⟨_, _, ⟨hfile, rfl, rfl, fun _ _ _ _ => rfl, rfl⟩, fun _ ht => ?_, fun _ => ?_⟩
  · have htmp := h.tmp
    simp [Card.isDir, ht] at htmp
  · rcases h.backup with hb | ⟨s, s', hold, hnew, hs, hs', hprefix⟩
    · exact Or.inl hb
    · have huuid : isValidUuid s.deviceId = true := by
        rw [hs]
        exact m.deviceId_uuid
      rw [boundedFile_manifest hfile j.manifest_ne] at hnew
      have hentries := Snapshot.render_entries (Option.some.inj hnew)
      unfold boundedFile at hold
      split at hold
      · cases hold
      · obtain ⟨hlookup, hlen⟩ := Option.filter_eq_some_iff.mp hold
        refine Or.inr ⟨⟨s, huuid, by simpa using hlen⟩, Card.file?_eq_some.mp hlookup, hs.symm, ?_⟩
        rw [hentries]
        exact hprefix

/-- The directory of the temporary file is none of the journal's files. -/
theorem dirname_outside (hatt : j.Attached True c m c) (hparent : c.isDir (dirname j.tmp) = true) {c' : Card} {m' : Manifest}
    (h : j.Attached True c m' c') : c'.isDir (dirname j.tmp) = true := by
  obtain ⟨t, b, hat, ht, hb⟩ := hatt
  obtain ⟨t', b', hat', -, -⟩ := h
  have hdir : c.vol.lookup (dirname j.tmp) = some .dir := by simpa [Card.isDir] using hparent
  have hmanifest : dirname j.tmp ≠ j.manifest := by
    intro heq
    rw [heq, hat.manifest] at hdir
    cases hdir
  have htmp : dirname j.tmp ≠ j.tmp := by
    intro heq
    rw [heq, hat.tmp] at hdir
    exact ht trivial hdir
  have hbackup : dirname j.tmp ≠ j.backup := by
    intro heq
    rw [heq, hat.backup] at hdir
    rcases hb trivial with hnone | ⟨old, hold, -⟩
    · rw [hnone] at hdir
      cases hdir
    · rw [hold] at hdir
      cases hdir
  rw [Card.isDir, hat'.frame _ hmanifest htmp hbackup, hdir]
  rfl

/-- A document grows by at most one entry text and its comma. -/
theorem document_append_length {dev upd upd' : Bytes} {es : List Entry} (hd : isValidUuid dev = true)
    (hu : isValidIso8601Offset upd = true) (hu' : isValidIso8601Offset upd' = true) (he : e.Built) :
    (document dev upd' (es ++ [e])).length ≤ (document dev upd es).length + 641 := by
  have hlen := Entry.render_length he
  have hheader := header_length hd hu
  have hheader' := header_length hd hu'
  have hbody := congrArg List.length (body_append es e)
  have hsep : (if es = [] then [] else lit ",").length ≤ 1 := by
    split <;> simp [lit_comma]
  simp only [document, List.length_append] at hbody ⊢
  omega

theorem Manifest.Adds.render_length {m' : Manifest} (h : m.Adds e m') (he : e.Built) :
    m'.render.length ≤ m.render.length + 641 := by
  rw [Snapshot.render, Snapshot.render, h.entries, h.deviceId]
  exact document_append_length m.deviceId_uuid m.updatedAt_valid m'.updatedAt_valid he

/-- One append into a manifest with room: it succeeds, and what it leaves is ready for the next. -/
theorem append_in_room (hatt : j.Attached True c m c) (hparent : c.isDir (dirname j.tmp) = true) (he : e.Valid)
    (hnew : ∀ e' ∈ m.entries, e'.recordingId ≠ e.recordingId) (hstamp : isValidIso8601Offset updatedAt = true)
    (hroom : m.render.length + 641 ≤ manifestAdmissionCeilingBytes) :
    ∃ m' c', device.run (deviceManifestUpsertFile j.manifest j.tmp m.deviceId updatedAt e.render) [] c = .done .ok c' ∧
      m.Adds e m' ∧ j.Attached True c m' c' ∧ m'.render.length ≤ m.render.length + 641 := by
  have hfit : (document m.deviceId updatedAt (m.entries ++ [e])).length ≤ manifestAdmissionCeilingBytes :=
    (document_append_length m.deviceId_uuid m.updatedAt_valid hstamp he.toBuilt).trans hroom
  have haccepts : m.Accepts j c m.deviceId updatedAt e := ⟨hatt.lookup, hparent, rfl, hstamp, he.consistent, hfit⟩
  have hwp : device.wp (fun _ => False) (fun _ => True)
      (deviceManifestUpsertFile j.manifest j.tmp m.deviceId updatedAt e.render)
      (fun r c' => r = .ok ∧ ∃ m', m.Adds e m' ∧ j.Attached True c m' c') c :=
    wp_deviceManifestUpsertFile he.toBuilt hatt.keeps (fun _ _ _ _ => trivial)
      (fun m' c' hadd _ hk => ⟨rfl, m', hadd, hk⟩) (fun e0 h0 h0id => absurd h0id (hnew e0 h0))
      fun hwhy => absurd hwhy (by simp [IoFault, haccepts])
  obtain ⟨hok, m', hadd, hatt'⟩ := eval_sat _ hwp
  exact ⟨m', _, by rw [run_nil, hok], hadd, hatt', hadd.render_length he.toBuilt⟩

/-- A backup that the manifest does not extend is kept, and no document is written before it is retired. -/
theorem wp_writeTmpAndRename_foreign {doc : Bytes} {dev : Bytes} {Q : Bool → Card → Prop}
    (hid : deviceIdentityParseDeviceId doc = some dev) (hbackup : c.vol.lookup j.backup ≠ none)
    (hforeign : ¬ ExtendsOn c j.manifest j.backup dev) (hQ : Q false c) :
    device.wp (fun _ => False) (fun _ => True) (writeTmpAndRename j.tmp j.manifest doc) Q c := by
  have hretire : device.wp (fun _ => False) (fun _ => True) (retireBackup j.manifest j.backup dev)
      (fun r c' => r = false ∧ c' = c) c := by
    obtain ⟨n, hn⟩ := Option.ne_none_iff_exists'.mp hbackup
    have hstat : ∃ st, c.statAns j.backup = .ok st := by cases n <;> simp [Card.statAns, hn]
    obtain ⟨st, hst⟩ := hstat
    have hext : fileExtends c j.manifest j.backup dev = false := by
      simpa using mt fileExtends_iff.mp hforeign
    unfold retireBackup
    rw [wp_bind]
    refine wp_stat trivial ?_ (by simp [IoFault])
    rw [hst]
    simp only
    rw [wp_bind]
    refine wp_manifestFileExtends trivial ?_ (by simp [IoFault])
    rw [hext]
    exact ⟨rfl, rfl⟩
  unfold writeTmpAndRename
  rw [hid, j.backup_eq]
  simp only
  split
  · exact hQ
  · rw [wp_bind]
    refine wp_mono _ hretire fun r c' h => ?_
    rw [h.1, h.2]
    exact hQ

theorem upsert_foreign (hfile : c.vol.lookup j.manifest = some (.file m.render)) (hbackup : c.vol.lookup j.backup ≠ none)
    (hforeign : ¬ ExtendsOn c j.manifest j.backup m.deviceId) (he : e.Valid)
    (hnew : ∀ e' ∈ m.entries, e'.recordingId ≠ e.recordingId) (hstamp : isValidIso8601Offset updatedAt = true) :
    (device.eval (deviceManifestUpsertFile j.manifest j.tmp m.deviceId updatedAt e.render) c).1 = .error := by
  have hlen := Entry.render_length he.toBuilt
  have hmax : manifestEntryMax = 1024 := rfl
  have hne : e.render ≠ [] := by
    obtain ⟨t, ht⟩ := render_head e
    simp [ht]
  have hfind : m.entries.dropWhile (fun e' => e'.recordingId ≠ e.recordingId) = [] := by
    simpa using hnew
  have hwp : device.wp (fun _ => False) (fun _ => True)
      (deviceManifestUpsertFile j.manifest j.tmp m.deviceId updatedAt e.render) (fun r _ => r = .error) c := by
    unfold deviceManifestUpsertFile
    rw [if_neg (by simp [j.manifest_ne, j.tmp_ne, m.deviceId_uuid, hstamp, hne]; omega), entryKey_render he.toBuilt,
      if_pos he.consistent]
    simp only
    rw [wp_bind]
    refine wp_readFileBounded trivial ?_ (by simp [IoFault])
    rw [boundedFile_manifest hfile j.manifest_ne]
    have hver := parseSchemaVersion_document m.deviceId_uuid m.updatedAt_valid m.entries_valid
    have hdev := parseDeviceId_document m.deviceId_uuid m.updatedAt_valid m.entries_valid
    have hmem := memfind_id m.deviceId_uuid m.updatedAt_valid m.entries_valid he.recordingId
    rw [← Snapshot.render] at hver hdev hmem
    simp only [render_valid, hver, hdev, ne_eq, not_true_eq_false, if_false, Entry.key, hmem, hfind, decide_true, Bool.not_true,
      Bool.false_eq_true]
    unfold upsertAppend
    rw [Snapshot.render, appendEntry_document m.deviceId_uuid m.updatedAt_valid hstamp m.entries_valid]
    split
    case h_1 => rfl
    case h_2 fresh heq =>
      rw [Option.ite_none_left_eq_some] at heq
      have hvalid : ∀ e' ∈ m.entries ++ [e], e'.Valid := by
        intro e' h
        rcases List.mem_append.mp h with h | h
        · exact m.entries_valid e' h
        · exact List.mem_singleton.mp h ▸ he
      have hid := parseDeviceId_document m.deviceId_uuid hstamp hvalid
      rw [wp_bind]
      refine wp_malloc trivial ?_ (by simp [IoFault])
      simp only [Bool.not_true, Bool.false_eq_true, if_false]
      rw [wp_bind]
      exact wp_writeTmpAndRename_foreign (Option.some.inj heq.2 ▸ hid) hbackup hforeign rfl
  exact eval_sat _ hwp

/-- A manifest that has room takes two appends of distinct new recordings: without a fault both return OK, and the file
stays below the admission ceiling. -/
theorem deviceManifestHasAppendRoom_appends {a a' : EntryArgs} {text text' updatedAt' : Bytes}
    (huuid : isValidUuid deviceId = true) (htidy : TidyOn j c deviceId)
    (hroom : (device.eval (deviceManifestHasAppendRoom j.manifest deviceId) c).1 = true)
    (hbuild : a.build manifestEntryMax = some text) (hwhole : a.WholeSamples)
    (hbuild' : a'.build manifestEntryMax = some text') (hwhole' : a'.WholeSamples)
    (hstamp : isValidIso8601Offset updatedAt = true) (hstamp' : isValidIso8601Offset updatedAt' = true)
    (hnew : ∀ s : Snapshot, c.vol.lookup j.manifest = some (.file s.render) →
      ∀ e ∈ s.entries, e.recordingId ≠ a.recordingId ∧ e.recordingId ≠ a'.recordingId)
    (hne : a.recordingId ≠ a'.recordingId) :
    ∃ c1 c2, device.run (deviceManifestUpsertFile j.manifest j.tmp deviceId updatedAt text) [] c = .done .ok c1 ∧
      device.run (deviceManifestUpsertFile j.manifest j.tmp deviceId updatedAt' text') [] c1 = .done .ok c2 ∧
      (∃ doc, c1.file? j.manifest = some doc ∧ doc.length ≤ manifestAdmissionCeilingBytes) ∧
      ∃ doc, c2.file? j.manifest = some doc ∧ doc.length ≤ manifestAdmissionCeilingBytes := by
  obtain ⟨m, rfl, hfile, hlen⟩ := manifest_of_room huuid hroom
  have hmax : 2 * manifestEntryMax + 64 = 2112 := by decide
  have hatt := htidy.attached hfile
  have hfresh := hnew m.toSnapshot hfile
  rw [(EntryArgs.build_eq_some hbuild).2, (EntryArgs.build_eq_some hbuild').2]
  obtain ⟨m1, c1, hrun1, hadd1, hatt1, hlen1⟩ := append_in_room hatt htidy.parent (EntryArgs.entry_valid hbuild hwhole)
    (fun e he => (hfresh e he).1) hstamp (by omega)
  have hnew1 : ∀ e ∈ m1.entries, e.recordingId ≠ a'.entry.recordingId := by
    intro e he
    rw [hadd1.entries, List.mem_append, List.mem_singleton] at he
    rcases he with he | rfl
    · exact (hfresh e he).2
    · exact hne
  have hatt1' : j.Attached True c1 m1 c1 := by
    obtain ⟨t, b, hat, ht, hb⟩ := hatt1
    exact ⟨t, b, ⟨hat.manifest, hat.tmp, hat.backup, fun _ _ _ _ => rfl, rfl⟩, ht, hb⟩
  obtain ⟨m2, c2, hrun2, hadd2, hatt2, hlen2⟩ := append_in_room hatt1' (dirname_outside hatt htidy.parent hatt1)
    (EntryArgs.entry_valid hbuild' hwhole') hnew1 hstamp' (by omega)
  rw [hadd1.deviceId] at hrun2
  exact ⟨c1, c2, hrun1, hrun2, ⟨_, Card.file?_eq_some.mpr hatt1.lookup, by omega⟩,
    ⟨_, Card.file?_eq_some.mpr hatt2.lookup, by omega⟩⟩

end Room

section Sample

/-- A manifest of one recording has room for two more. -/
theorem single_room (m : Manifest) (hone : m.entries.length = 1) :
    m.render.length + (2 * manifestEntryMax + 64) ≤ manifestAdmissionCeilingBytes := by
  have hlen := document_length m.deviceId_uuid m.updatedAt_valid fun e he => (m.entries_valid e he).toBuilt
  rw [hone] at hlen
  exact (Nat.add_le_add_right hlen _).trans (by decide)

theorem sample_room {c : Card} (hfile : c.vol.lookup ManifestPaths.production.manifest = some (.file sampleManifest.render)) :
    (device.eval (deviceManifestHasAppendRoom ManifestPaths.production.manifest sampleId) c).1 = true := by
  have hread := boundedFile_manifest hfile ManifestPaths.production.manifest_ne
  have hvalid : manifestSnapshotValid sampleManifest.render sampleId = true := manifestSnapshotValid_iff.mpr ⟨_, rfl, rfl⟩
  have hlen := single_room sampleManifest rfl
  rw [hasAppendRoom_eval, hread, Option.any_some, hvalid, Bool.true_and, Bool.and_eq_true, decide_eq_true_eq, decide_eq_true_eq]
  generalize sampleManifest.render.length = n at hlen
  omega

theorem sampleCard_tidy : TidyOn .production sampleCard sampleId where
  parent := sampleRetry_accepted.parent
  tmp := by
    simp [Card.isDir, ManifestPaths.production, sampleCard_lookup, productionPaths_ne]
  backup := by
    exact Or.inl (by simp [ManifestPaths.production, sampleCard_lookup, productionPaths_ne])

/-- A third recording. -/
def sampleThird : Entry :=
  { sampleEntry with
    recordingId := lit "7d444840-9dc0-41d1-b245-5ffdce74fad2"
    filename := lit "recordings/2025-06-02/081500_7d444840-9dc0-41d1-b245-5ffdce74fad2.wav"
    startedAt := lit "2025-06-02T08:15:00+00:00" }

theorem sampleThird_valid : sampleThird.Valid := by
  apply sampleEntry_valid.rename
  all_goals
    rw [lit_ofList]
    decide +kernel

theorem deviceManifestHasAppendRoom_sample : ∃ c1 c2,
    device.run (deviceManifestUpsertFile ManifestPaths.production.manifest ManifestPaths.production.tmp sampleId
      sampleStamp sampleNext.render) [] sampleCard = .done .ok c1 ∧
    device.run (deviceManifestUpsertFile ManifestPaths.production.manifest ManifestPaths.production.tmp sampleId
      sampleStamp sampleThird.render) [] c1 = .done .ok c2 ∧
    (∃ doc, c1.file? ManifestPaths.production.manifest = some doc ∧ doc.length ≤ manifestAdmissionCeilingBytes) ∧
    ∃ doc, c2.file? ManifestPaths.production.manifest = some doc ∧ doc.length ≤ manifestAdmissionCeilingBytes := by
  have hids : sampleId ≠ sampleNext.recordingId ∧ sampleId ≠ sampleThird.recordingId ∧
      sampleNext.recordingId ≠ sampleThird.recordingId := by
    rw [sampleId, sampleNext, sampleThird, lit_ofList, lit_ofList, lit_ofList]
    decide +kernel
  refine deviceManifestHasAppendRoom_appends sampleId_uuid sampleCard_tidy (sample_room sampleRetry_accepted.attached)
    (Entry.args_build sampleNext_valid.toBuilt) sampleNext_whole (Entry.args_build sampleThird_valid.toBuilt)
    ⟨by decide, by decide⟩ sampleStamp_valid sampleStamp_valid (fun s hs e he => ?_) hids.2.2
  have hfile : sampleCard.vol.lookup manifestPath = some (.file sampleManifest.render) := sampleRetry_accepted.attached
  have hsame : sampleCard.vol.lookup manifestPath = some (.file s.render) := hs
  rw [hfile] at hsame
  have hentries := Snapshot.render_entries (Node.file.inj (Option.some.inj hsame))
  rw [← hentries] at he
  obtain rfl := List.mem_singleton.mp he
  exact ⟨hids.1, hids.2.1⟩

/-- One byte of samples, which is no sample. -/
def sampleByte : Entry := { sampleNext with durationMs := 0, sizeBytes := 45 }

theorem sampleByte_built : sampleByte.Built :=
  { sampleNext_valid.toBuilt with duration_lt := by decide, size_lt := by decide, header := by decide }

theorem sampleByte_refused : (device.eval (deviceManifestUpsertFile ManifestPaths.production.manifest
    ManifestPaths.production.tmp sampleId sampleStamp sampleByte.render) sampleCard).1 ≠ .ok := by
  have hodd : ¬ sampleByte.Consistent := by decide
  have hwp : device.wp (fun _ => False) (fun _ => True)
      (deviceManifestUpsertFile ManifestPaths.production.manifest ManifestPaths.production.tmp sampleId sampleStamp
        sampleByte.render) (fun r _ => r ≠ .ok) sampleCard :=
    wp_deviceManifestUpsertFile sampleByte_built (sampleCard_tidy.attached sampleRetry_accepted.attached).keeps
      (fun _ _ _ _ => trivial)
      (fun m' _ hadd _ _ => absurd (m'.entries_valid sampleByte (by rw [hadd.entries]; simp)).consistent hodd)
      (fun e0 h0 h0id => absurd h0id (sampleNext_new e0 h0)) (fun _ _ _ _ _ => by simp)
  exact eval_sat _ hwp

/-- The card with a backup that is no manifest. -/
def sampleForeign : Card := sampleCard.put (lit "/sdcard/M5DAYLOG/manifest.json.bak") (.file (lit "x"))

theorem sampleForeign_manifest :
    sampleForeign.vol.lookup ManifestPaths.production.manifest = some (.file sampleManifest.render) := by
  simp [sampleForeign, ManifestPaths.production, productionPaths_ne.2.2.1.symm, sampleCard_lookup]

theorem sampleForeign_refused : (device.eval (deviceManifestUpsertFile ManifestPaths.production.manifest
    ManifestPaths.production.tmp sampleId sampleStamp sampleNext.render) sampleForeign).1 = .error := by
  have hbackup : sampleForeign.vol.lookup ManifestPaths.production.backup = some (.file (lit "x")) := by
    simp [sampleForeign, ManifestPaths.production]
  refine upsert_foreign (m := sampleManifest) sampleForeign_manifest (by simp [hbackup]) (fun h => ?_) sampleNext_valid
    sampleNext_new sampleStamp_valid
  obtain ⟨s, s', hold, -, hs, -, -⟩ := h
  have hread : boundedFile sampleForeign ManifestPaths.production.backup manifestMaxBytes = some (lit "x") := by
    rw [boundedFile, if_neg (by simp [ManifestPaths.production.backup_ne, manifestMaxBytes]), Card.file?_eq_some.mpr hbackup,
      Option.filter_some, if_pos (by with_unfolding_all decide)]
  rw [hread] at hold
  have hlen : (lit "x").length = 1 := by with_unfolding_all decide
  have hshort := congrArg List.length (Option.some.inj hold)
  have hheader := header_length (hs ▸ sampleId_uuid : isValidUuid s.deviceId = true) s.updatedAt_valid
  simp only [Snapshot.render, document, List.length_append] at hshort
  omega

/-- The manifest has room, and yet an append fails: of an entry that the builder gives for one byte of samples, and of any
entry while the retained backup is no manifest. -/
theorem deviceManifestHasAppendRoom_byte :
    (device.eval (deviceManifestHasAppendRoom ManifestPaths.production.manifest sampleId) sampleCard).1 = true ∧
    sampleByte.args.build manifestEntryMax = some sampleByte.render ∧
    (∀ e ∈ sampleManifest.entries, e.recordingId ≠ sampleByte.recordingId) ∧
    (device.eval (deviceManifestUpsertFile ManifestPaths.production.manifest ManifestPaths.production.tmp sampleId
      sampleStamp sampleByte.render) sampleCard).1 ≠ .ok ∧
    (device.eval (deviceManifestHasAppendRoom ManifestPaths.production.manifest sampleId) sampleForeign).1 = true ∧
    sampleNext.args.build manifestEntryMax = some sampleNext.render ∧
    (∀ e ∈ sampleManifest.entries, e.recordingId ≠ sampleNext.recordingId) ∧
    (device.eval (deviceManifestUpsertFile ManifestPaths.production.manifest ManifestPaths.production.tmp sampleId
      sampleStamp sampleNext.render) sampleForeign).1 ≠ .ok := by
  refine ⟨sample_room sampleRetry_accepted.attached, Entry.args_build sampleByte_built, sampleNext_new, sampleByte_refused,
    sample_room sampleForeign_manifest, Entry.args_build sampleNext_valid.toBuilt, sampleNext_new, ?_⟩
  rw [sampleForeign_refused]
  simp

end Sample

end M5DayLog
