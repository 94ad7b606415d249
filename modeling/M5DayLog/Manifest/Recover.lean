import M5DayLog.Manifest.Journal

/-! Recovery of the manifest journal, and whole histories of upserts and recoveries under faults and power loss. -/

namespace M5DayLog

open Bytes Fat Device

variable {A : Fault → Prop} {C : Card → Prop} {c c0 : Card} {j : ManifestPaths} {m : Manifest}

section Recover

variable {deviceId : Bytes} {Q : Bool → Card → Prop}

theorem wp_manifestArtifactExists {path : Path} {R : Option Bool → Card → Prop} (hC : C c)
    (h : R (some (c.vol.lookup path).isSome) c) (hf : IoFault A → R none c) :
    device.wp A C (manifestArtifactExists path) R c := by
  unfold manifestArtifactExists
  rw [wp_bind]
  refine wp_stat hC ?_ fun hA code => by simpa using hf hA
  cases hl : c.vol.lookup path with
  | none => simpa [Card.statAns, hl] using h
  | some n => cases n <;> simpa [Card.statAns, hl] using h

/-- With the manifest in place and no backup, only a temporary file is left to drop. -/
theorem wp_recoverFinal {t : Option Node} (hc : j.At c0 (some (.file m.render)) t none c) (ht : t ≠ some .dir)
    (hC : C c) (hok : deviceId = m.deviceId → ∀ c', j.Settled c0 m c' → Q true c')
    (hf : IoFault A ∨ deviceId ≠ m.deviceId → Q false c) :
    device.wp A C (recoverFinal j.manifest j.tmp deviceId t.isSome) Q c := by
  unfold recoverFinal
  rw [wp_bind]
  refine wp_manifestFileValid hC ?_ fun hA => by simpa using hf (Or.inl hA)
  rw [fileValid_manifest hc.manifest j.manifest_ne]
  by_cases hd : deviceId = m.deviceId
  · simp only [hd, decide_true, Bool.not_true, Bool.false_eq_true, if_false]
    cases t with
    | none => exact hok hd c hc
    | some n =>
      cases n with
      | dir => exact absurd rfl ht
      | file d =>
        simp only [Option.isSome_some, Bool.not_true, Bool.false_eq_true, if_false]
        rw [wp_bind]
        refine wp_remove hC ?_ fun hA code => hf (Or.inl hA)
        simp only [Card.removeAns, hc.tmp]
        exact hok hd _ hc.del_tmp
  · simpa [hd] using hf (Or.inr hd)

/-- A backup is renamed back or retired; either way the manifest is in place behind it. -/
theorem wp_recoverBackup {f t : Option Node} {n : Node} {R : Option Bool → Card → Prop}
    (hc : j.At c0 f t (some n) c) (hj : Journal True m f t (some n)) (hC : C c)
    (hok : deviceId = m.deviceId → ∀ c', j.At c0 (some (.file m.render)) t none c' → R (some true) c')
    (hf : IoFault A ∨ deviceId ≠ m.deviceId → R none c) :
    device.wp A C (recoverBackup j.manifest j.backup deviceId f.isSome) R c := by
  unfold recoverBackup
  rw [wp_bind]
  refine wp_manifestFileValid hC ?_ fun hA => by simpa using hf (Or.inl hA)
  cases hj with
  | attached t b ht hb =>
    obtain ⟨old, h, hdev, hpre⟩ := (hb trivial).resolve_left (by simp)
    obtain rfl := Option.some.inj h
    rw [fileValid_manifest hc.backup j.backup_ne]
    by_cases hd : deviceId = old.deviceId
    · simp only [hd, decide_true, Bool.not_true, Bool.false_eq_true, if_false, Option.isSome_some]
      rw [wp_bind]
      refine wp_manifestFileExtends hC ?_ fun hA => by simpa using hf (Or.inl hA)
      rw [fileExtends_manifest hc.manifest j.manifest_ne hc.backup j.backup_ne hdev hpre]
      simp only [Bool.not_true, Bool.false_eq_true, if_false]
      rw [wp_bind]
      refine wp_remove hC ?_ fun hA code => hf (Or.inl hA)
      simp only [Card.removeAns, hc.backup]
      exact hok (hd.trans hdev.symm) _ hc.del_backup
    · simpa [hd] using hf (Or.inr fun h => hd (h.trans hdev))
  | detached =>
    rw [fileValid_manifest hc.backup j.backup_ne]
    by_cases hd : deviceId = m.deviceId
    · simp only [hd, decide_true, Bool.not_true, Bool.not_false, Bool.false_eq_true, if_false, if_true, Option.isSome_none]
      rw [wp_bind]
      refine wp_rename hC ?_ fun hA code => hf (Or.inl hA)
      simp only [Card.renameAns, hc.backup, hc.manifest, Option.isSome_none, Bool.false_eq_true, if_false]
      exact hok hd _ hc.backup_to_manifest
    · simpa [hd] using hf (Or.inr hd)

/-- Recovery puts the kept snapshot in place and removes the other files, unless a call fails or the device is
another one. -/
theorem wp_deviceManifestRecoverTmp (hc : j.Keeps True c0 m c) (hC : ∀ c', j.Keeps True c0 m c' → C c')
    (hok : deviceId = m.deviceId → ∀ c', j.Settled c0 m c' → Q true c')
    (hf : IoFault A ∨ deviceId ≠ m.deviceId → ∀ c', j.Keeps True c0 m c' → Q false c') :
    device.wp A C (deviceManifestRecoverTmp j.manifest j.tmp deviceId) Q c := by
  unfold deviceManifestRecoverTmp
  rw [j.backup_eq]
  by_cases huuid : isValidUuid deviceId = true
  case neg =>
    simp only [huuid, Bool.not_false, if_true]
    exact hf (Or.inr fun h => huuid (h ▸ m.deviceId_uuid)) c hc
  case pos =>
    simp only [huuid, Bool.not_true, Bool.false_eq_true, if_false]
    have hk := hc
    obtain ⟨f, t, b, hat, hj⟩ := hc
    have ht : t ≠ some .dir := by cases hj with
      | attached t b ht hb => exact ht trivial
      | detached t ht => exact ht trivial
    have hfail : IoFault A → Q false c := fun hA => hf (Or.inl hA) c hk
    rw [wp_bind]
    refine wp_manifestArtifactExists (hC c hk) ?_ fun hA => by simpa using hfail hA
    simp only
    rw [wp_bind]
    refine wp_manifestArtifactExists (hC c hk) ?_ fun hA => by simpa using hfail hA
    simp only
    rw [wp_bind]
    refine wp_manifestArtifactExists (hC c hk) ?_ fun hA => by simpa using hfail hA
    rw [hat.manifest, hat.tmp, hat.backup]
    cases b with
    | none =>
      obtain rfl : f = some (.file m.render) := by cases hj; rfl
      simp only [Option.isSome_none, Bool.false_eq_true, if_false, Option.isSome_some, Prog.pure_eq, Prog.bind_ret]
      exact wp_recoverFinal hat ht (hC c hk) hok fun h => hf h c hk
    | some n =>
      simp only [Option.isSome_some, if_true]
      rw [wp_bind]
      refine wp_recoverBackup hat hj (hC c hk) (fun hd c' hc' => ?_) fun h => hf h c hk
      have hk' : j.Keeps True c0 m c' := ⟨_, _, _, hc', .attached t none (fun _ => ht) fun _ => Or.inl rfl⟩
      exact wp_recoverFinal hc' ht (hC c' hk') hok fun h => hf h c' hk'

end Recover

section Histories

/-- An upsert as the recorder makes it: its entry is one that the builder gives. -/
structure Offer where
  deviceId : Bytes
  updatedAt : Bytes
  entry : Entry
  built : entry.Built

/-- An upsert that returned OK: its entry, and the entries that were committed at the start or offered before it. -/
structure Ack where
  entry : Entry
  before : List Entry

/-- What an upsert adds to the acknowledged ones. -/
def Ack.ofOutcome (e : Entry) (before : List Entry) : Outcome ManifestResult Card → List Ack
  | .done .ok _ => [⟨e, before⟩]
  | _ => []

/-- The cards that any sequence of upserts and recoveries can leave, each under its own schedule of faults and with
power possibly lost inside it, with the entries offered and the upserts acknowledged on the way. -/
inductive ManifestReach (j : ManifestPaths) (m0 : Manifest) (c0 : Card) : List Entry → List Ack → Card → Prop
  | start : ManifestReach j m0 c0 [] [] c0
  | upsert {offered : List Entry} {acks : List Ack} {c : Card} (h : ManifestReach j m0 c0 offered acks c) (o : Offer)
      (es : List (Event Fault)) {out : Outcome ManifestResult Card}
      (hrun : device.run (deviceManifestUpsertFile j.manifest j.tmp o.deviceId o.updatedAt o.entry.render) es c = out) :
      ManifestReach j m0 c0 (offered ++ [o.entry]) (acks ++ Ack.ofOutcome o.entry (m0.entries ++ offered) out) out.state
  | recover {offered : List Entry} {acks : List Ack} {c : Card} (h : ManifestReach j m0 c0 offered acks c) (deviceId : Bytes)
      (es : List (Event Fault)) {out : Outcome Bool Card}
      (hrun : device.run (deviceManifestRecoverTmp j.manifest j.tmp deviceId) es c = out) :
      ManifestReach j m0 c0 offered acks out.state

/-- The entry list of a history: the committed entries, then a selection of the offered ones in their order, and every
acknowledged entry, or the entry with its id that was there before and records the same file. -/
structure Story (m0 : Manifest) (offered : List Entry) (acks : List Ack) (es : List Entry) : Prop where
  selection : ∃ sel, es = m0.entries ++ sel ∧ sel.Sublist offered
  acked : ∀ a ∈ acks, a.entry ∈ es ∨
    ∃ e ∈ es, e ∈ a.before ∧ e.recordingId = a.entry.recordingId ∧ e.matchesKey a.entry.key = true

variable {m0 : Manifest} {offered es : List Entry} {acks acks' : List Ack} {e : Entry}

theorem Story.start (m0 : Manifest) : Story m0 [] [] m0.entries :=
  ⟨⟨[], by simp, List.Sublist.refl _⟩, by simp⟩

theorem Story.mem (h : Story m0 offered acks es) (he : e ∈ es) : e ∈ m0.entries ++ offered := by
  obtain ⟨sel, rfl, hsub⟩ := h.selection
  rcases List.mem_append.mp he with h | h
  · exact List.mem_append_left _ h
  · exact List.mem_append_right _ (hsub.subset h)

/-- An offered entry may be left out. -/
theorem Story.skip (h : Story m0 offered acks es) (e : Entry) : Story m0 (offered ++ [e]) acks es := by
  obtain ⟨sel, hes, hsub⟩ := h.selection
  exact ⟨⟨sel, hes, hsub.trans (List.sublist_append_left ..)⟩, h.acked⟩

/-- An offered entry may be added behind the others. -/
theorem Story.add (h : Story m0 offered acks es) (e : Entry) : Story m0 (offered ++ [e]) acks (es ++ [e]) := by
  obtain ⟨sel, rfl, hsub⟩ := h.selection
  refine ⟨⟨sel ++ [e], by simp, hsub.append (List.Sublist.refl _)⟩, fun a ha => ?_⟩
  rcases h.acked a ha with h | ⟨e0, h0, h1⟩
  · exact Or.inl (List.mem_append_left _ h)
  · exact Or.inr ⟨e0, List.mem_append_left _ h0, h1⟩

theorem Story.ack (h : Story m0 offered acks es) {a : Ack} (ha : a.entry ∈ es ∨
    ∃ e ∈ es, e ∈ a.before ∧ e.recordingId = a.entry.recordingId ∧ e.matchesKey a.entry.key = true) :
    Story m0 offered (acks ++ [a]) es := by
  refine ⟨h.selection, fun b hb => ?_⟩
  rcases List.mem_append.mp hb with hb | hb
  · exact h.acked b hb
  · rwa [List.mem_singleton.mp hb]

/-- The journal keeps a snapshot of the device whose entries tell the story. -/
def Tells (j : ManifestPaths) (m0 : Manifest) (c0 : Card) (offered : List Entry) (acks : List Ack) (c : Card) : Prop :=
  ∃ m : Manifest, j.Keeps True c0 m c ∧ m.deviceId = m0.deviceId ∧ Story m0 offered acks m.entries

/-- One upsert, under any faults and any cut, keeps the story. -/
theorem Tells.upsert (h : Tells j m0 c0 offered acks c) (o : Offer) (es : List (Event Fault)) :
    (device.run (deviceManifestUpsertFile j.manifest j.tmp o.deviceId o.updatedAt o.entry.render) es c).Sat
      (Tells j m0 c0 (offered ++ [o.entry]) acks)
      (fun r => Tells j m0 c0 (offered ++ [o.entry])
        (acks ++ Ack.ofOutcome o.entry (m0.entries ++ offered) (.done r c))) := by
  obtain ⟨m, hk, hdev, hstory⟩ := h
  have hkept : ∀ m' c', m' = m ∨ m.Adds o.entry m' → j.Keeps True c0 m' c' →
      Tells j m0 c0 (offered ++ [o.entry]) acks c' := by
    rintro m' c' (rfl | ha) hk'
    · exact ⟨m', hk', hdev, hstory.skip _⟩
    · exact ⟨m', hk', ha.deviceId.trans hdev, ha.entries ▸ hstory.add _⟩
  refine run_sat (A := fun _ => True) _ es ?_ fun _ _ _ _ => trivial
  refine wp_deviceManifestUpsertFile o.built hk hkept (fun m' c' ha _ hk' => ?_) (fun e0 h0 hid hk' => ?_)
    fun _ m' c' hm' hk' => ?_
  · exact ⟨m', hk'.keeps, ha.deviceId.trans hdev, (ha.entries ▸ hstory.add o.entry).ack (Or.inl (by simp [ha.entries]))⟩
  · cases hmatch : e0.matchesKey o.entry.key with
    | true =>
      exact ⟨m, hk, hdev, (hstory.skip o.entry).ack (Or.inr ⟨e0, h0, hstory.mem h0, hid, hmatch⟩)⟩
    | false => simpa [Ack.ofOutcome] using hkept m c (Or.inl rfl) hk
  · simpa [Ack.ofOutcome] using hkept m' c' hm' hk'

theorem Tells.recover (h : Tells j m0 c0 offered acks c) (deviceId : Bytes) (es : List (Event Fault)) :
    (device.run (deviceManifestRecoverTmp j.manifest j.tmp deviceId) es c).Sat (Tells j m0 c0 offered acks)
      (fun _ => Tells j m0 c0 offered acks) := by
  obtain ⟨m, hk, hdev, hstory⟩ := h
  refine run_sat (A := fun _ => True) _ es ?_ fun _ _ _ _ => trivial
  exact wp_deviceManifestRecoverTmp hk (fun c' h => ⟨m, h, hdev, hstory⟩)
    (fun _ c' h => ⟨m, h.attached.keeps, hdev, hstory⟩) fun _ c' h => ⟨m, h, hdev, hstory⟩

theorem ManifestReach.tells (hstart : j.Settled c0 m0 c0) (h : ManifestReach j m0 c0 offered acks c) :
    Tells j m0 c0 offered acks c := by
  induction h with
  | start => exact ⟨m0, hstart.attached.keeps, rfl, Story.start m0⟩
  | upsert h o es hrun ih =>
    have hsat := ih.upsert o es
    rw [hrun] at hsat
    rename_i out
    cases out with
    | done r s => cases r <;> exact hsat
    | cut s => simpa [Ack.ofOutcome, Outcome.state] using hsat
  | recover h deviceId es hrun ih =>
    have hsat := ih.recover deviceId es
    rw [hrun] at hsat
    rename_i out
    cases out <;> exact hsat

/-- At every moment of every history the manifest or its backup is a complete snapshot that tells the story, and a
fault-free recovery then leaves such a snapshot as the manifest, alone. -/
theorem reach_recoverable (hF : c0.vol.lookup j.manifest = some (.file m0.render)) (hT : c0.vol.lookup j.tmp = none)
    (hB : c0.vol.lookup j.backup = none) (h : ManifestReach j m0 c0 offered acks c) :
    (∃ m : Manifest, (c.vol.lookup j.manifest = some (.file m.render) ∨ c.vol.lookup j.backup = some (.file m.render)) ∧
      m.deviceId = m0.deviceId ∧ Story m0 offered acks m.entries) ∧
    (device.eval (deviceManifestRecoverTmp j.manifest j.tmp m0.deviceId) c).1 = true ∧
    ∃ m : Manifest, j.Settled c0 m (device.eval (deviceManifestRecoverTmp j.manifest j.tmp m0.deviceId) c).2 ∧
      m.deviceId = m0.deviceId ∧ Story m0 offered acks m.entries := by
  obtain ⟨m, hk, hdev, hstory⟩ := h.tells (ManifestPaths.settled_self hF hT hB)
  refine ⟨⟨m, ?_, hdev, hstory⟩, ?_⟩
  · obtain ⟨f, t, b, hat, hj⟩ := hk
    cases hj with
    | attached => exact Or.inl hat.manifest
    | detached => exact Or.inr hat.backup
  · have hnofault : ¬ IoFault fun _ => False := fun ⟨_, _, h⟩ => h
    have hwp : device.wp (fun _ => False) (fun _ => True) (deviceManifestRecoverTmp j.manifest j.tmp m0.deviceId)
        (fun r c' => r = true ∧ j.Settled c0 m c') c :=
      wp_deviceManifestRecoverTmp hk (fun _ _ => trivial) (fun _ c' h => ⟨rfl, h⟩)
        fun hwhy => absurd hwhy (by simp [hnofault, hdev])
    have hrec := eval_sat _ hwp
    exact ⟨hrec.1, m, hrec.2, hdev, hstory⟩

section Sample

def sampleId : Bytes := lit "1b4e28ba-2fa1-41d2-883f-0016d3cca427"

def sampleStamp : Bytes := lit "2025-06-01T10:15:00+00:00"

def sampleEntry : Entry where
  recordingId := sampleId
  filename := lit "recordings/2025-06-01/101500_1b4e28ba-2fa1-41d2-883f-0016d3cca427.wav"
  startedAt := sampleStamp
  durationMs := 1024
  sizeBytes := 32812
  sha256 := lit "e3b0c44298fc1c149afbf4c8996fb92427ae41e4649b934ca495991b7852b855"
  state := stateFinalized
  firmwareVersion := firmwareVersion

theorem sampleId_uuid : isValidUuid sampleId = true := by
  rw [sampleId, lit_ofList]
  with_unfolding_all decide

theorem sampleStamp_valid : isValidIso8601Offset sampleStamp = true := by
  rw [sampleStamp, lit_ofList]
  with_unfolding_all decide

theorem sampleEntry_valid : sampleEntry.Valid where
  recordingId := sampleId_uuid
  filename := by
    rw [sampleEntry, lit_ofList]
    with_unfolding_all decide
  startedAt := sampleStamp_valid
  duration_lt := by decide
  size_lt := by decide
  header := by decide
  sha256 := by
    rw [sampleEntry, lit_ofList, lit_ofList]
    with_unfolding_all decide
  state := Or.inl rfl
  firmwareVersion := by with_unfolding_all decide
  consistent := by decide

/-- A manifest with one entry. -/
def sampleManifest : Manifest where
  deviceId := sampleId
  updatedAt := sampleStamp
  entries := [sampleEntry]
  deviceId_plain := uuid_plain sampleId_uuid
  updatedAt_valid := sampleStamp_valid
  entries_valid := by simpa using sampleEntry_valid
  ids_nodup := by simp
  deviceId_uuid := sampleId_uuid
  fits := (document_length sampleId_uuid sampleStamp_valid (by simpa using sampleEntry_valid.toBuilt)).trans (by decide)

/-- A card with that manifest. -/
def sampleCard : Card where
  vol := (AList.insert m5daylogDir .dir ∅).insert manifestPath (.file sampleManifest.render)
  dirFailed := false

theorem sampleCard_lookup (p : Path) : sampleCard.vol.lookup p =
    if p = manifestPath then some (.file sampleManifest.render) else if p = m5daylogDir then some .dir else none := by
  unfold sampleCard
  split
  case isTrue h => rw [h, AList.lookup_insert]
  case isFalse h =>
    rw [AList.lookup_insert_ne h]
    split
    case isTrue h' => rw [h', AList.lookup_insert]
    case isFalse h' => rw [AList.lookup_insert_ne h', AList.lookup_empty]

/-- The same recording offered again, as one that recovery has repaired. -/
def sampleRetry : Offer where
  deviceId := sampleId
  updatedAt := sampleStamp
  entry := { sampleEntry with state := stateRecovered }
  built := { sampleEntry_valid.toBuilt with state := Or.inr rfl }

/-- The production paths are all different. -/
theorem productionPaths_ne : manifestTmpPath ≠ manifestPath ∧ manifestTmpPath ≠ m5daylogDir ∧
    lit "/sdcard/M5DAYLOG/manifest.json.bak" ≠ manifestPath ∧ lit "/sdcard/M5DAYLOG/manifest.json.bak" ≠ m5daylogDir ∧
    m5daylogDir ≠ manifestPath := by
  rw [manifestTmpPath, manifestPath, m5daylogDir, lit_ofList, lit_ofList, lit_ofList, lit_ofList]
  with_unfolding_all decide

theorem sampleCard_settled : ManifestPaths.production.Settled sampleCard sampleManifest sampleCard := by
  apply ManifestPaths.settled_self <;> rw [sampleCard_lookup] <;> simp [ManifestPaths.production, productionPaths_ne]

theorem sampleRetry_accepted : sampleManifest.Accepts .production sampleCard sampleId sampleStamp sampleRetry.entry where
  attached := sampleCard_settled.manifest
  parent := by
    have hdir : dirname manifestTmpPath = m5daylogDir := by with_unfolding_all decide
    simp [Card.isDir, ManifestPaths.production, hdir, sampleCard_lookup, productionPaths_ne]
  deviceId := rfl
  stamp := sampleStamp_valid
  consistent := by decide
  fits := (document_length sampleId_uuid sampleStamp_valid fun e h => by
    rcases List.mem_append.mp h with h | h
    · exact (sampleManifest.entries_valid e h).toBuilt
    · exact List.mem_singleton.mp h ▸ sampleRetry.built).trans (by decide)

/-- Offering it succeeds and changes nothing. -/
theorem sampleRetry_ok : device.run (deviceManifestUpsertFile manifestPath manifestTmpPath sampleId sampleStamp
    sampleRetry.entry.render) [] sampleCard = .done .ok sampleCard := by
  have hwp : device.wp (fun _ => False) (fun _ => True)
      (deviceManifestUpsertFile ManifestPaths.production.manifest ManifestPaths.production.tmp sampleId sampleStamp
        sampleRetry.entry.render) (fun r c => r = .ok ∧ c = sampleCard) sampleCard := by
    refine wp_deviceManifestUpsertFile sampleRetry.built (sampleCard_settled.attached : ManifestPaths.production.Attached True _ _ _).keeps (fun _ _ _ _ => trivial)
      (fun m' c' ha _ _ => ?_) (fun e0 h0 _ _ => ?_) fun hwhy => absurd hwhy ?_
    · -- its id is taken
      have hids := m'.ids_nodup
      simp [ha.entries, sampleManifest, sampleRetry] at hids
    · obtain rfl : e0 = sampleEntry := by simpa [sampleManifest] using h0
      have hcompat := startTimesCompatible_self sampleStamp_valid
      simp [Entry.matchesKey, Entry.key, sampleRetry, sampleEntry, hcompat]
    · simp [IoFault, sampleRetry_accepted]
  obtain ⟨h1, h2⟩ := eval_sat _ hwp
  rw [run_nil]
  exact congrArg₂ Outcome.done h1 h2

theorem sampleRetry_reach : ManifestReach .production sampleManifest sampleCard [sampleRetry.entry]
    [⟨sampleRetry.entry, [sampleEntry]⟩] sampleCard := by
  have h := ManifestReach.upsert (j := .production) (.start : ManifestReach _ sampleManifest sampleCard _ _ _) sampleRetry [] sampleRetry_ok
  exact h

/-- An upsert can return OK without its entry being stored: the recording was there under another state. -/
theorem reach_retry_unstored : ManifestPaths.production.Settled sampleCard sampleManifest sampleCard ∧
    ManifestReach .production sampleManifest sampleCard [sampleRetry.entry] [⟨sampleRetry.entry, [sampleEntry]⟩] sampleCard ∧
    ∀ m : Manifest, (sampleCard.vol.lookup manifestPath = some (.file m.render) ∨
      sampleCard.vol.lookup (manifestPath ++ lit ".bak") = some (.file m.render)) → sampleRetry.entry ∉ m.entries := by
  refine ⟨sampleCard_settled, sampleRetry_reach, fun m hm => ?_⟩
  have hback : ManifestPaths.production.backup = manifestPath ++ lit ".bak" := ManifestPaths.production.backup_append
  rw [← hback, sampleCard_settled.backup] at hm
  have hm' : sampleCard.vol.lookup manifestPath = some (.file m.render) := hm.resolve_right (by simp)
  have hfile : some (Node.file sampleManifest.render) = some (Node.file m.render) :=
    sampleCard_settled.manifest.symm.trans hm'
  have hentries : m.entries = sampleManifest.entries :=
    Snapshot.render_entries (Node.file.inj (Option.some.inj hfile)).symm
  have hstate : stateRecovered ≠ stateFinalized := by with_unfolding_all decide
  simp [hentries, sampleManifest, sampleRetry, Entry.mk.injEq, sampleEntry, hstate]

theorem reach_recoverable_retry : (∃ m : Manifest, (sampleCard.vol.lookup manifestPath = some (.file m.render) ∨
      sampleCard.vol.lookup ManifestPaths.production.backup = some (.file m.render)) ∧ m.deviceId = sampleId ∧
      Story sampleManifest [sampleRetry.entry] [⟨sampleRetry.entry, [sampleEntry]⟩] m.entries) ∧
    (device.eval (deviceManifestRecoverTmp manifestPath manifestTmpPath sampleId) sampleCard).1 = true ∧
    ∃ m : Manifest, ManifestPaths.production.Settled sampleCard m
        (device.eval (deviceManifestRecoverTmp manifestPath manifestTmpPath sampleId) sampleCard).2 ∧
      m.deviceId = sampleId ∧ Story sampleManifest [sampleRetry.entry] [⟨sampleRetry.entry, [sampleEntry]⟩] m.entries :=
  reach_recoverable (j := .production) sampleCard_settled.manifest sampleCard_settled.tmp sampleCard_settled.backup
    sampleRetry_reach

end Sample

end Histories

end M5DayLog
