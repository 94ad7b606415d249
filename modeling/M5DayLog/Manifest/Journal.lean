import M5DayLog.Manifest.Upsert

/-! The three files of the manifest transaction as one journal. At every moment one snapshot is authoritative: it
is the manifest, or, while the manifest is renamed away, its backup. Each program of the transaction is specified
by what it does to that snapshot. -/

namespace M5DayLog

open Bytes Fat Device

variable {A : Fault → Prop} {C : Card → Prop} {c c0 : Card}

/-- A snapshot that the firmware can have committed. -/
structure Manifest extends Snapshot where
  deviceId_uuid : isValidUuid deviceId = true
  fits : toSnapshot.render.length ≤ manifestMaxBytes

/-- The paths of the manifest, its temporary file and its backup. -/
structure ManifestPaths where
  manifest : Path
  tmp : Path
  backup : Path
  backup_eq : manifestBackupPath manifest = some backup
  manifest_ne : manifest ≠ []
  tmp_ne : tmp ≠ []
  tmp_ne_manifest : tmp ≠ manifest
  tmp_ne_backup : tmp ≠ backup

namespace ManifestPaths

variable (j : ManifestPaths)

theorem backup_append : j.backup = j.manifest ++ lit ".bak" := by
  have h := j.backup_eq
  unfold manifestBackupPath at h
  dsimp only at h
  rw [Option.ite_none_right_eq_some] at h
  exact (Option.some.inj h.2).symm

theorem backup_ne_manifest : j.backup ≠ j.manifest := by
  intro h
  have h4 : (lit ".bak").length = 4 := by with_unfolding_all decide
  have := congrArg List.length (j.backup_append.symm.trans h)
  rw [List.length_append] at this
  omega

theorem backup_ne : j.backup ≠ [] := by
  rw [j.backup_append]
  simp [j.manifest_ne]

@[simp] theorem ne_simps : (j.manifest = j.tmp) = False ∧ (j.tmp = j.manifest) = False ∧ (j.tmp = j.backup) = False ∧
    (j.backup = j.tmp) = False ∧ (j.backup = j.manifest) = False ∧ (j.manifest = j.backup) = False := by
  simp [j.tmp_ne_manifest, j.tmp_ne_manifest.symm, j.tmp_ne_backup, j.tmp_ne_backup.symm, j.backup_ne_manifest,
    j.backup_ne_manifest.symm]

/-- The paths of the production firmware. -/
def production : ManifestPaths where
  manifest := manifestPath
  tmp := manifestTmpPath
  backup := lit "/sdcard/M5DAYLOG/manifest.json.bak"
  backup_eq := by with_unfolding_all decide
  manifest_ne := by with_unfolding_all decide
  tmp_ne := by with_unfolding_all decide
  tmp_ne_manifest := by with_unfolding_all decide
  tmp_ne_backup := by with_unfolding_all decide

/-- The three files are `f`, `t` and `b`, and everything else on the card is as in `c0`. -/
structure At (c0 : Card) (f t b : Option Node) (c : Card) : Prop where
  manifest : c.vol.lookup j.manifest = f
  tmp : c.vol.lookup j.tmp = t
  backup : c.vol.lookup j.backup = b
  frame : ∀ p, p ≠ j.manifest → p ≠ j.tmp → p ≠ j.backup → c.vol.lookup p = c0.vol.lookup p
  dirFailed : c.dirFailed = c0.dirFailed

section Moves

variable {j} {f t b : Option Node} {n : Node} (h : j.At c0 f t b c)
include h

theorem At.put_tmp : j.At c0 f (some n) b (c.put j.tmp n) where
  manifest := by simp [h.manifest]
  tmp := by simp
  backup := by simp [h.backup]
  frame p h1 h2 h3 := by simp [h.frame p h1 h2 h3, h2]
  dirFailed := h.dirFailed

theorem At.del_tmp : j.At c0 f none b (c.del j.tmp) where
  manifest := by simp [h.manifest]
  tmp := by simp
  backup := by simp [h.backup]
  frame p h1 h2 h3 := by simp [h.frame p h1 h2 h3, h2]
  dirFailed := h.dirFailed

theorem At.del_backup : j.At c0 f t none (c.del j.backup) where
  manifest := by simp [h.manifest]
  tmp := by simp [h.tmp]
  backup := by simp
  frame p h1 h2 h3 := by simp [h.frame p h1 h2 h3, h3]
  dirFailed := h.dirFailed

theorem At.tmp_to_manifest : j.At c0 (some n) none b (c.move j.tmp j.manifest n) where
  manifest := by simp
  tmp := by simp
  backup := by simp [h.backup]
  frame p h1 h2 h3 := by simp [h.frame p h1 h2 h3, h1, h2]
  dirFailed := h.dirFailed

theorem At.manifest_to_backup : j.At c0 none t (some n) (c.move j.manifest j.backup n) where
  manifest := by simp
  tmp := by simp [h.tmp]
  backup := by simp
  frame p h1 h2 h3 := by simp [h.frame p h1 h2 h3, h1, h3]
  dirFailed := h.dirFailed

theorem At.backup_to_manifest : j.At c0 (some n) t none (c.move j.backup j.manifest n) where
  manifest := by simp
  tmp := by simp [h.tmp]
  backup := by simp
  frame p h1 h2 h3 := by simp [h.frame p h1 h2 h3, h1, h3]
  dirFailed := h.dirFailed

end Moves

end ManifestPaths

section Reads

/-- The file a bounded read gives back. -/
def boundedFile (c : Card) (path : Path) (maxBytes : ℕ) : Option Bytes :=
  if path = [] ∨ maxBytes = 0 then none else (c.file? path).filter (·.length ≤ maxBytes)

/-- A bounded read gives the file back, or fails under an I/O fault. -/
theorem wp_readFileBounded {path : Path} {maxBytes : ℕ} {Q : Option Bytes → Card → Prop} (hC : C c)
    (h : Q (boundedFile c path maxBytes) c) (hf : IoFault A → Q none c) :
    device.wp A C (readFileBounded path maxBytes) Q c := by
  unfold readFileBounded
  unfold boundedFile at h
  split
  case isTrue hp =>
    rw [if_pos hp] at h
    exact h
  case isFalse hp =>
    rw [if_neg hp] at h
    rw [wp_bind]
    refine wp_stat hC ?_ fun hA _ => hf hA
    cases hl : c.vol.lookup path with
    | none => simpa [Card.statAns, Card.file?, hl] using h
    | some n =>
      cases n with
      | dir =>
        -- a directory has size 0 and cannot be opened as a file
        simp only [Card.statAns, hl]
        rw [if_neg (by omega), wp_bind]
        refine wp_malloc hC ?_ hf
        simp only [Bool.not_true, Bool.false_eq_true, if_false]
        rw [wp_bind]
        refine wp_fopen hC ?_ hf
        simpa [Card.openAns, Card.file?, hl] using h
      | file b =>
        have hfile : c.file? path = some b := Card.file?_eq_some.mpr hl
        simp only [Card.statAns, hl]
        rw [hfile] at h
        split
        case isTrue hlen =>
          rw [Option.filter_some, if_neg (by simpa using hlen)] at h
          exact h
        case isFalse hlen =>
          rw [Option.filter_some, if_pos (by simpa using hlen)] at h
          rw [wp_bind]
          refine wp_malloc hC ?_ hf
          simp only [Bool.not_true, Bool.false_eq_true, if_false]
          rw [wp_bind]
          refine wp_fopen hC ?_ hf
          simp only [Card.openAns, hfile, Option.isSome_some, Bool.not_true, Bool.false_eq_true, if_false]
          rw [wp_bind]
          refine wp_fread hC ?_ fun hA k => ?_
          · rw [wp_bind]
            refine wp_fclose hC ?_ fun hA => by simpa using hf hA
            simpa [hfile] using h
          · rw [wp_bind]
            refine wp_fclose hC ?_ fun hA => by simpa using hf hA
            rcases b with _ | ⟨x, b⟩
            · simpa [hfile] using h
            · -- an error leaves the buffer short of the file
              rw [if_pos]
              · exact hf hA
              · refine Or.inr fun he => ?_
                simp only [hfile, Option.getD_some, List.drop_zero, List.length_take, List.length_cons] at he
                omega

variable {path candidate old : Path} {dev : Bytes}

def fileValid (c : Card) (path : Path) (dev : Bytes) : Bool :=
  (boundedFile c path manifestMaxBytes).any (manifestSnapshotValid · dev)

theorem wp_manifestFileValid {Q : Bool → Card → Prop} (hC : C c) (h : Q (fileValid c path dev) c)
    (hf : IoFault A → Q false c) : device.wp A C (manifestFileValid path dev) Q c := by
  unfold manifestFileValid
  rw [wp_bind]
  refine wp_readFileBounded hC ?_ hf
  unfold fileValid at h
  split <;> simpa [*] using h

def fileExtends (c : Card) (candidate old : Path) (dev : Bytes) : Bool :=
  match boundedFile c candidate manifestMaxBytes, boundedFile c old manifestMaxBytes with
  | some newDoc, some oldDoc => manifestSnapshotValid newDoc dev && manifestSnapshotValid oldDoc dev &&
      manifestDocExtends newDoc oldDoc
  | _, _ => false

theorem wp_manifestFileExtends {Q : Bool → Card → Prop} (hC : C c) (h : Q (fileExtends c candidate old dev) c)
    (hf : IoFault A → Q false c) : device.wp A C (manifestFileExtends candidate old dev) Q c := by
  unfold manifestFileExtends
  rw [wp_bind]
  refine wp_readFileBounded hC ?_ hf
  unfold fileExtends at h
  cases hnew : boundedFile c candidate manifestMaxBytes with
  | none => simpa [hnew] using h
  | some newDoc =>
    rw [wp_bind]
    refine wp_readFileBounded hC ?_ hf
    cases hold : boundedFile c old manifestMaxBytes with
    | none => simpa [hnew, hold] using h
    | some oldDoc => simpa [hnew, hold] using h

variable {m m' : Manifest} {p q : Path}

theorem boundedFile_manifest (h : c.vol.lookup p = some (.file m.render)) (hp : p ≠ []) :
    boundedFile c p manifestMaxBytes = some m.render := by
  have hfit := m.fits
  rw [boundedFile, if_neg (by simp [hp, manifestMaxBytes]), Card.file?_eq_some.mpr h, Option.filter_some, if_pos]
  simpa using hfit

theorem boundedFile_absent (h : c.vol.lookup p = none) : boundedFile c p manifestMaxBytes = none := by
  simp [boundedFile, Card.file?, h]

/-- The device id can be read off a snapshot's text. -/
theorem Snapshot.render_deviceId {s s' : Snapshot} (h : s.render = s'.render) : s.deviceId = s'.deviceId := by
  unfold Snapshot.render document header at h
  simp only [List.append_assoc, quoted, List.cons_append, List.append_cancel_left_eq, List.cons.injEq, true_and] at h
  exact (quiet_append_quote_eq (plain_quiet s.deviceId_plain) (plain_quiet s'.deviceId_plain) h).1

theorem Snapshot.render_entries {s s' : Snapshot} (h : s.render = s'.render) : s.entries = s'.entries := by
  have h1 := manifestSnapshot_render s
  rw [h, render_deviceId h, manifestSnapshot_render s'] at h1
  exact (Prod.mk.inj (Option.some.inj h1)).2.symm

theorem render_valid : manifestSnapshotValid m.render dev = decide (dev = m.deviceId) := by
  rw [Bool.eq_iff_iff, manifestSnapshotValid_iff, decide_eq_true_eq]
  constructor
  · rintro ⟨s, rfl, hs⟩
    exact (Snapshot.render_deviceId hs).symm
  · rintro rfl
    exact ⟨m.toSnapshot, rfl, rfl⟩

/-- A document that the firmware reads as valid is a manifest it can have committed. -/
theorem manifest_of_valid {doc : Bytes} (huuid : isValidUuid dev = true)
    (h : boundedFile c path manifestMaxBytes = some doc) (hv : manifestSnapshotValid doc dev = true) :
    ∃ m : Manifest, m.deviceId = dev ∧ c.vol.lookup path = some (.file m.render) := by
  obtain ⟨s, rfl, rfl⟩ := manifestSnapshotValid_iff.mp hv
  unfold boundedFile at h
  split at h
  · exact absurd h (by simp)
  · obtain ⟨hfile, hlen⟩ := Option.filter_eq_some_iff.mp h
    exact ⟨⟨s, huuid, by simpa using hlen⟩, rfl, Card.file?_eq_some.mp hfile⟩

theorem fileValid_manifest (h : c.vol.lookup p = some (.file m.render)) (hp : p ≠ []) :
    fileValid c p dev = decide (dev = m.deviceId) := by
  rw [fileValid, boundedFile_manifest h hp, Option.any_some, render_valid]

theorem fileExtends_manifest (hnew : c.vol.lookup p = some (.file m'.render)) (hp : p ≠ [])
    (hold : c.vol.lookup q = some (.file m.render)) (hq : q ≠ []) (hdev : m'.deviceId = m.deviceId)
    (h : m.entries <+: m'.entries) : fileExtends c p q m.deviceId = true := by
  have hext := (manifestDocExtends_document m.deviceId_plain m.updatedAt_valid m.entries_valid m'.deviceId_plain
    m'.updatedAt_valid m'.entries_valid).mpr h
  simp only [fileExtends, boundedFile_manifest hnew hp, boundedFile_manifest hold hq, render_valid, hdev, decide_true,
    Bool.true_and]
  exact hext

theorem file_of_fileExtends {n : Node} (h : fileExtends c p q dev = true) (hq : c.vol.lookup q = some n) :
    ∃ d, n = .file d := by
  cases n with
  | file d => exact ⟨d, rfl⟩
  | dir => simp [fileExtends, boundedFile, Card.file?, hq] at h

theorem fileExtends_absent (h : c.vol.lookup p = none) : fileExtends c p q dev = false := by
  simp [fileExtends, boundedFile_absent h]

end Reads

/-- A backup that the next append may drop: none, or the text of a snapshot that `m` extends. -/
def Retirable (m : Manifest) (b : Option Node) : Prop :=
  b = none ∨ ∃ old : Manifest, b = some (.file old.render) ∧ m.deviceId = old.deviceId ∧ old.entries <+: m.entries

/-- The files of the journal that leave `m` authoritative: the manifest is in place, or its backup alone holds it. In a
`tidy` journal the temporary file is no directory and the backup of a manifest in place is one that it extends. -/
inductive Journal (tidy : Prop) (m : Manifest) : Option Node → Option Node → Option Node → Prop
  | attached (t b : Option Node) (ht : tidy → t ≠ some .dir) (hb : tidy → Retirable m b) :
    Journal tidy m (some (.file m.render)) t b
  | detached (t : Option Node) (ht : tidy → t ≠ some .dir) : Journal tidy m none t (some (.file m.render))

namespace ManifestPaths

variable {j : ManifestPaths} {tidy : Prop} {m : Manifest}

theorem At.isDir_eq {c' : Card} {f t b b' : Option Node} (h : j.At c0 f t b c) (h' : j.At c0 f t b' c')
    (hb : b ≠ some .dir) (hb' : b' ≠ some .dir) (p : Path) : c.isDir p = c'.isDir p := by
  unfold Card.isDir
  by_cases h1 : p = j.manifest
  · rw [h1, h.manifest, h'.manifest]
  · by_cases h2 : p = j.tmp
    · rw [h2, h.tmp, h'.tmp]
    · by_cases h3 : p = j.backup
      · rw [h3, h.backup, h'.backup]
        simp [hb, hb']
      · rw [h.frame p h1 h2 h3, h'.frame p h1 h2 h3]

/-- The journal keeps `m`, and everything else on the card is as in `c0`. -/
def Keeps (j : ManifestPaths) (tidy : Prop) (c0 : Card) (m : Manifest) (c : Card) : Prop :=
  ∃ f t b, j.At c0 f t b c ∧ Journal tidy m f t b

/-- The journal keeps `m`, and the manifest is in place. -/
def Attached (j : ManifestPaths) (tidy : Prop) (c0 : Card) (m : Manifest) (c : Card) : Prop :=
  ∃ t b, j.At c0 (some (.file m.render)) t b c ∧ (tidy → t ≠ some .dir) ∧ (tidy → Retirable m b)

/-- The manifest holds `m` and no other journal file is left. -/
def Settled (j : ManifestPaths) (c0 : Card) (m : Manifest) (c : Card) : Prop :=
  j.At c0 (some (.file m.render)) none none c

theorem Attached.keeps (h : j.Attached tidy c0 m c) : j.Keeps tidy c0 m c := by
  obtain ⟨t, b, hat, ht, hb⟩ := h
  exact ⟨_, t, b, hat, .attached t b ht hb⟩

theorem Attached.lookup (h : j.Attached tidy c0 m c) : c.vol.lookup j.manifest = some (.file m.render) := by
  obtain ⟨t, b, hat, -, -⟩ := h
  exact hat.manifest

theorem Settled.attached (h : j.Settled c0 m c) : j.Attached tidy c0 m c :=
  ⟨none, none, h, by simp, fun _ => Or.inl rfl⟩

theorem settled_self (hf : c.vol.lookup j.manifest = some (.file m.render))
    (ht : c.vol.lookup j.tmp = none) (hb : c.vol.lookup j.backup = none) : j.Settled c m c :=
  ⟨hf, ht, hb, fun _ _ _ _ => rfl, rfl⟩

theorem Keeps.attached (h : j.Keeps tidy c0 m c) (hfile : c.vol.lookup j.manifest = some (.file m.render)) :
    j.Attached tidy c0 m c := by
  obtain ⟨f, t, b, hat, hj⟩ := h
  cases hj with
  | attached t b ht hb => exact ⟨t, b, hat, ht, hb⟩
  | detached t ht => exact absurd (hat.manifest.symm.trans hfile) (by simp)

theorem Keeps.lookup (h : j.Keeps tidy c0 m c) :
    c.vol.lookup j.manifest = some (.file m.render) ∨ c.vol.lookup j.manifest = none := by
  obtain ⟨f, t, b, hat, hj⟩ := h
  cases hj with
  | attached => exact Or.inl hat.manifest
  | detached => exact Or.inr hat.manifest

end ManifestPaths

section Append

variable {j : ManifestPaths} {tidy : Prop} {m m' : Manifest}

/-- A backup is dropped exactly when the manifest extends it. -/
theorem wp_retireBackup {t b : Option Node} {Q : Bool → Card → Prop}
    (hc : j.At c0 (some (.file m.render)) t b c) (hC : C c)
    (hok : b ≠ some .dir → ∀ c', j.At c0 (some (.file m.render)) t none c' → Q true c')
    (hf : IoFault A ∨ ¬ Retirable m b → Q false c) :
    device.wp A C (retireBackup j.manifest j.backup m.deviceId) Q c := by
  unfold retireBackup
  rw [wp_bind]
  refine wp_stat hC ?_ fun hA code => by simpa using hf (Or.inl hA)
  rcases b with _ | n
  · simpa [Card.statAns, hc.backup] using hok (by simp) c hc
  · have hstat : ∃ st, c.statAns j.backup = .ok st := by cases n <;> simp [Card.statAns, hc.backup]
    obtain ⟨st, hst⟩ := hstat
    rw [hst]
    simp only
    rw [wp_bind]
    refine wp_manifestFileExtends hC ?_ fun hA => hf (Or.inl hA)
    cases hext : fileExtends c j.manifest j.backup m.deviceId with
    | false =>
      refine hf (Or.inr ?_)
      rintro (h | ⟨old, h, hdev, hpre⟩)
      · exact absurd h (by simp)
      · obtain rfl := Option.some.inj h
        rw [hdev, fileExtends_manifest hc.manifest j.manifest_ne hc.backup j.backup_ne hdev hpre] at hext
        exact absurd hext (by simp)
    | true =>
      obtain ⟨d, rfl⟩ := file_of_fileExtends hext hc.backup
      simp only [Bool.not_true, Bool.false_eq_true, if_false]
      rw [wp_bind]
      refine wp_remove hC ?_ fun hA code => hf (Or.inl hA)
      simpa [Card.removeAns, hc.backup] using hok (by simp) _ hc.del_backup

theorem wp_retireBackup_detached {t : Option Node} {dev : Bytes} {Q : Bool → Card → Prop}
    (hc : j.At c0 none t (some (.file m.render)) c) (hC : C c) (hQ : Q false c) :
    device.wp A C (retireBackup j.manifest j.backup dev) Q c := by
  unfold retireBackup
  rw [wp_bind]
  refine wp_stat hC ?_ fun hA code => by simpa using hQ
  simp only [Card.statAns, hc.backup]
  rw [wp_bind]
  refine wp_manifestFileExtends hC ?_ fun _ => by simpa using hQ
  simpa [fileExtends_absent hc.manifest] using hQ

/-- The temporary file ends with the whole document, or holds some prefix of it, or is removed again. -/
theorem wp_writeTmp {f t b : Option Node} {doc : Bytes} {Q : Bool → Card → Prop} (hc : j.At c0 f t b c)
    (hC : ∀ c' t', (t ≠ some .dir → t' ≠ some .dir) → j.At c0 f t' b c' → C c')
    (hok : ∀ c', j.At c0 f (some (.file doc)) b c' → Q true c')
    (hf : IoFault A ∨ c.isDir (dirname j.tmp) = false ∨ t = some .dir →
      ∀ c' t', (t ≠ some .dir → t' ≠ some .dir) → j.At c0 f t' b c' → Q false c') :
    device.wp A C (writeTmp j.tmp doc) Q c := by
  unfold writeTmp
  rw [wp_bind]
  refine wp_fopen (hC c t id hc) ?_ fun hA => by simpa using hf (Or.inl hA) c t id hc
  by_cases ht : t = some .dir
  · have hdir : c.isDir j.tmp = true := by simp [Card.isDir, hc.tmp, ht]
    simpa [Card.openAns, hdir] using hf (Or.inr (Or.inr ht)) c t id hc
  have hdir : c.isDir j.tmp = false := by simp [Card.isDir, hc.tmp, ht]
  cases hparent : c.isDir (dirname j.tmp) with
  | false => simpa [Card.openAns, hparent] using hf (Or.inr (Or.inl hparent)) c t id hc
  | true =>
    simp only [Card.openAns, hdir, hparent, Bool.false_eq_true, not_true_eq_false, or_self, if_false, Bool.not_true]
    set c1 := c.put j.tmp (.file [])
    have hc1 : j.At c0 f (some (.file [])) b c1 := hc.put_tmp
    have hw : ∀ n, j.At c0 f (some (.file (doc.take n))) b (c1.writeAt j.tmp 0 doc n) := by
      intro n
      rw [Card.writeAt_new hc1.tmp]
      exact hc1.put_tmp
    -- after the write only the temporary file can still change
    have hclose : ∀ synced d c', j.At c0 f (some (.file d)) b c' → (synced = true → d = doc) →
        (synced = false → IoFault A) → device.wp A C (do
          let closed ← fclose j.tmp
          if !synced ∨ !closed then
            let _ ← remove j.tmp
            return false
          else return true) Q c' := by
      intro synced d c' hc' hd hs
      have hdrop : IoFault A → device.wp A C (do
          let _ ← remove j.tmp
          return false) Q c' := by
        intro hA
        rw [wp_bind]
        refine wp_remove (hC c' _ (by simp) hc') ?_ fun _ _ => hf (Or.inl hA) c' _ (by simp) hc'
        simpa [Card.removeAns, hc'.tmp] using hf (Or.inl hA) _ _ (by simp) hc'.del_tmp
      rw [wp_bind]
      refine wp_fclose (hC c' _ (by simp) hc') ?_ fun hA => by simpa using hdrop hA
      cases synced with
      | false => simpa using hdrop (hs rfl)
      | true =>
        obtain rfl := hd rfl
        simpa using hok c' hc'
    -- a short write, a failed flush or a failed sync all lead to the close above
    have hsync : ∀ wrote d c', j.At c0 f (some (.file d)) b c' → (wrote = doc.length → d = doc) →
        (wrote ≠ doc.length → IoFault A) → device.wp A C (do
          let flushed ← if wrote ≠ doc.length then pure false else fflush j.tmp
          let synced ← if !flushed then pure false else fsync j.tmp
          let closed ← fclose j.tmp
          if !synced ∨ !closed then
            let _ ← remove j.tmp
            return false
          else return true) Q c' := by
      intro wrote d c' hc' hd hs
      by_cases hwrote : wrote = doc.length
      · simp only [hwrote, ne_eq, not_true_eq_false, if_false]
        rw [wp_bind]
        refine wp_fflush (hC _ _ (by simp) hc') ?_ fun hA => ?_
        · simp only [Bool.not_true, Bool.false_eq_true, if_false]
          rw [wp_bind]
          refine wp_fsync (hC _ _ (by simp) hc') ?_ fun hA => ?_
          · exact hclose true d c' hc' (fun _ => hd hwrote) (by simp)
          · exact hclose false d c' hc' (by simp) fun _ => hA
        · simp only [Bool.not_false, if_true, Prog.pure_eq, Prog.bind_ret]
          exact hclose false d c' hc' (by simp) fun _ => hA
      · simp only [ne_eq, hwrote, not_false_eq_true, if_true, Prog.pure_eq, Prog.bind_ret, Bool.not_false]
        exact hclose false d c' hc' (by simp) fun _ => hs hwrote
    rw [wp_bind]
    refine wp_fwrite (fun n => hC _ _ (by simp) (hw n)) ?_ fun hA n hn => ?_
    · refine hsync _ _ _ (hw _) (fun _ => List.take_length) (by simp)
    · exact hsync n _ _ (hw n) (fun h => by rw [h, List.take_length]) fun _ => hA

/-- Publishing over a manifest in place: at every moment the old or the new snapshot is authoritative. -/
theorem wp_publishTmp {Q : Bool → Card → Prop} (hdev : m'.deviceId = m.deviceId) (hext : m.entries <+: m'.entries)
    (hc : j.At c0 (some (.file m.render)) (some (.file m'.render)) none c)
    (hC : ∀ c', j.Keeps tidy c0 m c' ∨ j.Keeps tidy c0 m' c' → C c') (hok : ∀ c', j.Attached tidy c0 m' c' → Q true c')
    (hf : IoFault A → ∀ c', j.Keeps tidy c0 m c' ∨ j.Keeps tidy c0 m' c' → Q false c') :
    device.wp A C (publishTmp j.tmp j.manifest j.backup m.deviceId true) Q c := by
  have hold : j.Keeps tidy c0 m c := ⟨_, _, _, hc, .attached _ _ (by simp) fun _ => Or.inl rfl⟩
  unfold publishTmp
  rw [wp_bind]
  refine wp_rename (hC c (Or.inl hold)) ?_ fun hA code => by simpa using hf hA c (Or.inl hold)
  simp only [Card.renameAns, hc.tmp, hc.manifest, Option.isSome_some, if_true, Bool.not_true, Bool.false_eq_true,
    ne_eq, not_true_eq_false, or_self, if_false]
  rw [wp_bind]
  refine wp_rename (hC c (Or.inl hold)) ?_ fun hA code => by simpa using hf hA c (Or.inl hold)
  simp only [Card.renameAns, hc.manifest, hc.backup, Option.isSome_none, Bool.false_eq_true, if_false]
  -- the manifest is renamed away: its backup is authoritative
  set c1 := c.move j.manifest j.backup (.file m.render)
  have hc1 : j.At c0 none (some (.file m'.render)) (some (.file m.render)) c1 := hc.manifest_to_backup
  have hk1 : j.Keeps tidy c0 m c1 := ⟨_, _, _, hc1, .detached _ (by simp)⟩
  rw [wp_bind]
  refine wp_rename (hC c1 (Or.inl hk1)) ?_ fun hA code => ?_
  · simp only [Card.renameAns, hc1.tmp, hc1.manifest, Option.isSome_none, Bool.false_eq_true, if_false]
    set c2 := c1.move j.tmp j.manifest (.file m'.render)
    have hc2 : j.At c0 (some (.file m'.render)) none (some (.file m.render)) c2 := hc1.tmp_to_manifest
    have ha2 : j.Attached tidy c0 m' c2 := ⟨_, _, hc2, by simp, fun _ => Or.inr ⟨m, rfl, hdev, hext⟩⟩
    have hk2 := ha2.keeps
    refine wp_manifestFileExtends (hC c2 (Or.inr hk2)) ?_ fun hA => hf hA c2 (Or.inr hk2)
    rw [fileExtends_manifest hc2.manifest j.manifest_ne hc2.backup j.backup_ne hdev hext]
    exact hok c2 ha2
  · -- the second rename failed: roll the manifest back
    simp only
    rw [wp_bind]
    refine wp_stat (hC c1 (Or.inl hk1)) ?_ fun _ code => by simpa using hf hA c1 (Or.inl hk1)
    simp only [Card.statAns, hc1.manifest]
    rw [wp_bind]
    refine wp_rename (hC c1 (Or.inl hk1)) ?_ fun _ code => by simpa using hf hA c1 (Or.inl hk1)
    simp only [Card.renameAns, hc1.backup, hc1.manifest, Option.isSome_none, Bool.false_eq_true, if_false, Prog.pure_eq,
      wp_ret]
    exact hf hA _ (Or.inl ⟨_, _, _, hc1.backup_to_manifest, .attached _ _ (by simp) fun _ => Or.inl rfl⟩)

theorem wp_writeTmpAndRename {Q : Bool → Card → Prop} (hdev : m'.deviceId = m.deviceId)
    (hext : m.entries <+: m'.entries) (hc : j.Attached tidy c0 m c)
    (hC : ∀ c', j.Keeps tidy c0 m c' ∨ j.Keeps tidy c0 m' c' → C c') (hok : ∀ c', j.Attached tidy c0 m' c' → Q true c')
    (hf : IoFault A ∨ ¬ tidy ∨ c.isDir (dirname j.tmp) = false → ∀ c', j.Keeps tidy c0 m c' ∨ j.Keeps tidy c0 m' c' → Q false c') :
    device.wp A C (writeTmpAndRename j.tmp j.manifest m'.render) Q c := by
  have hk := hc.keeps
  obtain ⟨t, b, hat, ht, hb⟩ := hc
  have hid : deviceIdentityParseDeviceId m'.render = some m.deviceId := by
    rw [← hdev]
    exact parseDeviceId_document m'.deviceId_uuid m'.updatedAt_valid m'.entries_valid
  unfold writeTmpAndRename
  rw [hid, j.backup_eq]
  simp only [render_valid, hdev, decide_true, Bool.not_true, Bool.false_eq_true, if_false]
  rw [wp_bind]
  refine wp_retireBackup hat (hC c (Or.inl hk)) (fun hbdir c1 hc1 => ?_) fun hwhy => by
    simpa using hf (hwhy.imp_right fun h => Or.inl fun htidy => h (hb htidy)) c (Or.inl hk)
  have hkeep : ∀ c' t', (t ≠ some .dir → t' ≠ some .dir) → j.At c0 (some (.file m.render)) t' none c' →
      j.Keeps tidy c0 m c' :=
    fun c' t' ht' hc' => ⟨_, _, _, hc', .attached t' none (fun h => ht' (ht h)) fun _ => Or.inl rfl⟩
  have hk1 : j.Keeps tidy c0 m c1 := hkeep c1 t id hc1
  simp only [Bool.not_true, Bool.false_eq_true, if_false]
  rw [wp_bind]
  refine wp_stat (hC c1 (Or.inl hk1)) ?_ fun hA code => by
    simpa [Except.toOption] using hf (Or.inl hA) c1 (Or.inl hk1)
  simp only [Card.statAns, hc1.manifest, Except.toOption, Option.isSome_some, Bool.not_true, Bool.false_eq_true,
    false_and, if_false]
  rw [wp_bind]
  refine wp_writeTmp hc1 (fun c' t' ht' hc' => hC c' (Or.inl (hkeep c' t' ht' hc'))) (fun c2 hc2 => ?_)
    fun hwhy c' t' ht' hc' => ?_
  · simp only [Bool.not_true, Bool.false_eq_true, if_false]
    exact wp_publishTmp hdev hext hc2 hC hok fun hA => hf (Or.inl hA)
  · simp only [Bool.not_false, if_true, Prog.pure_eq, wp_ret]
    refine hf ?_ c' (Or.inl (hkeep c' t' ht' hc'))
    rcases hwhy with hA | hparent | hdir
    · exact Or.inl hA
    · exact Or.inr (Or.inr (by rwa [hat.isDir_eq hc1 hbdir (by simp)]))
    · exact Or.inr (Or.inl fun htidy => ht htidy hdir)

theorem wp_writeTmpAndRename_detached {t : Option Node} {doc : Bytes} {Q : Bool → Card → Prop}
    (hc : j.At c0 none t (some (.file m.render)) c) (hC : C c) (hQ : Q false c) :
    device.wp A C (writeTmpAndRename j.tmp j.manifest doc) Q c := by
  unfold writeTmpAndRename
  rw [j.backup_eq]
  cases deviceIdentityParseDeviceId doc with
  | none => exact hQ
  | some dev =>
    simp only
    split
    · exact hQ
    · rw [wp_bind]
      exact wp_retireBackup_detached hc hC hQ

end Append

section Upsert

variable {j : ManifestPaths} {tidy : Prop} {m m' : Manifest} {e : Entry} {deviceId updatedAt : Bytes}

/-- `m'` is `m` with the entry added behind its own. -/
structure Manifest.Adds (m : Manifest) (e : Entry) (m' : Manifest) : Prop where
  deviceId : m'.deviceId = m.deviceId
  entries : m'.entries = m.entries ++ [e]

/-- What an upsert of a new entry needs besides working calls. -/
structure Manifest.Accepts (j : ManifestPaths) (m : Manifest) (c : Card) (deviceId updatedAt : Bytes) (e : Entry) :
    Prop where
  attached : c.vol.lookup j.manifest = some (.file m.render)
  parent : c.isDir (dirname j.tmp) = true
  deviceId : deviceId = m.deviceId
  stamp : isValidIso8601Offset updatedAt = true
  consistent : e.Consistent
  fits : (document m.deviceId updatedAt (m.entries ++ [e])).length ≤ manifestAdmissionCeilingBytes

/-- The manifest with an entry of a new id added. -/
def Manifest.add (m : Manifest) (updatedAt : Bytes) (e : Entry) (hu : isValidIso8601Offset updatedAt = true)
    (he : e.Valid) (hnew : ∀ e' ∈ m.entries, e'.recordingId ≠ e.recordingId)
    (hfit : (document m.deviceId updatedAt (m.entries ++ [e])).length ≤ manifestAdmissionCeilingBytes) : Manifest where
  deviceId := m.deviceId
  updatedAt := updatedAt
  entries := m.entries ++ [e]
  deviceId_plain := m.deviceId_plain
  updatedAt_valid := hu
  entries_valid e' h := by
    rcases List.mem_append.mp h with h | h
    · exact m.entries_valid e' h
    · rwa [List.mem_singleton.mp h]
  ids_nodup := by
    rw [List.map_append, List.nodup_append]
    refine ⟨m.ids_nodup, by simp, ?_⟩
    simp only [List.map_cons, List.map_nil, List.mem_singleton, forall_eq, List.mem_map]
    rintro _ ⟨e', h, rfl⟩
    exact hnew e' h
  deviceId_uuid := m.deviceId_uuid
  fits := hfit.trans (by decide)

/-- While a manifest or its backup is on the card, none is created. -/
theorem wp_upsertMissing {entryJson : Bytes} {Q : ManifestResult → Card → Prop} (hc : j.Keeps tidy c0 m c) (hC : C c)
    (hQ : Q .error c) : device.wp A C (upsertMissing j.manifest j.tmp deviceId updatedAt entryJson) Q c := by
  obtain ⟨f, t, b, hat, hj⟩ := hc
  unfold upsertMissing
  rw [wp_bind]
  refine wp_stat hC ?_ fun _ code => by simpa using hQ
  cases hj with
  | attached => simpa [Card.statAns, hat.manifest] using hQ
  | detached =>
    simp only [Card.statAns, hat.manifest]
    split
    · exact hQ
    · rw [wp_bind]
      refine wp_malloc hC ?_ fun _ => by simpa using hQ
      simp only [Bool.not_true, Bool.false_eq_true, if_false]
      rw [wp_bind]
      exact wp_writeTmpAndRename_detached hat hC (by simpa using hQ)

theorem wp_upsertPresent {e0 : Entry} {es : List Entry} {key : EntryKey} {Q : ManifestResult → Card → Prop}
    (he : e0.Valid) (hes : ∀ e ∈ es, e.Valid) (hC : C c)
    (hQ : Q (if e0.matchesKey key then .ok else .conflict) c) (hf : IoFault A → Q .error c) :
    device.wp A C (upsertPresent (fromId e0 (bodyWords (lit "\x7d,") es) (lit "\x7d" ++ lit "]\x7d")) key) Q c := by
  obtain ⟨more, tail, ht, hscope⟩ := storedScope_fromId he hes
  unfold upsertPresent
  simp only [hscope]
  rw [wp_bind]
  refine wp_malloc hC ?_ fun hA => by simpa using hf hA
  rw [storedMatches_spell he.toBuilt ht]
  cases hm : e0.matchesKey key <;> simpa [hm] using hQ

theorem wp_upsertAppend {Q : ManifestResult → Card → Prop} (hc : j.Attached tidy c0 m c)
    (hu : isValidIso8601Offset updatedAt = true) (he : e.Valid)
    (hnew : ∀ e' ∈ m.entries, e'.recordingId ≠ e.recordingId)
    (hC : ∀ m' c', m' = m ∨ m.Adds e m' → j.Keeps tidy c0 m' c' → C c')
    (hok : ∀ m' c', m.Adds e m' → m'.updatedAt = updatedAt → j.Attached tidy c0 m' c' → Q .ok c')
    (hf : IoFault A ∨ ¬ tidy ∨ c.isDir (dirname j.tmp) = false ∨
        ¬ (document m.deviceId updatedAt (m.entries ++ [e])).length ≤ manifestAdmissionCeilingBytes →
      ∀ m' c', m' = m ∨ m.Adds e m' → j.Keeps tidy c0 m' c' → Q .error c') :
    device.wp A C (upsertAppend j.manifest j.tmp m.render updatedAt e.render) Q c := by
  unfold upsertAppend
  rw [Snapshot.render, appendEntry_document m.deviceId_uuid m.updatedAt_valid hu m.entries_valid]
  by_cases hfit : (document m.deviceId updatedAt (m.entries ++ [e])).length ≤ manifestAdmissionCeilingBytes
  · rw [if_neg (by omega)]
    let m' := m.add updatedAt e hu he hnew hfit
    have hadd : m.Adds e m' := ⟨rfl, rfl⟩
    have hstep : ∀ c', j.Keeps tidy c0 m c' ∨ j.Keeps tidy c0 m' c' → ∃ m1, (m1 = m ∨ m.Adds e m1) ∧ j.Keeps tidy c0 m1 c' := by
      rintro c' (h | h)
      · exact ⟨m, Or.inl rfl, h⟩
      · exact ⟨m', Or.inr hadd, h⟩
    simp only
    rw [wp_bind]
    refine wp_malloc (hC m c (Or.inl rfl) hc.keeps) ?_ fun hA => by simpa using hf (Or.inl hA) m c (Or.inl rfl) hc.keeps
    simp only [Bool.not_true, Bool.false_eq_true, if_false]
    rw [wp_bind]
    refine wp_writeTmpAndRename hadd.deviceId (hadd.entries ▸ List.prefix_append ..) hc (fun c' h => ?_) (fun c' h => ?_)
      fun hA c' h => ?_
    · obtain ⟨m1, h1, h2⟩ := hstep c' h
      exact hC m1 c' h1 h2
    · simpa using hok m' c' hadd rfl h
    · obtain ⟨m1, h1, h2⟩ := hstep c' h
      simpa using hf (hA.imp_right (Or.imp_right Or.inl)) m1 c' h1 h2
  · rw [if_pos (by omega)]
    exact hf (Or.inr (Or.inr (Or.inr hfit))) m c (Or.inl rfl) hc.keeps

theorem dropWhile_id {es rest : List Entry} {id : Bytes} {e0 : Entry}
    (h : es.dropWhile (fun e => e.recordingId ≠ id) = e0 :: rest) : e0 ∈ es ∧ e0.recordingId = id ∧ rest ⊆ es := by
  have hsub := (List.dropWhile_suffix (l := es) fun e => decide (e.recordingId ≠ id)).subset
  have hhead := List.head_dropWhile_not (fun e : Entry => decide (e.recordingId ≠ id)) (by rw [h]; simp : es.dropWhile _ ≠ [])
  rw [h] at hsub
  simp only [h, List.head_cons, decide_eq_false_iff_not, not_not] at hhead
  exact ⟨hsub (by simp), hhead, fun x hx => hsub (by simp [hx])⟩

/-- The outcomes of an upsert: the entry is added, or its id is present already, or nothing is promised but that one
of the two snapshots is kept. -/
theorem wp_deviceManifestUpsertFile {Q : ManifestResult → Card → Prop} (he : e.Built) (hc : j.Keeps tidy c0 m c)
    (hC : ∀ m' c', m' = m ∨ m.Adds e m' → j.Keeps tidy c0 m' c' → C c')
    (hok : ∀ m' c', m.Adds e m' → m'.updatedAt = updatedAt → j.Attached tidy c0 m' c' → Q .ok c')
    (hdup : ∀ e0 ∈ m.entries, e0.recordingId = e.recordingId → j.Attached tidy c0 m c →
      Q (if e0.matchesKey e.key then .ok else .conflict) c)
    (hf : IoFault A ∨ ¬ tidy ∨ ¬ m.Accepts j c deviceId updatedAt e →
      ∀ m' c', m' = m ∨ m.Adds e m' → j.Keeps tidy c0 m' c' → Q .error c') :
    device.wp A C (deviceManifestUpsertFile j.manifest j.tmp deviceId updatedAt e.render) Q c := by
  have herr : IoFault A ∨ ¬ tidy ∨ ¬ m.Accepts j c deviceId updatedAt e → Q .error c := fun h => hf h m c (Or.inl rfl) hc
  have hne : e.render ≠ [] := by
    obtain ⟨t, ht⟩ := render_head e
    simp [ht]
  unfold deviceManifestUpsertFile
  split
  case isTrue hbad =>
    refine herr (Or.inr (Or.inr fun ha => ?_))
    have hlen := Entry.render_length he
    have hmax : manifestEntryMax = 1024 := rfl
    simp only [j.manifest_ne, j.tmp_ne, ha.deviceId, m.deviceId_uuid, ha.stamp, hne, Bool.not_true, Bool.false_eq_true,
      false_or] at hbad
    omega
  case isFalse hgood =>
    simp only [not_or, Bool.not_eq_true', Bool.not_eq_false, not_lt] at hgood
    have hu : isValidIso8601Offset updatedAt = true := hgood.2.2.2.1
    rw [entryKey_render he]
    by_cases hcons : e.Consistent
    · rw [if_pos hcons]
      have hev : e.Valid := ⟨he, hcons⟩
      simp only
      rw [wp_bind]
      have hmissing : Q .error c →
          device.wp A C (upsertMissing j.manifest j.tmp deviceId updatedAt e.render) Q c :=
        wp_upsertMissing hc (hC m c (Or.inl rfl) hc)
      refine wp_readFileBounded (hC m c (Or.inl rfl) hc) ?_ fun hA => hmissing (herr (Or.inl hA))
      by_cases hfile : c.vol.lookup j.manifest = some (.file m.render)
      · have hatt : j.Attached tidy c0 m c := hc.attached hfile
        rw [boundedFile_manifest hfile j.manifest_ne]
        have hver := parseSchemaVersion_document m.deviceId_uuid m.updatedAt_valid m.entries_valid
        have hdev := parseDeviceId_document m.deviceId_uuid m.updatedAt_valid m.entries_valid
        have hfind := memfind_id m.deviceId_uuid m.updatedAt_valid m.entries_valid he.recordingId
        rw [← Snapshot.render] at hver hdev hfind
        simp only [render_valid, hver, hdev, ne_eq, not_true_eq_false, if_false, Entry.key, hfind]
        by_cases hd : deviceId = m.deviceId
        · simp only [hd, decide_true, Bool.not_true, Bool.false_eq_true, not_true_eq_false, if_false]
          cases hdw : m.entries.dropWhile (fun e' => e'.recordingId ≠ e.recordingId) with
          | nil =>
            have hnew : ∀ e' ∈ m.entries, e'.recordingId ≠ e.recordingId := by
              simpa using List.dropWhile_eq_nil_iff.mp hdw
            refine wp_upsertAppend hatt hu hev hnew hC hok fun hwhy => hf ?_
            rcases hwhy with hA | htidy | hparent | hlong
            · exact Or.inl hA
            · exact Or.inr (Or.inl htidy)
            · exact Or.inr (Or.inr fun ha => by simp [ha.parent] at hparent)
            · exact Or.inr (Or.inr fun ha => hlong ha.fits)
          | cons e0 rest =>
            obtain ⟨hmem, hid, hsub⟩ := dropWhile_id hdw
            exact wp_upsertPresent (m.entries_valid e0 hmem) (fun e' h => m.entries_valid e' (hsub h))
              (hC m c (Or.inl rfl) hc) (hdup e0 hmem hid hatt) fun hA => herr (Or.inl hA)
        · simp only [hd, decide_false, Bool.not_false, if_true]
          exact herr (Or.inr (Or.inr fun ha => hd ha.deviceId))
      · rw [boundedFile_absent (hc.lookup.resolve_left hfile)]
        exact hmissing (herr (Or.inr (Or.inr fun ha => hfile ha.attached)))
    · rw [if_neg hcons]
      exact herr (Or.inr (Or.inr fun ha => hcons ha.consistent))

end Upsert

end M5DayLog
