import M5DayLog.Manifest.Recover
import M5DayLog.Manifest.Scan

/-! What the boot scan establishes. Its loops keep a list of the files they have matched, each with an entry of its
own; at the end of the scan that list is every admitted file, and the two counts make the matching exact. -/

namespace M5DayLog

open Bytes Fat Device

variable {A : Fault → Prop} {C : Card → Prop} {c c0 : Card} {j : ManifestPaths}

/-- The scanned directory holds none of the journal's files. -/
structure ScanPaths extends ManifestPaths where
  recordings : Path
  recordings_ne : recordings ≠ []
  outside : ∀ rest, recordings ++ rest ≠ manifest ∧ recordings ++ rest ≠ tmp ∧ recordings ++ rest ≠ backup

def ScanPaths.production : ScanPaths where
  toManifestPaths := .production
  recordings := recordingsDir
  recordings_ne := recordingsDir_ne
  outside rest := by
    have hno : ¬ recordingsDir <+: manifestPath ∧ ¬ recordingsDir <+: manifestTmpPath ∧
        ¬ recordingsDir <+: lit "/sdcard/M5DAYLOG/manifest.json.bak" := by with_unfolding_all decide
    exact ⟨fun h => hno.1 ⟨rest, h⟩, fun h => hno.2.1 ⟨rest, h⟩, fun h => hno.2.2 ⟨rest, h⟩⟩

def ScanPaths.args (j : ScanPaths) (deviceId updatedAt state : Bytes) : SyncArgs :=
  ⟨j.recordings, j.manifest, j.tmp, deviceId, updatedAt, state⟩

/-- A file of a date directory. -/
structure WavFile where
  date : Bytes
  name : Bytes
  data : Bytes
  deriving DecidableEq

namespace WavFile

variable (w : WavFile)

def path (recordings : Path) : Path := join (join recordings w.date) w.name

def rel : Path := relativeName w.date w.name

def identity : Option (Bytes × Bytes) := wavIdentity (some w.date) w.name

end WavFile

/-- The file lies in a valid date directory under a finalized name with a UUID and a valid stamp. -/
structure Admitted (recordings : Path) (c : Card) (w : WavFile) : Prop where
  dir : c.isDir (join recordings w.date) = true
  file : c.vol.lookup (w.path recordings) = some (.file w.data)
  date : validDateDir w.date = true
  child : w.name ≠ [] ∧ slash ∉ w.name
  audience : audienceWavName w.name = true
  identity : w.identity.isSome = true

/-- The entry is that of the file. -/
structure Records (e : Entry) (w : WavFile) : Prop where
  identity : ∃ started, w.identity = some (e.recordingId, started) ∧
    manifestStartTimesCompatible e.startedAt started = true
  filename : e.filename = w.rel
  size : e.sizeBytes = w.data.length
  sha256 : e.sha256 = sha256Hex w.data
  duration : e.durationMs = deviceManifestDurationMs (w.data.length - wavHeaderSize)

/-- The later snapshot has the entries of the earlier one, in place. -/
structure Manifest.Extended (m m' : Manifest) : Prop where
  deviceId : m'.deviceId = m.deviceId
  entries : m.entries <+: m'.entries

theorem Manifest.Extended.rfl' (m : Manifest) : m.Extended m := ⟨rfl, List.prefix_refl _⟩

theorem Manifest.Extended.trans {m m' m'' : Manifest} (h : m.Extended m') (h' : m'.Extended m'') : m.Extended m'' :=
  ⟨h'.deviceId.trans h.deviceId, h.entries.trans h'.entries⟩

theorem Manifest.Extended.of_adds {m m' : Manifest} {e : Entry} (h : m' = m ∨ m.Adds e m') : m.Extended m' := by
  rcases h with rfl | h
  · exact .rfl' m'
  · exact ⟨h.deviceId, h.entries ▸ List.prefix_append ..⟩

/-- The journal keeps an extension of `m`, and every other file is as in `c0`. -/
def Survives (j : ManifestPaths) (c0 : Card) (m : Manifest) (c : Card) : Prop :=
  ∃ m', m.Extended m' ∧ ∃ b, j.Keeps False { c0 with dirFailed := b } m' c

theorem Survives.of_keeps {m m' : Manifest} (hm : m.Extended m') (h : j.Keeps False c0 m' c) : Survives j c0 m c :=
  ⟨m', hm, c0.dirFailed, h⟩

theorem Survives.fail {m : Manifest} (h : Survives j c0 m c) : Survives j c0 m c.fail := by
  obtain ⟨m', hm, b, f, t, bk, hat, hj⟩ := h
  exact ⟨m', hm, true, f, t, bk, ⟨hat.manifest, hat.tmp, hat.backup, hat.frame, rfl⟩, hj⟩

theorem Survives.of_fail {m : Manifest} (h : Survives j c0.fail m c) : Survives j c0 m c := h

theorem ManifestPaths.Attached.fail {m : Manifest} (h : j.Attached False c0 m c) : j.Attached False c0.fail m c.fail := by
  obtain ⟨t, b, hat, ht, hb⟩ := h
  exact ⟨t, b, ⟨hat.manifest, hat.tmp, hat.backup, hat.frame, rfl⟩, ht, hb⟩

section Lookup

variable {j : ScanPaths} {m : Manifest}

/-- The scanned tree is untouched while the journal is at work. -/
theorem ManifestPaths.Attached.outside (h : j.Attached False c0 m c) (rest : Bytes) :
    c.vol.lookup (j.recordings ++ rest) = c0.vol.lookup (j.recordings ++ rest) := by
  obtain ⟨t, b, hat, -, -⟩ := h
  obtain ⟨h1, h2, h3⟩ := j.outside rest
  exact hat.frame _ h1 h2 h3

theorem join_recordings (name : Bytes) : join j.recordings name = j.recordings ++ slash :: name := rfl

theorem wavPath_recordings (w : WavFile) :
    w.path j.recordings = j.recordings ++ (slash :: (w.date ++ slash :: w.name)) := by
  simp [WavFile.path, join]

end Lookup

/-- An entry that matches the one built for a file is that of the file as well. -/
theorem Records.of_matches {e e0 : Entry} {w : WavFile} (h : Records e w) (hid : e0.recordingId = e.recordingId)
    (hmatch : e0.matchesKey e.key = true) (hstart : ∀ started, w.identity = some (e.recordingId, started) →
      e.startedAt = started) : Records e0 w := by
  simp only [Entry.matchesKey, Bool.and_eq_true, decide_eq_true_eq] at hmatch
  obtain ⟨⟨⟨⟨hsha, hname⟩, hsize⟩, hdur⟩, hcompat⟩ := hmatch
  obtain ⟨started, hident, -⟩ := h.identity
  refine ⟨⟨started, hid ▸ hident, hstart started hident ▸ hcompat⟩, hname.trans h.filename, hsize.trans h.size,
    hsha.trans h.sha256, hdur.trans h.duration⟩

section EnsureOne

variable {j : ScanPaths} {m m1 : Manifest} {deviceId updatedAt state : Bytes} {Q : Bool × Scan → Card → Prop}

/-- One file: it is skipped, or it gets its entry, or the scan fails with the manifest kept. -/
theorem wp_ensureOneWav (w : WavFile) (scan : Scan) (hc : j.Attached False c0 m1 c) (hm : m.Extended m1)
    (hC : ∀ c', Survives j.toManifestPaths c0 m c' → C c')
    (hskip : w.identity = none → Q (true, { scan with skipped := scan.skipped + 1 }) c)
    (hok : ∀ m2 c' data, m1.Extended m2 → j.Attached False c0 m2 c' → c.file? (w.path j.recordings) = some data →
      FinalizedWav data → w.identity.isSome = true → (∃ e ∈ m2.entries, Records e { w with data := data }) →
      Q (true, { scan with indexed := scan.indexed + 1 }) c')
    (hf : ∀ scan' c', Survives j.toManifestPaths c0 m c' → Q (false, scan') c') :
    device.wp A C (ensureOneWav (j.args deviceId updatedAt state) (w.path j.recordings) w.rel (some w.date) w.name scan)
      Q c := by
  have hsurv : Survives j.toManifestPaths c0 m c := .of_keeps hm hc.keeps
  unfold ensureOneWav
  cases hid : w.identity with
  | none =>
    rw [WavFile.identity] at hid
    rw [hid]
    exact hskip hid
  | some ids =>
    obtain ⟨id, started⟩ := ids
    have hsome : w.identity.isSome = true := by simp [hid]
    have hid' := hid
    rw [WavFile.identity] at hid'
    rw [hid']
    simp only
    rw [wp_bind]
    refine wp_deviceManifestHashWavFile (hC c hsurv) ?_ fun _ => hf _ c hsurv
    cases hhash : hashedWav c (w.path j.recordings) with
    | none => exact hf _ c hsurv
    | some r =>
      obtain ⟨data, hfile, hwav, rfl⟩ := hashedWav_eq_some hhash
      simp only
      rw [wp_bind]
      refine wp_malloc (hC c hsurv) ?_ fun _ => hf _ c hsurv
      simp only [Bool.not_true, Bool.false_eq_true, if_false]
      cases hbuild : deviceManifestBuildEntry id w.rel started
          (deviceManifestDurationMs (data.length - wavHeaderSize - (data.length - wavHeaderSize) % bytesPerSample)).toUInt32
          data.length.toUInt32 (sha256Hex data) sampleRateHz bitsPerSample channelCount state none manifestEntryMax with
      | none =>
        simp only [ScanPaths.args, hbuild]
        exact hf _ c hsurv
      | some entry =>
        obtain ⟨e, he, hbuilt, htext, -⟩ := deviceManifestBuildEntry_eq_some hbuild
        simp only [ScanPaths.args, hbuild]
        rw [wp_bind, htext]
        have hstart : e.startedAt = started := by rw [he]
        have heid : e.recordingId = id := by rw [he]
        have hrec : Records e { w with data := data } := by
          have hcompat := startTimesCompatible_self hbuilt.startedAt
          refine ⟨⟨started, heid ▸ hid, hstart ▸ hcompat⟩, by rw [he]; rfl, ?_, by rw [he], ?_⟩
          · rw [he]
            exact UInt32.toNat_ofNat_of_lt' hwav.2.1
          · -- whole samples, so nothing is cut off the payload
            have halign : (data.length - wavHeaderSize) % bytesPerSample = 0 := hwav.2.2.1
            have hlt := hwav.2.1
            rw [he, halign, Nat.sub_zero]
            refine UInt32.toNat_ofNat_of_lt' ?_
            simp only [deviceManifestDurationMs, UInt32.size]
            omega
        refine wp_deviceManifestUpsertFile hbuilt hc.keeps
          (fun m2 c' h2 hk => hC c' (.of_keeps (hm.trans (.of_adds h2)) hk)) (fun m2 c' ha _ hk => ?_)
          (fun e0 h0 h0id _ => ?_) fun _ m2 c' h2 hk => hf _ c' (.of_keeps (hm.trans (.of_adds h2)) hk)
        · exact hok m2 c' data (.of_adds (Or.inr ha)) hk hfile hwav hsome ⟨e, by simp [ha.entries], hrec⟩
        · cases hmatch : e0.matchesKey e.key with
          | false => exact hf _ c hsurv
          | true =>
            refine hok m1 c data (.rfl' m1) hc hfile hwav hsome ⟨e0, h0, hrec.of_matches h0id hmatch fun s hs => ?_⟩
            have hs' : some (id, started) = some (e.recordingId, s) := hid.symm.trans hs
            simp only [Option.some.injEq, Prod.mk.injEq] at hs'
            exact hstart.trans hs'.2

end EnsureOne

/-- The files matched so far, each admitted, valid, and with an entry of its own. -/
structure Indexed (j : ScanPaths) (c0 : Card) (m : Manifest) (done : List WavFile) (indexed : ℕ) (m1 : Manifest) :
    Prop where
  extended : m.Extended m1
  count : indexed = done.length
  nodup : (done.map fun w => (w.date, w.name)).Nodup
  admitted : ∀ w ∈ done, Admitted j.recordings c0 w ∧ FinalizedWav w.data
  recorded : ∀ w ∈ done, ∃ e ∈ m1.entries, Records e w

section Loops

variable {j : ScanPaths} {m m1 : Manifest} {deviceId updatedAt state date : Bytes} {done : List WavFile} {scan : Scan}
variable {Q : Except SyncResult Scan → Card → Prop}

theorem Admitted.congr {recordings : Path} {w : WavFile} (h : Admitted recordings c0 w) (hvol : c.vol = c0.vol) :
    Admitted recordings c w := by
  refine ⟨?_, ?_, h.date, h.child, h.audience, h.identity⟩
  · rw [Card.isDir, hvol]
    exact h.dir
  · rw [hvol]
    exact h.file

theorem Admitted.of_outside {c' : Card} {w : WavFile} (h : Admitted j.recordings c w)
    (hout : ∀ rest, c'.vol.lookup (j.recordings ++ rest) = c.vol.lookup (j.recordings ++ rest)) :
    Admitted j.recordings c' w := by
  refine ⟨?_, ?_, h.date, h.child, h.audience, h.identity⟩
  · rw [Card.isDir, join_recordings, hout, ← join_recordings]
    exact h.dir
  · rw [wavPath_recordings, hout, ← wavPath_recordings]
    exact h.file

theorem Indexed.congr {n : ℕ} (h : Indexed j c0 m done n m1) (hvol : c.vol = c0.vol) : Indexed j c m done n m1 :=
  ⟨h.extended, h.count, h.nodup, fun w hw => ⟨(h.admitted w hw).1.congr hvol, (h.admitted w hw).2⟩, h.recorded⟩

/-- One more file matched. -/
theorem Indexed.cons {n : ℕ} {w : WavFile} {m2 : Manifest} (h : Indexed j c0 m done n m1) (hm : m1.Extended m2)
    (hnew : ∀ v ∈ done, v.date = w.date → v.name ≠ w.name) (hw : Admitted j.recordings c0 w) (hwav : FinalizedWav w.data)
    (hrec : ∃ e ∈ m2.entries, Records e w) : Indexed j c0 m (w :: done) (n + 1) m2 where
  extended := h.extended.trans hm
  count := by rw [h.count, List.length_cons]
  nodup := by
    rw [List.map_cons, List.nodup_cons]
    refine ⟨?_, h.nodup⟩
    simp only [List.mem_map, Prod.mk.injEq, not_exists, not_and]
    exact hnew
  admitted v hv := by
    rcases List.mem_cons.mp hv with rfl | hv
    · exact ⟨hw, hwav⟩
    · exact h.admitted v hv
  recorded v hv := by
    rcases List.mem_cons.mp hv with rfl | hv
    · exact hrec
    · obtain ⟨e, he, hr⟩ := h.recorded v hv
      exact ⟨e, hm.entries.subset he, hr⟩

/-- Two admitted files of one name are one file. -/
theorem Admitted.eq {recordings : Path} {w w' : WavFile} (h : Admitted recordings c w) (h' : Admitted recordings c w')
    (hd : w.date = w'.date) (hn : w.name = w'.name) : w = w' := by
  have hfile := h.file
  rw [WavFile.path, hd, hn, ← WavFile.path, h'.file] at hfile
  cases w
  cases w'
  simp_all

theorem audience_of_dot {name : Bytes} (h : isDot name = true) : audienceWavName name = false := by
  have hlen : (lit ".").length = 1 ∧ (lit "..").length = 2 := by with_unfolding_all decide
  simp only [isDot, decide_eq_true_eq] at h
  rcases h with rfl | rfl <;> simp [audienceWavName, hlen]

theorem validDateDir_of_dot {name : Bytes} (h : isDot name = true) : validDateDir name = false := by
  have hlen : (lit ".").length = 1 ∧ (lit "..").length = 2 := by with_unfolding_all decide
  simp only [isDot, decide_eq_true_eq] at h
  rcases h with rfl | rfl <;> simp [validDateDir, dateDirHasShape, hlen]

/-- The files of one date: those of the names read so far are matched, or the scan fails with the manifest kept. -/
theorem wp_scanWavs (hdate : validDateDir date = true) (hdir : c0.isDir (join j.recordings date) = true)
    (hC : ∀ c', Survives j.toManifestPaths c0 m c' → C c') {names : List Bytes} (hc : j.Attached False c0 m1 c)
    (hi : Indexed j c0 m done scan.indexed m1) (hnodup : (names.filter (!isDot ·)).Nodup)
    (hchild : ∀ n ∈ names, isDot n = false → n ≠ [] ∧ slash ∉ n)
    (hfresh : ∀ w ∈ done, w.date = date → w.name ∉ names)
    (hok : ∀ m2 c' done' scan', j.Attached False c0 m2 c' → Indexed j c0 m done' scan'.indexed m2 →
      (∀ w ∈ done', w ∈ done ∨ w.date = date) → done ⊆ done' →
      (∀ w, Admitted j.recordings c0 w → w.date = date → w.name ∈ names → w ∈ done') → Q (.ok scan') c')
    (hf : ∀ r c', r.ok = false → Survives j.toManifestPaths c0 m c' → Q (.error r) c') :
    device.wp A C (scanWavs (j.args deviceId updatedAt state) date names scan) Q c := by
  induction names generalizing c m1 done scan with
  | nil => exact hok m1 c done scan hc hi (fun w hw => Or.inl hw) (List.Subset.refl _) (by simp)
  | cons name names ih =>
    -- a name that no admitted file has leaves the matching as it is
    have hskip : (∀ w, Admitted j.recordings c0 w → w.date = date → w.name ≠ name) → ∀ scan' : Scan,
        scan'.indexed = scan.indexed → device.wp A C (scanWavs (j.args deviceId updatedAt state) date names scan') Q c := by
      intro hno scan' hs
      refine ih hc (hs ▸ hi) ?_ (fun n hn => hchild n (List.mem_cons_of_mem _ hn))
        (fun w hw hd hn => hfresh w hw hd (List.mem_cons_of_mem _ hn)) ?_
      · rw [List.filter_cons] at hnodup
        split at hnodup
        · exact hnodup.of_cons
        · exact hnodup
      · intro m2 c' done' scan'' hc' hi' hdone hsub hall
        refine hok m2 c' done' scan'' hc' hi' hdone hsub fun w hw hd hn => ?_
        rcases List.mem_cons.mp hn with hn | hn
        · exact absurd hn (hno w hw hd)
        · exact hall w hw hd hn
    unfold scanWavs
    split
    case isTrue hskipped =>
      refine hskip (fun w hw hd hn => ?_) scan rfl
      have haud := hw.audience
      rw [hn] at haud
      rcases hskipped with hdot | hname
      · simp [audience_of_dot hdot] at haud
      · simp [haud] at hname
    case isFalse hname =>
      simp only [not_or, Bool.not_eq_true', Bool.not_eq_false, Bool.not_eq_true] at hname
      obtain ⟨hdot, haud⟩ := hname
      have hsurv : Survives j.toManifestPaths c0 m c := .of_keeps hi.extended hc.keeps
      dsimp only
      split
      · exact hf _ c rfl hsurv
      · rw [wp_bind]
        refine wp_ensureOneWav ⟨date, name, []⟩ scan hc hi.extended hC (fun hid => ?_)
          (fun m2 c' data hm2 hc' hfile hwav hid hrec => ?_) fun scan' c' hs => hf _ c' rfl hs
        · refine hskip (fun w hw hd hn => ?_) _ rfl
          have hident := hw.identity
          rw [WavFile.identity, hd, hn] at hident
          rw [WavFile.identity] at hid
          simp [hid] at hident
        · let w : WavFile := ⟨date, name, data⟩
          have hlookup : c0.vol.lookup (w.path j.recordings) = some (.file data) := by
            rw [wavPath_recordings, ← hc.outside, ← wavPath_recordings]
            exact Card.file?_eq_some.mp hfile
          have hw : Admitted j.recordings c0 w :=
            ⟨hdir, hlookup, hdate, hchild name (by simp) hdot, haud, hid⟩
          have hi' : Indexed j c0 m (w :: done) (scan.indexed + 1) m2 := by
            refine hi.cons hm2 (fun v hv hd hn => hfresh v hv hd ?_) hw hwav hrec
            rw [hn]
            exact List.mem_cons_self
          simp only [List.filter_cons, hdot, Bool.not_false, if_true, List.nodup_cons] at hnodup
          simp only [if_true]
          refine ih hc' hi' hnodup.2 (fun n hn => hchild n (List.mem_cons_of_mem _ hn)) ?_ ?_
          · intro v hv hd hn
            rcases List.mem_cons.mp hv with rfl | hv
            · exact hnodup.1 (List.mem_filter.mpr ⟨hn, by simp [hdot]⟩)
            · exact hfresh v hv hd (List.mem_cons_of_mem _ hn)
          · intro m3 c'' done' scan'' hc'' hi'' hdone hsub hall
            refine hok m3 c'' done' scan'' hc'' hi'' (fun v hv => ?_) (fun v hv => hsub (List.mem_cons_of_mem _ hv)) ?_
            · rcases hdone v hv with h | h
              · rcases List.mem_cons.mp h with rfl | h
                · exact Or.inr rfl
                · exact Or.inl h
              · exact Or.inr h
            · intro v hv hd hn
              rcases List.mem_cons.mp hn with hn | hn
              · rw [hv.eq hw hd hn]
                exact hsub List.mem_cons_self
              · exact hall v hv hd hn

/-- A date directory: afterwards all of its admitted files are matched. -/
theorem wp_scanDateDir (hdate : validDateDir date = true) (hC : ∀ c', Survives j.toManifestPaths c0 m c' → C c')
    (hc : j.Attached False c0 m1 c) (hi : Indexed j c0 m done scan.indexed m1) (hfresh : ∀ w ∈ done, w.date ≠ date)
    (hok : ∀ m2 c' done' scan', j.Attached False c0 m2 c' → Indexed j c0 m done' scan'.indexed m2 →
      (∀ w ∈ done', w ∈ done ∨ w.date = date) → done ⊆ done' →
      (∀ w, Admitted j.recordings c0 w → w.date = date → w ∈ done') → Q (.ok scan') c')
    (hf : ∀ r c', r.ok = false → Survives j.toManifestPaths c0 m c' → Q (.error r) c') :
    device.wp A C (scanDateDir (j.args deviceId updatedAt state) date scan) Q c := by
  have hsurv : Survives j.toManifestPaths c0 m c := .of_keeps hi.extended hc.keeps
  have hdir0 : c.isDir (join j.recordings date) = true → c0.isDir (join j.recordings date) = true := by
    intro h
    rwa [Card.isDir, join_recordings, hc.outside] at h
  have hchild : ∀ names error, c.Enumerates (join j.recordings date) ⟨names, error⟩ →
      ∀ n ∈ names, isDot n = false → n ≠ [] ∧ slash ∉ n :=
    fun names error henum n hn hd => (mem_children.mp (henum.sound n hn hd)).2
  unfold scanDateDir
  rw [wp_bind]
  refine wp_opendir (hC c hsurv) (fun hdir names henum => ?_) (fun names _ hdir henum => ?_) fun _ =>
    hf _ _ rfl hsurv.fail
  · rw [wp_bind]
    refine wp_scanWavs hdate (hdir0 hdir) hC hc hi henum.nodup (hchild names _ henum)
      (fun w hw hd => absurd hd (hfresh w hw)) (fun m2 c' done' scan' hc' hi' hdone hsub hall => ?_)
      fun r c' hr hs => ?_
    · have hs : Survives j.toManifestPaths c0 m c' := .of_keeps hi'.extended hc'.keeps
      rw [wp_bind]
      refine wp_closedir (hC c' hs) ?_ fun _ => by simpa using hf _ _ rfl hs.fail
      simp only [Bool.false_eq_true, Bool.not_true, or_self, if_false]
      refine hok m2 c' done' scan' hc' hi' hdone hsub fun w hw hd => hall w hw hd ?_
      have hmem : w.name ∈ children c.vol (join j.recordings date) := by
        have hfile := hw.file
        rw [wavPath_recordings, ← hc.outside, ← wavPath_recordings, WavFile.path, hd] at hfile
        exact mem_children.mpr ⟨by simp [hfile], hw.child⟩
      refine henum.complete rfl w.name hmem ?_
      have haud := hw.audience
      by_contra hdot
      rw [audience_of_dot (by simpa using hdot)] at haud
      exact absurd haud (by decide)
    · rw [wp_bind]
      refine wp_closedir (hC c' hs) (hf r c' hr hs) fun _ => hf r _ hr hs.fail
  · -- the directory cannot be read to its end: whatever the scan still does, it fails
    have hdir1 : c0.fail.isDir (join j.recordings date) = true := hdir0 hdir
    rw [wp_bind]
    refine wp_scanWavs hdate hdir1 (fun c' hs => hC c' hs.of_fail) hc.fail (hi.congr rfl) henum.nodup
      (hchild names _ henum) (fun w hw hd => absurd hd (hfresh w hw)) (fun m2 c' done' scan' hc' hi' _ _ _ => ?_)
      fun r c' hr hs => ?_
    · have hs : Survives j.toManifestPaths c0 m c' := (Survives.of_keeps hi'.extended hc'.keeps).of_fail
      rw [wp_bind]
      refine wp_closedir (hC c' hs) ?_ fun _ => ?_
      · simpa using hf _ _ rfl hs
      · simpa using hf _ _ rfl hs.fail
    · rw [wp_bind]
      refine wp_closedir (hC c' hs.of_fail) (hf r c' hr hs.of_fail) fun _ => hf r _ hr hs.of_fail.fail

/-- The children of the recordings directory: afterwards the files of every date read so far are matched. -/
theorem wp_scanTree (hC : ∀ c', Survives j.toManifestPaths c0 m c' → C c') {names : List Bytes}
    (hc : j.Attached False c0 m1 c) (hi : Indexed j c0 m done scan.indexed m1)
    (hnodup : (names.filter (!isDot ·)).Nodup) (hfresh : ∀ w ∈ done, w.date ∉ names)
    (hok : ∀ m2 c' done' scan', j.Attached False c0 m2 c' → Indexed j c0 m done' scan'.indexed m2 → done ⊆ done' →
      (∀ w, Admitted j.recordings c0 w → w.date ∈ names → w ∈ done') → Q (.ok scan') c')
    (hf : ∀ r c', r.ok = false → Survives j.toManifestPaths c0 m c' → Q (.error r) c') :
    device.wp A C (scanTree (j.args deviceId updatedAt state) names scan) Q c := by
  induction names generalizing c m1 done scan with
  | nil => exact hok m1 c done scan hc hi (List.Subset.refl _) (by simp)
  | cons name names ih =>
    have hsurv : Survives j.toManifestPaths c0 m c := .of_keeps hi.extended hc.keeps
    have hnodup' : (names.filter (!isDot ·)).Nodup := by
      rw [List.filter_cons] at hnodup
      split at hnodup
      · exact hnodup.of_cons
      · exact hnodup
    -- a name under which no admitted file lies leaves the matching as it is
    have hskip : (∀ w, Admitted j.recordings c0 w → w.date ≠ name) → ∀ scan' : Scan, scan'.indexed = scan.indexed →
        device.wp A C (scanTree (j.args deviceId updatedAt state) names scan') Q c := by
      intro hno scan' hs
      refine ih hc (hs ▸ hi) hnodup' (fun w hw hn => hfresh w hw (List.mem_cons_of_mem _ hn)) ?_
      intro m2 c' done' scan'' hc' hi' hsub hall
      refine hok m2 c' done' scan'' hc' hi' hsub fun w hw hn => ?_
      rcases List.mem_cons.mp hn with hn | hn
      · exact absurd hn (hno w hw)
      · exact hall w hw hn
    unfold scanTree
    split
    case isTrue hdot =>
      refine hskip (fun w hw hn => ?_) scan rfl
      have hdate := hw.date
      rw [hn, validDateDir_of_dot hdot] at hdate
      exact absurd hdate (by decide)
    case isFalse hdot =>
      dsimp only
      split
      · exact hf _ c rfl hsurv
      · rw [wp_bind]
        refine wp_stat (hC c hsurv) ?_ fun _ _ => hf _ c rfl hsurv
        cases hst : c.statAns (join (j.args deviceId updatedAt state).recordingsDir name) with
        | error e => exact hf _ c rfl hsurv
        | ok st =>
          have hisDir : st.isDir = c.isDir (join j.recordings name) := Card.statAns_isDir hst
          have hdir0 : c.isDir (join j.recordings name) = c0.isDir (join j.recordings name) := by
            rw [Card.isDir, join_recordings, hc.outside]
            rfl
          simp only
          split
          case isTrue => exact hf _ c rfl hsurv
          case isFalse =>
            split
            case isTrue hd =>
              split
              case isTrue hvalid =>
                refine hskip (fun w hw hn => ?_) scan rfl
                have hdate := hw.date
                rw [hn] at hdate
                simp [hdate] at hvalid
              case isFalse hvalid =>
                rw [wp_bind]
                refine wp_scanDateDir (by simpa using hvalid) hC hc hi
                  (fun w hw hn => hfresh w hw (hn ▸ List.mem_cons_self)) (fun m2 c' done' scan' hc' hi' hdone hsub hall => ?_) hf
                refine ih hc' hi' hnodup' (fun w hw hn => ?_) (fun m3 c'' done'' scan'' hc'' hi'' hsub' hall' => ?_)
                · rw [List.filter_cons, if_pos (by simpa using hdot)] at hnodup
                  rcases hdone w hw with h | h
                  · exact hfresh w h (List.mem_cons_of_mem _ hn)
                  · exact (List.nodup_cons.mp hnodup).1 (List.mem_filter.mpr ⟨h ▸ hn, by simpa using hdot⟩)
                · refine hok m3 c'' done'' scan'' hc'' hi'' (List.Subset.trans hsub hsub') fun w hw hn => ?_
                  rcases List.mem_cons.mp hn with hn | hn
                  · exact hsub' (hall w hw hn)
                  · exact hall' w hw hn
            case isFalse hd =>
              refine hskip (fun w hw hn => ?_) _ (by split <;> rfl)
              have hdir := hw.dir
              rw [hn, ← hdir0, ← hisDir] at hdir
              exact hd hdir

end Loops

section Counting

variable {j : ScanPaths} {m m1 : Manifest} {done : List WavFile}

theorem validDateDir_length {date : Bytes} (h : validDateDir date = true) : date.length = 10 := by
  by_contra hne
  simp [validDateDir, dateDirHasShape, hne] at h

theorem Admitted.rel_inj {recordings : Path} {w w' : WavFile} (h : Admitted recordings c w)
    (h' : Admitted recordings c w') (hrel : w.rel = w'.rel) : w = w' := by
  unfold WavFile.rel relativeName at hrel
  simp only [List.append_assoc, List.append_cancel_left_eq] at hrel
  obtain ⟨hd, hn⟩ := List.append_inj hrel
    ((validDateDir_length h.date).trans (validDateDir_length h'.date).symm)
  exact h.eq h' hd (List.cons.inj hn).2

theorem validDateDir_slash {date : Bytes} (h : validDateDir date = true) : slash ∉ date := by
  have hlen := validDateDir_length h
  simp only [validDateDir, dateDirHasShape, Bool.and_eq_true, decide_eq_true_eq, List.all_eq_true, List.mem_range,
    Bool.or_eq_true] at h
  obtain ⟨⟨⟨⟨-, h4⟩, h7⟩, hall⟩, -⟩ := h
  intro hmem
  obtain ⟨i, hi, hget⟩ := List.getElem_of_mem hmem
  have hat : at' date i = slash := by simp [at', hi, hget]
  rcases hall i (by omega) with (rfl | rfl) | hdigit
  · exact absurd (h4.symm.trans hat) (by decide)
  · exact absurd (h7.symm.trans hat) (by decide)
  · rw [hat] at hdigit
    exact absurd hdigit (by decide)

theorem Admitted.mem_children {recordings : Path} {w : WavFile} (h : Admitted recordings c w) :
    w.date ∈ children c.vol recordings := by
  refine Fat.mem_children.mpr ⟨?_, ?_, validDateDir_slash h.date⟩
  · have hdir := h.dir
    simp only [Card.isDir, decide_eq_true_eq] at hdir
    simp [hdir]
  · intro hnil
    have := validDateDir_length h.date
    simp [hnil] at this

theorem Admitted.notDot {recordings : Path} {w : WavFile} (h : Admitted recordings c w) : isDot w.date = false := by
  by_contra hdot
  have hdate := h.date
  rw [validDateDir_of_dot (by simpa using hdot)] at hdate
  exact absurd hdate (by decide)

/-- The entries of the manifest and the admitted files correspond one to one. -/
structure Exact (recordings : Path) (c : Card) (m : Manifest) : Prop where
  file : ∀ e ∈ m.entries, ∃! w, Admitted recordings c w ∧ Records e w
  entry : ∀ w, Admitted recordings c w → FinalizedWav w.data ∧ ∃! e, e ∈ m.entries ∧ Records e w

/-- As many entries as matched files, and every admitted file matched: then no entry is left without a file. -/
theorem Indexed.exact {n : ℕ} (hi : Indexed j c0 m done n m1) (hall : ∀ w, Admitted j.recordings c0 w → w ∈ done)
    (hcount : m1.entries.length = n) : Exact j.recordings c0 m1 := by
  have hrel : (done.map WavFile.rel).Nodup := by
    refine (List.nodup_map_iff_inj_on (List.Nodup.of_map _ hi.nodup)).mpr fun w hw w' hw' h => ?_
    exact (hi.admitted w hw).1.rel_inj (hi.admitted w' hw').1 h
  have hsub : done.map WavFile.rel ⊆ m1.entries.map Entry.filename := by
    intro r hr
    obtain ⟨w, hw, rfl⟩ := List.mem_map.mp hr
    obtain ⟨e, he, hrec⟩ := hi.recorded w hw
    exact List.mem_map.mpr ⟨e, he, hrec.filename⟩
  have hperm : (done.map WavFile.rel).Perm (m1.entries.map Entry.filename) := by
    refine (List.subperm_of_subset hrel hsub).perm_of_length_le ?_
    rw [List.length_map, List.length_map, hcount, hi.count]
  have hnames : (m1.entries.map Entry.filename).Nodup := hperm.nodup_iff.mp hrel
  have hentry : ∀ e ∈ m1.entries, ∀ e' ∈ m1.entries, e.filename = e'.filename → e = e' :=
    fun e he e' he' h => List.inj_on_of_nodup_map hnames he he' h
  constructor
  · intro e he
    obtain ⟨w, hw, hwe⟩ := List.mem_map.mp (hperm.mem_iff.mpr (List.mem_map.mpr ⟨e, he, rfl⟩))
    obtain ⟨e', he', hrec⟩ := hi.recorded w hw
    obtain rfl := hentry e' he' e he (hrec.filename.trans hwe)
    refine ⟨w, ⟨(hi.admitted w hw).1, hrec⟩, fun w' ⟨hw', hrec'⟩ => ?_⟩
    exact hw'.rel_inj (hi.admitted w hw).1 (hrec'.filename.symm.trans hrec.filename)
  · intro w hw
    have hmem := hall w hw
    obtain ⟨e, he, hrec⟩ := hi.recorded w hmem
    exact ⟨(hi.admitted w hmem).2, e, ⟨he, hrec⟩, fun e' ⟨he', hrec'⟩ =>
      hentry e' he' e he (hrec'.filename.trans hrec.filename.symm)⟩

end Counting

section Sync

variable {j : ScanPaths} {m m1 : Manifest} {deviceId updatedAt state : Bytes}

theorem wp_manifestRecordingCount {path : Path} {Q : Option ℕ → Card → Prop} (hC : C c)
    (h : Q (match boundedFile c path manifestMaxBytes with
      | some doc => if manifestSnapshotValid doc deviceId then some (countRecordingIds (doc.length + 1) doc) else none
      | none => none) c) (hf : IoFault A → Q none c) :
    device.wp A C (manifestRecordingCount path deviceId) Q c := by
  unfold manifestRecordingCount
  rw [wp_bind]
  refine wp_readFileBounded hC ?_ hf
  cases hdoc : boundedFile c path manifestMaxBytes with
  | none => simpa [hdoc] using h
  | some doc =>
    simp only [hdoc] at h ⊢
    split <;> simp_all

theorem count_manifest {path : Path} (hpath : path ≠ []) (h : c.vol.lookup path = some (.file m.render)) :
    (match boundedFile c path manifestMaxBytes with
      | some doc => if manifestSnapshotValid doc m.deviceId then some (countRecordingIds (doc.length + 1) doc) else none
      | none => none) = some m.entries.length := by
  have hcount := countRecordingIds_document m.deviceId_uuid m.updatedAt_valid m.entries_valid
  rw [← Snapshot.render] at hcount
  simp [boundedFile_manifest h hpath, render_valid, hcount]

/-- Nothing outside the journal has changed; a manifest in place is kept or extended by its journal, and where there is
none that the firmware can read for this device the journal is untouched as well. -/
structure Preserved (j : ManifestPaths) (deviceId : Bytes) (c0 c : Card) : Prop where
  outside : ∀ p, p ≠ j.manifest → p ≠ j.tmp → p ≠ j.backup → c.vol.lookup p = c0.vol.lookup p
  kept : ∀ m : Manifest, c0.vol.lookup j.manifest = some (.file m.render) →
    ∃ m', m.Extended m' ∧ (c.vol.lookup j.manifest = some (.file m'.render) ∨
      c.vol.lookup j.manifest = none ∧ c.vol.lookup j.backup = some (.file m'.render))
  unread : (∀ m : Manifest, m.deviceId = deviceId → c0.vol.lookup j.manifest ≠ some (.file m.render)) → c.vol = c0.vol

/-- What a scan that returns has done. -/
structure SyncPost (j : ScanPaths) (deviceId : Bytes) (c0 : Card) (r : SyncResult) (c : Card) : Prop where
  preserved : Preserved j.toManifestPaths deviceId c0 c
  exact : r.ok = true → ∃ m' : Manifest, c.vol.lookup j.manifest = some (.file m'.render) ∧ Exact j.recordings c m'
  missing : ∀ m : Manifest, c0.vol.lookup j.manifest = some (.file m.render) →
    (∃ e ∈ m.entries, ∀ w, Admitted j.recordings c0 w → w.rel ≠ e.filename) → r.ok = false
  conflict : ∀ m : Manifest, c0.vol.lookup j.manifest = some (.file m.render) →
    (∃ e ∈ m.entries, ∃ w, Admitted j.recordings c0 w ∧ w.identity.map Prod.fst = some e.recordingId ∧ ¬ Records e w) →
    r.ok = false
  invalid : (∃ w, Admitted j.recordings c0 w ∧ ¬ FinalizedWav w.data) → r.ok = false
  unread : c.dirFailed = true → r.ok = false

theorem Preserved.refl (j : ManifestPaths) (deviceId : Bytes) (h : c.vol = c0.vol) : Preserved j deviceId c0 c :=
  ⟨fun _ _ _ _ => by rw [h], fun m hm => ⟨m, .rfl' m, Or.inl (by rwa [h])⟩, fun _ => h⟩

theorem Manifest.Extended.congr {m0 : Manifest} (h : m0.Extended m1) (hr : m0.render = m.render) : m.Extended m1 :=
  ⟨h.deviceId.trans (Snapshot.render_deviceId hr), Snapshot.render_entries hr ▸ h.entries⟩

theorem Survives.preserved {j : ManifestPaths} (h : Survives j c0 m c) (hm : m.deviceId = deviceId)
    (hfile : c0.vol.lookup j.manifest = some (.file m.render)) : Preserved j deviceId c0 c := by
  obtain ⟨m', hext, b, f, t, bk, hat, hj⟩ := h
  refine ⟨hat.frame, fun m2 hm2 => ⟨m', hext.congr ?_, ?_⟩, fun hno => absurd hfile (hno m hm)⟩
  · rw [hfile] at hm2
    exact Node.file.inj (Option.some.inj hm2)
  · cases hj with
    | attached => exact Or.inl hat.manifest
    | detached => exact Or.inr ⟨hat.manifest, hat.backup⟩

theorem SyncPost.of_fail {j : ScanPaths} {r : SyncResult} (h : Preserved j.toManifestPaths deviceId c0 c)
    (hr : r.ok = false) : SyncPost j deviceId c0 r c :=
  ⟨h, fun h => absurd (hr.symm.trans h) (by decide), fun _ _ _ => hr, fun _ _ _ => hr, fun _ => hr, fun _ => hr⟩

/-- In an exact correspondence no entry lacks its file, and no file contradicts its entry. -/
theorem SyncPost.of_exact {r : SyncResult} (hp : Preserved j.toManifestPaths deviceId c0 c)
    (hfile : c0.vol.lookup j.manifest = some (.file m.render)) (hm : m.Extended m1)
    (hfile' : c.vol.lookup j.manifest = some (.file m1.render)) (hex : Exact j.recordings c0 m1)
    (hvol : ∀ w, Admitted j.recordings c w ↔ Admitted j.recordings c0 w) (hdir : c.dirFailed = false) :
    SyncPost j deviceId c0 r c := by
  have hsub : ∀ m2 : Manifest, c0.vol.lookup j.manifest = some (.file m2.render) → ∀ e ∈ m2.entries, e ∈ m1.entries := by
    intro m2 hm2 e he
    rw [hfile] at hm2
    exact (hm.congr (Node.file.inj (Option.some.inj hm2))).entries.subset he
  refine ⟨hp, fun _ => ⟨m1, hfile', ?_⟩, fun m2 hm2 ⟨e, he, hno⟩ => ?_, fun m2 hm2 ⟨e, he, w, hw, hid, hno⟩ => ?_,
    fun ⟨w, hw, hno⟩ => absurd (hex.entry w hw).1 hno, fun h => absurd (hdir.symm.trans h) (by decide)⟩
  · exact ⟨fun e he => by simpa only [hvol] using hex.file e he, fun w hw => hex.entry w ((hvol w).mp hw)⟩
  · obtain ⟨w, ⟨hw, hrec⟩, -⟩ := hex.file e (hsub m2 hm2 e he)
    exact absurd hrec.filename.symm (hno w hw)
  · -- the entry that records the file has the same id, so it is the same entry
    obtain ⟨-, e', ⟨he', hrec⟩, -⟩ := hex.entry w hw
    obtain ⟨started, hident, -⟩ := hrec.identity
    rw [hident] at hid
    obtain rfl := List.inj_on_of_nodup_map m1.ids_nodup he' (hsub m2 hm2 e he) (Option.some.inj hid)
    exact absurd hrec hno

/-- The scan under any faults and any order of its directories. -/
theorem wp_deviceManifestSyncWavDir (hclear : c0.dirFailed = false) :
    device.wp A (Preserved j.toManifestPaths deviceId c0) (deviceManifestSyncWavDir (j.args deviceId updatedAt state))
      (SyncPost j deviceId c0) c0 := by
  have hrefl : Preserved j.toManifestPaths deviceId c0 c0 := .refl _ _ rfl
  have hfail : ∀ r : SyncResult, r.ok = false → SyncPost j deviceId c0 r c0 := fun r hr => .of_fail hrefl hr
  unfold deviceManifestSyncWavDir
  split
  · exact hfail _ rfl
  case isFalse hargs =>
    simp only [ScanPaths.args, not_or, Bool.not_eq_true', Bool.not_eq_false] at hargs
    have huuid : isValidUuid deviceId = true := hargs.2.2.2.1
    simp only [ScanPaths.args]
    rw [wp_bind]
    refine wp_manifestRecordingCount hrefl ?_ fun _ => hfail _ rfl
    by_cases hm : ∃ m : Manifest, m.deviceId = deviceId ∧ c0.vol.lookup j.manifest = some (.file m.render)
    case neg =>
      -- no manifest of this device can be read: the scan ends here
      have hnone : ∀ doc, boundedFile c0 j.manifest manifestMaxBytes = some doc →
          manifestSnapshotValid doc deviceId = false := by
        intro doc hdoc
        by_contra hv
        exact hm (manifest_of_valid huuid hdoc (by simpa using hv))
      cases hdoc : boundedFile c0 j.manifest manifestMaxBytes with
      | none => exact hfail _ rfl
      | some doc =>
        simp only [hnone doc hdoc]
        exact hfail _ rfl
    case pos =>
      obtain ⟨m, rfl, hfile⟩ := hm
      have hsurv : ∀ c', Survives j.toManifestPaths c0 m c' → Preserved j.toManifestPaths m.deviceId c0 c' :=
        fun c' hs => hs.preserved rfl hfile
      have hlost : ∀ (r : SyncResult) c', r.ok = false → Survives j.toManifestPaths c0 m c' →
          SyncPost j m.deviceId c0 r c' := fun r c' hr hs => .of_fail (hsurv c' hs) hr
      have hc : j.Attached False c0 m c0 :=
        ⟨_, _, ⟨hfile, rfl, rfl, fun _ _ _ _ => rfl, rfl⟩, False.elim, False.elim⟩
      have hs0 : Survives j.toManifestPaths c0 m c0 := .of_keeps (.rfl' m) hc.keeps
      have hi : ∀ c1 : Card, c1.vol = c0.vol → Indexed j c1 m [] 0 m := fun c1 _ =>
        ⟨.rfl' m, rfl, by simp, by simp, by simp⟩
      rw [count_manifest j.manifest_ne hfile]
      simp only
      rw [wp_bind]
      refine wp_opendir hrefl (fun hdir names henum => ?_) (fun names _ hdir henum => ?_) fun _ =>
        hlost _ _ rfl hs0.fail
      · simp only
        rw [wp_bind]
        refine wp_scanTree hsurv hc (hi c0 rfl) henum.nodup (by simp) (fun m2 c' done scan hc' hi' _ hall => ?_)
          fun r c' hr hs => ?_
        · have hs : Survives j.toManifestPaths c0 m c' := .of_keeps hi'.extended hc'.keeps
          simp only
          rw [wp_bind]
          refine wp_closedir (hsurv c' hs) ?_ fun _ => by simpa using hlost _ _ rfl hs.fail
          simp only [Bool.false_eq_true, Bool.not_true, or_self, if_false]
          rw [wp_bind]
          refine wp_manifestRecordingCount (hsurv c' hs) ?_ fun _ => hlost _ _ rfl hs
          have hcount := count_manifest j.manifest_ne hc'.lookup
          rw [hi'.extended.deviceId] at hcount
          rw [hcount]
          simp only
          split
          · exact hlost _ _ rfl hs
          case isFalse hcnt =>
            simp only [not_or, ne_eq, not_not] at hcnt
            have hmem : ∀ w, Admitted j.recordings c0 w → w ∈ done := fun w hw =>
              hall w hw (henum.complete rfl w.date hw.mem_children hw.notDot)
            have hvol : ∀ w, Admitted j.recordings c' w ↔ Admitted j.recordings c0 w := fun w =>
              ⟨fun h => h.of_outside fun rest => (hc'.outside rest).symm, fun h => h.of_outside hc'.outside⟩
            exact .of_exact (hsurv c' hs) hfile hi'.extended hc'.lookup (hi'.exact hmem hcnt.1) hvol (by
              obtain ⟨t, b, hat, -, -⟩ := hc'
              exact hat.dirFailed.trans hclear)
        · simp only
          rw [wp_bind]
          exact wp_closedir (hsurv c' hs) (hlost r c' hr hs) fun _ => hlost r _ hr hs.fail
      · -- the recordings directory cannot be read to its end
        simp only
        rw [wp_bind]
        refine wp_scanTree (fun c' hs => hsurv c' hs.of_fail) hc.fail (hi c0.fail rfl) henum.nodup (by simp)
          (fun m2 c' done scan hc' hi' _ _ => ?_) fun r c' hr hs => ?_
        · have hs : Survives j.toManifestPaths c0 m c' := (Survives.of_keeps hi'.extended hc'.keeps).of_fail
          simp only
          rw [wp_bind]
          refine wp_closedir (hsurv c' hs) ?_ fun _ => ?_
          · simpa using hlost _ _ rfl hs
          · simpa using hlost _ _ rfl hs.fail
        · simp only
          rw [wp_bind]
          exact wp_closedir (hsurv c' hs.of_fail) (hlost r c' hr hs.of_fail) fun _ => hlost r _ hr hs.of_fail.fail

/-- Every run of the scan, under any order of its directories, any fault and any loss of power: what is on the card
is preserved, and a scan that returns true has made the manifest exact. -/
theorem deviceManifestSyncWavDir_complete (j : ScanPaths) (deviceId updatedAt state : Bytes) (c0 : Card)
    (hclear : c0.dirFailed = false) (es : List (Event Fault)) :
    (device.run (deviceManifestSyncWavDir (j.args deviceId updatedAt state)) es c0).Sat
      (Preserved j.toManifestPaths deviceId c0) (SyncPost j deviceId c0) :=
  run_sat (A := fun _ => True) _ es (wp_deviceManifestSyncWavDir hclear) fun _ _ _ _ => trivial

theorem deviceManifestSyncWavDir_sample :
    (device.run (deviceManifestSyncWavDir (ScanPaths.production.args sampleId sampleStamp stateFinalized)) [] sampleCard).Sat
      (Preserved .production sampleId sampleCard) (SyncPost .production sampleId sampleCard) :=
  deviceManifestSyncWavDir_complete .production sampleId sampleStamp stateFinalized sampleCard rfl []

end Sync

end M5DayLog
