import M5DayLog.Manifest.Duplicate
import M5DayLog.Manifest.Sync

/-! A second scan of an unchanged tree. A scan that returned true has passed every check on every name of the tree and
left the manifest exact; whatever order a later scan reads the tree in, it finds each file's entry in place. -/

namespace M5DayLog

open Bytes Fat Device

variable {A : Fault → Prop} {c c0 : Card} {j : ScanPaths} {m m1 : Manifest}
variable {deviceId updatedAt state date : Bytes} {scan : Scan}

/-- What a name of a date directory has passed: it is skipped, or its paths fit their buffers and, when it has an
identity, it is a file. -/
def WavChecked (j : ScanPaths) (c : Card) (date name : Bytes) : Prop :=
  isDot name = true ∨ audienceWavName name = false ∨
    ((join (join j.recordings date) name).length < maxPathLen ∧ (relativeName date name).length < 192 ∧
      (wavIdentity (some date) name = none ∨ ∃ data, c.vol.lookup (join (join j.recordings date) name) = some (.file data)))

/-- What a child of the recordings directory has passed. -/
def ChildChecked (j : ScanPaths) (c : Card) (name : Bytes) : Prop :=
  isDot name = true ∨ ((join j.recordings name).length < maxPathLen ∧
    (dateDirHasShape name = true → validDateDir name = true ∧ c.isDir (join j.recordings name) = true) ∧
    (validDateDir name = true → c.isDir (join j.recordings name) = true →
      ∀ n ∈ children c.vol (join j.recordings name), WavChecked j c name n))

/-- Every name of the tree has passed. -/
structure TreeChecked (j : ScanPaths) (c : Card) : Prop where
  dir : c.isDir j.recordings = true
  names : ∀ name ∈ children c.vol j.recordings, ChildChecked j c name

section Checked

/-- The journal of some extension of `m`, with the scanned tree as in `c0`. -/
def Scanning (j : ScanPaths) (c0 : Card) (m : Manifest) (c : Card) : Prop :=
  ∃ m', m.Extended m' ∧ j.Attached False c0 m' c

/-- A loop has gone on with `P`, or it has failed with a result that says so. -/
def Passed (P : Card → Prop) : Except SyncResult Scan → Card → Prop
  | .ok _, c => P c
  | .error r, _ => r.ok = false

theorem Passed.mono {P P' : Card → Prop} (h : ∀ c, P c → P' c) {r : Except SyncResult Scan} (hr : Passed P r c) :
    Passed P' r c := by
  cases r with
  | error r => exact hr
  | ok scan => exact h c hr

theorem Scanning.fail (h : Scanning j c0 m c) : Scanning j c0.fail m c.fail := by
  obtain ⟨m', hm, hatt⟩ := h
  exact ⟨m', hm, hatt.fail⟩

theorem Scanning.children_eq (h : Scanning j c0 m c) (name : Bytes) (n : Bytes) :
    n ∈ children c.vol (join j.recordings name) ↔ n ∈ children c0.vol (join j.recordings name) := by
  obtain ⟨m', -, hatt⟩ := h
  have hpath : join (join j.recordings name) n = j.recordings ++ (slash :: (name ++ slash :: n)) := by simp [join]
  rw [mem_children, mem_children, hpath, hatt.outside]

theorem Scanning.isDir_eq (h : Scanning j c0 m c) (rest : Bytes) : c.isDir (j.recordings ++ rest) = c0.isDir (j.recordings ++ rest) := by
  obtain ⟨m', -, hatt⟩ := h
  rw [Card.isDir, hatt.outside]
  rfl

theorem wp_scanWavs_checked {names : List Bytes} (hc : Scanning j c0 m c) :
    device.wp A (fun _ => True) (scanWavs (j.args deviceId updatedAt state) date names scan)
      (Passed fun c' => Scanning j c0 m c' ∧ ∀ n ∈ names, WavChecked j c0 date n) c := by
  induction names generalizing c scan with
  | nil => exact ⟨hc, by simp⟩
  | cons name names ih =>
    have hcons : ∀ (c' : Card) (scan' : Scan), Scanning j c0 m c' → WavChecked j c0 date name →
        device.wp A (fun _ => True) (scanWavs (j.args deviceId updatedAt state) date names scan')
          (Passed fun c' => Scanning j c0 m c' ∧ ∀ n ∈ name :: names, WavChecked j c0 date n) c' :=
      fun c' scan' hc' hname => wp_mono _ (ih hc') fun r c'' h =>
        Passed.mono (fun _ h => ⟨h.1, List.forall_mem_cons.mpr ⟨hname, h.2⟩⟩) h
    obtain ⟨m1, hm, hatt⟩ := hc
    unfold scanWavs
    split
    case isTrue hskip =>
      refine hcons c scan ⟨m1, hm, hatt⟩ ?_
      rcases hskip with hdot | haud
      · exact Or.inl hdot
      · exact Or.inr (Or.inl (by simpa using haud))
    case isFalse =>
      dsimp only
      split
      · exact rfl
      case isFalse hlen =>
        simp only [ge_iff_le, not_or, not_le] at hlen
        rw [wp_bind]
        refine wp_ensureOneWav ⟨date, name, []⟩ scan hatt hm (fun _ _ => trivial) (fun hid => ?_)
          (fun m2 c' data hm2 hc' hfile _ _ _ => ?_) fun scan' c' _ => rfl
        · exact hcons c _ ⟨m1, hm, hatt⟩ (Or.inr (Or.inr ⟨hlen.1, hlen.2, Or.inl hid⟩))
        · refine hcons c' _ ⟨m2, hm.trans hm2, hc'⟩ (Or.inr (Or.inr ⟨hlen.1, hlen.2, Or.inr ⟨data, ?_⟩⟩))
          have hlookup := Card.file?_eq_some.mp hfile
          rw [wavPath_recordings, hatt.outside, ← wavPath_recordings] at hlookup
          exact hlookup

theorem wp_scanDateDir_checked (hc : Scanning j c0 m c) :
    device.wp A (fun _ => True) (scanDateDir (j.args deviceId updatedAt state) date scan)
      (Passed fun c' => Scanning j c0 m c' ∧ ∀ n ∈ children c0.vol (join j.recordings date), WavChecked j c0 date n) c := by
  unfold scanDateDir
  rw [wp_bind]
  refine wp_opendir trivial (fun hdir names henum => ?_) (fun names _ hdir henum => ?_) fun _ => rfl
  · dsimp only
    rw [wp_bind]
    refine wp_mono _ (wp_scanWavs_checked hc) fun r c' h => ?_
    cases r with
    | error r =>
      rw [wp_bind]
      exact wp_closedir trivial h fun _ => h
    | ok scan1 =>
      rw [wp_bind]
      refine wp_closedir trivial ?_ fun _ => ?_
      · simp only [Bool.not_true, Bool.false_eq_true, or_self, if_false]
        refine ⟨h.1, fun n hn => ?_⟩
        cases hdot : isDot n with
        | true => exact Or.inl hdot
        | false => exact h.2 n (henum.complete rfl n ((hc.children_eq date n).mpr hn) hdot)
      · simp [Passed, SyncResult.fail]
  · -- a listing that ends in an error is never taken for a complete one
    dsimp only
    rw [wp_bind]
    refine wp_mono _ (wp_scanWavs_checked hc.fail) fun r c' h => ?_
    cases r with
    | error r =>
      rw [wp_bind]
      exact wp_closedir trivial h fun _ => h
    | ok scan1 =>
      rw [wp_bind]
      refine wp_closedir trivial ?_ fun _ => ?_ <;> simp [Passed, SyncResult.fail]

theorem wp_scanTree_checked {names : List Bytes} (hc : Scanning j c0 m c) :
    device.wp A (fun _ => True) (scanTree (j.args deviceId updatedAt state) names scan)
      (Passed fun c' => Scanning j c0 m c' ∧ ∀ n ∈ names, ChildChecked j c0 n) c := by
  induction names generalizing c scan with
  | nil => exact ⟨hc, by simp⟩
  | cons name names ih =>
    have hcons : ∀ (c' : Card) (scan' : Scan), Scanning j c0 m c' → ChildChecked j c0 name →
        device.wp A (fun _ => True) (scanTree (j.args deviceId updatedAt state) names scan')
          (Passed fun c' => Scanning j c0 m c' ∧ ∀ n ∈ name :: names, ChildChecked j c0 n) c' :=
      fun c' scan' hc' hname => wp_mono _ (ih hc') fun r c'' h =>
        Passed.mono (fun _ h => ⟨h.1, List.forall_mem_cons.mpr ⟨hname, h.2⟩⟩) h
    have hdir := hc.isDir_eq (slash :: name)
    rw [← join_recordings] at hdir
    unfold scanTree
    split
    case isTrue hdot => exact hcons c scan hc (Or.inl hdot)
    case isFalse =>
      dsimp only
      split
      · exact rfl
      case isFalse hlen =>
        rw [wp_bind]
        refine wp_stat trivial ?_ fun _ code => rfl
        cases hst : c.statAns (join (j.args deviceId updatedAt state).recordingsDir name) with
        | error e => exact rfl
        | ok st =>
          have hisDir : st.isDir = c0.isDir (join j.recordings name) := (Card.statAns_isDir hst).trans hdir
          simp only
          split
          · exact rfl
          case isFalse hshape =>
            simp only [not_and, not_or, Bool.not_eq_true', Bool.not_eq_false] at hshape
            have hshape' : dateDirHasShape name = true → validDateDir name = true ∧ c0.isDir (join j.recordings name) = true :=
              fun h => ⟨(hshape h).1, hisDir ▸ (hshape h).2⟩
            have hlen' : (join j.recordings name).length < maxPathLen := not_le.mp hlen
            split
            case isTrue hd =>
              split
              case isTrue hvalid =>
                exact hcons c scan hc (Or.inr ⟨hlen', hshape', fun h => by simp [h] at hvalid⟩)
              case isFalse =>
                rw [wp_bind]
                refine wp_mono _ (wp_scanDateDir_checked hc) fun r c' h => ?_
                cases r with
                | error r => exact h
                | ok scan1 => exact hcons c' scan1 h.1 (Or.inr ⟨hlen', hshape', fun _ _ => h.2⟩)
            case isFalse hd =>
              exact hcons c _ hc (Or.inr ⟨hlen', hshape', fun _ h => absurd (hisDir ▸ h) hd⟩)

theorem WavChecked.congr {name : Bytes} (h : WavChecked j c0 date name)
    (hout : ∀ rest, c.vol.lookup (j.recordings ++ rest) = c0.vol.lookup (j.recordings ++ rest)) :
    WavChecked j c date name := by
  rcases h with hdot | haud | ⟨hlen, hrel, hid⟩
  · exact Or.inl hdot
  · exact Or.inr (Or.inl haud)
  · refine Or.inr (Or.inr ⟨hlen, hrel, hid.imp_right ?_⟩)
    have hpath : join (join j.recordings date) name = j.recordings ++ (slash :: (date ++ slash :: name)) := by simp [join]
    rw [hpath, hout]
    exact id

/-- A tree that has passed still has passed when only the journal has changed. -/
theorem Scanning.treeChecked (h : Scanning j c0 m c) (hdir : c0.isDir j.recordings = true)
    (hall : ∀ name ∈ children c0.vol j.recordings, ChildChecked j c0 name) : TreeChecked j c := by
  have hout : ∀ rest, c.vol.lookup (j.recordings ++ rest) = c0.vol.lookup (j.recordings ++ rest) := by
    obtain ⟨m', -, hatt⟩ := h
    exact hatt.outside
  refine ⟨?_, fun name hname => ?_⟩
  · have heq := h.isDir_eq []
    rw [List.append_nil] at heq
    rw [heq, hdir]
  · have hname0 : name ∈ children c0.vol j.recordings := by
      rw [mem_children, join_recordings, hout] at hname
      exact mem_children.mpr hname
    have hdirs := h.isDir_eq (slash :: name)
    rw [← join_recordings] at hdirs
    rcases hall name hname0 with hdot | ⟨hlen, hshape, hwavs⟩
    · exact Or.inl hdot
    · rw [ChildChecked, hdirs]
      refine Or.inr ⟨hlen, hshape, fun hvalid hd n hn => ?_⟩
      exact (hwavs hvalid hd n ((h.children_eq name n).mp hn)).congr hout

/-- A scan that returns true has passed every name of the tree. -/
theorem wp_sync_checked : device.wp A (fun _ => True) (deviceManifestSyncWavDir (j.args deviceId updatedAt state))
    (fun r c => r.ok = true → TreeChecked j c ∧
      ∃ m : Manifest, m.deviceId = deviceId ∧ c.vol.lookup j.manifest = some (.file m.render)) c0 := by
  have hfail : ∀ (r : SyncResult) (c : Card), r.ok = false → r.ok = true → TreeChecked j c ∧
      ∃ m : Manifest, m.deviceId = deviceId ∧ c.vol.lookup j.manifest = some (.file m.render) :=
    fun r c h h' => absurd (h.symm.trans h') (by decide)
  unfold deviceManifestSyncWavDir
  split
  · exact hfail _ _ rfl
  case isFalse hargs =>
    simp only [ScanPaths.args, not_or, Bool.not_eq_true', Bool.not_eq_false] at hargs
    simp only [ScanPaths.args]
    rw [wp_bind]
    refine wp_manifestRecordingCount trivial ?_ fun _ => hfail _ _ rfl
    cases hdoc : boundedFile c0 j.manifest manifestMaxBytes with
    | none => exact hfail _ _ rfl
    | some doc =>
      cases hvalid : manifestSnapshotValid doc deviceId with
      | false =>
        simp only [hvalid]
        exact hfail _ _ rfl
      | true =>
        obtain ⟨m, hm, hfile⟩ := manifest_of_valid hargs.2.2.2.1 hdoc hvalid
        have hc : Scanning j c0 m c0 :=
          ⟨m, .rfl' m, _, _, ⟨hfile, rfl, rfl, fun _ _ _ _ => rfl, rfl⟩, False.elim, False.elim⟩
        simp only [hvalid, if_true]
        rw [wp_bind]
        refine wp_opendir trivial (fun hdir names henum => ?_) (fun names _ hdir henum => ?_) fun _ => hfail _ _ rfl
        · dsimp only
          rw [wp_bind]
          refine wp_mono _ (wp_scanTree_checked hc) fun r c' h => ?_
          cases r with
          | error r =>
            rw [wp_bind]
            exact wp_closedir trivial (hfail r _ h) fun _ => hfail r _ h
          | ok scan =>
            have htree : TreeChecked j c' := h.1.treeChecked hdir fun name hname => by
              cases hdot : isDot name with
              | true => exact Or.inl hdot
              | false => exact h.2 name (henum.complete rfl name hname hdot)
            rw [wp_bind]
            refine wp_closedir trivial ?_ fun _ => by simpa using hfail _ _ rfl
            simp only [Bool.not_true, Bool.false_eq_true, or_self, if_false]
            rw [wp_bind]
            refine wp_manifestRecordingCount trivial ?_ fun _ => hfail _ _ rfl
            split
            · exact hfail _ _ rfl
            · split
              · exact hfail _ _ rfl
              · obtain ⟨m', hext, hatt⟩ := h.1
                exact fun _ => ⟨htree, m', hext.deviceId.trans hm, hatt.lookup⟩
        · dsimp only
          rw [wp_bind]
          refine wp_mono _ (wp_scanTree_checked hc.fail) fun r c' h => ?_
          cases r with
          | error r =>
            rw [wp_bind]
            exact wp_closedir trivial (hfail r _ h) fun _ => hfail r _ h
          | ok scan =>
            rw [wp_bind]
            refine wp_closedir trivial ?_ fun _ => ?_ <;> simpa using hfail _ _ rfl

end Checked

section Again

variable {recordings : Path} {w : WavFile} {e0 : Entry}

/-- A second scan meets no fault but the order of a listing. -/
def OrderOnly (f : Fault) : Prop := ∃ names, f = .order names false

theorem not_ioFault : ¬ IoFault OrderOnly := by
  rintro ⟨code, n, names, h⟩
  cases h

theorem not_order_error {names : List Bytes} : ¬ OrderOnly (.order names true) := by
  rintro ⟨names', h⟩
  cases h

theorem wavIdentity_stamp {name id started : Bytes} {dir : Option Bytes} (h : wavIdentity dir name = some (id, started)) :
    isValidIso8601Offset started = true := by
  simp only [wavIdentity, Option.bind_eq_bind, Option.bind_eq_some_iff, Option.ite_none_right_eq_some,
    Option.some.injEq, Prod.mk.injEq] at h
  obtain ⟨x, hx, d, hd, t, ht, hok, -, rfl⟩ := h
  exact hok.2.2

theorem audience_path {dir name : Bytes} (h : audienceWavName name = true) : finalizedWavPath (join dir name) = true := by
  have hlit : lit ".wav" = wavSuffix := by with_unfolding_all decide
  have hno : ¬ wavSuffix <:+ partSuffix := by with_unfolding_all decide
  have hlen : wavSuffix.length ≤ partSuffix.length := by with_unfolding_all decide
  simp only [audienceWavName, Bool.and_eq_true, decide_eq_true_eq] at h
  have hsuffix : wavSuffix <:+ join dir name := (hlit ▸ h.1.2).trans (List.suffix_append_of_suffix (List.suffix_cons _ _))
  have hpart : ¬ partSuffix <:+ join dir name := fun hp => hno (List.suffix_of_suffix_length_le hsuffix hp hlen)
  have hpath : 5 ≤ (join dir name).length := by
    rw [join, List.length_append, List.length_cons]
    omega
  simp [finalizedWavPath, hsuffix, hpart, hpath]

/-- The entry that a scan builds again for a recorded file. -/
def rebuilt (e0 : Entry) (started state : Bytes) : Entry :=
  { e0 with startedAt := started, state := state, firmwareVersion := firmwareVersion }

theorem rebuilt_valid {started : Bytes} (h0 : e0.Valid) (hstarted : isValidIso8601Offset started = true)
    (hstate : state = stateFinalized ∨ state = stateRecovered) : (rebuilt e0 started state).Valid := by
  have hfw : firmwareVersion ≠ [] ∧ firmwareVersion.length ≤ 32 ∧ firmwareVersion.all plainChar = true := by
    with_unfolding_all decide
  exact { h0 with startedAt := hstarted, state := hstate, firmwareVersion := hfw }

/-- A file that has its entry is found in the manifest again, and nothing changes. -/
theorem wp_ensureOneWav_again (hfile : c.vol.lookup j.manifest = some (.file m.render)) (h0 : e0 ∈ m.entries)
    (hrec : Records e0 w) (hw : Admitted j.recordings c w) (hwav : FinalizedWav w.data)
    (hstamp : isValidIso8601Offset updatedAt = true) (hstate : state = stateFinalized ∨ state = stateRecovered) :
    device.wp OrderOnly (fun _ => True)
      (ensureOneWav (j.args m.deviceId updatedAt state) (w.path j.recordings) w.rel (some w.date) w.name scan)
      (fun r c' => r = (true, { scan with indexed := scan.indexed + 1 }) ∧ c' = c) c := by
  obtain ⟨started, hid, hcompat⟩ := hrec.identity
  have hid' := hid
  rw [WavFile.identity] at hid'
  have hvalid : (rebuilt e0 started state).Valid := rebuilt_valid (m.entries_valid e0 h0) (wavIdentity_stamp hid') hstate
  have hhash : hashedWav c (w.path j.recordings) = some (sha256Hex w.data, w.data.length) := by
    simp only [hashedWav, Card.file?_eq_some.mpr hw.file]
    rw [if_pos ⟨audience_path hw.audience, hwav⟩]
  have halign : (w.data.length - wavHeaderSize) % bytesPerSample = 0 := hwav.2.2.1
  have hbuild : deviceManifestBuildEntry e0.recordingId w.rel started
      (deviceManifestDurationMs (w.data.length - wavHeaderSize - (w.data.length - wavHeaderSize) % bytesPerSample)).toUInt32
      w.data.length.toUInt32 (sha256Hex w.data) sampleRateHz bitsPerSample channelCount state none manifestEntryMax =
      some (rebuilt e0 started state).render := by
    rw [halign, Nat.sub_zero, ← hrec.duration, ← hrec.size, ← hrec.sha256, ← hrec.filename]
    exact deviceManifestBuildEntry_built hvalid.toBuilt
      (Nat.lt_of_le_of_lt (Entry.render_length hvalid.toBuilt) (by decide))
  have hmatch : e0.matchesKey (rebuilt e0 started state).key = true := by
    simp [Entry.matchesKey, Entry.key, rebuilt, hcompat]
  unfold ensureOneWav
  rw [hid']
  simp only
  rw [wp_bind]
  refine wp_deviceManifestHashWavFile trivial ?_ fun h => absurd h not_ioFault
  rw [hhash]
  simp only
  rw [wp_bind]
  refine wp_malloc trivial ?_ fun h => absurd h not_ioFault
  simp only [Bool.not_true, Bool.false_eq_true, if_false, ScanPaths.args, hbuild]
  rw [wp_bind]
  refine wp_mono _ (wp_upsert_present not_ioFault ⟨j.manifest_ne, j.tmp_ne⟩ hfile hvalid h0 rfl hstamp) ?_
  rintro r c' ⟨rfl, rfl⟩
  rw [if_pos hmatch]
  exact ⟨rfl, rfl⟩

/-- What a scan that returned true leaves behind. -/
structure Matched (j : ScanPaths) (m : Manifest) (c : Card) : Prop where
  manifest : c.vol.lookup j.manifest = some (.file m.render)
  exact : Exact j.recordings c m
  tree : TreeChecked j c

theorem wp_scanWavs_again (h : Matched j m c) (hdate : validDateDir date = true)
    (hdir : c.isDir (join j.recordings date) = true) (hstamp : isValidIso8601Offset updatedAt = true)
    (hstate : state = stateFinalized ∨ state = stateRecovered) {names : List Bytes}
    (hnames : ∀ n ∈ names, isDot n = false → (n ≠ [] ∧ slash ∉ n) ∧ WavChecked j c date n) :
    device.wp OrderOnly (fun _ => True) (scanWavs (j.args m.deviceId updatedAt state) date names scan)
      (fun r c' => (∃ scan', r = .ok scan') ∧ c' = c) c := by
  induction names generalizing scan with
  | nil => exact ⟨⟨scan, rfl⟩, rfl⟩
  | cons name names ih =>
    have hnext : ∀ scan', device.wp OrderOnly (fun _ => True) (scanWavs (j.args m.deviceId updatedAt state) date names scan')
        (fun r c' => (∃ scan', r = .ok scan') ∧ c' = c) c :=
      fun scan' => ih fun n hn => hnames n (List.mem_cons_of_mem _ hn)
    unfold scanWavs
    split
    case isTrue => exact hnext scan
    case isFalse hname =>
      simp only [not_or, Bool.not_eq_true', Bool.not_eq_false, Bool.not_eq_true] at hname
      obtain ⟨hchild, hchecked⟩ := hnames name List.mem_cons_self hname.1
      rcases hchecked with hdot | haud | ⟨hlen, hrel, hid⟩
      · exact absurd (hname.1.symm.trans hdot) (by decide)
      · exact absurd (haud.symm.trans hname.2) (by decide)
      · dsimp only
        rw [if_neg (by simpa using ⟨hlen, hrel⟩), wp_bind]
        cases hident : wavIdentity (some date) name with
        | none =>
          unfold ensureOneWav
          rw [hident]
          exact hnext _
        | some ids =>
          obtain ⟨data, hfile⟩ := hid.resolve_left (by simp [hident])
          let w : WavFile := ⟨date, name, data⟩
          have hw : Admitted j.recordings c w :=
            ⟨hdir, hfile, hdate, hchild, hname.2, by simp [w, WavFile.identity, hident]⟩
          obtain ⟨hwav, e0, ⟨h0, hrec⟩, -⟩ := h.exact.entry w hw
          refine wp_mono _ (wp_ensureOneWav_again h.manifest h0 hrec hw hwav hstamp hstate) ?_
          rintro r c' ⟨rfl, rfl⟩
          exact hnext _

theorem wp_scanDateDir_again (h : Matched j m c) (hdate : validDateDir date = true)
    (hdir : c.isDir (join j.recordings date) = true) (hstamp : isValidIso8601Offset updatedAt = true)
    (hstate : state = stateFinalized ∨ state = stateRecovered)
    (hall : ∀ n ∈ children c.vol (join j.recordings date), WavChecked j c date n) :
    device.wp OrderOnly (fun _ => True) (scanDateDir (j.args m.deviceId updatedAt state) date scan)
      (fun r c' => (∃ scan', r = .ok scan') ∧ c' = c) c := by
  unfold scanDateDir
  rw [wp_bind]
  refine wp_opendir trivial (fun _ names henum => ?_) (fun names hA => absurd hA not_order_error) fun hno => ?_
  · dsimp only
    rw [wp_bind]
    refine wp_mono _ (wp_scanWavs_again h hdate hdir hstamp hstate fun n hn hdot => ?_) ?_
    · have hmem := henum.sound n hn hdot
      exact ⟨(mem_children.mp hmem).2, hall n hmem⟩
    · rintro r c' ⟨⟨scan', rfl⟩, rfl⟩
      rw [wp_bind]
      refine wp_closedir trivial ?_ fun hA => absurd hA not_ioFault
      simp only [Bool.not_true, Bool.false_eq_true, or_self, if_false]
      exact ⟨⟨scan', rfl⟩, rfl⟩
  · rcases hno with hA | hno
    · exact absurd hA not_ioFault
    · exact absurd (hno.symm.trans hdir) (by decide)

theorem wp_scanTree_again (h : Matched j m c) (hstamp : isValidIso8601Offset updatedAt = true)
    (hstate : state = stateFinalized ∨ state = stateRecovered) {names : List Bytes}
    (hnames : ∀ n ∈ names, isDot n = false → n ∈ children c.vol j.recordings) :
    device.wp OrderOnly (fun _ => True) (scanTree (j.args m.deviceId updatedAt state) names scan)
      (fun r c' => (∃ scan', r = .ok scan') ∧ c' = c) c := by
  induction names generalizing scan with
  | nil => exact ⟨⟨scan, rfl⟩, rfl⟩
  | cons name names ih =>
    have hnext : ∀ scan', device.wp OrderOnly (fun _ => True) (scanTree (j.args m.deviceId updatedAt state) names scan')
        (fun r c' => (∃ scan', r = .ok scan') ∧ c' = c) c :=
      fun scan' => ih fun n hn => hnames n (List.mem_cons_of_mem _ hn)
    unfold scanTree
    split
    case isTrue => exact hnext scan
    case isFalse hdot =>
      have hmem := hnames name List.mem_cons_self (by simpa using hdot)
      rcases h.tree.names name hmem with hd | ⟨hlen, hshape, hwavs⟩
      · exact absurd hd hdot
      · have hpath : (j.args m.deviceId updatedAt state).recordingsDir = j.recordings := rfl
        dsimp only
        rw [hpath, if_neg (by simpa using hlen), wp_bind]
        refine wp_stat trivial ?_ fun hA => absurd hA not_ioFault
        cases hst : c.statAns (join j.recordings name) with
        | error e =>
          have hsome := (mem_children.mp hmem).1
          unfold Card.statAns at hst
          split at hst <;> simp_all
        | ok st =>
          have hisDir := Card.statAns_isDir hst
          simp only
          rw [if_neg]
          · split
            case isTrue hd =>
              split
              · exact hnext scan
              case isFalse hvalid =>
                have hvalid' : validDateDir name = true := by simpa using hvalid
                have hdir : c.isDir (join j.recordings name) = true := hisDir ▸ hd
                rw [wp_bind]
                refine wp_mono _ (wp_scanDateDir_again h hvalid' hdir hstamp hstate (hwavs hvalid' hdir)) ?_
                rintro r c' ⟨⟨scan', rfl⟩, rfl⟩
                exact hnext scan'
            case isFalse => exact hnext _
          · rintro ⟨hs, hbad⟩
            have := hshape hs
            rw [hisDir] at hbad
            simp [this] at hbad

/-- As many entries as matched files, when the matching is exact and complete. -/
theorem Exact.count {done : List WavFile} {n : ℕ} (h : Exact j.recordings c m) (hi : Indexed j c m done n m1)
    (hall : ∀ w, Admitted j.recordings c w → w ∈ done) : n = m.entries.length := by
  have hrel : (done.map WavFile.rel).Nodup := by
    refine (List.nodup_map_iff_inj_on (List.Nodup.of_map _ hi.nodup)).mpr fun w hw w' hw' heq => ?_
    exact (hi.admitted w hw).1.rel_inj (hi.admitted w' hw').1 heq
  have hnames : (m.entries.map Entry.filename).Nodup := by
    refine (List.nodup_map_iff_inj_on (List.Nodup.of_map _ m.ids_nodup)).mpr fun e he e' he' heq => ?_
    obtain ⟨w, ⟨hw, hrec⟩, -⟩ := h.file e he
    obtain ⟨w', ⟨hw', hrec'⟩, -⟩ := h.file e' he'
    obtain rfl := hw.rel_inj hw' (hrec.filename.symm.trans (heq.trans hrec'.filename))
    obtain ⟨-, e1, -, huniq⟩ := h.entry w hw
    exact (huniq e ⟨he, hrec⟩).trans (huniq e' ⟨he', hrec'⟩).symm
  have hperm : (done.map WavFile.rel).Perm (m.entries.map Entry.filename) := by
    refine (List.perm_ext_iff_of_nodup hrel hnames).mpr fun r => ⟨fun hr => ?_, fun hr => ?_⟩
    · obtain ⟨w, hw, rfl⟩ := List.mem_map.mp hr
      obtain ⟨-, e, ⟨he, hrec⟩, -⟩ := h.entry w (hi.admitted w hw).1
      exact List.mem_map.mpr ⟨e, he, hrec.filename⟩
    · obtain ⟨e, he, rfl⟩ := List.mem_map.mp hr
      obtain ⟨w, ⟨hw, hrec⟩, -⟩ := h.file e he
      exact List.mem_map.mpr ⟨w, hall w hw, hrec.filename.symm⟩
  have hlen := hperm.length_eq
  rw [List.length_map, List.length_map] at hlen
  rw [hi.count, hlen]

/-- The second scan, in whatever order it reads the tree. -/
theorem wp_sync_again (h : Matched j m c) (hstamp : isValidIso8601Offset updatedAt = true)
    (hstate : state = stateFinalized ∨ state = stateRecovered) :
    device.wp OrderOnly (fun _ => True) (deviceManifestSyncWavDir (j.args m.deviceId updatedAt state))
      (fun r c' => (r.ok = true ∧ r.added = 0) ∧ c' = c) c := by
  have hcount := count_manifest j.manifest_ne h.manifest
  unfold deviceManifestSyncWavDir
  rw [if_neg]
  · simp only [ScanPaths.args]
    rw [wp_bind]
    refine wp_manifestRecordingCount trivial ?_ fun hA => absurd hA not_ioFault
    rw [hcount]
    simp only
    rw [wp_bind]
    refine wp_opendir trivial (fun _ names henum => ?_) (fun names hA => absurd hA not_order_error) fun hno => ?_
    · simp only
      rw [wp_bind]
      have hc : j.Attached False c m c := ⟨_, _, ⟨h.manifest, rfl, rfl, fun _ _ _ _ => rfl, rfl⟩, False.elim, False.elim⟩
      have hi : Indexed j c m [] 0 m := ⟨.rfl' m, rfl, by simp, by simp, by simp⟩
      have hindexed : device.wp OrderOnly (fun _ => True) (scanTree (j.args m.deviceId updatedAt state) names ⟨0, 0, .ok⟩)
          (fun r _ => ∀ scan', r = .ok scan' → scan'.indexed = m.entries.length) c := by
        refine wp_scanTree (m := m) (fun _ _ => trivial) hc hi henum.nodup (by simp) (fun m2 c' done scan hc' hi' _ hall => ?_)
          fun r c' hr hs scan' heq => by cases heq
        intro scan' heq
        obtain rfl := Except.ok.inj heq
        exact h.exact.count hi' fun w hw => hall w hw (henum.complete rfl w.date hw.mem_children hw.notDot)
      have hok : device.wp OrderOnly (fun _ => True) (scanTree (j.args m.deviceId updatedAt state) names ⟨0, 0, .ok⟩)
          (fun r c' => (∃ scan', r = .ok scan') ∧ c' = c) c :=
        wp_scanTree_again h hstamp hstate fun n hn hdot => henum.sound n hn hdot
      refine wp_mono _ (wp_crash_mono _ (wp_and _ hok hindexed) fun _ _ => trivial) ?_
      rintro r c' ⟨⟨⟨scan', rfl⟩, rfl⟩, hn⟩
      have hlen := hn scan' rfl
      simp only
      rw [wp_bind]
      refine wp_closedir trivial ?_ fun hA => absurd hA not_ioFault
      simp only [Bool.false_eq_true, Bool.not_true, or_self, if_false]
      rw [wp_bind]
      refine wp_manifestRecordingCount trivial ?_ fun hA => absurd hA not_ioFault
      rw [hcount]
      simp only
      rw [if_neg (by rw [hlen]; simp)]
      exact ⟨⟨rfl, Nat.sub_self _⟩, rfl⟩
    · rcases hno with hA | hno
      · exact absurd hA not_ioFault
      · exact absurd (hno.symm.trans h.tree.dir) (by decide)
  · simp only [ScanPaths.args, j.recordings_ne, j.manifest_ne, j.tmp_ne, m.deviceId_uuid, hstamp, Bool.not_true,
      Bool.false_eq_true, false_or]
    rintro ⟨h1, h2⟩
    exact hstate.elim h1 h2

end Again

section Idempotent

/-- Nothing happens during the run but that directories are read in some order. -/
def OrdersOnly (es : List (Event Fault)) : Prop :=
  ∀ ev ∈ es, ev = .act none ∨ ∃ names, ev = .act (some (.order names false))

theorem OrdersOnly.admits {es : List (Event Fault)} (h : OrdersOnly es) : Admits OrderOnly es := by
  intro f hf x hx
  rcases h _ hf with heq | ⟨names, heq⟩
  · obtain rfl := Event.act.inj heq
    cases hx
  · obtain rfl := Event.act.inj heq
    exact ⟨names, (Option.mem_some_iff.mp hx).symm⟩

theorem OrdersOnly.cut_not_mem {es : List (Event Fault)} (h : OrdersOnly es) (n : ℕ) : Event.cut n ∉ es := by
  intro hn
  rcases h _ hn with heq | ⟨names, heq⟩ <;> cases heq

/-- A scan that returned true has left a matched tree. -/
theorem matched_of_run {c1 : Card} {r : SyncResult} {es : List (Event Fault)} (hclear : c0.dirFailed = false)
    (hrun : device.run (deviceManifestSyncWavDir (j.args deviceId updatedAt state)) es c0 = .done r c1) (hok : r.ok = true) :
    ∃ m : Manifest, m.deviceId = deviceId ∧ Matched j m c1 := by
  have hany : Admits (fun _ : Fault => True) es := fun _ _ _ _ => trivial
  have hpost := run_sat (deviceManifestSyncWavDir (j.args deviceId updatedAt state)) es
    (wp_deviceManifestSyncWavDir hclear) hany
  have hchecked := run_sat (s := c0) (deviceManifestSyncWavDir (j.args deviceId updatedAt state)) es wp_sync_checked hany
  rw [hrun] at hpost hchecked
  obtain ⟨m', hfile', hexact⟩ := hpost.exact hok
  obtain ⟨htree, m, hm, hfile⟩ := hchecked hok
  rw [hfile] at hfile'
  have hentries := Snapshot.render_entries (Node.file.inj (Option.some.inj hfile'))
  refine ⟨m, hm, hfile, ⟨fun e he => hexact.file e (hentries ▸ he), fun w hw => ?_⟩, htree⟩
  rw [hentries]
  exact hexact.entry w hw

/-- A scan that returned true, whatever faults it met, and another one of the tree it left, in any order of the
directories, with any valid update stamp and either state: the other returns true, adds nothing and changes nothing. -/
theorem deviceManifestSyncWavDir_idempotent {updatedAt' state' : Bytes} {c1 : Card} {r : SyncResult}
    {es es' : List (Event Fault)} (hclear : c0.dirFailed = false)
    (hrun : device.run (deviceManifestSyncWavDir (j.args deviceId updatedAt state)) es c0 = .done r c1) (hok : r.ok = true)
    (hstamp : isValidIso8601Offset updatedAt' = true) (hstate : state' = stateFinalized ∨ state' = stateRecovered)
    (hes : OrdersOnly es') :
    ∃ r', device.run (deviceManifestSyncWavDir (j.args deviceId updatedAt' state')) es' c1 = .done r' c1 ∧
      r'.ok = true ∧ r'.added = 0 := by
  obtain ⟨m, rfl, hmatched⟩ := matched_of_run hclear hrun hok
  obtain ⟨r', c2, hrun'⟩ := run_done (D := device)
    (deviceManifestSyncWavDir (j.args m.deviceId updatedAt' state')) es' c1 hes.cut_not_mem
  have hsat := run_sat _ es' (wp_sync_again hmatched hstamp hstate) hes.admits
  rw [hrun'] at hsat
  obtain ⟨hr', rfl⟩ := hsat
  exact ⟨r', hrun', hr'⟩

section Sample

/-- A finalized file of one sample, and the entry that it has. -/
def sampleWav : Bytes := wavPartBuildHeader (List.length [(0 : UInt8), 0]) ++ [0, 0]

theorem sampleWav_finalized : FinalizedWav sampleWav := finalizedWav_header [0, 0] (by decide) (by decide)

def sampleShort : Entry := { sampleEntry with durationMs := 0, sizeBytes := 46, sha256 := sha256Hex sampleWav }

theorem sampleShort_valid : sampleShort.Valid :=
  { sampleEntry_valid with
    duration_lt := by decide
    size_lt := by decide
    header := by decide
    sha256 := sha256Hex_valid sampleWav
    consistent := by decide }

def sampleTreeManifest : Manifest where
  deviceId := sampleId
  updatedAt := sampleStamp
  entries := [sampleShort]
  deviceId_plain := uuid_plain sampleId_uuid
  updatedAt_valid := sampleStamp_valid
  entries_valid := by simpa using sampleShort_valid
  ids_nodup := by simp
  deviceId_uuid := sampleId_uuid
  fits := (document_length sampleId_uuid sampleStamp_valid (by simpa using sampleShort_valid.toBuilt)).trans (by decide)

def sampleFile : WavFile := ⟨lit "2025-06-01", lit "101500_1b4e28ba-2fa1-41d2-883f-0016d3cca427.wav", sampleWav⟩

/-- A card with the one recording and its manifest. -/
def sampleTree : Card where
  vol := (((AList.insert recordingsDir .dir ∅).insert (join recordingsDir sampleFile.date) .dir).insert
    (sampleFile.path recordingsDir) (.file sampleWav)).insert manifestPath (.file sampleTreeManifest.render)
  dirFailed := false

theorem sampleTree_lookup (p : Path) : sampleTree.vol.lookup p =
    if p = manifestPath then some (.file sampleTreeManifest.render)
    else if p = sampleFile.path recordingsDir then some (.file sampleWav)
    else if p = join recordingsDir sampleFile.date then some .dir
    else if p = recordingsDir then some .dir else none := by
  unfold sampleTree
  split
  case isTrue h => rw [h, AList.lookup_insert]
  case isFalse h =>
    rw [AList.lookup_insert_ne h]
    split
    case isTrue h => rw [h, AList.lookup_insert]
    case isFalse h =>
      rw [AList.lookup_insert_ne h]
      split
      case isTrue h => rw [h, AList.lookup_insert]
      case isFalse h =>
        rw [AList.lookup_insert_ne h]
        split
        case isTrue h => rw [h, AList.lookup_insert]
        case isFalse h => rw [AList.lookup_insert_ne h, AList.lookup_empty]

theorem sampleFile_identity : sampleFile.identity = some (sampleId, sampleStamp) := by
  rw [sampleFile, sampleId, sampleStamp, lit_ofList, lit_ofList, lit_ofList, lit_ofList]
  decide +kernel

theorem join_ne_manifest (rest : Bytes) : recordingsDir ++ slash :: rest ≠ manifestPath := by
  have hno : ¬ recordingsDir <+: manifestPath := by with_unfolding_all decide
  exact fun h => hno ⟨slash :: rest, h⟩

theorem join_join_ne_manifest (date name : Bytes) : join (join recordingsDir date) name ≠ manifestPath := by
  rw [join, join, List.append_assoc]
  exact join_ne_manifest _

theorem sampleFile_admitted : Admitted recordingsDir sampleTree sampleFile where
  dir := by
    have hmanifest : join recordingsDir sampleFile.date ≠ manifestPath := join_ne_manifest _
    have hwav : join recordingsDir sampleFile.date ≠ sampleFile.path recordingsDir := by simp [WavFile.path, join]
    simp [Card.isDir, sampleTree_lookup, hmanifest, hwav]
  file := by
    have hmanifest : sampleFile.path recordingsDir ≠ manifestPath := join_join_ne_manifest _ _
    simp only [sampleTree_lookup, hmanifest, if_false, if_true]
    rfl
  date := by with_unfolding_all decide
  child := by with_unfolding_all decide
  audience := by with_unfolding_all decide
  identity := by rw [sampleFile_identity]; rfl

/-- The directory of the date is the one child of the recordings. -/
theorem sampleTree_child {name : Bytes} (h : name ∈ children sampleTree.vol recordingsDir) : name = sampleFile.date := by
  obtain ⟨hsome, -, hslash⟩ := mem_children.mp h
  have hself : join recordingsDir name ≠ recordingsDir := by simp [join]
  have hwav : join recordingsDir name ≠ sampleFile.path recordingsDir := by
    intro heq
    rw [WavFile.path, join, join, join, List.append_assoc, List.append_cancel_left_eq, List.cons_append,
      List.cons.injEq] at heq
    exact hslash (heq.2 ▸ by simp)
  have hmanifest : join recordingsDir name ≠ manifestPath := join_ne_manifest name
  rw [sampleTree_lookup, if_neg hmanifest, if_neg hwav, if_neg hself] at hsome
  split at hsome
  case isTrue heq => exact join_inj.mp heq
  case isFalse => cases hsome

/-- The file is the one child of its date. -/
theorem sampleTree_wav {name : Bytes} {n : Node}
    (h : sampleTree.vol.lookup (join (join recordingsDir sampleFile.date) name) = some n) :
    name = sampleFile.name ∧ n = .file sampleWav := by
  have hself : join (join recordingsDir sampleFile.date) name ≠ recordingsDir := by
    intro heq
    have hlen := congrArg List.length heq
    simp only [join, List.length_append, List.length_cons] at hlen
    omega
  have hdir : join (join recordingsDir sampleFile.date) name ≠ join recordingsDir sampleFile.date := by simp [join]
  have hmanifest := join_join_ne_manifest sampleFile.date name
  rw [sampleTree_lookup, if_neg hmanifest, if_neg hdir, if_neg hself] at h
  rw [Option.ite_none_right_eq_some] at h
  exact ⟨join_inj.mp h.1, (Option.some.inj h.2).symm⟩

theorem sampleTree_admitted {w : WavFile} (hw : Admitted recordingsDir sampleTree w) : w = sampleFile := by
  have hdate := sampleTree_child hw.mem_children
  have hfile := hw.file
  rw [WavFile.path, hdate] at hfile
  exact hw.eq sampleFile_admitted hdate (sampleTree_wav hfile).1

theorem sampleShort_records : Records sampleShort sampleFile where
  identity := ⟨sampleStamp, sampleFile_identity, startTimesCompatible_self sampleStamp_valid⟩
  filename := by
    rw [sampleShort, sampleEntry, sampleFile, lit_ofList, lit_ofList, lit_ofList]
    decide +kernel
  size := by decide +kernel
  sha256 := rfl
  duration := by decide +kernel

theorem sampleTree_exact : Exact recordingsDir sampleTree sampleTreeManifest where
  file e he := by
    obtain rfl := List.mem_singleton.mp he
    exact ⟨sampleFile, ⟨sampleFile_admitted, sampleShort_records⟩, fun w hw => sampleTree_admitted hw.1⟩
  entry w hw := by
    obtain rfl := sampleTree_admitted hw
    exact ⟨sampleWav_finalized, sampleShort, ⟨List.mem_singleton.mpr rfl, sampleShort_records⟩,
      fun e he => List.mem_singleton.mp he.1⟩

theorem sampleTree_checked : TreeChecked .production sampleTree where
  dir := by
    have hmanifest : recordingsDir ≠ manifestPath := by with_unfolding_all decide
    have hwav : recordingsDir ≠ sampleFile.path recordingsDir := by simp [WavFile.path, join]
    have hdate : recordingsDir ≠ join recordingsDir sampleFile.date := by simp [join]
    simp [Card.isDir, ScanPaths.production, sampleTree_lookup, hmanifest, hwav, hdate]
  names name hname := by
    obtain rfl := sampleTree_child hname
    have hlen : (join recordingsDir sampleFile.date).length < maxPathLen ∧
        (join (join recordingsDir sampleFile.date) sampleFile.name).length < maxPathLen ∧
        (relativeName sampleFile.date sampleFile.name).length < 192 := by with_unfolding_all decide
    refine Or.inr ⟨hlen.1, fun _ => ⟨sampleFile_admitted.date, sampleFile_admitted.dir⟩, fun _ _ n hn => ?_⟩
    obtain ⟨node, hnode⟩ := Option.isSome_iff_exists.mp (mem_children.mp hn).1
    obtain ⟨rfl, rfl⟩ := sampleTree_wav hnode
    exact Or.inr (Or.inr ⟨hlen.2.1, hlen.2.2, Or.inr ⟨sampleWav, hnode⟩⟩)

theorem sampleTree_matched : Matched .production sampleTreeManifest sampleTree where
  manifest := by simp [ScanPaths.production, ManifestPaths.production, sampleTree_lookup]
  exact := sampleTree_exact
  tree := sampleTree_checked

/-- A scan of the sample's tree. -/
theorem sampleTree_scan : ∃ r, device.run (deviceManifestSyncWavDir (ScanPaths.production.args sampleId sampleStamp
    stateFinalized)) [] sampleTree = .done r sampleTree ∧ r.ok = true := by
  obtain ⟨⟨hok, -⟩, hc⟩ := eval_sat _ (wp_sync_again sampleTree_matched sampleStamp_valid (Or.inl rfl))
  exact ⟨_, by rw [run_nil]; exact congrArg _ hc, hok⟩

theorem deviceManifestSyncWavDir_again : ∃ r', device.run (deviceManifestSyncWavDir (ScanPaths.production.args sampleId
    (lit "2026-01-31T00:00:00+09:00") stateRecovered)) [.act none, .act (some (.order [] false))] sampleTree =
      .done r' sampleTree ∧ r'.ok = true ∧ r'.added = 0 := by
  obtain ⟨r, hrun, hok⟩ := sampleTree_scan
  exact deviceManifestSyncWavDir_idempotent rfl hrun hok (by with_unfolding_all decide) (Or.inr rfl) (by
    intro ev hev
    rcases List.mem_pair.mp hev with rfl | rfl
    · exact Or.inl rfl
    · exact Or.inr ⟨[], rfl⟩)

/-- With a stamp that is none the tree is not scanned a second time. -/
theorem deviceManifestSyncWavDir_badStamp :
    (∃ r, device.run (deviceManifestSyncWavDir (ScanPaths.production.args sampleId sampleStamp stateFinalized)) [] sampleTree =
      .done r sampleTree ∧ r.ok = true) ∧
    ∃ r', device.run (deviceManifestSyncWavDir (ScanPaths.production.args sampleId [] stateFinalized)) [] sampleTree =
      .done r' sampleTree ∧ r'.ok = false := by
  refine ⟨sampleTree_scan, .fail .invalidInput 0, ?_, rfl⟩
  have hbad : isValidIso8601Offset [] = false := by decide
  unfold deviceManifestSyncWavDir
  rw [if_pos (by simp [ScanPaths.args, hbad])]
  rfl

end Sample

end Idempotent

end M5DayLog
