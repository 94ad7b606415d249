import M5DayLog.Wav.Conservation

/-! The recovery scan over the whole tree. One lemma for a part, then the names of a subdirectory, a subdirectory and the names
of the recordings directory, each with what it adds to the parts dealt with and to the counts. -/

namespace M5DayLog

open Bytes Fat Device

section Scan

variable {blind : Path → Bool} {A : Fault → Prop} {P : RecoveryPaths} {c₀ c : Card} {done : List SettledPart} {d n : Bytes}
  {data : Bytes}

theorem wp_steady_opendir {path : Path} {Q : Option Dir → Card → Prop}
    (h : c.isDir path = true → ∀ names, c.Enumerates path ⟨names, false⟩ → Q (some ⟨names, false⟩) c)
    (hnone : c.isDir path = false → Q none c.fail) : (steady blind).wp A (fun _ => True) (opendir path) Q c := by
  apply wp_shield
  apply wp_opendir trivial h
  · rintro names ⟨-, hfault⟩
    simp [steadyFault] at hfault
  · rintro (⟨code, n, -, hfault⟩ | hno)
    · simp [steadyFault] at hfault
    · exact hnone hno

/-- What was there and is no part is as it was. -/
theorem Conserved.lookup_old (h : Conserved P c₀ c done) {x : Path} (hlog : x ∉ P.events)
    (hpart : x ∉ done.map SettledPart.part) (hold : c₀.vol.lookup x ≠ none) : c.vol.lookup x = c₀.vol.lookup x := by
  apply h.others x hlog hpart
  intro hmem
  obtain ⟨s, hs, rfl⟩ := List.mem_map.mp hmem
  have hne : s.place ≠ s.part := fun heq => hpart (heq ▸ List.mem_map_of_mem hs)
  exact hold ((h.settled s hs).moved hne).1

/-- Quarantine stays a directory. -/
theorem Conserved.quarantine (h : Conserved P c₀ c done) (hq : c₀.isDir P.quarantine = true) :
    c.isDir P.quarantine = true := by
  have hold : c₀.vol.lookup P.quarantine = some .dir := by simpa [Card.isDir] using hq
  rw [Card.isDir, h.lookup_old, hold]
  · simp
  · intro he
    exact (P.log _ he).1 rfl
  · intro hmem
    obtain ⟨s, hs, heq⟩ := List.mem_map.mp hmem
    obtain ⟨data, -, hfile, -⟩ := (h.settled s hs).kept
    rw [heq, Card.file?_eq_some, hold] at hfile
    cases hfile
  · rw [hold]
    exact Option.some_ne_none _

/-- One part is dealt with, and counted by its outcome. -/
theorem wp_handleOnePart (h : Conserved P c₀ c done) (hsee : blind (join d n) = false) (hq : c₀.isDir P.quarantine = true)
    (hd : ScanDir P d) (hn : slash ∉ n) (hsuffix : hasPartSuffix (join d n) = true)
    (hnew : join d n ∉ done.map SettledPart.part) (hfile : c₀.file? (join d n) = some data) {stats : RecoveryStats}
    {Q : RecoveryStats → Card → Prop}
    (hQ : ∀ outcome pcm place c', Conserved P c₀ c' (⟨join d n, outcome, place⟩ :: done) → Q (stats.count (outcome, pcm)) c') :
    (steady blind).wp A (fun _ => True) (handleOnePart P.quarantine P.events (join d n) stats) Q c := by
  have hpart : c.file? (join d n) = some data := by
    rw [Card.file?_eq_some, h.lookup_part hd hn hsuffix hnew]
    exact Card.file?_eq_some.mp hfile
  have hmade : ∀ c₁, MadeDir c c₁ P.quarantine → c₁ = c := by
    rintro c₁ (rfl | ⟨hnone, -⟩)
    · rfl
    · have hdir := h.quarantine hq
      simp [Card.isDir, hnone] at hdir
  unfold handleOnePart
  cases hname : wavRotationPartToWav (join d n) maxPathLen with
  | none =>
    apply hQ .error 0 (join d n) c
    exact h.cons hd hn hsuffix hnew rfl hfile (Or.inl rfl) (moved_self hpart) (Or.inl rfl)
  | some wav =>
    dsimp only
    rw [wp_bind]
    have hnoted : ∀ outcome pcm place c', Conserved P c₀ c' (⟨join d n, outcome, place⟩ :: done) →
        (steady blind).wp A (fun _ => True) (do
          noteEvent P.events fun path =>
            appendFileEvent path (join d n) (outcomeText outcome) (eventPcmBytes (outcome, pcm))
          return stats.count (outcome, pcm)) Q c' := by
      intro outcome pcm place c' hconserved
      rw [wp_bind]
      apply wp_steady_noteEvent (fun _ => fileEventLine (join d n) (outcomeText outcome) (eventPcmBytes (outcome, pcm)))
      · exact fun _ => rfl
      · exact fun c'' hlogged => hQ outcome pcm place c'' (hconserved.logged hlogged)
    refine Settles.wp ⟨?_, ?_, ?_⟩ hsee hpart hname P.quarantine_ne
    · intro data' c' hfree _ hkept _ hmoved
      exact hnoted _ _ wav _ (h.cons hd hn hsuffix hnew hname hfile hkept hmoved (Or.inr hfree))
    · intro data' i place c₁ c' hkept _ hdir hi hplace hfree hmoved
      obtain rfl := hmade c₁ hdir
      exact hnoted _ _ place _ (h.cons hd hn hsuffix hnew ⟨i, hi, hplace⟩ hfile hkept hmoved (Or.inr hfree))
    · intro data' c₁ c' hkept _ hdir hmoved
      obtain rfl := hmade c₁ hdir
      exact hnoted _ _ (join d n) _ (h.cons hd hn hsuffix hnew rfl hfile hkept hmoved (Or.inl rfl))

end Scan

section Count

variable {P : RecoveryPaths} {c₀ c : Card} {done : List SettledPart} {d n : Bytes} {stats : RecoveryStats} {skipped : ℕ}

/-- An entry whose path does not fit the buffer of the scan. -/
def longEntry (d n : Bytes) : Bool := !isDot n && maxPathLen ≤ (join d n).length

def longEntries (c : Card) (d : Path) : ℕ := (children c.vol d).countP (longEntry d)

/-- A name that the scan takes for a part's. -/
structure PartName (c : Card) (d : Path) (n : Bytes) : Prop where
  notDot : isDot n = false
  fits : (join d n).length < maxPathLen
  suffix : hasPartSuffix (join d n) = true
  notDir : c.isDir (join d n) = false

/-- The counts are those of the parts dealt with, and of the entries left out. -/
structure Tally (stats : RecoveryStats) (done : List SettledPart) (skipped : ℕ) : Prop where
  scanned : stats.scanned = done.length
  recovered : stats.recovered = done.countP (·.outcome = .recovered)
  quarantined : stats.quarantined = done.countP (·.outcome = .quarantined)
  errors : stats.errors = done.countP (·.outcome = .error) + skipped

theorem tally_zero : Tally .zero [] 0 := ⟨rfl, rfl, rfl, rfl⟩

theorem Tally.count (h : Tally stats done skipped) (part : Path) (outcome : RecoveryOutcome) (pcm : ℕ) (place : Path) :
    Tally (stats.count (outcome, pcm)) (⟨part, outcome, place⟩ :: done) skipped := by
  obtain ⟨hs, hr, hq, he⟩ := h
  cases outcome with
  | recovered => exact ⟨by simp [RecoveryStats.count, hs], by simp [RecoveryStats.count, hr], by simpa [RecoveryStats.count] using hq,
      by simpa [RecoveryStats.count] using he⟩
  | quarantined => exact ⟨by simp [RecoveryStats.count, hs], by simpa [RecoveryStats.count] using hr, by simp [RecoveryStats.count, hq],
      by simpa [RecoveryStats.count] using he⟩
  | error =>
    refine ⟨by simp [RecoveryStats.count, hs], by simpa [RecoveryStats.count] using hr, by simpa [RecoveryStats.count] using hq, ?_⟩
    simp only [RecoveryStats.count, he, List.countP_cons, decide_true, if_true]
    omega

theorem Tally.skip (h : Tally stats done skipped) : Tally { stats with errors := stats.errors + 1 } done (skipped + 1) := by
  obtain ⟨hs, hr, hq, he⟩ := h
  exact ⟨hs, hr, hq, by simp only [he]; omega⟩

/-- The names that a directory gives: each once, and of something that was there. -/
structure Entries (c₀ : Card) (d : Path) (names : List Bytes) : Prop where
  nodup : (names.filter (!isDot ·)).Nodup
  child : ∀ n ∈ names, isDot n = false → slash ∉ n ∧ c₀.vol.lookup (join d n) ≠ none

theorem Entries.tail {name : Bytes} {names : List Bytes} (h : Entries c₀ d (name :: names)) : Entries c₀ d names := by
  constructor
  · have := h.nodup
    rw [List.filter_cons] at this
    split at this
    · exact (List.nodup_cons.mp this).2
    · exact this
  · exact fun n hn => h.child n (List.mem_cons_of_mem _ hn)

theorem Entries.head_ne {name : Bytes} {names : List Bytes} (h : Entries c₀ d (name :: names)) (hdot : isDot name = false)
    (hn : n ∈ names) (hndot : isDot n = false) : n ≠ name := by
  rintro rfl
  have := h.nodup
  rw [List.filter_cons, if_pos (by simp [hdot]), List.nodup_cons] at this
  exact this.1 (List.mem_filter.mpr ⟨hn, by simp [hndot]⟩)

theorem enumerates_entries {names : List Bytes} (h : c.Enumerates d ⟨names, false⟩)
    (hsame : ∀ n, slash ∉ n → c.vol.lookup (join d n) = c₀.vol.lookup (join d n)) : Entries c₀ d names := by
  refine ⟨h.nodup, fun n hn hdot => ?_⟩
  obtain ⟨hmem, -, hslash⟩ := mem_children.mp (h.sound n hn hdot)
  refine ⟨hslash, ?_⟩
  rw [← hsame n hslash]
  exact Option.isSome_iff_ne_none.mp hmem

end Count

section Loops

variable {A : Fault → Prop} {P : RecoveryPaths} {c₀ c : Card} {done : List SettledPart} {d : Path} {stats : RecoveryStats}
  {skipped : ℕ}

/-- The entries of a scanned directory: every part among them is dealt with, and every entry that does not fit is counted. -/
theorem wp_scanParts (hd : ScanDir P d) (hq : c₀.isDir P.quarantine = true) {names : List Bytes} (hnames : Entries c₀ d names)
    (hfresh : ∀ n ∈ names, isDot n = false → join d n ∉ done.map SettledPart.part) (h : Conserved P c₀ c done)
    (ht : Tally stats done skipped) {Q : RecoveryStats → Card → Prop}
    (hQ : ∀ stats' c' more, Conserved P c₀ c' (more ++ done) →
      Tally stats' (more ++ done) (skipped + names.countP (longEntry d)) →
      (∀ s ∈ more, ∃ n ∈ names, PartName c₀ d n ∧ s.part = join d n) →
      (∀ n ∈ names, PartName c₀ d n → join d n ∈ more.map SettledPart.part) → Q stats' c') :
    (steady fun _ => false).wp A (fun _ => True) (scanParts P.quarantine P.events d names stats) Q c := by
  induction names generalizing c done stats skipped with
  | nil => exact hQ stats c [] h ht (by simp) (by simp)
  | cons name names ih =>
    have hfresh' : ∀ n ∈ names, isDot n = false → join d n ∉ done.map SettledPart.part := fun n hn =>
      hfresh n (List.mem_cons_of_mem _ hn)
    have hlater : ∀ more : List SettledPart, (∀ s ∈ more, ∃ n ∈ names, PartName c₀ d n ∧ s.part = join d n) →
        ∀ s ∈ more, ∃ n ∈ name :: names, PartName c₀ d n ∧ s.part = join d n := by
      intro more hmore s hs
      obtain ⟨n, hn, hpart⟩ := hmore s hs
      exact ⟨n, List.mem_cons_of_mem _ hn, hpart⟩
    -- a name that is no part's changes nothing
    have hpass : longEntry d name = false → ¬ PartName c₀ d name →
        (steady fun _ => false).wp A (fun _ => True) (scanParts P.quarantine P.events d names stats) Q c := by
      intro hlong hno
      refine ih hnames.tail hfresh' h ht fun stats' c' more hconserved htally hdir hall => ?_
      apply hQ stats' c' more hconserved _ (hlater more hdir)
      · intro n hn hpart
        rcases List.mem_cons.mp hn with rfl | hn
        · exact absurd hpart hno
        · exact hall n hn hpart
      · rwa [List.countP_cons_of_neg (by simp [hlong])]
    unfold scanParts
    split
    case isTrue hdot => exact hpass (by simp [longEntry, hdot]) fun hpart => by simp [hpart.notDot] at hdot
    case isFalse hdot =>
      have hdot : isDot name = false := by simpa using hdot
      dsimp only
      split
      case isTrue hlong =>
        refine ih hnames.tail hfresh' h ht.skip fun stats' c' more hconserved htally hdir hall => ?_
        apply hQ stats' c' more hconserved _ (hlater more hdir)
        · intro n hn hpart
          rcases List.mem_cons.mp hn with rfl | hn
          · exact absurd hpart.fits (Nat.not_lt_of_le hlong)
          · exact hall n hn hpart
        · rw [List.countP_cons_of_pos (by simp [longEntry, hdot, hlong])]
          have hsum : skipped + (names.countP (longEntry d) + 1) = skipped + 1 + names.countP (longEntry d) := by omega
          rwa [hsum]
      case isFalse hfits =>
        have hlong : longEntry d name = false := by simp [longEntry, hdot, Nat.lt_of_not_le hfits]
        split
        case isTrue hsuffix => exact hpass hlong fun hpart => by simp [hpart.suffix] at hsuffix
        case isFalse hsuffix =>
          have hsuffix : hasPartSuffix (join d name) = true := by simpa using hsuffix
          obtain ⟨hslash, hthere⟩ := hnames.child name (.head _) hdot
          have hnew := hfresh name (.head _) hdot
          have hsame := h.lookup_part hd hslash hsuffix hnew
          rw [wp_bind]
          apply wp_steady_pathIsDirLocal
          · cases hisdir : c.isDir (join d name) with
            | true =>
              refine hpass hlong fun hpart => ?_
              have := hpart.notDir
              rw [Card.isDir, ← hsame, ← Card.isDir, hisdir] at this
              cases this
            | false =>
              simp only [Bool.not_false, if_true]
              rw [wp_bind]
              obtain ⟨data, hfile⟩ : ∃ data, c₀.file? (join d name) = some data := by
                rw [Card.isDir, hsame] at hisdir
                cases hnode : c₀.vol.lookup (join d name) with
                | none => exact absurd hnode hthere
                | some node =>
                  cases node with
                  | file data => exact ⟨data, Card.file?_eq_some.mpr hnode⟩
                  | dir => simp [hnode] at hisdir
              refine wp_handleOnePart h rfl hq hd hslash hsuffix hnew hfile fun outcome pcm place c' hconserved => ?_
              refine ih hnames.tail (fun n hn hndot => ?_) hconserved (ht.count _ outcome pcm place)
                fun stats' c'' more hmore htally hdir hall => ?_
              · simp only [List.map_cons, List.mem_cons, not_or]
                exact ⟨fun heq => hnames.head_ne hdot hn hndot (join_inj.mp heq), hfresh' n hn hndot⟩
              · have hassoc : more ++ ⟨join d name, outcome, place⟩ :: done = (more ++ [⟨join d name, outcome, place⟩]) ++ done := by
                  simp
                rw [hassoc] at hmore htally
                apply hQ stats' c'' _ hmore
                · rwa [List.countP_cons_of_neg (by simp [hlong])]
                · intro s hs
                  rcases List.mem_append.mp hs with hs | hs
                  · exact hlater more hdir s hs
                  · rw [List.mem_singleton.mp hs]
                    have hnotdir : c₀.isDir (join d name) = false := by rw [Card.isDir, ← hsame, ← Card.isDir, hisdir]
                    exact ⟨name, .head _, ⟨hdot, Nat.lt_of_not_le hfits, hsuffix, hnotdir⟩, rfl⟩
                · intro n hn hpart
                  rw [List.map_append, List.mem_append]
                  rcases List.mem_cons.mp hn with rfl | hn
                  · exact Or.inr (by simp)
                  · exact Or.inl (hall n hn hpart)
          · exact fun hfalse => absurd hfalse Bool.false_ne_true

/-- A closed directory is only remembered to have failed. -/
theorem Conserved.fail (h : Conserved P c₀ c done) : Conserved P c₀ c.fail done := by
  refine ⟨h.parts, h.places, fun s hs => ?_, h.others, h.log⟩
  obtain ⟨hdir, hsuffix, hkept, hplaced, hmoved⟩ := h.settled s hs
  exact ⟨hdir, hsuffix, hkept, hplaced, hmoved⟩

theorem wp_steady_closedir {blind : Path → Bool} {path : Path} {Q : Bool → Card → Prop} (h : ∀ b, Q b c) (hf : ∀ b, Q b c.fail) :
    (steady blind).wp A (fun _ => True) (closedir path) Q c :=
  wp_steady (wp_closedir trivial (h true) fun _ => hf false)

/-- The names of a directory are its children, in some order. -/
theorem enumerates_perm {names : List Bytes} (h : c.Enumerates d ⟨names, false⟩)
    (hsame : ∀ n, slash ∉ n → c.vol.lookup (join d n) = c₀.vol.lookup (join d n)) :
    (names.filter (!isDot ·)).Perm ((children c₀.vol d).filter (!isDot ·)) := by
  apply (List.perm_ext_iff_of_nodup h.nodup ((children_nodup c₀.vol d).filter _)).mpr
  intro n
  have hmem : n ∈ children c.vol d ↔ n ∈ children c₀.vol d := by
    simp only [mem_children]
    constructor
    · rintro ⟨hsome, hne, hslash⟩
      exact ⟨hsame n hslash ▸ hsome, hne, hslash⟩
    · rintro ⟨hsome, hne, hslash⟩
      exact ⟨(hsame n hslash).symm ▸ hsome, hne, hslash⟩
  simp only [List.mem_filter, Bool.not_eq_true']
  constructor
  · rintro ⟨hn, hdot⟩
    exact ⟨hmem.mp (h.sound n hn hdot), hdot⟩
  · rintro ⟨hn, hdot⟩
    exact ⟨h.complete rfl n (hmem.mpr hn) hdot, hdot⟩

theorem countP_longEntry (names : List Bytes) : names.countP (longEntry d) = (names.filter (!isDot ·)).countP (longEntry d) := by
  rw [List.countP_filter]
  congr 1
  funext n
  cases hdot : isDot n <;> simp [longEntry, hdot]

/-- A subdirectory in which nothing has been dealt with. -/
theorem wp_scanSubdir (hd : ScanDir P d) (hq : c₀.isDir P.quarantine = true) (hisdir : c.isDir d = true)
    (hfresh : ∀ s ∈ done, dirname s.part ≠ d) (h : Conserved P c₀ c done) (ht : Tally stats done skipped)
    {Q : RecoveryStats → Card → Prop}
    (hQ : ∀ stats' c' more, Conserved P c₀ c' (more ++ done) → Tally stats' (more ++ done) (skipped + longEntries c₀ d) →
      (∀ s ∈ more, ∃ n ∈ children c₀.vol d, PartName c₀ d n ∧ s.part = join d n) →
      (∀ n ∈ children c₀.vol d, PartName c₀ d n → join d n ∈ more.map SettledPart.part) → Q stats' c') :
    (steady fun _ => false).wp A (fun _ => True) (scanSubdir P.quarantine P.events d stats) Q c := by
  have hsame : ∀ n, slash ∉ n → c.vol.lookup (join d n) = c₀.vol.lookup (join d n) := fun n hn => h.lookup_dir hd hn hfresh
  unfold scanSubdir
  rw [wp_bind]
  apply wp_steady_opendir
  · intro _ names henum
    have hperm := enumerates_perm henum hsame
    have hmem : ∀ n, isDot n = false → (n ∈ names ↔ n ∈ children c₀.vol d) := by
      intro n hdot
      have := hperm.mem_iff (a := n)
      simpa [List.mem_filter, hdot] using this
    dsimp only
    rw [wp_bind]
    refine wp_scanParts hd hq (enumerates_entries henum hsame) (fun n hn hdot hmem => ?_) h ht fun stats' c' more hmore htally hsound hall => ?_
    · obtain ⟨s, hs, heq⟩ := List.mem_map.mp hmem
      apply hfresh s hs
      rw [heq, dirname_join ((enumerates_entries henum hsame).child n hn hdot).1]
    · have hlong : names.countP (longEntry d) = longEntries c₀ d := by
        rw [countP_longEntry, hperm.countP_eq, ← countP_longEntry, longEntries]
      rw [hlong] at htally
      have hfinish : ∀ c'', Conserved P c₀ c'' (more ++ done) → Q stats' c'' := by
        intro c'' hconserved
        apply hQ stats' c'' more hconserved htally
        · intro s hs
          obtain ⟨n, hn, hpart, heq⟩ := hsound s hs
          exact ⟨n, (hmem n hpart.notDot).mp hn, hpart, heq⟩
        · exact fun n hn hpart => hall n ((hmem n hpart.notDot).mpr hn) hpart
      rw [wp_bind]
      exact wp_steady_closedir (fun _ => hfinish c' hmore) fun _ => hfinish c'.fail hmore.fail
  · intro hno
    rw [hisdir] at hno
    cases hno

end Loops

section Recordings

/-- The parts that the scan finds by one name of the recordings directory: the entry itself, or those of a subdirectory. -/
def PartAt (c : Card) (recordings : Path) (name : Bytes) (part : Path) : Prop :=
  isDot name = false ∧ (join recordings name).length < maxPathLen ∧
    if c.isDir (join recordings name) then
      ∃ n ∈ children c.vol (join recordings name), PartName c (join recordings name) n ∧ part = join (join recordings name) n
    else PartName c recordings name ∧ part = join recordings name

/-- The entries that do not fit by one name of the recordings directory. -/
def skippedAt (c : Card) (recordings : Path) (name : Bytes) : ℕ :=
  if isDot name then 0
  else if maxPathLen ≤ (join recordings name).length then 1
  else if c.isDir (join recordings name) then longEntries c (join recordings name) else 0

/-- The entries whose path does not fit the buffer of the scan. -/
def skippedEntries (c : Card) (recordings : Path) : ℕ := ((children c.vol recordings).map (skippedAt c recordings)).sum

variable {A : Fault → Prop} {P : RecoveryPaths} {c₀ c : Card} {done : List SettledPart} {stats : RecoveryStats} {skipped : ℕ}

theorem join_ne_self (d n : Bytes) : join d n ≠ d := by
  intro heq
  have hlen := congrArg List.length heq
  simp [join] at hlen

/-- What one name leads to is not what another one is. -/
theorem PartAt.fresh {recordings part : Path} {name n : Bytes} (h : PartAt c₀ recordings name part) (hname : slash ∉ name)
    (hn : slash ∉ n) (hne : n ≠ name) : part ≠ join recordings n ∧ dirname part ≠ join recordings n := by
  obtain ⟨-, -, hpart⟩ := h
  split at hpart
  · obtain ⟨k, hk, -, rfl⟩ := hpart
    have hslash := (mem_children.mp hk).2.2
    rw [dirname_join hslash]
    constructor
    · intro heq
      exact join_ne_self recordings name (join_eq_join hslash hn heq).1
    · exact fun heq => hne (join_inj.mp heq).symm
  · obtain ⟨-, rfl⟩ := hpart
    rw [dirname_join hname]
    exact ⟨fun heq => hne (join_inj.mp heq).symm, fun heq => join_ne_self recordings n heq.symm⟩

/-- What has been done leaves the remaining names alone. -/
def Untouched (recordings : Path) (done : List SettledPart) (names : List Bytes) : Prop :=
  ∀ n ∈ names, isDot n = false → ∀ s ∈ done, s.part ≠ join recordings n ∧ dirname s.part ≠ join recordings n

/-- Every name of the recordings directory. -/
theorem wp_scanRecordings (hq : c₀.isDir P.quarantine = true) {names : List Bytes} (hnames : Entries c₀ P.recordings names)
    (hfresh : Untouched P.recordings done names) (h : Conserved P c₀ c done) (ht : Tally stats done skipped)
    {Q : RecoveryStats → Card → Prop}
    (hQ : ∀ stats' c' more, Conserved P c₀ c' (more ++ done) →
      Tally stats' (more ++ done) (skipped + (names.map (skippedAt c₀ P.recordings)).sum) →
      (∀ s ∈ more, ∃ n ∈ names, PartAt c₀ P.recordings n s.part) →
      (∀ n ∈ names, ∀ x, PartAt c₀ P.recordings n x → x ∈ more.map SettledPart.part) → Q stats' c') :
    (steady fun _ => false).wp A (fun _ => True) (scanRecordings P.quarantine P.events P.recordings names stats) Q c := by
  induction names generalizing c done stats skipped with
  | nil => exact hQ stats c [] h ht (by simp) (by simp)
  | cons name names ih =>
    -- the name has been dealt with: `new` are its parts, and `k` its entries that do not fit
    have hnext : ∀ (new : List SettledPart) (k : ℕ) (stats₁ : RecoveryStats) (c₁ : Card), k = skippedAt c₀ P.recordings name →
        Conserved P c₀ c₁ (new ++ done) → Tally stats₁ (new ++ done) (skipped + k) →
        (∀ s ∈ new, PartAt c₀ P.recordings name s.part) → (∀ x, PartAt c₀ P.recordings name x → x ∈ new.map SettledPart.part) →
        (steady fun _ => false).wp A (fun _ => True) (scanRecordings P.quarantine P.events P.recordings names stats₁) Q c₁ := by
      intro new k stats₁ c₁ hk hconserved htally hsound hall
      refine ih hnames.tail (fun n hn hdot s hs => ?_) hconserved htally fun stats' c' more hmore htally' hsound' hall' => ?_
      · rcases List.mem_append.mp hs with hs | hs
        · have hnamedot : isDot name = false := (hsound s hs).1
          exact (hsound s hs).fresh (hnames.child name (.head _) hnamedot).1
            (hnames.child n (List.mem_cons_of_mem _ hn) hdot).1 (hnames.head_ne hnamedot hn hdot)
        · exact hfresh n (List.mem_cons_of_mem _ hn) hdot s hs
      · rw [← List.append_assoc] at hmore htally'
        apply hQ stats' c' (more ++ new) hmore
        · rw [List.map_cons, List.sum_cons, ← hk, ← Nat.add_assoc]
          exact htally'
        · intro s hs
          rcases List.mem_append.mp hs with hs | hs
          · obtain ⟨n, hn, hpart⟩ := hsound' s hs
            exact ⟨n, List.mem_cons_of_mem _ hn, hpart⟩
          · exact ⟨name, .head _, hsound s hs⟩
        · intro n hn x hx
          rw [List.map_append, List.mem_append]
          rcases List.mem_cons.mp hn with rfl | hn
          · exact Or.inr (hall x hx)
          · exact Or.inl (hall' n hn x hx)
    unfold scanRecordings
    split
    case isTrue hdot =>
      apply hnext [] 0 stats c (by simp [skippedAt, hdot]) h ht (by simp)
      exact fun x hx => by simp [hx.1] at hdot
    case isFalse hdot =>
      have hdot : isDot name = false := by simpa using hdot
      dsimp only
      split
      case isTrue hlong =>
        apply hnext [] 1 _ c (by simp [skippedAt, hdot, hlong]) h ht.skip (by simp)
        exact fun x hx => absurd hx.2.1 (Nat.not_lt_of_le hlong)
      case isFalse hfits =>
        have hfits : (join P.recordings name).length < maxPathLen := Nat.lt_of_not_le hfits
        obtain ⟨hslash, hthere⟩ := hnames.child name (.head _) hdot
        have hnew : join P.recordings name ∉ done.map SettledPart.part := by
          intro hmem
          obtain ⟨s, hs, heq⟩ := List.mem_map.mp hmem
          exact (hfresh name (.head _) hdot s hs).1 heq
        have hsame := h.lookup_old (P.scanDir_not_log (Or.inl rfl) name) hnew hthere
        have hisdir : c.isDir (join P.recordings name) = c₀.isDir (join P.recordings name) := by
          rw [Card.isDir, Card.isDir, hsame]
        rw [wp_bind]
        apply wp_steady_pathIsDirLocal
        · cases hdir : c₀.isDir (join P.recordings name) with
          | true =>
            rw [hdir] at hisdir
            rw [hisdir, if_pos rfl, wp_bind]
            refine wp_scanSubdir (Or.inr ⟨name, rfl⟩) hq hisdir (fun s hs => (hfresh name (.head _) hdot s hs).2) h ht
              fun stats' c' more hmore htally hsound hall => ?_
            apply hnext more _ stats' c' _ hmore htally
            · intro s hs
              refine ⟨hdot, hfits, ?_⟩
              rw [if_pos hdir]
              exact hsound s hs
            · rintro x ⟨-, -, hx⟩
              rw [if_pos hdir] at hx
              obtain ⟨n, hn, hpart, rfl⟩ := hx
              exact hall n hn hpart
            · rw [skippedAt, if_neg (by simp [hdot]), if_neg (Nat.not_le_of_lt hfits), if_pos hdir]
          | false =>
            have hzero : 0 = skippedAt c₀ P.recordings name := by
              rw [skippedAt, if_neg (by simp [hdot]), if_neg (Nat.not_le_of_lt hfits), if_neg (by simp [hdir])]
            rw [hdir] at hisdir
            rw [hisdir, if_neg (by simp)]
            split
            case isTrue hsuffix =>
              apply hnext [] 0 stats c hzero h ht (by simp)
              rintro x ⟨-, -, hx⟩
              rw [if_neg (by simp [hdir])] at hx
              simp [hx.1.suffix] at hsuffix
            case isFalse hsuffix =>
              have hsuffix : hasPartSuffix (join P.recordings name) = true := by simpa using hsuffix
              obtain ⟨data, hfile⟩ : ∃ data, c₀.file? (join P.recordings name) = some data := by
                rw [Card.isDir] at hdir
                cases hnode : c₀.vol.lookup (join P.recordings name) with
                | none => exact absurd hnode hthere
                | some node =>
                  cases node with
                  | file data => exact ⟨data, Card.file?_eq_some.mpr hnode⟩
                  | dir => simp [hnode] at hdir
              rw [wp_bind]
              refine wp_handleOnePart h rfl hq (Or.inl rfl) hslash hsuffix hnew hfile fun outcome pcm place c' hconserved => ?_
              apply hnext [⟨join P.recordings name, outcome, place⟩] 0 _ c' hzero hconserved (ht.count _ outcome pcm place)
              · intro s hs
                rw [List.mem_singleton.mp hs]
                refine ⟨hdot, hfits, ?_⟩
                rw [if_neg (by simp [hdir])]
                exact ⟨⟨hdot, hfits, hsuffix, hdir⟩, rfl⟩
              · rintro x ⟨-, -, hx⟩
                rw [if_neg (by simp [hdir])] at hx
                rw [hx.2]
                simp
        · exact fun hfalse => absurd hfalse Bool.false_ne_true

theorem sum_skippedAt (recordings : Path) (names : List Bytes) : (names.map (skippedAt c recordings)).sum =
    ((names.filter (!isDot ·)).map (skippedAt c recordings)).sum := by
  induction names with
  | nil => rfl
  | cons name names ih =>
    rw [List.map_cons, List.sum_cons, List.filter_cons]
    split
    case isTrue => rw [List.map_cons, List.sum_cons, ih]
    case isFalse hdot =>
      have hdot : isDot name = true := by simpa using hdot
      rw [ih, skippedAt, if_pos hdot, Nat.zero_add]

/-- The end of a scan: what it has dealt with, in the card `c₀` in which quarantine has been made. -/
structure Scanned (P : RecoveryPaths) (c c' : Card) (ok : Bool) (stats : RecoveryStats) (c₀ : Card) (done : List SettledPart) :
    Prop where
  made : MadeDir c c₀ P.quarantine
  conserved : Conserved P c₀ c' done
  sound : ∀ s ∈ done, ∃ name ∈ children c₀.vol P.recordings, PartAt c₀ P.recordings name s.part
  complete : ok = true → ∀ name ∈ children c₀.vol P.recordings, ∀ x, PartAt c₀ P.recordings name x →
    x ∈ done.map SettledPart.part
  tally : Tally stats done (if ok then skippedEntries c₀ P.recordings else 0)
  kept : ∀ x b, c.file? x = some b → x ∉ P.events → x ∉ done.map SettledPart.part → c'.file? x = some b

/-- A file that was there is there in the card with the quarantine directory. -/
theorem MadeDir.file? {c' : Card} {dir x : Path} {b : Bytes} (h : MadeDir c c' dir) (hfile : c.file? x = some b) :
    c'.file? x = some b := by
  have hne : x ≠ dir ∨ c' = c := by
    rcases h with rfl | ⟨hnone, -⟩
    · exact Or.inr rfl
    · apply Or.inl
      rintro rfl
      rw [Card.file?_eq_some.mp hfile] at hnone
      cases hnone
  rcases hne with hne | rfl
  · rw [Card.file?_eq_some, h.lookup hne]
    exact Card.file?_eq_some.mp hfile
  · exact hfile

theorem scanned_of {c' : Card} {ok : Bool} (hmade : MadeDir c c₀ P.quarantine) (hconserved : Conserved P c₀ c' done)
    (hsound : ∀ s ∈ done, ∃ name ∈ children c₀.vol P.recordings, PartAt c₀ P.recordings name s.part)
    (hcomplete : ok = true → ∀ name ∈ children c₀.vol P.recordings, ∀ x, PartAt c₀ P.recordings name x →
      x ∈ done.map SettledPart.part)
    (htally : Tally stats done (if ok then skippedEntries c₀ P.recordings else 0)) : Scanned P c c' ok stats c₀ done := by
  refine ⟨hmade, hconserved, hsound, hcomplete, htally, fun x b hfile hlog hpart => ?_⟩
  have hfile₀ := Card.file?_eq_some.mp (hmade.file? hfile)
  rw [Card.file?_eq_some, hconserved.lookup_old hlog hpart]
  · exact hfile₀
  · rw [hfile₀]
    exact Option.some_ne_none _

theorem wp_wavRecoveryScanRecordings (P : RecoveryPaths) (c : Card) :
    (steady fun _ => false).wp A (fun _ => True) (wavRecoveryScanRecordings P.quarantine P.events P.recordings)
      (fun r c' => ∃ c₀ done, Scanned P c c' r.1 r.2 c₀ done) c := by
  have hnothing : ∀ c₀ c', MadeDir c c₀ P.quarantine → Conserved P c₀ c' [] →
      ∃ c₀ done, Scanned P c c' false .zero c₀ done := fun c₀ c' hmade hconserved =>
    ⟨c₀, [], scanned_of hmade hconserved (by simp) nofun tally_zero⟩
  unfold wavRecoveryScanRecordings
  rw [if_neg (by simp [P.recordings_ne, P.quarantine_ne]), wp_bind]
  apply wp_steady_ensureDir P.quarantine_ne
  · intro c₀ hmade hq
    simp only [Bool.not_true, Bool.false_eq_true, if_false]
    rw [wp_bind]
    apply wp_steady_opendir
    · intro _ names henum
      have hperm := enumerates_perm henum fun _ _ => rfl
      have hmem : ∀ n, isDot n = false → (n ∈ names ↔ n ∈ children c₀.vol P.recordings) := by
        intro n hdot
        have := hperm.mem_iff (a := n)
        simpa [List.mem_filter, hdot] using this
      dsimp only
      rw [wp_bind]
      refine wp_scanRecordings hq (enumerates_entries henum fun _ _ => rfl) (by simp [Untouched]) (.refl P c₀) tally_zero
        fun stats c₁ done hconserved htally hsound hall => ?_
      rw [List.append_nil] at hconserved htally
      have hend : ∀ c', Conserved P c₀ c' done → ∃ c₀ done, Scanned P c c' true stats c₀ done := by
        intro c' hconserved
        refine ⟨c₀, done, scanned_of hmade hconserved (fun s hs => ?_) (fun _ name hname x hx => ?_) ?_⟩
        · obtain ⟨n, hn, hpart⟩ := hsound s hs
          exact ⟨n, (hmem n hpart.1).mp hn, hpart⟩
        · exact hall name ((hmem name hx.1).mpr hname) x hx
        · rwa [if_pos rfl, skippedEntries, sum_skippedAt, ← (hperm.map _).sum_eq, ← sum_skippedAt, ← Nat.zero_add (List.sum _)]
      have hnote : ∀ c', Conserved P c₀ c' done → (steady fun _ => false).wp A (fun _ => True) (do
          noteEvent P.events fun path => wavRecoveryAppendSummaryEvent path stats
          return (true, stats)) (fun r c' => ∃ c₀ done, Scanned P c c' r.1 r.2 c₀ done) c' := by
        intro c' hconserved
        rw [wp_bind]
        apply wp_steady_noteEvent fun _ => summaryEventLine stats
        · exact fun _ => rfl
        · exact fun c'' hlogged => hend c'' (hconserved.logged hlogged)
      rw [wp_bind]
      exact wp_steady_closedir (fun _ => hnote c₁ hconserved) fun _ => hnote c₁.fail hconserved.fail
    · exact fun _ => hnothing c₀ c₀.fail hmade (Conserved.refl P c₀).fail
  · exact fun _ => hnothing c c (Or.inl rfl) (.refl P c)

section Sample

def samplePaths : RecoveryPaths where
  recordings := lit "/r"
  quarantine := lit "/q"
  events := none
  recordings_ne := by with_unfolding_all decide
  quarantine_ne := by with_unfolding_all decide
  apart := by
    have hno : ¬ lit "/r" <+: lit "/q" := by with_unfolding_all decide
    exact ⟨fun h => hno (h ▸ List.prefix_refl _), fun n h => hno (h ▸ List.prefix_append _ _)⟩
  log := by simp

/-- An empty part, and a file whose name has 255 bytes. -/
def crowdedCard : Card :=
  ⟨List.toAList [⟨lit "/r", .dir⟩, ⟨lit "/q", .dir⟩, ⟨lit "/r/a.wav.part", .file []⟩,
    ⟨join (lit "/r") (List.replicate 255 0x61), .file []⟩], false⟩

def crowdedScan : (Bool × RecoveryStats) × Card :=
  (steady fun _ => false).eval (wavRecoveryScanRecordings samplePaths.quarantine samplePaths.events samplePaths.recordings) crowdedCard

end Sample

end Recordings

end M5DayLog
