import M5DayLog.Wav.RecoveryScan

/-! What the recovery scan conserves: every part that it meets ends at its own place, under its finalized name or under one
quarantine name, with its payload; no other file is touched, and the counts are those of the parts. -/

namespace M5DayLog

open Bytes Fat Device

/-- The directories of a scan: quarantine lies outside the recordings, and the log outside both. -/
structure RecoveryPaths where
  recordings : Path
  quarantine : Path
  events : Option Path
  recordings_ne : recordings ≠ []
  quarantine_ne : quarantine ≠ []
  apart : quarantine ≠ recordings ∧ ∀ n, quarantine ≠ join recordings n
  log : ∀ e ∈ events, e ≠ quarantine ∧ (∀ n, e ≠ join recordings n) ∧ ∀ n, e ≠ join quarantine n

/-- The paths of the firmware. -/
def RecoveryPaths.production : RecoveryPaths where
  recordings := recordingsDir
  quarantine := quarantineDir
  events := some eventsPath
  recordings_ne := recordingsDir_ne
  quarantine_ne := by with_unfolding_all decide
  apart := by
    have hno : ¬ recordingsDir <+: quarantineDir := by with_unfolding_all decide
    exact ⟨fun h => hno (h ▸ List.prefix_refl _), fun n h => hno (h ▸ List.prefix_append _ _)⟩
  log := by
    have hno : ¬ recordingsDir <+: eventsPath ∧ ¬ quarantineDir <+: eventsPath := by with_unfolding_all decide
    rintro e he
    obtain rfl : eventsPath = e := by simpa using he
    exact ⟨fun h => hno.2 (h ▸ List.prefix_refl _), fun n h => hno.1 (h ▸ List.prefix_append _ _),
      fun n h => hno.2 (h ▸ List.prefix_append _ _)⟩

section Names

variable {d d' n m : Bytes} {part wav : Path}

theorem dirname_join (hn : slash ∉ n) : dirname (join d n) = d := by
  have hall : ∀ c ∈ n.reverse, decide (c ≠ slash) = true := by
    intro c hc
    simp only [ne_eq, decide_not, Bool.not_eq_true', decide_eq_false_iff_not]
    rintro rfl
    exact hn (List.mem_reverse.mp hc)
  have hrev : (join d n).reverse = n.reverse ++ slash :: d.reverse := by simp [join]
  rw [dirname, hrev, List.dropWhile_append_of_pos hall, List.dropWhile_cons_of_neg (by simp), List.drop_one, List.tail_cons,
    List.reverse_reverse]

theorem join_eq_join (hn : slash ∉ n) (hm : slash ∉ m) (h : join d n = join d' m) : d = d' ∧ n = m := by
  have hd := congrArg dirname h
  rw [dirname_join hn, dirname_join hm] at hd
  subst hd
  exact ⟨rfl, join_inj.mp h⟩

/-- A part's finalized name lies in its directory. -/
theorem partToWav_join {wavSize : ℕ} (h : wavRotationPartToWav (join d n) wavSize = some wav) :
    ∃ n', n = n' ++ lit ".part" ∧ wav = join d n' := by
  have hpart : join d n = wav ++ lit ".part" := by
    have hsuffix : lit ".part" <:+ join d n := by
      have hp : partSuffix <:+ join d n := by simpa [hasPartSuffix] using hasPartSuffix_of_partToWav h
      have hdot : lit ".part" <:+ partSuffix := by with_unfolding_all decide
      exact hdot.trans hp
    simp only [wavRotationPartToWav, Option.ite_none_left_eq_some, Option.some.injEq] at h
    obtain ⟨l, hl⟩ := hsuffix
    rw [← h.2.2, ← hl, List.length_append, Nat.add_sub_cancel, List.take_left]
  have hslash : slash ∉ lit ".part" := by with_unfolding_all decide
  rcases List.append_eq_append_iff.mp hpart with ⟨b, hwav, hb⟩ | ⟨b, hd, hb⟩
  · cases b with
    | nil =>
      rw [List.nil_append] at hb
      exact absurd (hb ▸ List.mem_cons_self) hslash
    | cons x b =>
      obtain ⟨rfl, rfl⟩ := List.cons.inj hb
      exact ⟨b, rfl, hwav⟩
  · exact absurd (hb ▸ List.mem_append_right _ List.mem_cons_self) hslash

/-- No name is both that of a part and that of a finalized file. -/
theorem partSuffix_ne_wavSuffix {path : Path} (hpart : hasPartSuffix path = true) : hasWavSuffix path = false := by
  simp only [hasPartSuffix, hasWavSuffix, decide_eq_true_eq, decide_eq_false_iff_not] at hpart ⊢
  intro hwav
  have hsuf := List.suffix_of_suffix_length_le hwav hpart (by with_unfolding_all decide)
  exact absurd hsuf (by with_unfolding_all decide)

end Names

section Log

variable {blind : Path → Bool} {A : Fault → Prop} {c c' c'' : Card} {events : Option Path}

/-- Nothing but the log is changed, and it only grows. -/
structure Logged (events : Option Path) (c c' : Card) : Prop where
  others : ∀ x, x ∉ events → c'.vol.lookup x = c.vol.lookup x
  grown : ∀ e ∈ events, ∀ old, c.file? e = some old → ∃ more, c'.file? e = some (old ++ more)

theorem Logged.refl (events : Option Path) (c : Card) : Logged events c c :=
  ⟨fun _ _ => rfl, fun _ _ old h => ⟨[], by rw [h, List.append_nil]⟩⟩

theorem Logged.trans (h : Logged events c c') (h' : Logged events c' c'') : Logged events c c'' := by
  refine ⟨fun x hx => (h'.others x hx).trans (h.others x hx), fun e he old hold => ?_⟩
  obtain ⟨more, hmore⟩ := h.grown e he old hold
  obtain ⟨more', hmore'⟩ := h'.grown e he _ hmore
  exact ⟨more ++ more', by rw [hmore', List.append_assoc]⟩

theorem logged_appendTo (e : Path) (line : Bytes) (n : ℕ) (c : Card) : Logged (some e) c (c.appendTo e line n) := by
  unfold Card.appendTo
  split
  case h_1 b hb =>
    refine ⟨fun x hx => ?_, fun e' he' old hold => ?_⟩
    · rw [Card.lookup_put, if_neg (fun h => hx (by simp [h]))]
    · obtain rfl : e = e' := by simpa using he'
      rw [hb] at hold
      obtain rfl := Option.some.inj hold
      exact ⟨line.take n, Card.file?_put⟩
  case h_2 => exact .refl _ c

theorem logged_open (e : Path) (c : Card) : Logged (some e) c (c.openAns e .append).2 := by
  simp only [Card.openAns]
  split
  · exact .refl _ c
  · simp only
    split
    · exact .refl _ c
    case isFalse hnone =>
      refine ⟨fun x hx => ?_, fun e' he' old hold => ?_⟩
      · rw [Card.lookup_put, if_neg (fun h => hx (by simp [h]))]
      · obtain rfl : e = e' := by simpa using he'
        simp [hold] at hnone

theorem wp_steady_appendEventLine {e : Path} {line : Bytes} {Q : Bool → Card → Prop}
    (h : ∀ b c', Logged (some e) c c' → Q b c') : (steady blind).wp A (fun _ => True) (appendEventLine e line) Q c := by
  unfold appendEventLine
  split
  · exact h _ c (.refl _ c)
  · rw [wp_bind]
    have hrest : ∀ c₁, Logged (some e) c c₁ → (steady blind).wp A (fun _ => True) (do
        let flushed ← fflush e
        if !flushed then closeFailed e
        else
          let _ ← fsync e
          fclose e) Q c₁ := by
      intro c₁ h₁
      have hfail : (steady blind).wp A (fun _ => True) (closeFailed e) Q c₁ := wp_steady_closeFailed (h _ c₁ h₁)
      have hclose : (steady blind).wp A (fun _ => True) (fclose e) Q c₁ :=
        wp_steady (wp_fclose trivial (h _ c₁ h₁) fun _ => h _ c₁ h₁)
      rw [wp_bind]
      refine wp_steady (wp_fflush trivial ?_ fun _ => hfail)
      simp only [Bool.not_true, Bool.false_eq_true, if_false]
      rw [wp_bind]
      exact wp_steady (wp_fsync trivial hclose fun _ => hclose)
    refine wp_steady (wp_fopen trivial ?_ fun _ => h _ c (.refl _ c))
    have hopen := logged_open e c
    cases hok : (c.openAns e .append).1 with
    | false => exact h _ _ hopen
    | true =>
      simp only [Bool.not_true, Bool.false_eq_true, if_false]
      rw [wp_bind]
      refine wp_steady (wp_fappend (fun _ => trivial) ?_ fun _ n _ => ?_)
      · exact hrest _ (hopen.trans (logged_appendTo e line _ _))
      · exact hrest _ (hopen.trans (logged_appendTo e line n _))

theorem wp_steady_noteEvent {append : Path → Sys Bool} {Q : Unit → Card → Prop} (line : Path → Bytes)
    (happend : ∀ e, append e = appendEventLine e (line e)) (h : ∀ c', Logged events c c' → Q () c') :
    (steady blind).wp A (fun _ => True) (noteEvent events append) Q c := by
  unfold noteEvent
  split
  · exact h c (.refl _ c)
  · rw [wp_bind, happend]
    exact wp_steady_appendEventLine fun _ c' hlogged => h c' hlogged

end Log

/-- A part that the scan has dealt with, and where its file is now. -/
structure SettledPart where
  part : Path
  outcome : RecoveryOutcome
  place : Path
  deriving DecidableEq

section Settled

variable {P : RecoveryPaths} {c₀ c c' : Card} {s t : SettledPart} {done : List SettledPart} {d n : Bytes} {data data' : Bytes}

/-- The directories that are scanned: the recordings directory and those in it. -/
def ScanDir (P : RecoveryPaths) (d : Path) : Prop := d = P.recordings ∨ ∃ m, d = join P.recordings m

/-- A part is under its finalized name, under a quarantine name or where it was, as its outcome says. -/
def SettledPart.Placed (P : RecoveryPaths) (s : SettledPart) : Prop :=
  match s.outcome with
  | .recovered => wavRotationPartToWav s.part maxPathLen = some s.place
  | .quarantined => ∃ i < 100, quarantineName s.part P.quarantine i = some s.place
  | .error => s.place = s.part

/-- The part of `c` is in `c'` at its place, with its payload, and nowhere else; the place was free if it is another one. -/
structure Settled (P : RecoveryPaths) (c c' : Card) (s : SettledPart) : Prop where
  dir : ∃ d n, ScanDir P d ∧ slash ∉ n ∧ s.part = join d n
  suffix : hasPartSuffix s.part = true
  kept : ∃ data data', c.file? s.part = some data ∧ c'.file? s.place = some data' ∧ PcmKept data data'
  placed : s.Placed P
  moved : s.place ≠ s.part → c.vol.lookup s.place = none ∧ c'.vol.lookup s.part = none

/-- Every part dealt with is settled, no two share a place, and the rest of the card is as it was. -/
structure Conserved (P : RecoveryPaths) (c c' : Card) (done : List SettledPart) : Prop where
  parts : (done.map SettledPart.part).Nodup
  places : (done.map SettledPart.place).Nodup
  settled : ∀ s ∈ done, Settled P c c' s
  others : ∀ x, x ∉ P.events → x ∉ done.map SettledPart.part → x ∉ done.map SettledPart.place →
    c'.vol.lookup x = c.vol.lookup x
  log : ∀ e ∈ P.events, ∀ old, c.file? e = some old → ∃ more, c'.file? e = some (old ++ more)

theorem Conserved.refl (P : RecoveryPaths) (c : Card) : Conserved P c c [] := by
  refine ⟨List.nodup_nil, List.nodup_nil, by simp, fun _ _ _ _ => rfl, fun e _ old h => ⟨[], ?_⟩⟩
  rw [h, List.append_nil]

/-- Quarantine is not scanned. -/
theorem RecoveryPaths.quarantine_not_scanDir (P : RecoveryPaths) : ¬ ScanDir P P.quarantine := by
  rintro (h | ⟨m, h⟩)
  · exact P.apart.1 h
  · exact P.apart.2 m h

theorem RecoveryPaths.scanDir_not_log (P : RecoveryPaths) (hd : ScanDir P d) (n : Bytes) : join d n ∉ P.events := by
  intro he
  rcases hd with rfl | ⟨m, rfl⟩
  · exact (P.log _ he).2.1 n rfl
  · exact (P.log _ he).2.1 (m ++ slash :: n) (by simp [join])

/-- A place is that of the part, a finalized name in the part's directory, or a name in quarantine. -/
theorem SettledPart.Placed.cases (hplaced : s.Placed P) (hpart : s.part = join d n) (hn : slash ∉ n) : s.place = join d n ∨
    (∃ m, slash ∉ m ∧ s.place = join d m ∧ hasPartSuffix s.place = false) ∨
    ∃ m, slash ∉ m ∧ s.place = join P.quarantine m := by
  unfold SettledPart.Placed at hplaced
  split at hplaced
  · refine Or.inr (Or.inl ?_)
    have hwav := hasWavSuffix_of_partToWav hplaced
    rw [hpart] at hplaced
    obtain ⟨m, rfl, hplace⟩ := partToWav_join hplaced
    refine ⟨m, fun hs => hn (List.mem_append_left _ hs), hplace, ?_⟩
    by_contra hsuffix
    rw [partSuffix_ne_wavSuffix (by simpa using hsuffix)] at hwav
    cases hwav
  · obtain ⟨i, -, hi⟩ := hplaced
    obtain ⟨m, hplace, hm⟩ := quarantineName_join hi
    exact Or.inr (Or.inr ⟨m, hm, hplace⟩)
  · exact Or.inl (hplaced.trans hpart)

/-- No place is the log. -/
theorem SettledPart.Placed.not_log (hplaced : s.Placed P) (hpart : s.part = join d n) (hn : slash ∉ n) (hd : ScanDir P d) :
    s.place ∉ P.events := by
  rcases hplaced.cases hpart hn with hplace | ⟨m, -, hplace, -⟩ | ⟨m, -, hplace⟩
  · rw [hplace]
    exact P.scanDir_not_log hd n
  · rw [hplace]
    exact P.scanDir_not_log hd m
  · intro he
    exact (P.log _ he).2.2 m hplace

/-- The place of one part is not another part of a scanned directory. -/
theorem SettledPart.Placed.place_ne {d' m : Bytes} (hplaced : s.Placed P) (hpart : s.part = join d n) (hn : slash ∉ n)
    (hd' : ScanDir P d') (hm : slash ∉ m) (hsuffix : hasPartSuffix (join d' m) = true) (hne : s.part ≠ join d' m) :
    s.place ≠ join d' m := by
  rcases hplaced.cases hpart hn with hplace | ⟨k, -, -, hwav⟩ | ⟨k, hk, hplace⟩
  · rw [hplace, ← hpart]
    exact hne
  · intro heq
    rw [heq, hsuffix] at hwav
    cases hwav
  · rw [hplace]
    intro heq
    exact P.quarantine_not_scanDir ((join_eq_join hk hm heq).1 ▸ hd')

theorem Settled.place_ne (h : Settled P c c' s) (hd : ScanDir P d) (hn : slash ∉ n) (hsuffix : hasPartSuffix (join d n) = true)
    (hne : s.part ≠ join d n) : s.place ≠ join d n := by
  obtain ⟨d', m, -, hm, hpart⟩ := h.dir
  exact h.placed.place_ne hpart hm hd hn hsuffix hne

/-- A scanned directory with no settled part in it is as it was. -/
theorem Conserved.lookup_dir (h : Conserved P c₀ c done) (hd : ScanDir P d) (hn : slash ∉ n)
    (hfresh : ∀ s ∈ done, dirname s.part ≠ d) : c.vol.lookup (join d n) = c₀.vol.lookup (join d n) := by
  apply h.others _ (P.scanDir_not_log hd n)
  · intro hmem
    obtain ⟨s, hs, heq⟩ := List.mem_map.mp hmem
    exact hfresh s hs (by rw [heq, dirname_join hn])
  · intro hmem
    obtain ⟨s, hs, heq⟩ := List.mem_map.mp hmem
    obtain ⟨d', k, -, hk, hpart⟩ := (h.settled s hs).dir
    have hd' : d' ≠ d := by
      rintro rfl
      exact hfresh s hs (by rw [hpart, dirname_join hk])
    rcases (h.settled s hs).placed.cases hpart hk with hplace | ⟨m, hm, hplace, -⟩ | ⟨m, hm, hplace⟩
    · exact hd' (join_eq_join hk hn (hplace.symm.trans heq)).1
    · exact hd' (join_eq_join hm hn (hplace.symm.trans heq)).1
    · exact P.quarantine_not_scanDir ((join_eq_join hm hn (hplace.symm.trans heq)).1 ▸ hd)

/-- A part that has not been dealt with is as it was. -/
theorem Conserved.lookup_part (h : Conserved P c₀ c done) (hd : ScanDir P d) (hn : slash ∉ n)
    (hsuffix : hasPartSuffix (join d n) = true) (hnew : join d n ∉ done.map SettledPart.part) :
    c.vol.lookup (join d n) = c₀.vol.lookup (join d n) := by
  refine h.others _ (P.scanDir_not_log hd n) hnew fun hmem => ?_
  obtain ⟨s, hs, heq⟩ := List.mem_map.mp hmem
  exact (h.settled s hs).place_ne hd hn hsuffix (fun hpart => hnew (List.mem_map.mpr ⟨s, hs, hpart⟩)) heq

/-- What is free now was free before, unless a part has been there. -/
theorem Conserved.free (h : Conserved P c₀ c done) {x : Path} (hlog : x ∉ P.events)
    (hpart : x ∉ done.map SettledPart.part) (hfree : c.vol.lookup x = none) : c₀.vol.lookup x = none := by
  rw [← h.others x hlog hpart, hfree]
  intro hmem
  obtain ⟨s, hs, rfl⟩ := List.mem_map.mp hmem
  obtain ⟨data, data', -, hfile, -⟩ := (h.settled s hs).kept
  rw [Card.file?_eq_some.mp hfile] at hfree
  cases hfree

/-- One more part is dealt with. -/
theorem Conserved.cons (h : Conserved P c₀ c done) (hd : ScanDir P d) (hn : slash ∉ n)
    (hsuffix : hasPartSuffix (join d n) = true) (hnew : join d n ∉ done.map SettledPart.part) {outcome : RecoveryOutcome}
    {place : Path} (hplaced : SettledPart.Placed P ⟨join d n, outcome, place⟩) (hfile : c₀.file? (join d n) = some data)
    (hkept : PcmKept data data') (hmoved : Moved c c' (join d n) place data')
    (hfree : place = join d n ∨ c.vol.lookup place = none) :
    Conserved P c₀ c' (⟨join d n, outcome, place⟩ :: done) := by
  have hne : ∀ t ∈ done, t.part ≠ join d n := fun t ht heq => hnew (List.mem_map.mpr ⟨t, ht, heq⟩)
  have hplacene : ∀ t ∈ done, t.place ≠ join d n := fun t ht => (h.settled t ht).place_ne hd hn hsuffix (hne t ht)
  have hlog : place ∉ P.events := hplaced.not_log rfl hn hd
  -- the new place is taken by no settled part, and was the part of none
  have hother : ∀ t ∈ done, t.place ≠ place := by
    intro t ht
    rcases hfree with rfl | hnone
    · exact hplacene t ht
    · rintro rfl
      obtain ⟨_, _, -, hf, -⟩ := (h.settled t ht).kept
      rw [Card.file?_eq_some.mp hf] at hnone
      cases hnone
  have hold : ∀ t ∈ done, t.part ≠ place := by
    intro t ht heq
    obtain ⟨d', m, hd', hm, hpart⟩ := (h.settled t ht).dir
    have hsuffix' := (h.settled t ht).suffix
    rw [hpart] at hsuffix'
    exact hplaced.place_ne rfl hn hd' hm hsuffix' (fun h' => hne t ht (hpart.trans h'.symm)) (heq.symm.trans hpart)
  constructor
  · exact List.nodup_cons.mpr ⟨hnew, h.parts⟩
  · refine List.nodup_cons.mpr ⟨fun hmem => ?_, h.places⟩
    obtain ⟨t, ht, heq⟩ := List.mem_map.mp hmem
    exact hother t ht heq
  · intro t ht
    rcases List.mem_cons.mp ht with rfl | ht
    · refine ⟨⟨d, n, hd, hn, rfl⟩, hsuffix, ⟨data, data', hfile, hmoved.file?, hkept⟩, hplaced, fun hpne => ⟨?_, ?_⟩⟩
      · refine h.free hlog (fun hmem => ?_) (hfree.resolve_left hpne)
        obtain ⟨t, ht, heq⟩ := List.mem_map.mp hmem
        exact hold t ht heq
      · rw [hmoved, if_neg (Ne.symm hpne), if_pos rfl]
    · have hsettled := h.settled t ht
      obtain ⟨dt, dt', hdt, hdt', hk⟩ := hsettled.kept
      refine ⟨hsettled.dir, hsettled.suffix, ⟨dt, dt', hdt, ?_, hk⟩, hsettled.placed, fun hpne => ?_⟩
      · rw [Card.file?_eq_some, hmoved, if_neg (hother t ht), if_neg (hplacene t ht), Card.file?_eq_some.mp hdt']
      · obtain ⟨hnone, hgone⟩ := hsettled.moved hpne
        exact ⟨hnone, by rw [hmoved, if_neg (hold t ht), if_neg (hne t ht), hgone]⟩
  · intro x hx hparts hplaces
    simp only [List.map_cons, List.mem_cons, not_or] at hparts hplaces
    rw [hmoved, if_neg hplaces.1, if_neg hparts.1]
    exact h.others x hx hparts.2 hplaces.2
  · intro e he old hold'
    obtain ⟨more, hmore⟩ := h.log e he old hold'
    have hep : e ≠ place := fun heq => hlog (heq ▸ he)
    have hed : e ≠ join d n := fun heq => P.scanDir_not_log hd n (heq ▸ he)
    refine ⟨more, ?_⟩
    rw [Card.file?_eq_some, hmoved, if_neg hep, if_neg hed, Card.file?_eq_some.mp hmore]

/-- A line in the log moves nothing. -/
theorem Conserved.logged (h : Conserved P c₀ c done) (hlogged : Logged P.events c c') : Conserved P c₀ c' done := by
  refine ⟨h.parts, h.places, fun t ht => ?_, fun x hx hparts hplaces => ?_, fun e he old hold => ?_⟩
  · have hsettled := h.settled t ht
    obtain ⟨d, n, hd, hn, hpart⟩ := hsettled.dir
    obtain ⟨dt, dt', hdt, hdt', hk⟩ := hsettled.kept
    have hplog : t.part ∉ P.events := hpart ▸ P.scanDir_not_log hd n
    refine ⟨⟨d, n, hd, hn, hpart⟩, hsettled.suffix, ⟨dt, dt', hdt, ?_, hk⟩, hsettled.placed, fun hpne => ?_⟩
    · rw [Card.file?_eq_some, hlogged.others _ (hsettled.placed.not_log hpart hn hd), Card.file?_eq_some.mp hdt']
    · obtain ⟨hnone, hgone⟩ := hsettled.moved hpne
      exact ⟨hnone, by rw [hlogged.others _ hplog, hgone]⟩
  · rw [hlogged.others x hx]
    exact h.others x hx hparts hplaces
  · obtain ⟨more, hmore⟩ := h.log e he old hold
    obtain ⟨more', hmore'⟩ := hlogged.grown e he _ hmore
    exact ⟨more ++ more', by rw [hmore', List.append_assoc]⟩

end Settled

end M5DayLog
