import M5DayLog.Wav.Recovery

/-! Where recovery leaves one part: under its finalized name, under a name in quarantine, or where it was. A lookup fails
only where the card is blind; any other call may fail at any time, and the payload survives. -/

namespace M5DayLog

open Bytes Fat Device

section Steady

/-- The faults of a card on which a lookup fails only for the paths in `blind`, and which reads its directories to their
end. -/
def steadyFault (blind : Path → Bool) : Call → Fault → Bool
  | .stat p, _ => blind p
  | .opendir _, .io _ _ => false
  | .opendir _, .order _ error => !error
  | _, _ => true

def steady (blind : Path → Bool) : Device Call Call.Ans Card Fault := device.shield (steadyFault blind)

variable {blind : Path → Bool} {A : Fault → Prop} {c : Card} {part wav quarantineDir path : Path} {data : Bytes}

/-- A call meets no more faults than on the card itself. -/
theorem wp_steady {o : Call} {Q : o.Ans → Card → Prop} (h : device.wp A (fun _ => True) (.op o) Q c) :
    (steady blind).wp A (fun _ => True) (.op o) Q c :=
  wp_shield (wp_faults_mono _ h fun _ hx => hx.1)

theorem wp_steady_stat {Q : Except Errno Stat → Card → Prop} (h : Q (c.statAns path) c)
    (hf : blind path = true → IoFault A → ∀ code, Q (.error (.other code)) c) :
    (steady blind).wp A (fun _ => True) (stat path) Q c := by
  apply wp_shield
  apply wp_stat trivial h
  rintro ⟨code, n, hA, hblind⟩
  exact hf hblind ⟨code, n, hA⟩

theorem wp_steady_pathExistsLocal {Q : Bool → Card → Prop} (h : Q (c.vol.lookup path).isSome c)
    (hf : blind path = true → IoFault A → Q false c) : (steady blind).wp A (fun _ => True) (pathExistsLocal path) Q c := by
  unfold pathExistsLocal
  rw [wp_bind]
  apply wp_steady_stat _ fun hb hA _ => hf hb hA
  cases hl : c.vol.lookup path with
  | none => simpa [Card.statAns, hl] using h
  | some n => cases n <;> simpa [Card.statAns, hl] using h

theorem wp_steady_pathIsDirLocal {Q : Bool → Card → Prop} (h : Q (c.isDir path) c)
    (hf : blind path = true → IoFault A → Q false c) : (steady blind).wp A (fun _ => True) (pathIsDirLocal path) Q c := by
  unfold pathIsDirLocal
  rw [wp_bind]
  apply wp_steady_stat _ fun hb hA _ => hf hb hA
  cases hl : c.vol.lookup path with
  | none => simpa [Card.statAns, Card.isDir, hl] using h
  | some n => cases n <;> simpa [Card.statAns, Card.isDir, hl] using h

/-- The size of a file that can be seen reads as itself below 2 GiB. -/
theorem wp_steady_fileSizeLocal {Q : Option ℕ → Card → Prop} (hsee : blind part = false) (hfile : c.file? part = some data)
    (h : data.length < 2 ^ 31 → Q (some data.length) c) (hbig : 2 ^ 31 ≤ data.length → Q none c) :
    (steady blind).wp A (fun _ => True) (fileSizeLocal part) Q c := by
  unfold fileSizeLocal
  rw [wp_bind]
  apply wp_steady_stat _ fun hb _ _ => by simp [hsee] at hb
  simp only [Card.statAns, Card.file?_eq_some.mp hfile]
  split
  case isTrue hlt => exact h hlt
  case isFalse hge => exact hbig (Nat.le_of_not_lt hge)

theorem wp_steady_closeFailed {Q : Bool → Card → Prop} (h : Q false c) :
    (steady blind).wp A (fun _ => True) (closeFailed path) Q c := by
  unfold closeFailed
  rw [wp_bind]
  exact wp_steady (wp_fclose trivial h fun _ => h)

/-- The card `c'` holds the file of `part` in `c` as `place`, with the data `data'`, and is else as `c`. -/
def Moved (c c' : Card) (part place : Path) (data' : Bytes) : Prop :=
  ∀ p, c'.vol.lookup p = if p = place then some (.file data') else if p = part then none else c.vol.lookup p

/-- The card after the quarantine directory has been made, if it had to be. -/
def MadeDir (c c' : Card) (dir : Path) : Prop := c' = c ∨ c.vol.lookup dir = none ∧ c' = c.put dir .dir

/-- A renamed file. -/
theorem moved_move {place : Path} : Moved c (c.move part place (.file data)) part place data := fun _ => Card.lookup_move

/-- A file written again. -/
theorem moved_put : Moved c (c.put part (.file data)) part part data := by
  intro p
  rw [Card.lookup_put]
  split <;> rfl

theorem moved_self (h : c.file? part = some data) : Moved c c part part data := by
  intro p
  split
  case isTrue hp => rw [hp, Card.file?_eq_some.mp h]
  case isFalse => rfl

theorem Moved.file? {c' : Card} {place : Path} (h : Moved c c' part place data) : c'.file? place = some data :=
  Card.file?_eq_some.mpr (by rw [h, if_pos rfl])

theorem Moved.trans {c' c'' : Card} {place : Path} {data' : Bytes} (h : Moved c c' part part data)
    (h' : Moved c' c'' part place data') : Moved c c'' part place data' := by
  intro p
  rw [h' p]
  split
  · rfl
  · split
    · rfl
    · rw [h p]
      split <;> simp_all

end Steady

section Payload

variable {data data' : Bytes}

/-- `data'` holds the payload of `data`: it is the same file, or has another header, and may lack an odd last byte. -/
def PcmKept (data data' : Bytes) : Prop :=
  data' = data ∨ wavHeaderSize ≤ data.length ∧ ∃ h : Bytes, h.length = wavHeaderSize ∧
    (data' = h ++ data.drop wavHeaderSize ∨ data' = h ++ (data.drop wavHeaderSize).take (recoveredPcm data.length))

/-- The file that recovery makes of a part. -/
def rebuiltPart (data : Bytes) : Bytes :=
  wavPartBuildHeader (recoveredPcm data.length) ++ (data.drop wavHeaderSize).take (recoveredPcm data.length)

/-- A write of no more than a header changes nothing behind it. -/
theorem pcmKept_overwrite {d : Bytes} (hlen : wavHeaderSize ≤ data.length) (hd : d.length ≤ wavHeaderSize) :
    PcmKept data (Card.overwrite 0 d data) := by
  refine Or.inr ⟨hlen, d ++ (data.take wavHeaderSize).drop d.length, ?_, Or.inl ?_⟩
  · rw [List.length_append, List.length_drop, List.length_take]
    omega
  · have hdrop : data.drop d.length = (data.take wavHeaderSize).drop d.length ++ data.drop wavHeaderSize := by
      conv_lhs => rw [← List.take_append_drop wavHeaderSize data]
      rw [List.drop_append_of_le_length]
      rw [List.length_take]
      omega
    rw [Card.overwrite, List.take_zero, List.nil_append, Nat.zero_add, hdrop, List.append_assoc]

theorem take_patchedPart (pcm : ℕ) (data : Bytes) :
    (patchedPart pcm data).take (wavHeaderSize + pcm) = wavPartBuildHeader pcm ++ (data.drop wavHeaderSize).take pcm := by
  rw [patchedPart, ← wavPartBuildHeader_length pcm, List.take_length_add_append]

/-- Behind an even payload there is nothing to cut off. -/
theorem rebuiltPart_even (hlen : wavHeaderSize ≤ data.length)
    (heven : ¬ wavHeaderSize + recoveredPcm data.length < data.length) :
    rebuiltPart data = patchedPart (recoveredPcm data.length) data := by
  rw [rebuiltPart, patchedPart, List.take_of_length_le]
  rw [List.length_drop]
  omega

theorem pcmKept_patchedPart (hlen : wavHeaderSize ≤ data.length) :
    PcmKept data (patchedPart (recoveredPcm data.length) data) :=
  Or.inr ⟨hlen, _, wavPartBuildHeader_length _, Or.inl rfl⟩

theorem pcmKept_rebuiltPart (hlen : wavHeaderSize ≤ data.length) : PcmKept data (rebuiltPart data) :=
  Or.inr ⟨hlen, _, wavPartBuildHeader_length _, Or.inr rfl⟩

end Payload

section Header

variable {blind : Path → Bool} {A : Fault → Prop} {c : Card} {part : Path} {data : Bytes}

/-- The rebuilt header leaves the file patched, with its tail cut off or, where that fails, not. A fault before that leaves
the payload as it was. -/
theorem wp_steady_rewriteHeaderWithSync {Q : Bool → Card → Prop} (hsee : blind part = false) (hfile : c.file? part = some data)
    (hlen : wavHeaderSize ≤ data.length) (hlt : data.length < 2 ^ 31)
    (h : ∀ data' c', Moved c c' part part data' → PcmKept data data' → (IoFault A ∨ data' = rebuiltPart data) → Q true c')
    (hf : IoFault A → ∀ data' c', Moved c c' part part data' → PcmKept data data' → Q false c') :
    (steady blind).wp A (fun _ => True) (rewriteHeaderWithSync part (recoveredPcm data.length)) Q c := by
  have hhdr := wavPartBuildHeader_length (recoveredPcm data.length)
  set pcm := recoveredPcm data.length with hpcm
  have hstay : IoFault A → Q false c := fun hA => hf hA data c (moved_self hfile) (Or.inl rfl)
  have hpatch : ∀ n, c.writeAt part 0 (wavPartBuildHeader pcm) n =
      c.put part (.file (Card.overwrite 0 ((wavPartBuildHeader pcm).take n) data)) := by
    intro n
    rw [Card.writeAt, hfile]
  have hpart : IoFault A → ∀ n, Q false (c.writeAt part 0 (wavPartBuildHeader pcm) n) := by
    intro hA n
    rw [hpatch]
    refine hf hA _ _ moved_put (pcmKept_overwrite hlen ?_)
    rw [List.length_take]
    omega
  have hfull : c.writeAt part 0 (wavPartBuildHeader pcm) wavHeaderSize = c.put part (.file (patchedPart pcm data)) := by
    rw [hpatch, overwrite_header]
  unfold rewriteHeaderWithSync
  rw [wp_bind]
  refine wp_steady (wp_fopen trivial ?_ hstay)
  simp only [Card.openAns, hfile, Option.isSome_some, Bool.not_true, Bool.false_eq_true, if_false]
  rw [wp_bind]
  refine wp_steady (wp_fseek trivial ?_ fun hA => wp_steady_closeFailed (hstay hA))
  simp only [Bool.not_true, Bool.false_eq_true, if_false]
  rw [wp_bind]
  refine wp_steady (wp_fwrite (fun _ => trivial) ?_ fun hA n hn => ?_)
  · rw [if_neg (by simp [hhdr]), wp_bind, hhdr]
    have hclosed : IoFault A → Q false (c.writeAt part 0 (wavPartBuildHeader pcm) wavHeaderSize) := fun hA => hpart hA _
    refine wp_steady (wp_fflush trivial ?_ fun hA => wp_steady_closeFailed (hclosed hA))
    simp only [Bool.not_true, Bool.false_eq_true, if_false]
    rw [wp_bind]
    refine wp_steady (wp_fsync trivial ?_ fun hA => wp_steady_closeFailed (hclosed hA))
    simp only [Bool.not_true, Bool.false_eq_true, if_false]
    rw [wp_bind]
    refine wp_steady (wp_fclose trivial ?_ hclosed)
    simp only [Bool.not_true, Bool.false_eq_true, if_false]
    have hplen : (patchedPart pcm data).length = data.length := patchedPart_length hlen
    have hkeep : IoFault A ∨ ¬ wavHeaderSize + pcm < data.length → Q true (c.put part (.file (patchedPart pcm data))) := by
      intro hA
      refine h _ _ moved_put (pcmKept_patchedPart hlen) (hA.imp_right fun heven => ?_)
      exact (rebuiltPart_even hlen heven).symm
    unfold shrinkTail
    rw [hfull, wp_bind, wp_bind]
    refine wp_steady_fileSizeLocal hsee Card.file?_put (fun _ => ?_) fun hbig => ?_
    · rw [hplen]
      simp only
      split
      case isFalse heven => exact hkeep (Or.inr heven)
      case isTrue hodd =>
        rw [wp_bind]
        refine wp_steady (wp_truncate trivial ?_ fun hA => hkeep (Or.inl hA))
        rw [Card.file?_put]
        simp only [Card.put_put, take_patchedPart]
        exact h _ _ moved_put (pcmKept_rebuiltPart hlen) (Or.inr rfl)
    · omega
  · rw [if_pos]
    · exact wp_steady_closeFailed (hpart hA n)
    · rw [hhdr] at hn
      have : wavHeaderSize = 44 := rfl
      omega

end Header

section Quarantine

/-- The names in quarantine that are tried for a part: its own, then the numbered ones. -/
def quarantineName (part quarantineDir : Path) : ℕ → Option Path
  | 0 => wavRecoveryBuildQuarantinePath part quarantineDir maxPathLen
  | i + 1 => quarantineNumbered part quarantineDir (i + 1)

/-- The `i`-th name fits, and is taken. -/
def NameTaken (c : Card) (part quarantineDir : Path) (i : ℕ) : Prop :=
  ∃ d, quarantineName part quarantineDir i = some d ∧ (c.vol.lookup d).isSome = true

/-- One of the hundred names is free, and every name before it is taken. -/
def NameReady (c : Card) (part quarantineDir : Path) : Prop :=
  ∃ i < 100, (∃ d, quarantineName part quarantineDir i = some d ∧ c.vol.lookup d = none) ∧
    ∀ j < i, NameTaken c part quarantineDir j

/-- The directory is there or can be made, and a name in it is free. -/
structure QuarantineReady (c : Card) (part quarantineDir : Path) : Prop where
  dir : c.isDir quarantineDir = true ∨ c.vol.lookup quarantineDir = none ∧ c.isDir (dirname quarantineDir) = true
  name : NameReady c part quarantineDir

variable {blind : Path → Bool} {A : Fault → Prop} {c : Card} {part quarantineDir d : Path} {data : Bytes}

theorem slash_not_mem_basenameLocal (path : Path) : slash ∉ basenameLocal path := by
  intro h
  have := List.mem_takeWhile_imp (List.mem_reverse.mp h)
  simp at this

/-- Every name tried is one in the quarantine directory. -/
theorem quarantineName_join {i : ℕ} (h : quarantineName part quarantineDir i = some d) :
    ∃ n, d = join quarantineDir n ∧ slash ∉ n := by
  cases i with
  | zero =>
    simp only [quarantineName, wavRecoveryBuildQuarantinePath, Option.ite_none_left_eq_some, Option.some.injEq] at h
    exact ⟨_, h.2.2.2.symm, slash_not_mem_basenameLocal part⟩
  | succ i =>
    simp only [quarantineName, quarantineNumbered, Option.ite_none_left_eq_some, Option.some.injEq] at h
    refine ⟨_, h.2.2.2.symm, ?_⟩
    have hdec : slash ∉ dec (i + 1) := fun hs => absurd (dec_digits _ hs) (by decide)
    have hsuffix : slash ∉ partSuffix := by with_unfolding_all decide
    have hstem : slash ∉ (basenameLocal part).take ((basenameLocal part).length - partSuffix.length) := fun hs =>
      slash_not_mem_basenameLocal part (List.mem_of_mem_take hs)
    have hunderscore : slash ≠ underscore := by decide
    simp [hdec, hsuffix, hstem, hunderscore]

theorem quarantineName_ne {i : ℕ} (h : quarantineName part quarantineDir i = some d) : d ≠ quarantineDir := by
  obtain ⟨n, rfl, -⟩ := quarantineName_join h
  intro heq
  have hlen := congrArg List.length heq
  simp [join] at hlen

theorem wp_steady_renameOk {Q : Bool → Card → Prop} (hpart : c.file? part = some data)
    (h : c.vol.lookup d = none → ∀ c', Moved c c' part d data → Q true c')
    (hf : IoFault A ∨ (c.vol.lookup d).isSome = true → Q false c) :
    (steady blind).wp A (fun _ => True) (renameOk part d) Q c := by
  unfold renameOk
  rw [wp_bind]
  refine wp_steady (wp_rename trivial ?_ fun hA _ => hf (Or.inl hA))
  simp only [Card.renameAns, Card.file?_eq_some.mp hpart]
  cases hd : c.vol.lookup d with
  | none => exact h hd _ moved_move
  | some n => exact hf (Or.inr (by simp [hd]))

/-- A name that looks free is tried; where it is taken the next one is. -/
theorem wp_steady_tryName {Q : Bool → Card → Prop} {next : Sys Bool} (hpart : c.file? part = some data)
    (h : c.vol.lookup d = none → ∀ c', Moved c c' part d data → Q true c') (hf : IoFault A → Q false c)
    (hnext : (c.vol.lookup d).isSome = true → (steady blind).wp A (fun _ => True) next Q c) :
    (steady blind).wp A (fun _ => True)
      (pathExistsLocal d >>= fun taken => if !taken then renameOk part d else next) Q c := by
  rw [wp_bind]
  apply wp_steady_pathExistsLocal
  · cases hd : c.vol.lookup d with
    | none =>
      apply wp_steady_renameOk hpart h
      rintro (hA | hsome)
      · exact hf hA
      · simp [hd] at hsome
    | some n => exact hnext (by simp [hd])
  · intro _ hA
    exact wp_steady_renameOk hpart h fun _ => hf hA

/-- The first free name is taken; where none is, or a call fails, the part stays. -/
theorem wp_steady_quarantineNumberedMove {Q : Bool → Card → Prop} (hpart : c.file? part = some data)
    (h : ∀ i d c', i < 100 → quarantineName part quarantineDir i = some d → c.vol.lookup d = none →
      Moved c c' part d data → Q true c')
    (hf : IoFault A ∨ ¬ NameReady c part quarantineDir → Q false c) (n i : ℕ) (hi : 0 < i) (hn : i + n = 100)
    (htaken : ∀ j < i, NameTaken c part quarantineDir j) :
    (steady blind).wp A (fun _ => True) (quarantineNumberedMove part quarantineDir n i) Q c := by
  induction n generalizing i with
  | zero =>
    refine hf (Or.inr ?_)
    rintro ⟨k, hk, ⟨d, hname, hfree⟩, -⟩
    obtain ⟨d', hname', hsome⟩ := htaken k (by omega)
    rw [hname] at hname'
    rw [← Option.some.inj hname', hfree] at hsome
    cases hsome
  | succ n ih =>
    have hnumbered : quarantineName part quarantineDir i = quarantineNumbered part quarantineDir i := by
      obtain ⟨k, rfl⟩ := Nat.exists_eq_add_of_lt hi
      rw [Nat.zero_add]
      rfl
    unfold quarantineNumberedMove
    cases hname : quarantineNumbered part quarantineDir i with
    | none =>
      refine hf (Or.inr ?_)
      rintro ⟨k, hk, ⟨d, hd, hfree⟩, hbelow⟩
      -- the free name would come after one that does not fit
      rcases Nat.lt_trichotomy k i with hlt | rfl | hlt
      · obtain ⟨d', hd', hsome⟩ := htaken k hlt
        rw [hd] at hd'
        rw [← Option.some.inj hd', hfree] at hsome
        cases hsome
      · rw [hnumbered, hname] at hd
        cases hd
      · obtain ⟨d', hd', -⟩ := hbelow i hlt
        rw [hnumbered, hname] at hd'
        cases hd'
    | some d =>
      have hd : quarantineName part quarantineDir i = some d := hnumbered.trans hname
      refine wp_steady_tryName hpart (fun hfree c' hm => h i d c' (by omega) hd hfree hm) (fun hA => hf (Or.inl hA))
        fun hsome => ?_
      refine ih (i + 1) (by omega) (by omega) fun j hj => ?_
      rcases Nat.lt_succ_iff_lt_or_eq.mp hj with hlt | rfl
      · exact htaken j hlt
      · exact ⟨d, hd, hsome⟩

/-- The directory is made if it is not there. -/
theorem wp_steady_ensureDir {Q : Bool → Card → Prop} (hne : quarantineDir ≠ [])
    (h : ∀ c', MadeDir c c' quarantineDir → c'.isDir quarantineDir = true → Q true c')
    (hf : IoFault A ∨ ¬ (c.isDir quarantineDir = true ∨
      c.vol.lookup quarantineDir = none ∧ c.isDir (dirname quarantineDir) = true) → Q false c) :
    (steady blind).wp A (fun _ => True) (wavRecoveryEnsureDir quarantineDir) Q c := by
  unfold wavRecoveryEnsureDir
  rw [if_neg hne, wp_bind]
  refine wp_steady (wp_op (fun _ => trivial) ?_ (fun hA _ _ => hf (Or.inl hA)) (by simp))
  simp only [Card.calm, Card.mkdirAns]
  cases hq : c.vol.lookup quarantineDir with
  | some n =>
    simp only [Option.isSome_some, if_true]
    apply wp_steady_pathIsDirLocal
    · cases hdir : c.isDir quarantineDir with
      | true => exact h c (Or.inl rfl) hdir
      | false => exact hf (Or.inr (by simp [hdir, hq]))
    · exact fun _ hA => hf (Or.inl hA)
  | none =>
    simp only [Option.isSome_none, Bool.false_eq_true, if_false]
    cases hparent : c.isDir (dirname quarantineDir) with
    | true => exact h _ (Or.inr ⟨hq, rfl⟩) (by simp [Card.isDir])
    | false =>
      have hdir : c.isDir quarantineDir = false := by simp [Card.isDir, hq]
      exact hf (Or.inr (by simp [hdir, hparent]))

theorem MadeDir.lookup {c' : Card} {p : Path} (h : MadeDir c c' quarantineDir) (hp : p ≠ quarantineDir) :
    c'.vol.lookup p = c.vol.lookup p := by
  rcases h with rfl | ⟨-, rfl⟩
  · rfl
  · rw [Card.lookup_put, if_neg hp]

/-- Making the directory takes no name in it. -/
theorem MadeDir.nameReady {c' : Card} (h : MadeDir c c' quarantineDir) (hready : NameReady c part quarantineDir) :
    NameReady c' part quarantineDir := by
  obtain ⟨i, hi, ⟨d, hd, hfree⟩, hbelow⟩ := hready
  refine ⟨i, hi, ⟨d, hd, ?_⟩, fun j hj => ?_⟩
  · rw [h.lookup (quarantineName_ne hd), hfree]
  · obtain ⟨d', hd', hsome⟩ := hbelow j hj
    exact ⟨d', hd', by rw [h.lookup (quarantineName_ne hd'), hsome]⟩

/-- A part goes to quarantine under a free name, with its bytes unchanged, or stays where it is. -/
theorem wp_steady_quarantineOutcome {Q : RecoveryOutcome × ℕ → Card → Prop} (hpart : c.file? part = some data)
    (hsuffix : hasPartSuffix part = true) (hne : quarantineDir ≠ [])
    (h : ∀ i d c₁ c', MadeDir c c₁ quarantineDir → i < 100 → quarantineName part quarantineDir i = some d →
      c₁.vol.lookup d = none → Moved c₁ c' part d data → Q (.quarantined, 0) c')
    (hf : ∀ c₁, MadeDir c c₁ quarantineDir → (IoFault A ∨ ¬ QuarantineReady c part quarantineDir) → Q (.error, 0) c₁) :
    (steady blind).wp A (fun _ => True) (quarantineOutcome part quarantineDir) Q c := by
  unfold quarantineOutcome quarantineMove
  rw [if_neg (by simp [hsuffix, hne]), wp_bind, wp_bind]
  refine wp_steady_ensureDir hne (fun c₁ hmade _ => ?_) fun hbad => ?_
  · have hpart₁ : c₁.file? part = some data := by
      rcases hmade with rfl | ⟨hnone, rfl⟩
      · exact hpart
      · rw [Card.file?_eq_some, Card.lookup_put, if_neg]
        · exact Card.file?_eq_some.mp hpart
        · rintro rfl
          rw [Card.file?_eq_some.mp hpart] at hnone
          cases hnone
    have hstay : (IoFault A ∨ ¬ NameReady c₁ part quarantineDir) → Q (.error, 0) c₁ := fun hbad =>
      hf c₁ hmade (hbad.imp_right fun hno hready => hno (hmade.nameReady hready.name))
    have hmoved : ∀ i d c', i < 100 → quarantineName part quarantineDir i = some d → c₁.vol.lookup d = none →
        Moved c₁ c' part d data → Q (.quarantined, 0) c' := fun i d c' hi hd hfree hm => h i d c₁ c' hmade hi hd hfree hm
    simp only [Bool.not_true, Bool.false_eq_true, if_false]
    cases hname : wavRecoveryBuildQuarantinePath part quarantineDir maxPathLen with
    | none =>
      refine hstay (Or.inr ?_)
      rintro ⟨k, hk, ⟨d, hd, -⟩, hbelow⟩
      rcases Nat.eq_zero_or_pos k with rfl | hpos
      · rw [quarantineName, hname] at hd
        cases hd
      · obtain ⟨d', hd', -⟩ := hbelow 0 hpos
        rw [quarantineName, hname] at hd'
        cases hd'
    | some d =>
      refine wp_steady_tryName hpart₁ (fun hfree c' hm => hmoved 0 d c' (by omega) hname hfree hm)
        (fun hA => hstay (Or.inl hA)) fun hsome => ?_
      refine wp_steady_quarantineNumberedMove hpart₁ hmoved hstay 99 1 (by omega) rfl fun j hj => ?_
      obtain rfl : j = 0 := by omega
      exact ⟨d, hname, hsome⟩
  · exact hf c (Or.inl rfl) (hbad.imp_right fun hno hready => hno hready.dir)

/-- A part written again before the directory is made, as if it had been made before. -/
theorem MadeDir.comm {c' c₁ : Card} {data' : Bytes} (h : Moved c c' part part data') (hmade : MadeDir c' c₁ quarantineDir)
    (hpart : c.file? part = some data) : ∃ c₂, MadeDir c c₂ quarantineDir ∧ Moved c₂ c₁ part part data' := by
  rcases hmade with rfl | ⟨hnone, rfl⟩
  · exact ⟨c, Or.inl rfl, h⟩
  · have hne : quarantineDir ≠ part := by
      rintro rfl
      rw [h, if_pos rfl] at hnone
      cases hnone
    rw [h, if_neg hne, if_neg hne] at hnone
    refine ⟨c.put quarantineDir .dir, Or.inr ⟨hnone, rfl⟩, fun p => ?_⟩
    simp only [Card.lookup_put, h p]
    split
    case isTrue hp => simp only [hp, if_neg hne]
    case isFalse => rfl

end Quarantine

section Recover

/-- A part that can be rebuilt: of less than 2 GiB, with a whole header in the recorder's format. -/
def Recoverable (data : Bytes) : Prop :=
  wavHeaderSize ≤ data.length ∧ data.length < 2 ^ 31 ∧ wavRecoveryValidateHeader (data.take wavHeaderSize) = true

variable {blind : Path → Bool} {A : Fault → Prop} {c : Card} {part wav quarantineDir : Path} {data : Bytes}

/-- Without a fault the whole header is read. -/
theorem wp_steady_readPartHeader {Q : Option Bytes → Card → Prop} (hpart : c.file? part = some data)
    (h : Q (some (data.take wavHeaderSize)) c)
    (hf : IoFault A → Q none c ∧ ∀ k < wavHeaderSize, Q (some (data.take k)) c) :
    (steady blind).wp A (fun _ => True) (readPartHeader part) Q c := by
  unfold readPartHeader
  rw [wp_bind]
  refine wp_steady (wp_fopen trivial ?_ fun hA => (hf hA).1)
  simp only [Card.openAns, hpart, Option.isSome_some, Bool.not_true, Bool.false_eq_true, if_false]
  rw [wp_bind]
  refine wp_steady (wp_fread trivial ?_ fun hA k => ?_)
  · rw [hpart, wp_bind]
    exact wp_steady (wp_fclose trivial h fun _ => h)
  · have hshort := (hf hA).2 (min k (wavHeaderSize - 1)) (by simp only [wavHeaderSize]; omega)
    rw [hpart, wp_bind]
    exact wp_steady (wp_fclose trivial hshort fun _ => hshort)

/-- What recovery may do with a part, in a postcondition `Q`: it is rebuilt and renamed to a free name, or goes to
quarantine, or stays. Without a fault it is rebuilt when it can be and its finalized name is free, and else moved as it is
when quarantine is ready. -/
structure Settles (A : Fault → Prop) (c : Card) (part wav quarantineDir : Path) (data : Bytes)
    (Q : RecoveryOutcome × ℕ → Card → Prop) : Prop where
  recovered : ∀ data' c', c.vol.lookup wav = none → Recoverable data → PcmKept data data' →
    (IoFault A ∨ data' = rebuiltPart data) → Moved c c' part wav data' → Q (.recovered, recoveredPcm data.length) c'
  quarantined : ∀ data' i d c₁ c', PcmKept data data' →
    (IoFault A ∨ data' = data ∧ ¬ (Recoverable data ∧ c.vol.lookup wav = none)) → MadeDir c c₁ quarantineDir → i < 100 →
    quarantineName part quarantineDir i = some d → c₁.vol.lookup d = none → Moved c₁ c' part d data' →
    Q (.quarantined, 0) c'
  left : ∀ data' c₁ c', PcmKept data data' →
    (IoFault A ∨ data' = data ∧ ¬ (Recoverable data ∧ c.vol.lookup wav = none) ∧ ¬ QuarantineReady c part quarantineDir) →
    MadeDir c c₁ quarantineDir → Moved c₁ c' part part data' → Q (.error, 0) c'

variable {Q : RecoveryOutcome × ℕ → Card → Prop}

/-- A part that is not rebuilt. -/
theorem Settles.wp_quarantine (h : Settles A c part wav quarantineDir data Q) (hpart : c.file? part = some data)
    (hsuffix : hasPartSuffix part = true) (hne : quarantineDir ≠ [])
    (hbad : IoFault A ∨ ¬ (Recoverable data ∧ c.vol.lookup wav = none)) :
    (steady blind).wp A (fun _ => True) (quarantineOutcome part quarantineDir) Q c := by
  apply wp_steady_quarantineOutcome hpart hsuffix hne
  · intro i d c₁ c' hmade hi hd hfree hmoved
    exact h.quarantined data i d c₁ c' (Or.inl rfl) (hbad.imp_right fun hno => ⟨rfl, hno⟩) hmade hi hd hfree hmoved
  · intro c₁ hmade hno
    have hpart₁ : c₁.file? part = some data := by
      obtain ⟨c₂, hmade₂, hmoved⟩ := hmade.comm (moved_self hpart) hpart
      exact hmoved.file?
    refine h.left data c₁ c₁ (Or.inl rfl) ?_ hmade (moved_self hpart₁)
    rcases hbad with hA | hbad
    · exact Or.inl hA
    · exact hno.imp_right fun hno => ⟨rfl, hbad, hno⟩

/-- A part that has been rewritten, and whose finalized name turns out to be taken. -/
theorem Settles.wp_reroute {c' : Card} {data' : Bytes} (h : Settles A c part wav quarantineDir data Q)
    (hpart : c.file? part = some data) (hsuffix : hasPartSuffix part = true) (hne : quarantineDir ≠ [])
    (hmoved : Moved c c' part part data') (hkept : PcmKept data data') (hA : IoFault A) :
    (steady blind).wp A (fun _ => True) (quarantineOutcome part quarantineDir) Q c' := by
  apply wp_steady_quarantineOutcome hmoved.file? hsuffix hne
  · intro i d c₁ c'' hmade hi hd hfree hm
    obtain ⟨c₂, hmade₂, hmoved₂⟩ := hmade.comm hmoved hpart
    refine h.quarantined data' i d c₂ c'' hkept (Or.inl hA) hmade₂ hi hd ?_ (hmoved₂.trans hm)
    have hdpart : d ≠ part := by
      rintro rfl
      rw [hmoved₂, if_pos rfl] at hfree
      cases hfree
    rwa [hmoved₂, if_neg hdpart, if_neg hdpart] at hfree
  · intro c₁ hmade _
    obtain ⟨c₂, hmade₂, hmoved₂⟩ := hmade.comm hmoved hpart
    exact h.left data' c₂ c₁ hkept (Or.inl hA) hmade₂ hmoved₂

theorem Settles.wp_recoverPart (h : Settles A c part wav quarantineDir data Q) (hsee : blind part = false)
    (hpart : c.file? part = some data) (hname : wavRotationPartToWav part maxPathLen = some wav)
    (hne : quarantineDir ≠ []) (hfree : IoFault A ∨ c.vol.lookup wav = none) :
    (steady blind).wp A (fun _ => True) (recoverPart part wav quarantineDir) Q c := by
  have hsuffix := hasPartSuffix_of_partToWav hname
  have hquarantine : (IoFault A ∨ ¬ Recoverable data) →
      (steady blind).wp A (fun _ => True) (quarantineOutcome part quarantineDir) Q c := fun hbad =>
    h.wp_quarantine hpart hsuffix hne (hbad.imp_right fun hno hrec => hno hrec.1)
  have hleft : IoFault A → Q (.error, 0) c := fun hA =>
    h.left data c c (Or.inl rfl) (Or.inl hA) (Or.inl rfl) (moved_self hpart)
  unfold recoverPart
  rw [wp_bind]
  refine wp_steady_fileSizeLocal hsee hpart (fun hlt => ?_) fun hbig => ?_
  · simp only
    split
    case isTrue hshort => exact hquarantine (Or.inr fun hrec => absurd hrec.1 (Nat.not_le_of_lt hshort))
    case isFalse hlen =>
      have hlen := Nat.le_of_not_lt hlen
      have htake : (data.take wavHeaderSize).length = wavHeaderSize := by
        rw [List.length_take]
        omega
      rw [wp_bind]
      refine wp_steady_readPartHeader hpart ?_ fun hA => ⟨hleft hA, fun k hk => ?_⟩
      · simp only [htake]
        cases hvalid : wavRecoveryValidateHeader (data.take wavHeaderSize) with
        | false => simpa using hquarantine (Or.inr fun hrec => by simp [hrec.2.2] at hvalid)
        | true =>
          have hrec : Recoverable data := ⟨hlen, hlt, hvalid⟩
          simp only [ne_eq, not_true_eq_false, Bool.not_true, Bool.false_eq_true, or_self, if_false]
          rw [wp_bind]
          refine wp_steady_rewriteHeaderWithSync hsee hpart hlen hlt (fun data' c' hmoved hkept hexact => ?_)
            fun hA data' c' hmoved hkept => ?_
          · simp only [Bool.not_true, Bool.false_eq_true, if_false]
            have hne' : wav ≠ part := by
              rintro rfl
              exact partToWav_ne hname
            rw [wp_bind]
            refine wp_steady (wp_rename trivial ?_ fun hA _ => ?_)
            · simp only [Card.renameAns, Card.file?_eq_some.mp hmoved.file?]
              cases hwav : c'.vol.lookup wav with
              | none =>
                rw [hmoved, if_neg hne', if_neg hne'] at hwav
                exact h.recovered data' _ hwav hrec hkept hexact (hmoved.trans moved_move)
              | some n =>
                rw [hmoved, if_neg hne', if_neg hne'] at hwav
                refine h.wp_reroute hpart hsuffix hne hmoved hkept (hfree.resolve_right ?_)
                simp [hwav]
            · exact h.left data' c c' hkept (Or.inl hA) (Or.inl rfl) hmoved
          · exact h.left data' c c' hkept (Or.inl hA) (Or.inl rfl) hmoved
      · have hshort : (data.take k).length ≠ wavHeaderSize := by
          rw [List.length_take]
          omega
        simp only [hshort, ne_eq, not_false_eq_true, true_or, if_true]
        exact hquarantine (Or.inl hA)
  · exact hquarantine (Or.inr fun hrec => absurd hrec.2.1 (Nat.not_lt_of_le hbig))

/-- A part that is there and can be seen is settled. -/
theorem Settles.wp (h : Settles A c part wav quarantineDir data Q) (hsee : blind part = false)
    (hpart : c.file? part = some data) (hname : wavRotationPartToWav part maxPathLen = some wav)
    (hne : quarantineDir ≠ []) :
    (steady blind).wp A (fun _ => True) (wavRecoveryRecoverFile part wav quarantineDir) Q c := by
  have hsuffix := hasPartSuffix_of_partToWav hname
  have hwavne : wav ≠ [] := by
    rintro rfl
    exact absurd (hasWavSuffix_of_partToWav hname) (by with_unfolding_all decide)
  unfold wavRecoveryRecoverFile
  rw [if_neg (by simp [hsuffix, hwavne, hne, hname]), wp_bind]
  apply wp_steady_pathExistsLocal
  · simp only [Card.file?_eq_some.mp hpart, Option.isSome_some, Bool.not_true, Bool.false_eq_true, if_false]
    rw [wp_bind]
    apply wp_steady_pathExistsLocal
    · cases hwav : c.vol.lookup wav with
      | some n => exact h.wp_quarantine hpart hsuffix hne (Or.inr fun hfree => by simp [hwav] at hfree)
      | none => exact h.wp_recoverPart hsee hpart hname hne (Or.inr hwav)
    · exact fun _ hA => h.wp_recoverPart hsee hpart hname hne (Or.inl hA)
  · intro hblind
    rw [hsee] at hblind
    cases hblind

theorem not_ioFault_false : ¬ IoFault fun _ => False := fun ⟨_, _, h⟩ => h

/-- The fault-free recovery settles the part. -/
theorem Settles.eval (h : Settles (fun _ => False) c part wav quarantineDir data Q) (hpart : c.file? part = some data)
    (hname : wavRotationPartToWav part maxPathLen = some wav) (hne : quarantineDir ≠ []) :
    Q (device.eval (wavRecoveryRecoverFile part wav quarantineDir) c).1
      (device.eval (wavRecoveryRecoverFile part wav quarantineDir) c).2 := by
  have hwp : (steady fun _ => false).wp (fun _ => False) (fun _ => True) (wavRecoveryRecoverFile part wav quarantineDir) Q c :=
    h.wp rfl hpart hname hne
  rw [← eval_shield (P := steadyFault fun _ => false)]
  exact eval_sat _ hwp

/-- Without a fault, a part that can be rebuilt and whose finalized name is free is recovered. -/
theorem eval_recoverFile_recovered (hpart : c.file? part = some data)
    (hname : wavRotationPartToWav part maxPathLen = some wav) (hne : quarantineDir ≠ []) (hrec : Recoverable data)
    (hfree : c.vol.lookup wav = none) :
    (device.eval (wavRecoveryRecoverFile part wav quarantineDir) c).1 = (.recovered, recoveredPcm data.length) ∧
      Moved c (device.eval (wavRecoveryRecoverFile part wav quarantineDir) c).2 part wav (rebuiltPart data) := by
  refine Settles.eval (Q := fun r c' => r = (.recovered, recoveredPcm data.length) ∧ Moved c c' part wav (rebuiltPart data))
    ⟨?_, ?_, ?_⟩ hpart hname hne
  · intro data' c' _ _ _ hexact hmoved
    rw [← hexact.resolve_left not_ioFault_false]
    exact ⟨rfl, hmoved⟩
  · intro data' i d c₁ c' _ hno
    exact absurd ⟨hrec, hfree⟩ (hno.resolve_left not_ioFault_false).2
  · intro data' c₁ c' _ hno
    exact absurd ⟨hrec, hfree⟩ (hno.resolve_left not_ioFault_false).2.1

/-- Without a fault, any other part goes to quarantine as it is, when quarantine is ready. -/
theorem eval_recoverFile_quarantined (hpart : c.file? part = some data)
    (hname : wavRotationPartToWav part maxPathLen = some wav) (hne : quarantineDir ≠ [])
    (hbad : ¬ (Recoverable data ∧ c.vol.lookup wav = none)) (hready : QuarantineReady c part quarantineDir) :
    ∃ i d c₁, i < 100 ∧ quarantineName part quarantineDir i = some d ∧ c.vol.lookup d = none ∧
      MadeDir c c₁ quarantineDir ∧
      (device.eval (wavRecoveryRecoverFile part wav quarantineDir) c).1 = (.quarantined, 0) ∧
      Moved c₁ (device.eval (wavRecoveryRecoverFile part wav quarantineDir) c).2 part d data := by
  refine Settles.eval (Q := fun r c' => ∃ i d c₁, i < 100 ∧ quarantineName part quarantineDir i = some d ∧
    c.vol.lookup d = none ∧ MadeDir c c₁ quarantineDir ∧ r = (.quarantined, 0) ∧ Moved c₁ c' part d data)
    ⟨?_, ?_, ?_⟩ hpart hname hne
  · intro data' c' hfree hrec
    exact absurd ⟨hrec, hfree⟩ hbad
  · intro data' i d c₁ c' _ hexact hmade hi hd hfree hmoved
    obtain ⟨rfl, -⟩ := hexact.resolve_left not_ioFault_false
    rw [hmade.lookup (quarantineName_ne hd)] at hfree
    exact ⟨i, d, c₁, hi, hd, hfree, hmade, rfl, hmoved⟩
  · intro data' c₁ c' _ hno
    exact absurd hready (hno.resolve_left not_ioFault_false).2.2

end Recover

end M5DayLog
