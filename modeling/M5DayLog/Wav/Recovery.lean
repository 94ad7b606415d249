import M5DayLog.Wav.Hash
import M5DayLog.Wav.Rotation

/-! Recovery of a part that a power loss has left behind: its header is rebuilt from the length of its file, an odd
last byte is cut off, and it is renamed. A part that cannot be recovered is moved into quarantine; nothing is deleted. -/

namespace M5DayLog

open Bytes Fat Device

inductive RecoveryOutcome
  | recovered
  | quarantined
  | error
  deriving DecidableEq

section Paths

/-- The name behind the last separator of either kind. -/
def basenameLocal (path : Path) : Bytes := (path.reverse.takeWhile fun b => b ≠ slash ∧ b ≠ backslash).reverse

def wavRecoveryBuildQuarantinePath (part quarantineDir : Path) (outSize : ℕ) : Option Path :=
  if outSize = 0 ∨ !hasPartSuffix part ∨ quarantineDir = [] then none
  else
    let base := basenameLocal part
    if base = [] ∨ base.length > 128 then none
    else
      let out := join quarantineDir base
      if out.length ≥ outSize then none else some out

/-- The candidate with `_<i>` before the suffix. -/
def quarantineNumbered (part quarantineDir : Path) (i : ℕ) : Option Path :=
  let base := basenameLocal part
  if base.length < partSuffix.length + 1 then none
  else
    let stem := base.take (base.length - partSuffix.length)
    if stem.length ≥ 160 then none
    else
      let out := join quarantineDir (stem ++ underscore :: (dec i ++ partSuffix))
      if out.length ≥ maxPathLen then none else some out

end Paths

/-- A header in the recorder's format. Its two size fields are stale after a power loss, and are not looked at. -/
def wavRecoveryValidateHeader (header : Bytes) : Bool :=
  header.take 4 = lit "RIFF" && (header.drop 8).take 4 = lit "WAVE" && (header.drop 12).take 4 = lit "fmt " &&
  wavU32 header 16 = 16 && wavU16 header 20 = 1 && wavU16 header 22 = channelCount &&
  wavU32 header 24 = sampleRateHz && wavU32 header 28 = byteRate && wavU16 header 32 = blockAlign &&
  wavU16 header 34 = bitsPerSample && (header.drop 36).take 4 = lit "data"

section Programs

def pathExistsLocal (path : Path) : Sys Bool := do
  match ← stat path with
  | .ok _ => return true
  | .error _ => return false

def pathIsDirLocal (path : Path) : Sys Bool := do
  match ← stat path with
  | .ok st => return st.isDir
  | .error _ => return false

/-- The size of a file. On the device it is a signed 32-bit number, and reads as negative from 2 GiB on. -/
def fileSizeLocal (path : Path) : Sys (Option ℕ) := do
  match ← stat path with
  | .ok st => if st.size < 2 ^ 31 then return some st.size else return none
  | .error _ => return none

def wavRecoveryEnsureDir (dir : Path) : Sys Bool :=
  if dir = [] then return false
  else do
    match ← mkdir dir with
    | .ok _ => return true
    | .error .EEXIST => pathIsDirLocal dir
    | .error _ => return false

def renameOk (p q : Path) : Sys Bool := do
  match ← rename p q with
  | .ok _ => return true
  | .error _ => return false

/-- Try the candidates `_i`, `_(i + 1)`, … until one is free. -/
def quarantineNumberedMove (part quarantineDir : Path) : ℕ → ℕ → Sys Bool
  | 0, _ => return false
  | n + 1, i =>
    match quarantineNumbered part quarantineDir i with
    | none => return false
    | some candidate => do
      let taken ← pathExistsLocal candidate
      if !taken then renameOk part candidate else quarantineNumberedMove part quarantineDir n (i + 1)

def quarantineMove (part quarantineDir : Path) : Sys Bool :=
  if !hasPartSuffix part ∨ quarantineDir = [] then return false
  else do
    let ready ← wavRecoveryEnsureDir quarantineDir
    if !ready then return false
    else
      match wavRecoveryBuildQuarantinePath part quarantineDir maxPathLen with
      | none => return false
      | some candidate =>
        let taken ← pathExistsLocal candidate
        if !taken then renameOk part candidate else quarantineNumberedMove part quarantineDir 99 1

/-- What happens to a part that cannot be recovered. -/
def quarantineOutcome (part quarantineDir : Path) : Sys (RecoveryOutcome × ℕ) := do
  let moved ← quarantineMove part quarantineDir
  return (if moved then .quarantined else .error, 0)

/-- Whatever fails before it, the file is closed. -/
def closeFailed (path : Path) : Sys Bool := do
  let _ ← fclose path
  return false

/-- Cut off what lies behind the recovered payload. A failure here is not reported. -/
def shrinkTail (part : Path) (recovered : ℕ) : Sys Unit := do
  let size ← fileSizeLocal part
  match size with
  | none => return ()
  | some size =>
    let want := wavHeaderSize + recovered
    if size > want then
      let _ ← truncate part want
      return ()
    else return ()

def rewriteHeaderWithSync (part : Path) (recovered : ℕ) : Sys Bool := do
  let fp ← fopen part .update
  if !fp then return false
  else
    let rewound ← fseek part 0
    if !rewound then closeFailed part
    else
      let wrote ← fwrite part 0 (wavPartBuildHeader recovered)
      if wrote ≠ wavHeaderSize then closeFailed part
      else
        let flushed ← fflush part
        if !flushed then closeFailed part
        else
          let synced ← fsync part
          if !synced then closeFailed part
          else
            let closed ← fclose part
            if !closed then return false
            else
              shrinkTail part recovered
              return true

/-- The sample boundary below a part of `size` bytes. -/
def recoveredPcm (size : ℕ) : ℕ :=
  let payload := size - wavHeaderSize
  payload - payload % bytesPerSample

/-- The header of a part, when a whole one can be read. -/
def readPartHeader (part : Path) : Sys (Option Bytes) := do
  let probe ← fopen part .read
  if !probe then return none
  else
    let got ← fread part 0 wavHeaderSize
    let _ ← fclose part
    return some got.data

/-- Recover a part whose finalized name is free. -/
def recoverPart (part wav quarantineDir : Path) : Sys (RecoveryOutcome × ℕ) := do
  match ← fileSizeLocal part with
  | none => quarantineOutcome part quarantineDir
  | some size =>
    if size < wavHeaderSize then quarantineOutcome part quarantineDir
    else
      match ← readPartHeader part with
      | none => return (.error, 0)
      | some header =>
        if header.length ≠ wavHeaderSize ∨ !wavRecoveryValidateHeader header then quarantineOutcome part quarantineDir
        else
          let recovered := recoveredPcm size
          let rewritten ← rewriteHeaderWithSync part recovered
          if !rewritten then return (.error, 0)
          else
            match ← rename part wav with
            | .ok _ => return (.recovered, recovered)
            | .error .EEXIST => quarantineOutcome part quarantineDir
            | .error _ => return (.error, 0)

/-- Recover one part, with the payload bytes recovered. -/
def wavRecoveryRecoverFile (part wav quarantineDir : Path) : Sys (RecoveryOutcome × ℕ) :=
  if !hasPartSuffix part ∨ wav = [] ∨ quarantineDir = [] ∨ wavRotationPartToWav part maxPathLen ≠ some wav then
    return (.error, 0)
  else do
    let partPresent ← pathExistsLocal part
    if !partPresent then
      -- finalized by an earlier boot
      let wavPresent ← pathExistsLocal wav
      return (if wavPresent then .recovered else .error, 0)
    else
      let wavPresent ← pathExistsLocal wav
      if wavPresent then quarantineOutcome part quarantineDir else recoverPart part wav quarantineDir

end Programs

section Accept

/-- Whether a truncation has been carried out. -/
def truncates : Call → Option Fault → Bool → Bool
  | .truncate _ _, some (.io _ _), truncated => truncated
  | .truncate _ _, _, _ => true
  | _, _, truncated => truncated

def truncating : Device Call Call.Ans (Card × Bool) Fault := device.watch truncates

variable {A : Fault → Prop} {C : Card → Prop} {c : Card} {part wav quarantineDir : Path} {data : Bytes} {w : Bool}

/-- Calls other than a truncation run as on the card itself. -/
theorem wp_truncating {o : Call} {Q : o.Ans → Card × Bool → Prop} (ho : ∀ f w, truncates o f w = w)
    (h : device.wp A (fun _ => True) (.op o) (fun a c' => Q a (c', w)) c) :
    truncating.wp A (fun _ => True) (.op o) Q (c, w) := by
  refine wp_mono _ (wp_watch (P := fun o => ∀ f w, truncates o f w = w) (.call o _ ho fun r => .ret r) (fun o f w h => h f w) h) ?_
  rintro a ⟨c', w'⟩ ⟨hq, rfl⟩
  exact hq

theorem wp_closeFailed {Q : Bool → Card × Bool → Prop} (h : Q false (c, w)) :
    truncating.wp A (fun _ => True) (closeFailed part) Q (c, w) := by
  unfold closeFailed
  rw [wp_bind]
  exact wp_truncating (fun _ _ => rfl) (wp_fclose trivial h fun _ => h)

theorem wp_pathExistsLocal {Q : Bool → Card × Bool → Prop} {path : Path} (h : Q (c.vol.lookup path).isSome (c, w))
    (hf : Q false (c, w)) : truncating.wp A (fun _ => True) (pathExistsLocal path) Q (c, w) := by
  unfold pathExistsLocal
  rw [wp_bind]
  refine wp_truncating (fun _ _ => rfl) (wp_stat trivial ?_ fun _ _ => hf)
  cases hl : c.vol.lookup path with
  | none => simpa [Card.statAns, hl] using h
  | some n => cases n <;> simpa [Card.statAns, hl] using h

theorem wp_fileSizeLocal {Q : Option ℕ → Card × Bool → Prop} (hfile : c.file? part = some data)
    (h : data.length < 2 ^ 31 → Q (some data.length) (c, w)) (hf : Q none (c, w)) :
    truncating.wp A (fun _ => True) (fileSizeLocal part) Q (c, w) := by
  unfold fileSizeLocal
  rw [wp_bind]
  refine wp_truncating (fun _ _ => rfl) (wp_stat trivial ?_ fun _ _ => hf)
  simp only [Card.statAns, Card.file?_eq_some.mp hfile]
  split
  case isTrue hlt => exact h hlt
  case isFalse => exact hf

/-- The tail is left as it is, or a truncation that succeeds cuts it off. -/
theorem wp_shrinkTail {Q : Unit → Card × Bool → Prop} {pcm : ℕ} (hfile : c.file? part = some data) (hkeep : Q () (c, w))
    (hcut : wavHeaderSize + pcm < data.length → Q () (c.put part (.file (data.take (wavHeaderSize + pcm))), true)) :
    truncating.wp A (fun _ => True) (shrinkTail part pcm) Q (c, w) := by
  unfold shrinkTail
  rw [wp_bind]
  refine wp_fileSizeLocal hfile (fun _ => ?_) hkeep
  simp only
  split
  case isFalse => exact hkeep
  case isTrue hlt =>
    rw [wp_bind]
    refine ⟨fun _ => trivial, fun f _ => ?_⟩
    rcases f with _ | ⟨code, n⟩ | ⟨names, error⟩
    · simpa [truncating, watch, device, Card.act, Card.calm, truncates, hfile] using hcut hlt
    · exact hkeep
    · simpa [truncating, watch, device, Card.act, Card.calm, truncates, hfile] using hcut hlt

/-- The data of a part with the header of `pcm` bytes. -/
def patchedPart (pcm : ℕ) (data : Bytes) : Bytes := wavPartBuildHeader pcm ++ data.drop wavHeaderSize

theorem patchedPart_length {pcm : ℕ} (h : wavHeaderSize ≤ data.length) : (patchedPart pcm data).length = data.length := by
  rw [patchedPart, List.length_append, wavPartBuildHeader_length, List.length_drop]
  omega

theorem overwrite_header (pcm : ℕ) (data : Bytes) :
    Card.overwrite 0 ((wavPartBuildHeader pcm).take wavHeaderSize) data = patchedPart pcm data := by
  have hhdr := wavPartBuildHeader_length pcm
  rw [← hhdr, List.take_length, Card.overwrite, patchedPart, hhdr]
  simp

theorem wp_rewriteHeaderWithSync {Q : Bool → Card × Bool → Prop} {pcm : ℕ} (hfile : c.file? part = some data)
    (hlen : wavHeaderSize ≤ data.length) (hfail : ∀ x, Q false x)
    (hkeep : Q true (c.put part (.file (patchedPart pcm data)), w))
    (hcut : wavHeaderSize + pcm < data.length →
      Q true (c.put part (.file ((patchedPart pcm data).take (wavHeaderSize + pcm))), true)) :
    truncating.wp A (fun _ => True) (rewriteHeaderWithSync part pcm) Q (c, w) := by
  have hhdr := wavPartBuildHeader_length pcm
  have hwrite : c.writeAt part 0 (wavPartBuildHeader pcm) wavHeaderSize = c.put part (.file (patchedPart pcm data)) := by
    rw [Card.writeAt, hfile]
    simp only [overwrite_header]
  unfold rewriteHeaderWithSync
  rw [wp_bind]
  refine wp_truncating (fun _ _ => rfl) (wp_fopen trivial ?_ fun _ => hfail _)
  simp only [Card.openAns, hfile, Option.isSome_some, Bool.not_true, Bool.false_eq_true, if_false]
  rw [wp_bind]
  refine wp_truncating (fun _ _ => rfl) (wp_fseek trivial ?_ fun _ => wp_closeFailed (hfail _))
  simp only [Bool.not_true, Bool.false_eq_true, if_false]
  rw [wp_bind]
  refine wp_truncating (fun _ _ => rfl) (wp_fwrite (fun _ => trivial) ?_ fun _ n hn => ?_)
  · rw [if_neg (by simp [hhdr]), wp_bind, hhdr, hwrite]
    refine wp_truncating (fun _ _ => rfl) (wp_fflush trivial ?_ fun _ => wp_closeFailed (hfail _))
    simp only [Bool.not_true, Bool.false_eq_true, if_false]
    rw [wp_bind]
    refine wp_truncating (fun _ _ => rfl) (wp_fsync trivial ?_ fun _ => wp_closeFailed (hfail _))
    simp only [Bool.not_true, Bool.false_eq_true, if_false]
    rw [wp_bind]
    refine wp_truncating (fun _ _ => rfl) (wp_fclose trivial ?_ fun _ => hfail _)
    simp only [Bool.not_true, Bool.false_eq_true, if_false]
    rw [wp_bind]
    refine wp_shrinkTail Card.file?_put hkeep fun hlt => ?_
    rw [patchedPart_length hlen] at hlt
    rw [Card.put_put]
    exact hcut hlt
  · rw [if_pos]
    · exact wp_closeFailed (hfail _)
    · rw [hhdr] at hn
      have : wavHeaderSize = 44 := rfl
      omega

/-- What a part is renamed to is a finalized name, unless the part has no name but its suffix. -/
theorem finalizedWavPath_partToWav {wavSize : ℕ} (h : wavRotationPartToWav part wavSize = some wav) :
    finalizedWavPath wav = true ↔ 5 ≤ wav.length := by
  have hwav : wavSuffix <:+ wav := by simpa [hasWavSuffix] using hasWavSuffix_of_partToWav h
  have hpart : ¬ partSuffix <:+ wav := by
    intro hp
    have hsuf := List.suffix_of_suffix_length_le hwav hp (by with_unfolding_all decide)
    exact absurd hsuf (by with_unfolding_all decide)
  simp [finalizedWavPath, hwav, hpart]

/-- The recovered payload is whole samples, and lacks the odd byte only. -/
theorem recoveredPcm_spec (size : ℕ) : recoveredPcm size % blockAlign = 0 ∧
    recoveredPcm size + (size - wavHeaderSize) % bytesPerSample = size - wavHeaderSize := by
  simp only [recoveredPcm, blockAlign, channelCount, bytesPerSample]
  omega

/-- A patched part is a finalized recording when its payload had whole samples, and not otherwise. -/
theorem finalizedWav_patchedPart (hlen : wavHeaderSize ≤ data.length) (hlt : data.length < 2 ^ 31) :
    FinalizedWav (patchedPart (recoveredPcm data.length) data) ↔ (data.length - wavHeaderSize) % bytesPerSample = 0 := by
  obtain ⟨halign, hsum⟩ := recoveredPcm_spec data.length
  rw [patchedPart, finalizedWav_patched _ (by omega) halign (by rw [List.length_drop]; omega), List.length_drop]
  omega

/-- Cut to its payload it always is. -/
theorem finalizedWav_patchedPart_take (hlen : wavHeaderSize ≤ data.length) (hlt : data.length < 2 ^ 31) :
    FinalizedWav ((patchedPart (recoveredPcm data.length) data).take (wavHeaderSize + recoveredPcm data.length)) := by
  obtain ⟨halign, hsum⟩ := recoveredPcm_spec data.length
  have hhdr := wavPartBuildHeader_length (recoveredPcm data.length)
  have htake : (patchedPart (recoveredPcm data.length) data).take (wavHeaderSize + recoveredPcm data.length) =
      wavPartBuildHeader (recoveredPcm data.length) ++ (data.drop wavHeaderSize).take (recoveredPcm data.length) := by
    rw [patchedPart, ← hhdr, List.take_length_add_append]
  have hrest : ((data.drop wavHeaderSize).take (recoveredPcm data.length)).length = recoveredPcm data.length := by
    rw [List.length_take, List.length_drop]
    omega
  rw [htake, finalizedWav_patched _ (by omega) halign (by omega)]
  exact hrest

/-- The fault-free hash of a file. -/
theorem eval_deviceManifestHashWavFile (c : Card) (path : Path) :
    (device.eval (deviceManifestHashWavFile path) c).1 = hashedWav c path :=
  eval_sat (A := fun _ => False) (C := fun _ => True) (Q := fun r _ => r = hashedWav c path) _
    (wp_deviceManifestHashWavFile trivial rfl fun ⟨_, _, h⟩ => h.elim)

/-- A part of the given data that was reported as recovered, and is gone, has a recording that the manifest accepts
exactly when its payload had whole samples or a truncation has cut the odd byte off. -/
def AcceptedOnce (part wav : Path) (data : Bytes) (r : RecoveryOutcome × ℕ) (x : Card × Bool) : Prop :=
  r.1 = .recovered → x.1.vol.lookup part = none →
    ((device.eval (deviceManifestHashWavFile wav) x.1).1.isSome = true ↔
      5 ≤ wav.length ∧ ((data.length - wavHeaderSize) % bytesPerSample = 0 ∨ x.2 = true))

theorem acceptedOnce_error {pcm : ℕ} {x : Card × Bool} : AcceptedOnce part wav data (.error, pcm) x := fun h => by cases h

theorem wp_quarantineOutcome {x : Card × Bool} : truncating.wp A (fun _ => True) (quarantineOutcome part quarantineDir)
    (AcceptedOnce part wav data) x := by
  unfold quarantineOutcome
  rw [wp_bind]
  refine wp_trivial _ fun moved x h => ?_
  cases moved <;> cases h

/-- A part that is still there says nothing. -/
theorem acceptedOnce_present {r : RecoveryOutcome × ℕ} {n : Node} (h : c.vol.lookup part = some n) :
    AcceptedOnce part wav data r (c, w) := by
  intro _ hgone
  rw [h] at hgone
  cases hgone

/-- The part's file is renamed, whole or cut. -/
theorem acceptedOnce_renamed {pcm : ℕ} {final : Bytes} (hname : wavRotationPartToWav part maxPathLen = some wav)
    (hfinal : FinalizedWav final ↔ (data.length - wavHeaderSize) % bytesPerSample = 0 ∨ w = true) :
    AcceptedOnce part wav data (.recovered, pcm) (c.move part wav (.file final), w) := by
  intro _ _
  have hfile : (c.move part wav (.file final)).file? wav = some final := Card.file?_eq_some.mpr (by simp)
  rw [eval_deviceManifestHashWavFile, hashedWav, hfile]
  simp only
  rw [← finalizedWavPath_partToWav hname, ← hfinal]
  split <;> simp_all

/-- The rename of a rewritten part, which a finalized file may still refuse. -/
theorem wp_rename_part {final : Bytes} {pcm : ℕ} (hname : wavRotationPartToWav part maxPathLen = some wav)
    (hfinal : FinalizedWav final ↔ (data.length - wavHeaderSize) % bytesPerSample = 0 ∨ w = true) :
    truncating.wp A (fun _ => True) (do
      match ← rename part wav with
      | .ok _ => return (.recovered, pcm)
      | .error .EEXIST => quarantineOutcome part quarantineDir
      | .error _ => return (.error, 0)) (AcceptedOnce part wav data) (c.put part (.file final), w) := by
  have hne : wav ≠ part := by
    rintro rfl
    exact partToWav_ne hname
  rw [wp_bind]
  refine wp_truncating (fun _ _ => rfl) (wp_rename trivial ?_ fun _ code => acceptedOnce_error)
  simp only [Card.renameAns, Card.lookup_put, if_true, if_neg hne]
  cases hwav : (c.vol.lookup wav).isSome with
  | true => exact wp_quarantineOutcome
  | false => exact acceptedOnce_renamed hname hfinal

theorem wp_readPartHeader {Q : Option Bytes → Card × Bool → Prop} (hfile : c.file? part = some data) (hnone : Q none (c, w))
    (h : ∀ k, Q (some (data.take k)) (c, w)) : truncating.wp A (fun _ => True) (readPartHeader part) Q (c, w) := by
  unfold readPartHeader
  rw [wp_bind]
  refine wp_truncating (fun _ _ => rfl) (wp_fopen trivial ?_ fun _ => hnone)
  simp only [Card.openAns, hfile, Option.isSome_some, Bool.not_true, Bool.false_eq_true, if_false]
  rw [wp_bind]
  refine wp_truncating (fun _ _ => rfl) (wp_fread trivial ?_ fun _ k => ?_)
  all_goals
    rw [hfile, wp_bind]
    refine wp_truncating (fun _ _ => rfl) (wp_fclose trivial ?_ fun _ => ?_) <;> exact h _

theorem wp_recoverPart (hpart : c.file? part = some data) (hname : wavRotationPartToWav part maxPathLen = some wav) :
    truncating.wp A (fun _ => True) (recoverPart part wav quarantineDir) (AcceptedOnce part wav data) (c, false) := by
  unfold recoverPart
  rw [wp_bind]
  refine wp_fileSizeLocal hpart (fun hlt => ?_) wp_quarantineOutcome
  dsimp only
  split
  case isTrue => exact wp_quarantineOutcome
  case isFalse hsize =>
    have hlen : wavHeaderSize ≤ data.length := Nat.le_of_not_lt hsize
    rw [wp_bind]
    refine wp_readPartHeader hpart acceptedOnce_error fun k => ?_
    dsimp only
    split
    case isTrue => exact wp_quarantineOutcome
    case isFalse =>
      rw [wp_bind]
      refine wp_rewriteHeaderWithSync hpart hlen (fun x => acceptedOnce_error) ?_ fun _ => ?_
      · refine wp_rename_part hname ?_
        simpa using finalizedWav_patchedPart hlen hlt
      · refine wp_rename_part hname ?_
        simpa using finalizedWav_patchedPart_take hlen hlt

theorem wp_wavRecoveryRecoverFile (hpart : c.file? part = some data) :
    truncating.wp A (fun _ => True) (wavRecoveryRecoverFile part wav quarantineDir) (AcceptedOnce part wav data)
      (c, false) := by
  have hl := Card.file?_eq_some.mp hpart
  unfold wavRecoveryRecoverFile
  split
  case isTrue => exact acceptedOnce_error
  case isFalse hargs =>
    simp only [not_or, ne_eq, not_not] at hargs
    have hfree : truncating.wp A (fun _ => True) (recoverPart part wav quarantineDir) (AcceptedOnce part wav data)
        (c, false) := wp_recoverPart hpart hargs.2.2.2
    rw [wp_bind]
    refine wp_pathExistsLocal ?_ ?_
    · simp only [hl, Option.isSome_some, Bool.not_true, Bool.false_eq_true, if_false]
      rw [wp_bind]
      refine wp_pathExistsLocal ?_ hfree
      split
      · exact wp_quarantineOutcome
      · exact hfree
    · simp only [Bool.not_false, if_true]
      rw [wp_bind]
      exact wp_pathExistsLocal (acceptedOnce_present hl) (acceptedOnce_present hl)

/-- What recovery reports as recovered is a recording that the manifest accepts, unless an odd byte is left behind by a
truncation that was not carried out. -/
theorem wavRecoveryRecoverFile_accepted (part wav quarantineDir : Path) (es : List (Event Fault)) (c : Card) (data : Bytes)
    (hpart : c.file? part = some data) :
    (truncating.run (wavRecoveryRecoverFile part wav quarantineDir) es (c, false)).Sat (fun _ => True) fun r x =>
      r.1 = .recovered → x.1.vol.lookup part = none →
        ((device.eval (deviceManifestHashWavFile wav) x.1).1.isSome = true ↔
          5 ≤ wav.length ∧ ((data.length - wavHeaderSize) % bytesPerSample = 0 ∨ x.2 = true)) :=
  run_sat (A := fun _ => True) _ es (wp_wavRecoveryRecoverFile hpart) fun _ _ _ _ => trivial

section OddTail

def oddPart : Path := lit "/r/a.wav.part"

def oddWav : Path := lit "/r/a.wav"

def oddData : Bytes := wavPartBuildHeader 0 ++ [0]

/-- A part with a payload of one byte. -/
def oddCard : Card := ⟨List.toAList [⟨lit "/r", .dir⟩, ⟨oddPart, .file oddData⟩], false⟩

/-- Thirteen calls come before the truncation, which fails. -/
def oddEvents : List (Event Fault) := List.replicate 13 (.act none) ++ [.act (some (.io 5 0))]

/-- Reported as recovered and gone, with a recording that the manifest rejects. -/
def rejectedAfter (part wav : Path) : Outcome (RecoveryOutcome × ℕ) (Card × Bool) → Bool
  | .done r x => r.1 = .recovered && (x.1.vol.lookup part).isNone && (device.eval (deviceManifestHashWavFile wav) x.1).1.isNone
  | .cut _ => false

theorem oddCard_part : oddCard.file? oddPart = some oddData := by
  decide +kernel

theorem wavRecoveryRecoverFile_odd : rejectedAfter oddPart oddWav
    (truncating.run (wavRecoveryRecoverFile oddPart oddWav (lit "/q")) oddEvents (oddCard, false)) = true := by
  decide +kernel

theorem wavRecoveryRecoverFile_accepted_odd :
    (truncating.run (wavRecoveryRecoverFile oddPart oddWav (lit "/q")) oddEvents (oddCard, false)).Sat (fun _ => True)
      fun r x => r.1 = .recovered → x.1.vol.lookup oddPart = none →
        ((device.eval (deviceManifestHashWavFile oddWav) x.1).1.isSome = true ↔
          5 ≤ oddWav.length ∧ ((oddData.length - wavHeaderSize) % bytesPerSample = 0 ∨ x.2 = true)) :=
  wavRecoveryRecoverFile_accepted oddPart oddWav _ oddEvents oddCard oddData oddCard_part

end OddTail

end Accept

end M5DayLog
