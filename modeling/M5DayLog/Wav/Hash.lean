import M5DayLog.Wav.Header

/-! Validation and hashing of a finalized recording. Both only read the card: each program is specified by the value
it computes from the file. -/

namespace M5DayLog

open Bytes Fat Device

/-- Reject invalid or truncated finalized audio before it is advertised. -/
def finalizedWavValid (path : Path) (total : ℕ) : Sys Bool :=
  if total < wavHeaderSize ∨ (total - wavHeaderSize) % blockAlign ≠ 0 then return false
  else do
    let fp ← fopen path .read
    if !fp then return false
    else
      let got ← fread path 0 wavHeaderSize
      let closed ← fclose path
      if !closed then return false
      else return got.data.length = wavHeaderSize && wavHeaderValid got.data total

def hashChunkBytes : ℕ := 1024

/-- Hash from `pos` on, a chunk at a time; `none` on a read error. `fuel` bounds the number of chunks. -/
def sha256FileFrom (path : Path) : ℕ → ℕ → Sha256Ctx → Sys (Option Bytes)
  | 0, _, _ => return none
  | fuel + 1, pos, ctx => do
    let got ← fread path pos hashChunkBytes
    let ctx := sha256Update ctx got.data
    if got.data.length < hashChunkBytes then
      let _ ← fclose path
      if got.error then return none else return some (sha256ToHex (sha256Final ctx))
    else sha256FileFrom path fuel (pos + got.data.length) ctx

def sha256FileHex (fuel : ℕ) (path : Path) : Sys (Option Bytes) :=
  if path = [] then return none
  else do
    let fp ← fopen path .read
    if !fp then return none else sha256FileFrom path fuel 0 sha256Init

/-- The path of a finalized recording, not of a part. -/
def finalizedWavPath (path : Path) : Bool :=
  5 ≤ path.length && decide (wavSuffix <:+ path) && !decide (partSuffix <:+ path)

/-- The hash and size of a valid finalized file. The size read first bounds the chunks of the hash. -/
def deviceManifestHashWavFile (wavPath : Path) : Sys (Option (Bytes × ℕ)) :=
  if !finalizedWavPath wavPath then return none
  else do
    match ← stat wavPath with
    | .error _ => return none
    | .ok st =>
      if st.isDir ∨ st.size < wavHeaderSize ∨ st.size ≥ 2 ^ 32 then return none
      else
        let valid ← finalizedWavValid wavPath st.size
        if !valid then return none
        else
          match ← sha256FileHex (st.size / hashChunkBytes + 1) wavPath with
          | none => return none
          | some sha =>
            match ← stat wavPath with
            | .error _ => return none
            | .ok after => if after.size ≠ st.size then return none else return some (sha, st.size)

section Spec

variable {A : Fault → Prop} {C : Card → Prop} {c : Card} {path : Path} {data : Bytes}

/-- The data of a finalized recording: whole samples behind the header of the file. -/
def FinalizedWav (data : Bytes) : Prop :=
  wavHeaderSize ≤ data.length ∧ data.length < 2 ^ 32 ∧ (data.length - wavHeaderSize) % blockAlign = 0 ∧
    wavHeaderValid (data.take wavHeaderSize) data.length = true

instance (data : Bytes) : Decidable (FinalizedWav data) := inferInstanceAs (Decidable (_ ∧ _))

/-- The header and a payload of whole samples make a finalized recording. -/
theorem finalizedWav_header (pcm : Bytes) (hlen : wavHeaderSize + pcm.length < 2 ^ 32) (halign : pcm.length % blockAlign = 0) :
    FinalizedWav (wavPartBuildHeader pcm.length ++ pcm) := by
  have hhdr := wavPartBuildHeader_length pcm.length
  have htake : (wavPartBuildHeader pcm.length ++ pcm).take wavHeaderSize = wavPartBuildHeader pcm.length := by
    rw [← hhdr, List.take_left]
  refine ⟨?_, ?_, ?_, ?_⟩
  · simp [hhdr]
  · simpa [hhdr] using hlen
  · simpa [hhdr] using halign
  · rw [htake, List.length_append, hhdr]
    exact wavPartBuildHeader_valid (by omega)

/-- A file behind the header of `pcm` bytes is a finalized recording exactly when it holds that many. -/
theorem finalizedWav_patched {pcm : ℕ} (rest : Bytes) (hpcm : pcm < 2 ^ 32) (halign : pcm % blockAlign = 0)
    (hlen : wavHeaderSize + rest.length < 2 ^ 32) : FinalizedWav (wavPartBuildHeader pcm ++ rest) ↔ rest.length = pcm := by
  have hhdr := wavPartBuildHeader_length pcm
  constructor
  · intro hw
    have hvalid := hw.2.2.2
    have htake : (wavPartBuildHeader pcm ++ rest).take wavHeaderSize = wavPartBuildHeader pcm := by
      rw [← hhdr, List.take_left]
    rw [htake, wavHeaderValid] at hvalid
    simp only [Bool.and_eq_true, decide_eq_true_eq] at hvalid
    have hdata := hvalid.2
    rw [wavPartBuildHeader_data hpcm, List.length_append, hhdr] at hdata
    omega
  · rintro rfl
    exact finalizedWav_header rest hlen halign

theorem wp_finalizedWavValid {Q : Bool → Card → Prop} (hfile : c.file? path = some data) (hlt : data.length < 2 ^ 32)
    (hC : C c) (h : Q (decide (FinalizedWav data)) c) (hf : IoFault A → Q false c) :
    device.wp A C (finalizedWavValid path data.length) Q c := by
  unfold finalizedWavValid
  split
  case isTrue hbad =>
    have hno : ¬ FinalizedWav data := fun hw => by
      have := hw.1
      have := hw.2.2.1
      omega
    simpa [hno] using h
  case isFalse hgood =>
    simp only [not_or, not_lt, ne_eq, not_not] at hgood
    rw [wp_bind]
    refine wp_fopen hC ?_ fun hA => by simpa using hf hA
    simp only [Card.openAns, hfile, Option.isSome_some, Bool.not_true, Bool.false_eq_true, if_false]
    rw [wp_bind]
    refine wp_fread hC ?_ fun hA k => ?_
    · rw [wp_bind]
      refine wp_fclose hC ?_ fun hA => by simpa using hf hA
      have hlen : (data.take wavHeaderSize).length = wavHeaderSize := by
        rw [List.length_take]
        exact Nat.min_eq_left hgood.1
      have hdec : decide (FinalizedWav data) = wavHeaderValid (data.take wavHeaderSize) data.length := by
        simp only [FinalizedWav, hgood.1, hgood.2, hlt, true_and, Bool.decide_eq_true]
      simpa [hfile, hlen, hdec] using h
    · rw [wp_bind]
      refine wp_fclose hC ?_ fun hA => by simpa using hf hA
      have hshort : min k (min (wavHeaderSize - 1) data.length) ≠ wavHeaderSize := by
        have : wavHeaderSize = 44 := rfl
        omega
      simpa [hfile, hshort] using hf hA

theorem take_append_chunk (l : Bytes) (pos n : ℕ) :
    l.take pos ++ (l.drop pos).take n = l.take (pos + ((l.drop pos).take n).length) := by
  rw [List.take_add, List.length_take, ← List.take_take, List.take_length]

/-- The chunks read so far have been hashed; the rest of the file is hashed to its end. -/
theorem wp_sha256FileFrom {Q : Option Bytes → Card → Prop} (hfile : c.file? path = some data) (hC : C c)
    (h : Q (some (sha256Hex data)) c) (hf : IoFault A → Q none c) (fuel pos : ℕ)
    (hfuel : data.length < pos + fuel * hashChunkBytes) (hpos : pos ≤ data.length) :
    device.wp A C (sha256FileFrom path fuel pos (sha256Update sha256Init (data.take pos))) Q c := by
  induction fuel generalizing pos with
  | zero => omega
  | succ fuel ih =>
    have hchunk : hashChunkBytes = 1024 := rfl
    rw [Nat.succ_mul] at hfuel
    unfold sha256FileFrom
    rw [wp_bind]
    refine wp_fread hC ?_ fun hA k => ?_
    · rw [hfile, Option.getD_some]
      have hstep : sha256Update (sha256Update sha256Init (data.take pos)) ((data.drop pos).take hashChunkBytes) =
          sha256Update sha256Init (data.take (pos + ((data.drop pos).take hashChunkBytes).length)) := by
        rw [← sha256Update_append, take_append_chunk]
      simp only [hstep]
      split
      case isTrue hlast =>
        have hend : pos + ((data.drop pos).take hashChunkBytes).length = data.length := by
          simp only [List.length_take, List.length_drop] at hlast ⊢
          omega
        rw [hend, List.take_length, wp_bind]
        refine wp_fclose hC ?_ fun _ => ?_ <;> exact h
      case isFalse hmore =>
        refine ih _ ?_ ?_ <;> simp only [List.length_take, List.length_drop] at hmore ⊢ <;> omega
    · have hshort : ((((c.file? path).getD []).drop pos).take (min k (hashChunkBytes - 1))).length < hashChunkBytes := by
        rw [List.length_take]
        omega
      simp only [hshort, if_true]
      rw [wp_bind]
      refine wp_fclose hC ?_ fun _ => ?_ <;> exact hf hA

theorem wp_sha256FileHex {Q : Option Bytes → Card → Prop} {fuel : ℕ} (hfile : c.file? path = some data) (hpath : path ≠ [])
    (hfuel : data.length / hashChunkBytes < fuel) (hC : C c) (h : Q (some (sha256Hex data)) c) (hf : IoFault A → Q none c) :
    device.wp A C (sha256FileHex fuel path) Q c := by
  unfold sha256FileHex
  rw [if_neg hpath, wp_bind]
  refine wp_fopen hC ?_ fun hA => by simpa using hf hA
  simp only [Card.openAns, hfile, Option.isSome_some, Bool.not_true, Bool.false_eq_true, if_false]
  have hrounds : data.length < 0 + fuel * hashChunkBytes := by
    rw [Nat.zero_add]
    exact (Nat.div_lt_iff_lt_mul (by decide)).mp hfuel
  exact wp_sha256FileFrom hfile hC h hf _ 0 hrounds (Nat.zero_le _)

/-- What hashing a recording gives. -/
def hashedWav (c : Card) (path : Path) : Option (Bytes × ℕ) :=
  match c.file? path with
  | some data => if finalizedWavPath path ∧ FinalizedWav data then some (sha256Hex data, data.length) else none
  | none => none

theorem hashedWav_eq_some {r : Bytes × ℕ} (h : hashedWav c path = some r) :
    ∃ data, c.file? path = some data ∧ FinalizedWav data ∧ r = (sha256Hex data, data.length) := by
  unfold hashedWav at h
  split at h
  case h_1 data hfile =>
    rw [Option.ite_none_right_eq_some] at h
    exact ⟨data, hfile, h.1.2, (Option.some.inj h.2).symm⟩
  case h_2 => exact absurd h (by simp)

theorem wp_deviceManifestHashWavFile {Q : Option (Bytes × ℕ) → Card → Prop} (hC : C c) (h : Q (hashedWav c path) c)
    (hf : IoFault A → Q none c) : device.wp A C (deviceManifestHashWavFile path) Q c := by
  unfold deviceManifestHashWavFile
  unfold hashedWav at h
  by_cases hpath : finalizedWavPath path = true
  case neg =>
    have hnone : (match c.file? path with
        | some data => if finalizedWavPath path ∧ FinalizedWav data then some (sha256Hex data, data.length) else none
        | none => none) = none := by
      split <;> simp [hpath]
    rw [hnone] at h
    simpa [hpath] using h
  case pos =>
    simp only [hpath, Bool.not_true, Bool.false_eq_true, if_false]
    rw [wp_bind]
    refine wp_stat hC ?_ fun hA _ => by simpa using hf hA
    cases hl : c.vol.lookup path with
    | none => simpa [Card.statAns, Card.file?, hl] using h
    | some n =>
      cases n with
      | dir => simpa [Card.statAns, Card.file?, hl] using h
      | file data =>
        have hfile : c.file? path = some data := Card.file?_eq_some.mpr hl
        simp only [Card.statAns, hl, Bool.false_eq_true, false_or]
        simp only [hfile, hpath, true_and] at h
        split
        case isTrue hsize =>
          have hno : ¬ FinalizedWav data := fun hw => by
            have := hw.1
            have := hw.2.1
            omega
          simpa [hno] using h
        case isFalse hsize =>
          simp only [not_or, not_lt, ge_iff_le, not_le] at hsize
          rw [wp_bind]
          refine wp_finalizedWavValid hfile hsize.2 hC ?_ fun hA => by simpa using hf hA
          by_cases hw : FinalizedWav data
          · rw [if_pos hw] at h
            simp only [hw, decide_true, Bool.not_true, Bool.false_eq_true, if_false]
            rw [wp_bind]
            refine wp_sha256FileHex hfile ?_ (Nat.lt_succ_self _) hC ?_ fun hA => by simpa using hf hA
            · intro hp
              simp [hp, finalizedWavPath] at hpath
            simp only
            rw [wp_bind]
            refine wp_stat hC ?_ fun hA _ => by simpa using hf hA
            simpa [Card.statAns, hl] using h
          · simpa [hw] using h

end Spec

end M5DayLog
