import M5DayLog.Sha256
import M5DayLog.Lib.Fat

/-! The 44-byte RIFF header of a recording: the text the recorder writes, the check a finalized file must pass, and
the hash of a file that passes it. -/

namespace M5DayLog

open Bytes Fat Device

section Header

def putU16le (value : ℕ) : Bytes := [value.toUInt8, (value / 256).toUInt8]

def putU32le (value : ℕ) : Bytes :=
  [value.toUInt8, (value / 256).toUInt8, (value / 65536).toUInt8, (value / 16777216).toUInt8]

def wavU16 (p : Bytes) (i : ℕ) : ℕ := (at' p i).toNat + (at' p (i + 1)).toNat * 256

def wavU32 (p : Bytes) (i : ℕ) : ℕ :=
  (at' p i).toNat + (at' p (i + 1)).toNat * 256 + (at' p (i + 2)).toNat * 65536 + (at' p (i + 3)).toNat * 16777216

/-- The header of a payload of `pcmBytes` in the recorder's one format. -/
def wavPartBuildHeader (pcmBytes : ℕ) : Bytes :=
  lit "RIFF" ++ putU32le (36 + pcmBytes) ++ lit "WAVE" ++ lit "fmt " ++ putU32le 16 ++ putU16le 1 ++
  putU16le channelCount ++ putU32le sampleRateHz ++ putU32le byteRate ++ putU16le blockAlign ++
  putU16le bitsPerSample ++ lit "data" ++ putU32le pcmBytes

/-- The header agrees with a file of `total` bytes. -/
def wavHeaderValid (header : Bytes) (total : ℕ) : Bool :=
  header.take 4 = lit "RIFF" && wavU32 header 4 = total - 8 && (header.drop 8).take 8 = lit "WAVEfmt " &&
  wavU32 header 16 = 16 && wavU16 header 20 = 1 && wavU16 header 22 = channelCount &&
  wavU32 header 24 = sampleRateHz && wavU32 header 28 = byteRate && wavU16 header 32 = blockAlign &&
  wavU16 header 34 = bitsPerSample && (header.drop 36).take 4 = lit "data" &&
  wavU32 header 40 = total - wavHeaderSize

theorem wavPartBuildHeader_length (pcmBytes : ℕ) : (wavPartBuildHeader pcmBytes).length = wavHeaderSize := by
  have hlits : (lit "RIFF").length = 4 ∧ (lit "WAVE").length = 4 ∧ (lit "fmt ").length = 4 ∧ (lit "data").length = 4 := by
    with_unfolding_all decide
  simp [wavPartBuildHeader, putU16le, putU32le, hlits, wavHeaderSize]

/-- Four bytes hold a 32-bit value. -/
theorem u32le_value {n : ℕ} (h : n < 2 ^ 32) : n.toUInt8.toNat + (n / 256).toUInt8.toNat * 256 +
    (n / 65536).toUInt8.toNat * 65536 + (n / 16777216).toUInt8.toNat * 16777216 = n := by
  simp only [Nat.toUInt8, UInt8.toNat_ofNat']
  omega

/-- The size field at the end of a header is the one it was built with. -/
theorem wavPartBuildHeader_data {pcmBytes : ℕ} (h : pcmBytes < 2 ^ 32) : wavU32 (wavPartBuildHeader pcmBytes) 40 = pcmBytes := by
  have hlits : lit "RIFF" = [0x52, 0x49, 0x46, 0x46] ∧ lit "WAVE" = [0x57, 0x41, 0x56, 0x45] ∧
      lit "fmt " = [0x66, 0x6d, 0x74, 0x20] ∧ lit "data" = [0x64, 0x61, 0x74, 0x61] := by with_unfolding_all decide
  simpa [wavPartBuildHeader, hlits, putU16le, putU32le, wavU32, at'] using u32le_value h

/-- The header written for a payload is the header of its file. -/
theorem wavPartBuildHeader_valid {pcmBytes : ℕ} (h : pcmBytes + wavHeaderSize < 2 ^ 32) :
    wavHeaderValid (wavPartBuildHeader pcmBytes) (wavHeaderSize + pcmBytes) = true := by
  have hlits : lit "RIFF" = [0x52, 0x49, 0x46, 0x46] ∧ lit "WAVE" = [0x57, 0x41, 0x56, 0x45] ∧
      lit "fmt " = [0x66, 0x6d, 0x74, 0x20] ∧ lit "data" = [0x64, 0x61, 0x74, 0x61] ∧
      lit "WAVEfmt " = [0x57, 0x41, 0x56, 0x45, 0x66, 0x6d, 0x74, 0x20] := by with_unfolding_all decide
  have h44 : wavHeaderSize = 44 := rfl
  have h1 := u32le_value (n := 36 + pcmBytes) (by omega)
  have h2 := u32le_value (n := pcmBytes) (by omega)
  simp only [wavHeaderValid, wavPartBuildHeader, hlits, putU16le, putU32le, wavU16, wavU32, at', List.cons_append,
    List.nil_append, List.take_succ_cons, List.take_zero, List.drop_succ_cons, List.drop_zero, List.getD_cons_zero,
    List.getD_cons_succ, h1, h2, decide_true, Bool.true_and]
  have hconst : 36 + pcmBytes = wavHeaderSize + pcmBytes - 8 ∧ pcmBytes = wavHeaderSize + pcmBytes - wavHeaderSize := by
    omega
  simp only [← hconst.1, ← hconst.2, decide_true, Bool.and_true]
  decide

end Header

end M5DayLog
