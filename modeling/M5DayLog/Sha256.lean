import M5DayLog.Manifest.Validate

/-! The incremental SHA-256 of the firmware. The context takes one byte at a time, so hashing a file in chunks is
hashing its bytes, whatever the chunks are. -/

namespace M5DayLog

open Bytes

section Words

def rotRight (a b : UInt32) : UInt32 := (a >>> b) ||| (a <<< (32 - b))
def ch (x y z : UInt32) : UInt32 := (x &&& y) ^^^ (~~~x &&& z)
def maj (x y z : UInt32) : UInt32 := (x &&& y) ^^^ (x &&& z) ^^^ (y &&& z)
def ep0 (x : UInt32) : UInt32 := rotRight x 2 ^^^ rotRight x 13 ^^^ rotRight x 22
def ep1 (x : UInt32) : UInt32 := rotRight x 6 ^^^ rotRight x 11 ^^^ rotRight x 25
def sig0 (x : UInt32) : UInt32 := rotRight x 7 ^^^ rotRight x 18 ^^^ (x >>> 3)
def sig1 (x : UInt32) : UInt32 := rotRight x 17 ^^^ rotRight x 19 ^^^ (x >>> 10)

def roundConstants : List UInt32 := [
  0x428a2f98, 0x71374491, 0xb5c0fbcf, 0xe9b5dba5, 0x3956c25b, 0x59f111f1, 0x923f82a4, 0xab1c5ed5,
  0xd807aa98, 0x12835b01, 0x243185be, 0x550c7dc3, 0x72be5d74, 0x80deb1fe, 0x9bdc06a7, 0xc19bf174,
  0xe49b69c1, 0xefbe4786, 0x0fc19dc6, 0x240ca1cc, 0x2de92c6f, 0x4a7484aa, 0x5cb0a9dc, 0x76f988da,
  0x983e5152, 0xa831c66d, 0xb00327c8, 0xbf597fc7, 0xc6e00bf3, 0xd5a79147, 0x06ca6351, 0x14292967,
  0x27b70a85, 0x2e1b2138, 0x4d2c6dfc, 0x53380d13, 0x650a7354, 0x766a0abb, 0x81c2c92e, 0x92722c85,
  0xa2bfe8a1, 0xa81a664b, 0xc24b8b70, 0xc76c51a3, 0xd192e819, 0xd6990624, 0xf40e3585, 0x106aa070,
  0x19a4c116, 0x1e376c08, 0x2748774c, 0x34b0bcb5, 0x391c0cb3, 0x4ed8aa4a, 0x5b9cca4f, 0x682e6ff3,
  0x748f82ee, 0x78a5636f, 0x84c87814, 0x8cc70208, 0x90befffa, 0xa4506ceb, 0xbef9a3f7, 0xc67178f2]

end Words

structure Sha256State where
  a : UInt32
  b : UInt32
  c : UInt32
  d : UInt32
  e : UInt32
  f : UInt32
  g : UInt32
  h : UInt32
  deriving DecidableEq

def blockWord (block : Bytes) (i : ℕ) : UInt32 :=
  (at' block i).toUInt32 <<< 24 ||| (at' block (i + 1)).toUInt32 <<< 16 ||| (at' block (i + 2)).toUInt32 <<< 8 |||
    (at' block (i + 3)).toUInt32

/-- The message schedule, the latest word first. -/
def scheduleFrom : ℕ → List UInt32 → List UInt32
  | 0, m => m
  | n + 1, m => scheduleFrom n ((sig1 (m.getD 1 0) + m.getD 6 0 + sig0 (m.getD 14 0) + m.getD 15 0) :: m)

def schedule (block : Bytes) : List UInt32 :=
  (scheduleFrom 48 ((List.range 16).map fun i => blockWord block (4 * i)).reverse).reverse

def Sha256State.round (s : Sha256State) (km : UInt32 × UInt32) : Sha256State :=
  let t1 := s.h + ep1 s.e + ch s.e s.f s.g + km.1 + km.2
  let t2 := ep0 s.a + maj s.a s.b s.c
  ⟨t1 + t2, s.a, s.b, s.c, s.d + t1, s.e, s.f, s.g⟩

def sha256Transform (s : Sha256State) (block : Bytes) : Sha256State :=
  let r := (roundConstants.zip (schedule block)).foldl Sha256State.round s
  ⟨s.a + r.a, s.b + r.b, s.c + r.c, s.d + r.d, s.e + r.e, s.f + r.f, s.g + r.g, s.h + r.h⟩

/-- The bytes not yet hashed, fewer than a block, and the state behind the blocks before them. -/
structure Sha256Ctx where
  data : Bytes
  bitlen : UInt64
  state : Sha256State
  datalen_lt : data.length < 64

def sha256Init : Sha256Ctx where
  data := []
  bitlen := 0
  state := ⟨0x6a09e667, 0xbb67ae85, 0x3c6ef372, 0xa54ff53a, 0x510e527f, 0x9b05688c, 0x1f83d9ab, 0x5be0cd19⟩
  datalen_lt := by decide

def Sha256Ctx.push (ctx : Sha256Ctx) (b : UInt8) : Sha256Ctx :=
  if h : ctx.data.length + 1 = 64 then ⟨[], ctx.bitlen + 512, sha256Transform ctx.state (ctx.data ++ [b]), by decide⟩
  else ⟨ctx.data ++ [b], ctx.bitlen, ctx.state, by have := ctx.datalen_lt; simp; omega⟩

def sha256Update (ctx : Sha256Ctx) (data : Bytes) : Sha256Ctx := data.foldl Sha256Ctx.push ctx

def bigEndian64 (n : UInt64) : Bytes :=
  [(n >>> 56).toUInt8, (n >>> 48).toUInt8, (n >>> 40).toUInt8, (n >>> 32).toUInt8, (n >>> 24).toUInt8,
    (n >>> 16).toUInt8, (n >>> 8).toUInt8, n.toUInt8]

def bigEndian32 (n : UInt32) : Bytes := [(n >>> 24).toUInt8, (n >>> 16).toUInt8, (n >>> 8).toUInt8, n.toUInt8]

def Sha256State.digest (s : Sha256State) : Bytes :=
  bigEndian32 s.a ++ bigEndian32 s.b ++ bigEndian32 s.c ++ bigEndian32 s.d ++ bigEndian32 s.e ++ bigEndian32 s.f ++
    bigEndian32 s.g ++ bigEndian32 s.h

def sha256Final (ctx : Sha256Ctx) : Bytes :=
  let bits := bigEndian64 (ctx.bitlen + ctx.data.length.toUInt64 * 8)
  let marked := ctx.data ++ [0x80]
  if ctx.data.length < 56 then
    (sha256Transform ctx.state (marked ++ List.replicate (56 - marked.length) 0 ++ bits)).digest
  else
    let state := sha256Transform ctx.state (marked ++ List.replicate (64 - marked.length) 0)
    (sha256Transform state (List.replicate 56 0 ++ bits)).digest

def nibbleToLowerHex (v : UInt8) : UInt8 :=
  let v := v &&& 0x0f
  if v < 10 then 0x30 + v else 0x61 + (v - 10)

def sha256ToHex (hash : Bytes) : Bytes := hash.flatMap fun b : UInt8 => [nibbleToLowerHex (b >>> 4), nibbleToLowerHex b]

/-- The hash of a whole byte string. -/
def sha256Hex (data : Bytes) : Bytes := sha256ToHex (sha256Final (sha256Update sha256Init data))

theorem sha256Update_append (ctx : Sha256Ctx) (a b : Bytes) :
    sha256Update ctx (a ++ b) = sha256Update (sha256Update ctx a) b := by
  simp only [sha256Update, List.foldl_append]

theorem digest_length (s : Sha256State) : s.digest.length = 32 := by
  simp [Sha256State.digest, bigEndian32]

theorem sha256Final_length (ctx : Sha256Ctx) : (sha256Final ctx).length = 32 := by
  unfold sha256Final
  dsimp only
  split <;> exact digest_length _

def isLowerHex (c : UInt8) : Bool := (0x30 ≤ c && c ≤ 0x39) || (0x61 ≤ c && c ≤ 0x66)

theorem nibble_hex (v : UInt8) : isLowerHex (nibbleToLowerHex v) = true := by
  have hle : (v &&& 0x0f).toNat ≤ 15 := by
    rw [UInt8.toNat_and]
    exact Nat.and_le_right
  unfold nibbleToLowerHex isLowerHex
  generalize v &&& 0x0f = w at hle
  dsimp only
  simp only [UInt8.lt_iff_toNat_lt, UInt8.le_iff_toNat_le, Bool.or_eq_true, Bool.and_eq_true, decide_eq_true_eq]
  split
  case isTrue h =>
    simp only [UInt8.toNat_add, UInt8.reduceToNat] at *
    omega
  case isFalse h =>
    have hten : (10 : UInt8) ≤ w := by
      rw [UInt8.le_iff_toNat_le]
      exact Nat.le_of_not_lt h
    rw [UInt8.toNat_add, UInt8.toNat_sub_of_le _ _ hten]
    simp only [UInt8.reduceToNat] at *
    omega

theorem sha256ToHex_hex (hash : Bytes) : (sha256ToHex hash).all isLowerHex = true := by
  simp [sha256ToHex, nibble_hex]

theorem sha256ToHex_length (hash : Bytes) : (sha256ToHex hash).length = 2 * hash.length := by
  induction hash with
  | nil => rfl
  | cons b hash ih =>
    simp only [sha256ToHex, List.flatMap_cons, List.length_append, List.length_cons, List.length_nil] at ih ⊢
    omega

/-- A computed hash passes the hash check of an entry. -/
theorem sha256Hex_valid (data : Bytes) : isValidSha256Hex (sha256Hex data) = true := by
  have hlen : (sha256Hex data).length = 64 := by
    rw [sha256Hex, sha256ToHex_length, sha256Final_length]
  have hall := sha256ToHex_hex (sha256Final (sha256Update sha256Init data))
  simp only [isValidSha256Hex, Bool.and_eq_true, decide_eq_true_eq]
  exact ⟨hlen, hall⟩

example : sha256Hex [] = lit "e3b0c44298fc1c149afbf4c8996fb92427ae41e4649b934ca495991b7852b855" := by decide +kernel

end M5DayLog
