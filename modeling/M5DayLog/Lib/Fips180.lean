import Mathlib.Algebra.Ring.Nat
import Mathlib.Data.List.Basic
import Mathlib.Data.Nat.NthRoot.Defs

/-! The hash SHA-256 of FIPS 180-4, for messages of whole bytes: the padded message is taken block by block, and the hash
value after a block depends on the blocks so far only. -/

namespace Fips180

abbrev Word := BitVec 32

section Functions

def ch (x y z : Word) : Word := (x &&& y) ^^^ (~~~x &&& z)
def maj (x y z : Word) : Word := (x &&& y) ^^^ (x &&& z) ^^^ (y &&& z)
def bigSigma0 (x : Word) : Word := x.rotateRight 2 ^^^ x.rotateRight 13 ^^^ x.rotateRight 22
def bigSigma1 (x : Word) : Word := x.rotateRight 6 ^^^ x.rotateRight 11 ^^^ x.rotateRight 25
def smallSigma0 (x : Word) : Word := x.rotateRight 7 ^^^ x.rotateRight 18 ^^^ (x >>> 3)
def smallSigma1 (x : Word) : Word := x.rotateRight 17 ^^^ x.rotateRight 19 ^^^ (x >>> 10)

/-- The first 64 primes. -/
def primes : List ℕ := [
  2, 3, 5, 7, 11, 13, 17, 19, 23, 29, 31, 37, 41, 43, 47, 53, 59, 61, 67, 71, 73, 79, 83, 89, 97, 101, 103, 107, 109, 113,
  127, 131, 137, 139, 149, 151, 157, 163, 167, 173, 179, 181, 191, 193, 197, 199, 211, 223, 227, 229, 233, 239, 241, 251,
  257, 263, 269, 271, 277, 281, 283, 293, 307, 311]

/-- The first 32 bits of the fractional part of the `k`-th root of a number. -/
def rootWord (k p : ℕ) : Word := BitVec.ofNat 32 (Nat.nthRoot k (p * 2 ^ (32 * k)))

def constant (t : ℕ) : Word := rootWord 3 (primes.getD t 0)

end Functions

section Compression

/-- The eight words of a hash value, and the working variables of a block. -/
structure Hash where
  a : Word
  b : Word
  c : Word
  d : Word
  e : Word
  f : Word
  g : Word
  h : Word
  deriving DecidableEq

def initial : Hash :=
  ⟨rootWord 2 2, rootWord 2 3, rootWord 2 5, rootWord 2 7, rootWord 2 11, rootWord 2 13, rootWord 2 17, rootWord 2 19⟩

instance : Add Hash where
  add x y := ⟨x.a + y.a, x.b + y.b, x.c + y.c, x.d + y.d, x.e + y.e, x.f + y.f, x.g + y.g, x.h + y.h⟩

theorem Hash.add_def (x y : Hash) :
    x + y = ⟨x.a + y.a, x.b + y.b, x.c + y.c, x.d + y.d, x.e + y.e, x.f + y.f, x.g + y.g, x.h + y.h⟩ := rfl

/-- The word of four bytes, the most significant first. -/
def bigEndian (b0 b1 b2 b3 : UInt8) : Word :=
  (b0.toBitVec ++ b1.toBitVec ++ (b2.toBitVec ++ b3.toBitVec) : BitVec (8 + 8 + (8 + 8)))

def blockWord (block : List UInt8) (t : ℕ) : Word :=
  bigEndian (block.getD (4 * t) 0) (block.getD (4 * t + 1) 0) (block.getD (4 * t + 2) 0) (block.getD (4 * t + 3) 0)

/-- The message schedule of a block. -/
def schedule (block : List UInt8) (t : ℕ) : Word :=
  if t < 16 then blockWord block t
  else
    smallSigma1 (schedule block (t - 2)) + schedule block (t - 7) + smallSigma0 (schedule block (t - 15)) +
      schedule block (t - 16)
  termination_by t

theorem schedule_early (block : List UInt8) {t : ℕ} (h : t < 16) : schedule block t = blockWord block t := by
  rw [schedule, if_pos h]

theorem schedule_late (block : List UInt8) {t : ℕ} (h : 16 ≤ t) :
    schedule block t = smallSigma1 (schedule block (t - 2)) + schedule block (t - 7) +
      smallSigma0 (schedule block (t - 15)) + schedule block (t - 16) := by
  rw [schedule, if_neg (by omega)]

def Hash.round (v : Hash) (k w : Word) : Hash :=
  let t1 := v.h + bigSigma1 v.e + ch v.e v.f v.g + k + w
  let t2 := bigSigma0 v.a + maj v.a v.b v.c
  ⟨t1 + t2, v.a, v.b, v.c, v.d + t1, v.e, v.f, v.g⟩

/-- The working variables after `n` rounds of a block. -/
def rounds (block : List UInt8) (v : Hash) : ℕ → Hash
  | 0 => v
  | n + 1 => (rounds block v n).round (constant n) (schedule block n)

def compress (v : Hash) (block : List UInt8) : Hash := rounds block v 64 + v

end Compression

section Message

/-- How many zero bytes bring a message and its marker to eight bytes before the end of a block. -/
def zeros (n : ℕ) : ℕ := (119 - n % 64) % 64

def lengthBytes (bits : ℕ) : List UInt8 := (List.range 8).map fun i => (bits / 256 ^ (7 - i)).toUInt8

/-- The message, the bit one, the fewest zero bits and its length in bits. -/
def pad (m : List UInt8) : List UInt8 :=
  m ++ 0x80 :: (List.replicate (zeros m.length) 0 ++ lengthBytes (8 * m.length))

def block (m : List UInt8) (i : ℕ) : List UInt8 := (m.drop (64 * i)).take 64

/-- The hash value after the first blocks of a padded message. -/
def hashValue (m : List UInt8) : ℕ → Hash
  | 0 => initial
  | i + 1 => compress (hashValue m i) (block m i)

def wordBytes (w : Word) : List UInt8 :=
  [(w >>> 24).toNat.toUInt8, (w >>> 16).toNat.toUInt8, (w >>> 8).toNat.toUInt8, w.toNat.toUInt8]

def Hash.bytes (v : Hash) : List UInt8 :=
  [v.a, v.b, v.c, v.d, v.e, v.f, v.g, v.h].flatMap wordBytes

def sha256 (m : List UInt8) : List UInt8 := (hashValue (pad m) ((pad m).length / 64)).bytes

variable {m r : List UInt8} {i : ℕ}

/-- The zeros are the fewest that complete a block with the length. -/
theorem zeros_spec (n : ℕ) : (n + 1 + zeros n + 8) % 64 = 0 ∧ ∀ k, (n + 1 + k + 8) % 64 = 0 → zeros n ≤ k := by
  unfold zeros
  exact ⟨by omega, fun k hk => by omega⟩

theorem lengthBytes_length (bits : ℕ) : (lengthBytes bits).length = 8 := by
  simp [lengthBytes]

theorem pad_length (m : List UInt8) : (pad m).length = m.length + 1 + zeros m.length + 8 := by
  simp only [pad, List.length_append, List.length_cons, List.length_replicate, lengthBytes_length]
  omega

theorem block_append (h : 64 * (i + 1) ≤ m.length) : block (m ++ r) i = block m i := by
  rw [block, block, List.drop_append_of_le_length (by omega), List.take_append_of_le_length]
  rw [List.length_drop]
  omega

/-- What follows the blocks that have been taken does not count. -/
theorem hashValue_append (h : 64 * i ≤ m.length) : hashValue (m ++ r) i = hashValue m i := by
  induction i with
  | zero => rfl
  | succ i ih => rw [hashValue, hashValue, ih (by omega), block_append h]

end Message

end Fips180
