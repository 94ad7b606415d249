import M5DayLog.Lib.Fips180
import M5DayLog.Wav.Hash

/-! The firmware's SHA-256 is that of the standard: word by word, over the blocks of a message however it is fed, through
the padding of its end, and over a file that is read in chunks. -/

namespace M5DayLog

open Bytes Fat Device

section Words

variable (x y z : UInt32)

theorem rotRight_toBitVec {n : UInt32} (h : 0 < n.toNat) (h' : n.toNat < 32) :
    (rotRight x n).toBitVec = x.toBitVec.rotateRight n.toNat := by
  have hn : n.toNat % 32 = n.toNat := Nat.mod_eq_of_lt h'
  simp [rotRight, BitVec.rotateRight_def, hn]
  congr 2
  omega

theorem ep0_toBitVec : (ep0 x).toBitVec = Fips180.bigSigma0 x.toBitVec := by
  simp only [ep0, Fips180.bigSigma0, UInt32.toBitVec_xor]
  rw [rotRight_toBitVec, rotRight_toBitVec, rotRight_toBitVec] <;> first | rfl | decide

theorem ep1_toBitVec : (ep1 x).toBitVec = Fips180.bigSigma1 x.toBitVec := by
  simp only [ep1, Fips180.bigSigma1, UInt32.toBitVec_xor]
  rw [rotRight_toBitVec, rotRight_toBitVec, rotRight_toBitVec] <;> first | rfl | decide

theorem sig0_toBitVec : (sig0 x).toBitVec = Fips180.smallSigma0 x.toBitVec := by
  simp only [sig0, Fips180.smallSigma0, UInt32.toBitVec_xor]
  rw [rotRight_toBitVec, rotRight_toBitVec] <;> first | rfl | decide

theorem sig1_toBitVec : (sig1 x).toBitVec = Fips180.smallSigma1 x.toBitVec := by
  simp only [sig1, Fips180.smallSigma1, UInt32.toBitVec_xor]
  rw [rotRight_toBitVec, rotRight_toBitVec] <;> first | rfl | decide

theorem ch_toBitVec : (ch x y z).toBitVec = Fips180.ch x.toBitVec y.toBitVec z.toBitVec := by
  simp only [ch, Fips180.ch, UInt32.toBitVec_xor, UInt32.toBitVec_and, UInt32.toBitVec_not]

theorem maj_toBitVec : (maj x y z).toBitVec = Fips180.maj x.toBitVec y.toBitVec z.toBitVec := by
  simp only [maj, Fips180.maj, UInt32.toBitVec_xor, UInt32.toBitVec_and]

/-- Four bytes put together by shifts are a word, the first byte on top. -/
theorem blockWord_toBitVec (block : Bytes) (t : ℕ) :
    (blockWord block (4 * t)).toBitVec = Fips180.blockWord block t := by
  simp only [blockWord, Fips180.blockWord, Fips180.bigEndian, at']
  generalize block.getD (4 * t) 0 = b0
  generalize block.getD (4 * t + 1) 0 = b1
  generalize block.getD (4 * t + 2) 0 = b2
  generalize block.getD (4 * t + 3) 0 = b3
  apply BitVec.eq_of_getLsbD_eq
  intro i hi
  simp only [UInt32.toBitVec_or, UInt32.toBitVec_shiftLeft, UInt8.toBitVec_toUInt32, BitVec.getLsbD_or, BitVec.getLsbD_append]
  interval_cases i <;> simp

end Words

section Compression

/-- The words of a hash value. -/
def Sha256State.words (s : Sha256State) : Fips180.Hash :=
  ⟨s.a.toBitVec, s.b.toBitVec, s.c.toBitVec, s.d.toBitVec, s.e.toBitVec, s.f.toBitVec, s.g.toBitVec, s.h.toBitVec⟩

/-- The first `n` words of a schedule, the latest first. -/
def scheduled (block : Bytes) (n : ℕ) : List UInt32 :=
  ((List.range n).map fun t => UInt32.ofBitVec (Fips180.schedule block t)).reverse

variable {block : Bytes} {n : ℕ}

theorem scheduled_succ (block : Bytes) (n : ℕ) :
    scheduled block (n + 1) = UInt32.ofBitVec (Fips180.schedule block n) :: scheduled block n := by
  simp [scheduled, List.range_succ]

theorem scheduled_getD {i : ℕ} (h : i < n) :
    (scheduled block n).getD i 0 = UInt32.ofBitVec (Fips180.schedule block (n - 1 - i)) := by
  rw [scheduled, List.getD_eq_getElem?_getD, List.getElem?_reverse (by simpa using h), List.length_map, List.length_range,
    List.getElem?_map, List.getElem?_range (by omega)]
  rfl

theorem schedule_start (block : Bytes) :
    ((List.range 16).map fun i => blockWord block (4 * i)).reverse = scheduled block 16 := by
  rw [scheduled]
  congr 1
  apply List.map_congr_left
  intro t ht
  rw [Fips180.schedule_early block (List.mem_range.mp ht), ← blockWord_toBitVec]

/-- A step of the schedule adds the next word of the standard's. -/
theorem scheduleFrom_scheduled (k : ℕ) (h : 16 ≤ n) :
    scheduleFrom k (scheduled block n) = scheduled block (n + k) := by
  induction k generalizing n with
  | zero => rfl
  | succ k ih =>
    have hword : sig1 ((scheduled block n).getD 1 0) + (scheduled block n).getD 6 0 + sig0 ((scheduled block n).getD 14 0) +
        (scheduled block n).getD 15 0 = UInt32.ofBitVec (Fips180.schedule block n) := by
      rw [scheduled_getD (i := 1) (by omega), scheduled_getD (i := 6) (by omega), scheduled_getD (i := 14) (by omega),
        scheduled_getD (i := 15) (by omega), Fips180.schedule_late block h]
      apply UInt32.toBitVec_inj.mp
      simp only [UInt32.toBitVec_add, sig0_toBitVec, sig1_toBitVec, Nat.sub_sub, Nat.reduceAdd]
    rw [scheduleFrom, hword, ← scheduled_succ, ih (by omega), Nat.add_assoc, Nat.add_comm 1 k]

theorem schedule_eq (block : Bytes) :
    schedule block = (List.range 64).map fun t => UInt32.ofBitVec (Fips180.schedule block t) := by
  rw [schedule, schedule_start, scheduleFrom_scheduled 48 (by omega), scheduled, List.reverse_reverse]

/-- The table holds the first bits of the cube roots of the primes. -/
theorem roundConstants_eq :
    roundConstants = (List.range 64).map fun t => UInt32.ofBitVec (Fips180.constant t) := by decide +kernel

theorem round_words (s : Sha256State) (k m : Fips180.Word) :
    (s.round (UInt32.ofBitVec k, UInt32.ofBitVec m)).words = s.words.round k m := by
  simp only [Sha256State.round, Sha256State.words, Fips180.Hash.round, UInt32.toBitVec_add, ep0_toBitVec, ep1_toBitVec,
    ch_toBitVec, maj_toBitVec]

theorem rounds_words (s : Sha256State) (block : Bytes) (n : ℕ) :
    (((List.range n).map fun t => (UInt32.ofBitVec (Fips180.constant t), UInt32.ofBitVec (Fips180.schedule block t))).foldl
      Sha256State.round s).words = Fips180.rounds block s.words n := by
  induction n with
  | zero => rfl
  | succ n ih => simp only [List.range_succ, List.map_append, List.foldl_append, List.map_cons, List.map_nil, List.foldl_cons,
      List.foldl_nil, round_words, ih, Fips180.rounds]

theorem sha256Transform_words (s : Sha256State) (block : Bytes) :
    (sha256Transform s block).words = Fips180.compress s.words block := by
  have hrounds := rounds_words s block 64
  rw [← List.zip_map', ← roundConstants_eq, ← schedule_eq] at hrounds
  rw [Fips180.compress, ← hrounds, sha256Transform]
  simp only [Sha256State.words, Fips180.Hash.add_def, UInt32.toBitVec_add, BitVec.add_comm]

theorem initial_words : sha256Init.state.words = Fips180.initial := by decide +kernel

end Compression

section Streaming

variable {m data : Bytes} {ctx : Sha256Ctx}

/-- A context that has been fed a message: the blocks are in the state, the bytes behind them in the buffer. -/
structure Fed (m : Bytes) (ctx : Sha256Ctx) : Prop where
  data : ctx.data = m.drop (64 * (m.length / 64))
  bitlen : ctx.bitlen = UInt64.ofNat (512 * (m.length / 64))
  state : ctx.state.words = Fips180.hashValue m (m.length / 64)

theorem fed_init : Fed [] sha256Init := ⟨rfl, rfl, initial_words⟩

theorem Fed.data_length (h : Fed m ctx) : ctx.data.length = m.length % 64 := by
  rw [h.data, List.length_drop]
  omega

theorem Fed.push (h : Fed m ctx) (b : UInt8) : Fed (m ++ [b]) (ctx.push b) := by
  have hlen := h.data_length
  have hle : 64 * (m.length / 64) ≤ m.length := Nat.mul_div_le m.length 64
  rw [Sha256Ctx.push]
  split
  case isTrue hfull =>
    have hnext : (m ++ [b]).length / 64 = m.length / 64 + 1 := by
      rw [List.length_append, List.length_singleton]
      omega
    have hblock : ctx.data ++ [b] = Fips180.block (m ++ [b]) (m.length / 64) := by
      rw [Fips180.block, List.drop_append_of_le_length hle, ← h.data, List.take_of_length_le]
      rw [List.length_append, List.length_singleton]
      omega
    constructor
    · rw [hnext, List.drop_of_length_le]
      rw [List.length_append, List.length_singleton]
      omega
    · rw [hnext, h.bitlen, Nat.mul_succ, UInt64.ofNat_add]
      rfl
    · rw [hnext, Fips180.hashValue, Fips180.hashValue_append hle, ← h.state, ← hblock]
      exact sha256Transform_words _ _
  case isFalse hroom =>
    have hsame : (m ++ [b]).length / 64 = m.length / 64 := by
      rw [List.length_append, List.length_singleton]
      omega
    constructor
    · rw [hsame, List.drop_append_of_le_length hle, ← h.data]
    · rw [hsame, h.bitlen]
    · rw [hsame, Fips180.hashValue_append hle, h.state]

theorem Fed.update (h : Fed m ctx) (data : Bytes) : Fed (m ++ data) (sha256Update ctx data) := by
  induction data generalizing m ctx with
  | nil => simpa [sha256Update] using h
  | cons b data ih =>
    have hnext := ih (h.push b)
    rwa [List.append_assoc, List.singleton_append] at hnext

/-- A message may be fed in any pieces. -/
theorem Fed.feed (h : Fed m ctx) (chunks : List Bytes) : Fed (m ++ chunks.flatten) (chunks.foldl sha256Update ctx) := by
  induction chunks generalizing m ctx with
  | nil => simpa using h
  | cons chunk chunks ih =>
    have hnext := ih (h.update chunk)
    rwa [List.append_assoc, ← List.flatten_cons] at hnext

end Streaming

section Final

variable {m : Bytes} {ctx : Sha256Ctx}

theorem shiftRight_toUInt8 {n : ℕ} (h : n < 2 ^ 64) {k : UInt64} (hk : k.toNat < 64) :
    (UInt64.ofNat n >>> k).toUInt8 = (n / 2 ^ k.toNat).toUInt8 := by
  apply UInt8.toNat_inj.mp
  rw [UInt64.toNat_toUInt8, UInt64.toNat_shiftRight, UInt64.toNat_ofNat', Nat.mod_eq_of_lt h, Nat.mod_eq_of_lt hk,
    Nat.shiftRight_eq_div_pow]
  exact (UInt8.toNat_ofNat').symm

theorem bigEndian64_eq {n : ℕ} (h : n < 2 ^ 64) : bigEndian64 (UInt64.ofNat n) = Fips180.lengthBytes n := by
  have hlow : (UInt64.ofNat n).toUInt8 = n.toUInt8 := by
    have hshift := shiftRight_toUInt8 h (k := 0) (by decide)
    simpa using hshift
  rw [bigEndian64, shiftRight_toUInt8 h (by decide), shiftRight_toUInt8 h (by decide), shiftRight_toUInt8 h (by decide),
    shiftRight_toUInt8 h (by decide), shiftRight_toUInt8 h (by decide), shiftRight_toUInt8 h (by decide),
    shiftRight_toUInt8 h (by decide), hlow]
  simp [Fips180.lengthBytes, List.range_succ]

theorem bigEndian32_eq (n : UInt32) : bigEndian32 n = Fips180.wordBytes n.toBitVec := by
  have hbyte (x : UInt32) : x.toUInt8 = x.toBitVec.toNat.toUInt8 := rfl
  rw [bigEndian32, hbyte, hbyte, hbyte, hbyte]
  rfl

theorem digest_words (s : Sha256State) : s.digest = s.words.bytes := by
  simp only [Sha256State.digest, bigEndian32_eq, Fips180.Hash.bytes, Sha256State.words, List.flatMap_cons, List.flatMap_nil,
    List.append_assoc, List.append_nil]

theorem Fed.bits (h : Fed m ctx) : ctx.bitlen + ctx.data.length.toUInt64 * 8 = UInt64.ofNat (8 * m.length) := by
  have hsplit : 8 * m.length = 512 * (m.length / 64) + m.length % 64 * 8 := by omega
  rw [h.bitlen, h.data_length, hsplit, UInt64.ofNat_add (512 * (m.length / 64)), UInt64.ofNat_mul (m.length % 64)]
  rfl

/-- What is behind the full blocks of a padded message. -/
theorem Fed.pad_drop (h : Fed m ctx) : (Fips180.pad m).drop (64 * (m.length / 64)) =
    ctx.data ++ 0x80 :: (List.replicate (Fips180.zeros m.length) 0 ++ Fips180.lengthBytes (8 * m.length)) := by
  rw [Fips180.pad, List.drop_append_of_le_length (Nat.mul_div_le m.length 64), h.data]

theorem Fed.hashValue_pad (h : Fed m ctx) : Fips180.hashValue (Fips180.pad m) (m.length / 64) = ctx.state.words := by
  rw [Fips180.pad, Fips180.hashValue_append (Nat.mul_div_le m.length 64), h.state]

/-- The padded end of a message gives the hash of the message. -/
theorem Fed.final (h : Fed m ctx) (hlen : m.length < 2 ^ 61) : sha256Final ctx = Fips180.sha256 m := by
  have htail := h.data_length
  have hpad := Fips180.pad_length m
  have hblocks := h.pad_drop
  have hbytes := Fips180.lengthBytes_length (8 * m.length)
  unfold sha256Final
  dsimp only
  rw [h.bits, bigEndian64_eq (by omega), digest_words, digest_words, Fips180.sha256]
  split
  case isTrue hroom =>
    have hzeros : Fips180.zeros m.length = 55 - ctx.data.length := by
      rw [Fips180.zeros]
      omega
    have hcount : (Fips180.pad m).length / 64 = m.length / 64 + 1 := by omega
    have hblock : Fips180.block (Fips180.pad m) (m.length / 64) = ctx.data ++ [0x80] ++
        List.replicate (56 - (ctx.data ++ [0x80]).length) 0 ++ Fips180.lengthBytes (8 * m.length) := by
      have hcut : 56 - (ctx.data ++ [0x80]).length = 55 - ctx.data.length := by
        rw [List.length_append, List.length_singleton]
        omega
      rw [Fips180.block, hblocks, hzeros, List.take_of_length_le, hcut]
      · simp
      · simp only [List.length_append, List.length_cons, List.length_replicate, hbytes]
        omega
    rw [sha256Transform_words, ← hblock, hcount, Fips180.hashValue, h.hashValue_pad]
  case isFalse hfull =>
    have hzeros : Fips180.zeros m.length = (63 - ctx.data.length) + 56 := by
      rw [Fips180.zeros]
      omega
    have hcount : (Fips180.pad m).length / 64 = m.length / 64 + 1 + 1 := by omega
    have hcut : 64 - (ctx.data ++ [0x80]).length = 63 - ctx.data.length := by
      rw [List.length_append, List.length_singleton]
      omega
    have hfirst : (ctx.data ++ [0x80] ++ List.replicate (64 - (ctx.data ++ [0x80]).length) 0 : Bytes).length = 64 := by
      simp only [List.length_append, List.length_cons, List.length_nil, List.length_replicate]
      omega
    have hsplit : (Fips180.pad m).drop (64 * (m.length / 64)) =
        (ctx.data ++ [0x80] ++ List.replicate (64 - (ctx.data ++ [0x80]).length) 0) ++
          (List.replicate 56 0 ++ Fips180.lengthBytes (8 * m.length)) := by
      rw [hblocks, hzeros, List.replicate_add, hcut]
      simp
    have hblock : Fips180.block (Fips180.pad m) (m.length / 64) =
        ctx.data ++ [0x80] ++ List.replicate (64 - (ctx.data ++ [0x80]).length) 0 := by
      rw [Fips180.block, hsplit, List.take_left' hfirst]
    have hlast : Fips180.block (Fips180.pad m) (m.length / 64 + 1) =
        List.replicate 56 0 ++ Fips180.lengthBytes (8 * m.length) := by
      rw [Fips180.block, Nat.mul_succ, ← List.drop_drop, hsplit, List.drop_left' hfirst, List.take_of_length_le]
      rw [List.length_append, List.length_replicate, hbytes]
    rw [sha256Transform_words, sha256Transform_words, ← hblock, ← hlast, hcount, Fips180.hashValue, Fips180.hashValue,
      h.hashValue_pad]

/-- The lower case digits of bytes in base 16. -/
def hexDigits (b : Bytes) : Bytes :=
  b.flatMap fun c => [at' (lit "0123456789abcdef") (c.toNat / 16), at' (lit "0123456789abcdef") (c.toNat % 16)]

theorem sha256ToHex_eq (hash : Bytes) : sha256ToHex hash = hexDigits hash := by
  have hlit : lit "0123456789abcdef" = [0x30, 0x31, 0x32, 0x33, 0x34, 0x35, 0x36, 0x37, 0x38, 0x39, 0x61, 0x62, 0x63, 0x64,
      0x65, 0x66] := by with_unfolding_all decide
  have htable : ∀ b : Fin 256, [nibbleToLowerHex (UInt8.ofFin b >>> 4), nibbleToLowerHex (UInt8.ofFin b)] =
      [at' [0x30, 0x31, 0x32, 0x33, 0x34, 0x35, 0x36, 0x37, 0x38, 0x39, 0x61, 0x62, 0x63, 0x64, 0x65, 0x66] (b.val / 16),
        at' [0x30, 0x31, 0x32, 0x33, 0x34, 0x35, 0x36, 0x37, 0x38, 0x39, 0x61, 0x62, 0x63, 0x64, 0x65, 0x66] (b.val % 16)] := by
    decide +kernel
  unfold sha256ToHex hexDigits
  rw [hlit]
  congr 1
  funext b
  have hb := htable b.toFin
  rwa [UInt8.ofFin_toFin] at hb

theorem sha256Hex_eq {data : Bytes} (h : data.length < 2 ^ 61) : sha256Hex data = hexDigits (Fips180.sha256 data) := by
  have hfed := fed_init.update data
  rw [List.nil_append] at hfed
  rw [sha256Hex, hfed.final h, sha256ToHex_eq]

/-- Whatever the pieces are in which a message is fed, the digest is the standard's. A file is read to its end in chunks,
and its hash is that of the whole content in lower case; when the card fails there is no other answer than that or none. -/
theorem sha256_fips :
    (∀ chunks : List Bytes, chunks.flatten.length < 2 ^ 61 →
      sha256Final (chunks.foldl sha256Update sha256Init) = Fips180.sha256 chunks.flatten) ∧
    ∀ (c : Card) (path : Path) (data : Bytes) (fuel : ℕ), c.file? path = some data → path ≠ [] → data.length < 2 ^ 61 →
      data.length / hashChunkBytes < fuel →
      (device.eval (sha256FileHex fuel path) c).1 = some (hexDigits (Fips180.sha256 data)) ∧
      ∀ es r c', device.run (sha256FileHex fuel path) es c = .done r c' →
        r = none ∨ r = some (hexDigits (Fips180.sha256 data)) := by
  constructor
  · intro chunks hlen
    have hfed := fed_init.feed chunks
    exact Fed.final hfed hlen
  · intro c path data fuel hfile hpath hlen hfuel
    rw [← sha256Hex_eq hlen]
    constructor
    · exact eval_sat _ (wp_sha256FileHex (A := fun _ => False) (C := fun _ => True)
        (Q := fun r _ => r = some (sha256Hex data)) hfile hpath hfuel trivial rfl (by simp [IoFault]))
    · intro es r c' hrun
      have hwp : device.wp (fun _ => True) (fun _ => True) (sha256FileHex fuel path)
          (fun r _ => r = none ∨ r = some (sha256Hex data)) c :=
        wp_sha256FileHex hfile hpath hfuel trivial (.inr rfl) fun _ => .inl rfl
      have hsat := run_sat _ es hwp fun _ _ _ _ => trivial
      rw [hrun] at hsat
      exact hsat

def abcCard : Card := ⟨[⟨lit "/a", .file (lit "abc")⟩].toAList, false⟩

theorem sha256_fips_abc :
    sha256Final ([lit "a", [], lit "bc"].foldl sha256Update sha256Init) = Fips180.sha256 [lit "a", [], lit "bc"].flatten ∧
    (device.eval (sha256FileHex 1 (lit "/a")) abcCard).1 = some (hexDigits (Fips180.sha256 (lit "abc"))) :=
  ⟨sha256_fips.1 [lit "a", [], lit "bc"] (by with_unfolding_all decide),
    (sha256_fips.2 abcCard (lit "/a") (lit "abc") 1 (by with_unfolding_all decide) (by with_unfolding_all decide)
      (by with_unfolding_all decide) (by with_unfolding_all decide)).1⟩

end Final

end M5DayLog
