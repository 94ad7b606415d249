import M5DayLog.Lib.Buffer
import M5DayLog.Lib.Bytes
import Mathlib.Data.Nat.Bitwise

/-! The check that a request line is UTF-8. Each round of the loop takes one character off; the check accepts exactly the
encodings of texts in which the terminator does not occur. -/

namespace M5DayLog.UsbCdcProtocol

open Bytes

/-- The bits that a lead byte carries, and how many bytes follow it. -/
def utf8Lead (c : ℕ) : Option (ℕ × ℕ) :=
  if 0xc2 ≤ c ∧ c ≤ 0xdf then some (c &&& 0x1f, 1)
  else if 0xe0 ≤ c ∧ c ≤ 0xef then some (c &&& 0x0f, 2)
  else if 0xf0 ≤ c ∧ c ≤ 0xf4 then some (c &&& 0x07, 3)
  else none

/-- The loop over the bytes that follow. -/
def utf8Rest : ℕ → ℕ → Bytes → Option (ℕ × Bytes)
  | 0, code, data => some (code, data)
  | _ + 1, _, [] => none
  | need + 1, code, cc :: data =>
    if cc.toNat &&& 0xc0 ≠ 0x80 then none
    else utf8Rest need (code <<< 6 ||| (cc.toNat &&& 0x3f)) data

def utf8Refused (need code : ℕ) : Prop :=
  (need = 1 ∧ code < 0x80) ∨ (need = 2 ∧ code < 0x800) ∨ (need = 3 ∧ code < 0x10000) ∨ code > 0x10ffff ∨
    (code ≥ 0xd800 ∧ code ≤ 0xdfff)

instance (need code : ℕ) : Decidable (utf8Refused need code) := by
  unfold utf8Refused
  infer_instance

/-- One round of the loop: what is left after a character. -/
def utf8Next : Bytes → Option Bytes
  | [] => none
  | c :: data =>
    if c = 0 then none
    else if c < 0x80 then some data
    else
      match utf8Lead c.toNat with
      | none => none
      | some (code, need) =>
        if need > data.length then none
        else
          match utf8Rest need code data with
          | none => none
          | some (code, data) => if utf8Refused need code then none else some data

/-- The loop; each round takes a byte or more, so the length of the data is fuel enough. -/
def utf8ValidFrom : ℕ → Bytes → Bool
  | _, [] => true
  | 0, _ :: _ => false
  | fuel + 1, c :: data =>
    match utf8Next (c :: data) with
    | none => false
    | some rest => utf8ValidFrom fuel rest

def cdcUtf8Valid (data : Bytes) : Bool := utf8ValidFrom data.length data

theorem continuation_iff (cc : UInt8) : cc.toNat &&& 0xc0 = 0x80 ↔ 0x80 ≤ cc.toNat ∧ cc.toNat < 0xc0 := by
  have h : ∀ n < 256, n &&& 0xc0 = 0x80 ↔ 0x80 ≤ n ∧ n < 0xc0 := by decide +kernel
  exact h cc.toNat cc.toNat_lt

theorem utf8Rest_succ (need code : ℕ) (cc : UInt8) (data : Bytes) :
    utf8Rest (need + 1) code (cc :: data) =
      if 0x80 ≤ cc.toNat ∧ cc.toNat < 0xc0 then utf8Rest need (code * 64 + cc.toNat % 64) data else none := by
  have hlow : cc.toNat &&& 0x3f = cc.toNat % 64 := Nat.and_two_pow_sub_one_eq_mod cc.toNat 6
  have hcode : code <<< 6 ||| cc.toNat % 64 = code * 64 + cc.toNat % 64 := by
    rw [← Nat.shiftLeft_add_eq_or_of_lt (Nat.mod_lt _ (by norm_num) : cc.toNat % 64 < 2 ^ 6), Nat.shiftLeft_eq]
  rw [utf8Rest, hlow, hcode]
  by_cases h : 0x80 ≤ cc.toNat ∧ cc.toNat < 0xc0
  · rw [if_pos h, if_neg (not_not_intro ((continuation_iff cc).mpr h))]
  · rw [if_neg h, if_pos (mt (continuation_iff cc).mp h)]

theorem utf8Lead_iff (c code need : ℕ) :
    utf8Lead c = some (code, need) ↔
      ((0xc2 ≤ c ∧ c ≤ 0xdf) ∧ code = c % 32 ∧ need = 1) ∨ ((0xe0 ≤ c ∧ c ≤ 0xef) ∧ code = c % 16 ∧ need = 2) ∨
        ((0xf0 ≤ c ∧ c ≤ 0xf4) ∧ code = c % 8 ∧ need = 3) := by
  rw [utf8Lead, show c &&& 0x1f = c % 32 from Nat.and_two_pow_sub_one_eq_mod c 5,
    show c &&& 0x0f = c % 16 from Nat.and_two_pow_sub_one_eq_mod c 4,
    show c &&& 0x07 = c % 8 from Nat.and_two_pow_sub_one_eq_mod c 3]
  split
  · simp only [Option.some.injEq, Prod.mk.injEq]
    omega
  · split
    · simp only [Option.some.injEq, Prod.mk.injEq]
      omega
    · split
      · simp only [Option.some.injEq, Prod.mk.injEq]
        omega
      · simp only [reduceCtorEq, false_iff]
        omega

theorem toNat_byte {n : ℕ} (h : n < 256) : (UInt8.ofNat n).toNat = n := by
  rw [UInt8.toNat_ofNat']
  omega

theorem byte_eq {c : UInt8} {n : ℕ} (h : c.toNat = n) : UInt8.ofNat n = c := by
  rw [← h, UInt8.ofNat_toNat]

theorem utf8Rest_iff (need code : ℕ) (data : Bytes) (v : ℕ) (rest : Bytes) :
    utf8Rest (need + 1) code data = some (v, rest) ↔ ∃ (b : UInt8) (data' : Bytes), data = b :: data' ∧
      (0x80 ≤ b.toNat ∧ b.toNat < 0xc0) ∧ utf8Rest need (code * 64 + b.toNat % 64) data' = some (v, rest) := by
  cases data with
  | nil => simp [utf8Rest]
  | cons b data =>
    rw [utf8Rest_succ]
    split
    · next hb => simp [hb]
    · next hb => simp [hb]

theorem utf8Rest_length {need code : ℕ} {data rest : Bytes} {v : ℕ} (h : utf8Rest need code data = some (v, rest)) :
    data.length = need + rest.length := by
  induction need generalizing code data with
  | zero =>
    obtain ⟨rfl, rfl⟩ := Prod.mk.inj (Option.some.inj h)
    omega
  | succ need ih =>
    obtain ⟨b, data', rfl, _, hrest⟩ := (utf8Rest_iff _ _ _ _ _).mp h
    have hlen := ih hrest
    rw [List.length_cons]
    omega

theorem utf8Rest_byte {x : ℕ} (hx : x < 64) (need code : ℕ) (data : Bytes) :
    utf8Rest (need + 1) code (UInt8.ofNat (x + 0x80) :: data) = utf8Rest need (code * 64 + x) data := by
  rw [utf8Rest_succ, toNat_byte (by omega), if_pos (by omega), show (x + 0x80) % 64 = x by omega]

theorem utf8Next_iff {c : UInt8} (hascii : ¬ c < 0x80) (data rest : Bytes) :
    utf8Next (c :: data) = some rest ↔ ∃ code need v, utf8Lead c.toNat = some (code, need) ∧
      utf8Rest need code data = some (v, rest) ∧ ¬ utf8Refused need v := by
  have hzero : c ≠ 0 := by
    rintro rfl
    exact hascii (by decide)
  rw [utf8Next, if_neg hzero, if_neg hascii]
  constructor
  · intro h
    split at h
    · cases h
    · next code need hlead =>
      split at h
      · cases h
      · split at h
        · cases h
        · next v rest' hrest =>
          split at h
          · cases h
          · next hok =>
            obtain rfl := Option.some.inj h
            exact ⟨code, need, v, hlead, hrest, hok⟩
  · rintro ⟨code, need, v, hlead, hrest, hok⟩
    have hlen := utf8Rest_length hrest
    rw [hlead]
    simp only
    rw [if_neg (by omega), hrest]
    simp only
    rw [if_neg hok]

theorem val_ofNat {v : ℕ} (h : v.isValidChar) : (Char.ofNat v).val.toNat = v := by
  rw [Char.ofNat, dif_pos h]
  rfl

/-- What one round takes off is the encoding of a character. -/
theorem utf8Next_sound {data rest : Bytes} (h : utf8Next data = some rest) :
    ∃ c : Char, c ≠ Char.ofNat 0 ∧ data = String.utf8EncodeChar c ++ rest := by
  have char : ∀ v : ℕ, v.isValidChar → v ≠ 0 → String.utf8EncodeChar (Char.ofNat v) ++ rest = data →
      ∃ c : Char, c ≠ Char.ofNat 0 ∧ data = String.utf8EncodeChar c ++ rest := by
    intro v hv hne henc
    refine ⟨Char.ofNat v, fun hc => hne ?_, henc.symm⟩
    rw [← val_ofNat hv, hc]
    rfl
  cases data with
  | nil => cases h
  | cons c data =>
    by_cases hascii : c < 0x80
    · have hlt : c.toNat < 0x80 := hascii
      rw [utf8Next] at h
      split at h
      · cases h
      · next hzero =>
        have hpos : c.toNat ≠ 0 := fun h0 => hzero (UInt8.toNat_inj.mp h0)
        have hv : c.toNat.isValidChar := Or.inl (by omega)
        obtain rfl := Option.some.inj h
        apply char c.toNat hv hpos
        rw [String.utf8EncodeChar, val_ofNat hv, if_pos (by omega), byte_eq rfl, List.singleton_append]
    · obtain ⟨code, need, v, hlead, hrest, hok⟩ := (utf8Next_iff hascii data rest).mp h
      simp only [utf8Refused] at hok
      have hv : v.isValidChar := by unfold Nat.isValidChar; omega
      have hc := c.toNat_lt
      rw [utf8Lead_iff] at hlead
      apply char v hv
      · omega
      rw [String.utf8EncodeChar, val_ofNat hv]
      rcases hlead with ⟨hr, rfl, rfl⟩ | ⟨hr, rfl, rfl⟩ | ⟨hr, rfl, rfl⟩
      · obtain ⟨b₁, data, rfl, hb₁, hrest⟩ := (utf8Rest_iff _ _ _ _ _).mp hrest
        obtain ⟨rfl, rfl⟩ := Prod.mk.inj (Option.some.inj hrest)
        rw [if_neg (by omega), if_pos (by omega), byte_eq (c := c) (by omega), byte_eq (c := b₁) (by omega)]
        rfl
      · obtain ⟨b₁, data, rfl, hb₁, hrest⟩ := (utf8Rest_iff _ _ _ _ _).mp hrest
        obtain ⟨b₂, data, rfl, hb₂, hrest⟩ := (utf8Rest_iff _ _ _ _ _).mp hrest
        obtain ⟨rfl, rfl⟩ := Prod.mk.inj (Option.some.inj hrest)
        rw [if_neg (by omega), if_neg (by omega), if_pos (by omega), byte_eq (c := c) (by omega),
          byte_eq (c := b₁) (by omega), byte_eq (c := b₂) (by omega)]
        rfl
      · obtain ⟨b₁, data, rfl, hb₁, hrest⟩ := (utf8Rest_iff _ _ _ _ _).mp hrest
        obtain ⟨b₂, data, rfl, hb₂, hrest⟩ := (utf8Rest_iff _ _ _ _ _).mp hrest
        obtain ⟨b₃, data, rfl, hb₃, hrest⟩ := (utf8Rest_iff _ _ _ _ _).mp hrest
        obtain ⟨rfl, rfl⟩ := Prod.mk.inj (Option.some.inj hrest)
        rw [if_neg (by omega), if_neg (by omega), if_neg (by omega), byte_eq (c := c) (by omega),
          byte_eq (c := b₁) (by omega), byte_eq (c := b₂) (by omega), byte_eq (c := b₃) (by omega)]
        rfl

/-- Every character but the terminator is taken off by one round. -/
theorem utf8Next_complete {c : Char} (hc : c ≠ Char.ofNat 0) (rest : Bytes) :
    utf8Next (String.utf8EncodeChar c ++ rest) = some rest := by
  have hne : c.val.toNat ≠ 0 := fun h => hc (Char.ext (UInt32.toNat_inj.mp h))
  have hvalid : c.val.toNat < 0xd800 ∨ (0xdfff < c.val.toNat ∧ c.val.toNat < 0x110000) := c.valid
  generalize hv : c.val.toNat = v at hne hvalid
  rw [String.utf8EncodeChar, hv]
  split
  · next h =>
    have hb := toNat_byte (n := v) (by omega)
    rw [List.singleton_append, utf8Next, if_neg, if_pos]
    · rw [UInt8.lt_iff_toNat_lt, hb]
      exact Nat.lt_succ_of_le h
    · intro h0
      rw [h0] at hb
      exact hne hb.symm
  · have lead : ∀ n, 0x80 ≤ n → n < 256 → ¬ UInt8.ofNat n < 0x80 := by
      intro n hn hlt
      rw [UInt8.lt_iff_toNat_lt, toNat_byte hlt]
      exact Nat.not_lt.mpr hn
    have hlow : ∀ n, n % 64 < 64 := fun n => Nat.mod_lt n (by norm_num)
    split
    · simp only [List.cons_append, List.nil_append]
      rw [utf8Next_iff (lead _ (by omega) (by omega)), toNat_byte (by omega)]
      refine ⟨_, 1, v, (utf8Lead_iff _ _ _).mpr (Or.inl ⟨by omega, rfl, rfl⟩), ?_, ?_⟩
      · rw [utf8Rest_byte (hlow _), utf8Rest]
        congr 2
        omega
      · simp only [utf8Refused]
        omega
    · split
      · simp only [List.cons_append, List.nil_append]
        rw [utf8Next_iff (lead _ (by omega) (by omega)), toNat_byte (by omega)]
        refine ⟨_, 2, v, (utf8Lead_iff _ _ _).mpr (Or.inr (Or.inl ⟨by omega, rfl, rfl⟩)), ?_, ?_⟩
        · rw [utf8Rest_byte (hlow _), utf8Rest_byte (hlow _), utf8Rest]
          congr 2
          omega
        · simp only [utf8Refused]
          omega
      · simp only [List.cons_append, List.nil_append]
        rw [utf8Next_iff (lead _ (by omega) (by omega)), toNat_byte (by omega)]
        refine ⟨_, 3, v, (utf8Lead_iff _ _ _).mpr (Or.inr (Or.inr ⟨by omega, rfl, rfl⟩)), ?_, ?_⟩
        · rw [utf8Rest_byte (hlow _), utf8Rest_byte (hlow _), utf8Rest_byte (hlow _), utf8Rest]
          congr 2
          omega
        · simp only [utf8Refused]
          omega

/-- The loop accepts exactly the UTF-8 encodings of texts without the terminator. -/
theorem cdcUtf8Valid_iff (data : Bytes) :
    cdcUtf8Valid data = true ↔ ∃ cs : List Char, Char.ofNat 0 ∉ cs ∧ data = cs.flatMap String.utf8EncodeChar := by
  have from_iff : ∀ fuel (data : Bytes), data.length ≤ fuel →
      (utf8ValidFrom fuel data = true ↔ ∃ cs : List Char, Char.ofNat 0 ∉ cs ∧ data = cs.flatMap String.utf8EncodeChar) := by
    intro fuel
    induction fuel with
    | zero =>
      intro data hlen
      obtain rfl := List.length_eq_zero_iff.mp (Nat.le_zero.mp hlen)
      exact iff_of_true rfl ⟨[], List.not_mem_nil, rfl⟩
    | succ fuel ih =>
      intro data hlen
      cases data with
      | nil => exact iff_of_true rfl ⟨[], List.not_mem_nil, rfl⟩
      | cons b data =>
        rw [utf8ValidFrom]
        constructor
        · intro h
          split at h
          · cases h
          · next rest hnext =>
            obtain ⟨c, hc, heq⟩ := utf8Next_sound hnext
            have hshort : rest.length ≤ fuel := by
              have := congrArg List.length heq
              have := String.length_utf8EncodeChar c
              have := c.utf8Size_pos
              simp only [List.length_cons, List.length_append] at *
              omega
            obtain ⟨cs, hcs, rfl⟩ := (ih rest hshort).mp h
            refine ⟨c :: cs, ?_, by rw [heq, List.flatMap_cons]⟩
            rw [List.mem_cons, not_or]
            exact ⟨Ne.symm hc, hcs⟩
        · rintro ⟨cs, hcs, heq⟩
          cases cs with
          | nil => cases heq
          | cons c cs =>
            rw [List.mem_cons, not_or] at hcs
            rw [List.flatMap_cons] at heq
            have hshort : (cs.flatMap String.utf8EncodeChar).length ≤ fuel := by
              have := congrArg List.length heq
              have := String.length_utf8EncodeChar c
              have := c.utf8Size_pos
              simp only [List.length_cons, List.length_append] at *
              omega
            rw [heq, utf8Next_complete (Ne.symm hcs.1)]
            exact (ih _ hshort).mpr ⟨cs, hcs.2, rfl⟩
  exact from_iff data.length data le_rfl

section Reads

open Buffer

/-- The loop over the bytes that follow, with its reads. -/
def readUtf8Rest (data : Bytes) : (need code i : ℕ) → Except Fault (Option ℕ)
  | 0, code, _ => return some code
  | need + 1, code, i => do
    let cc ← readAt data i
    if cc.toNat &&& 0xc0 ≠ 0x80 then return none
    else readUtf8Rest data need (code <<< 6 ||| (cc.toNat &&& 0x3f)) (i + 1)

/-- One round of the loop, with its reads. -/
def readUtf8Next (data : Bytes) (i : ℕ) : Except Fault (Round ℕ Bool) := do
  if i < data.length then
    let c ← readAt data i
    if c = 0 then return .done false
    else if c < 0x80 then return .next (i + 1)
    else
      match utf8Lead c.toNat with
      | none => return .done false
      | some (code, need) =>
        if i + 1 + need > data.length then return .done false
        else
          match ← readUtf8Rest data need code (i + 1) with
          | none => return .done false
          | some code => if utf8Refused need code then return .done false else return .next (i + 1 + need)
  else return .done true

/-- The check of the bytes of a buffer, by index. -/
def Reads.cdcUtf8Valid (data : Bytes) : Except Fault Bool := loop (readUtf8Next data) (data.length + 1) 0

variable {data rest : Bytes} {need code i : ℕ}

theorem readUtf8Rest_run (h : At data i rest) (hneed : need ≤ rest.length) :
    readUtf8Rest data need code i = .ok ((utf8Rest need code rest).map Prod.fst) := by
  induction need generalizing code i rest with
  | zero => rfl
  | succ need ih =>
    cases rest with
    | nil => exact absurd hneed (Nat.not_succ_le_zero _)
    | cons cc rest =>
      rw [readUtf8Rest, h.readAt, ok_bind, utf8Rest]
      split
      · rfl
      · exact ih h.tail (Nat.le_of_succ_le_succ hneed)

theorem utf8Rest_drop {v : ℕ} {more : Bytes} (h : utf8Rest need code rest = some (v, more)) : rest.drop need = more := by
  induction need generalizing code rest with
  | zero => exact (Prod.mk.inj (Option.some.inj h)).2
  | succ need ih =>
    obtain ⟨cc, rest', rfl, -, hrest⟩ := (utf8Rest_iff _ _ _ _ _).mp h
    exact ih hrest

/-- A round by index is a round on what is left of the buffer. -/
theorem readUtf8Next_run (h : At data i rest) (hrest : rest ≠ []) :
    (utf8Next rest = none ∧ readUtf8Next data i = .ok (.done false)) ∨
      ∃ more j, utf8Next rest = some more ∧ readUtf8Next data i = .ok (.next j) ∧ At data j more ∧ i < j := by
  obtain ⟨c, rest, rfl⟩ := List.exists_cons_of_ne_nil hrest
  have hlength := h.tail.length
  rw [readUtf8Next, if_pos (h.lt_iff.mpr hrest), h.readAt, ok_bind, utf8Next]
  split
  · exact Or.inl ⟨rfl, rfl⟩
  · split
    · exact Or.inr ⟨rest, i + 1, rfl, rfl, h.tail, Nat.lt_succ_self i⟩
    · cases utf8Lead c.toNat with
      | none => exact Or.inl ⟨rfl, rfl⟩
      | some lead =>
        obtain ⟨code, need⟩ := lead
        simp only
        by_cases hneed : need > rest.length
        · rw [if_pos hneed, if_pos (by omega)]
          exact Or.inl ⟨rfl, rfl⟩
        · rw [if_neg hneed, if_neg (by omega), readUtf8Rest_run h.tail (by omega), ok_bind]
          cases hread : utf8Rest need code rest with
          | none => exact Or.inl ⟨rfl, rfl⟩
          | some read =>
            obtain ⟨v, more⟩ := read
            simp only [Option.map_some]
            split
            · exact Or.inl ⟨rfl, rfl⟩
            · refine Or.inr ⟨more, i + 1 + need, rfl, rfl, ?_, by omega⟩
              rw [← utf8Rest_drop hread]
              exact h.tail.skip (by omega)

/-- The check reads no byte behind the buffer, and finds what it finds of the text. -/
theorem readUtf8Valid_run (data : Bytes) : Reads.cdcUtf8Valid data = .ok (cdcUtf8Valid data) := by
  have hloop : ∃ valid, Reads.cdcUtf8Valid data = .ok valid ∧ valid = cdcUtf8Valid data := by
    refine loop_potential (fun i => ∃ rest fuel, At data i rest ∧ rest.length ≤ fuel ∧ utf8ValidFrom fuel rest = cdcUtf8Valid data)
      (data.length - ·) (fun i h => ?_) ⟨data, data.length, At.start data, le_rfl, rfl⟩ (by omega)
    obtain ⟨rest, fuel, hat, hfuel, hvalid⟩ := h
    cases rest with
    | nil =>
      refine Or.inl ⟨true, ?_, ?_⟩
      · rw [readUtf8Next, if_neg (by simp [hat.lt_iff])]
        rfl
      · rw [← hvalid, utf8ValidFrom]
    | cons c rest =>
      obtain ⟨fuel, rfl⟩ := Nat.exists_eq_succ_of_ne_zero (show fuel ≠ 0 by simp at hfuel; omega)
      rw [Nat.succ_eq_add_one, utf8ValidFrom] at hvalid
      rcases readUtf8Next_run hat (List.cons_ne_nil c rest) with ⟨hnone, hround⟩ | ⟨more, j, hsome, hround, hmore, hij⟩
      · rw [hnone] at hvalid
        exact Or.inl ⟨false, hround, hvalid⟩
      · rw [hsome] at hvalid
        have hlength := hat.length
        have hless := hmore.length
        rw [List.length_cons] at hfuel hlength
        exact Or.inr ⟨j, hround, ⟨more, fuel, hmore, by omega, hvalid⟩, by omega⟩
  obtain ⟨valid, hread, rfl⟩ := hloop
  exact hread

/-- The check reads no byte behind the buffer, and accepts exactly the UTF-8 encodings of texts without the terminator. -/
theorem readUtf8Valid_iff (data : Bytes) : ∃ valid, Reads.cdcUtf8Valid data = .ok valid ∧
    (valid = true ↔ ∃ cs : List Char, Char.ofNat 0 ∉ cs ∧ data = cs.flatMap String.utf8EncodeChar) :=
  ⟨cdcUtf8Valid data, readUtf8Valid_run data, cdcUtf8Valid_iff data⟩

end Reads

end M5DayLog.UsbCdcProtocol
