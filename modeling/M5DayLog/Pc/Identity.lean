import Mathlib.Data.List.TakeWhile
import M5DayLog.Manifest.Entry
import M5DayLog.Pc.Contract

/-! The identifiers that pass the contract. The format check reads a number with the host's own parser, which skips some
texts, braces, hyphens and white space: so more strings pass than the Device would write, but none that leaves its
directory. -/

namespace M5DayLog.Contract

open Bytes

section Removal

/-- What is taken away belongs to the pattern. -/
theorem removeFrom_mem {pattern : PyStr} (hne : pattern ≠ []) {c : ℕ} (skip : ℕ) (s : PyStr) (hc : c ∈ s) :
    c ∈ s.take skip ∨ c ∈ pattern ∨ c ∈ removeFrom pattern skip s := by
  induction s generalizing skip with
  | nil => cases hc
  | cons x s ih =>
    cases skip with
    | succ skip =>
      rw [List.take_succ_cons, removeFrom]
      rcases List.mem_cons.mp hc with rfl | hc
      · exact Or.inl List.mem_cons_self
      · exact (ih skip hc).imp_left (List.mem_cons_of_mem _)
    | zero =>
      apply Or.inr
      rw [removeFrom]
      split
      case isTrue hprefix =>
        obtain ⟨rest, hrest⟩ := List.isPrefixOf_iff_prefix.mp hprefix
        cases pattern with
        | nil => exact absurd rfl hne
        | cons p pattern =>
          have hs : s = pattern ++ rest := (List.cons.inj hrest).2.symm
          obtain rfl : p = x := (List.cons.inj hrest).1
          rcases List.mem_cons.mp hc with rfl | hc
          · exact Or.inl List.mem_cons_self
          · rcases ih pattern.length hc with h | h
            · rw [hs, List.take_left] at h
              exact Or.inl (List.mem_cons_of_mem _ h)
            · exact h
      case isFalse =>
        rcases List.mem_cons.mp hc with rfl | hc
        · exact Or.inr List.mem_cons_self
        · rcases ih 0 hc with h | h | h
          · simp at h
          · exact Or.inl h
          · exact Or.inr (List.mem_cons_of_mem _ h)

theorem removeText_mem {pattern s : PyStr} (hne : pattern ≠ []) {c : ℕ} (hc : c ∈ s) :
    c ∈ pattern ∨ c ∈ removeText pattern s := by
  rcases removeFrom_mem hne 0 s hc with h | h
  · simp at h
  · exact h

/-- A text that does not occur is not taken away. -/
theorem removeText_absent {pattern s : PyStr} {c : ℕ} (hc : c ∈ pattern) (hs : c ∉ s) : removeText pattern s = s := by
  induction s with
  | nil => rfl
  | cons x s ih =>
    have hnot : pattern.isPrefixOf (x :: s) = false := by
      by_contra h
      exact hs ((List.isPrefixOf_iff_prefix.mp (by simpa using h)).subset hc)
    rw [removeText, removeFrom, if_neg (by simp [hnot])]
    exact congrArg (x :: ·) (ih fun h => hs (List.mem_cons_of_mem _ h))

/-- A pattern that has no colon among its first two does not reach a colon that is the second. -/
theorem removeText_colon {p q x : ℕ} {pattern s : PyStr} (hp : p ≠ 0x3a) (hq : q ≠ 0x3a) :
    removeText (p :: q :: pattern) (x :: 0x3a :: s) = x :: 0x3a :: removeText (p :: q :: pattern) s := by
  have hfirst : (p :: q :: pattern).isPrefixOf (x :: 0x3a :: s) = false := by simp [List.isPrefixOf, hq]
  have hsecond : (p :: q :: pattern).isPrefixOf (0x3a :: s) = false := by simp [List.isPrefixOf, hp]
  simp only [removeText, removeFrom, hfirst, hsecond, Bool.false_eq_true, if_false]

theorem strip_mem {p : ℕ → Bool} {s : PyStr} {c : ℕ} (hc : c ∈ s) : p c = true ∨ c ∈ strip p s := by
  have hdrop : ∀ l : PyStr, c ∈ l → p c = true ∨ c ∈ l.dropWhile p := fun l hl => by
    rw [← List.takeWhile_append_dropWhile (p := p) (l := l), List.mem_append] at hl
    exact hl.imp_left fun h => List.mem_takeWhile_imp h
  rcases hdrop s hc with h | h
  · exact Or.inl h
  · exact (hdrop _ (List.mem_reverse.mpr h)).imp_right List.mem_reverse.mpr

theorem strip_absent {p : ℕ → Bool} {s : PyStr} (h : ∀ c ∈ s, p c = false) : strip p s = s := by
  have hdrop : ∀ l : PyStr, (∀ c ∈ l, p c = false) → l.dropWhile p = l := fun l hl => by
    cases l with
    | nil => rfl
    | cons c l => rw [List.dropWhile_cons, if_neg (by simp [hl c List.mem_cons_self])]
  rw [strip, hdrop s h, hdrop _ fun c hc => h c (List.mem_reverse.mp hc), List.reverse_reverse]

end Removal

section Number

variable (u : Unicode)

/-- The literals of an integer to the base 16, without a minus sign: white space, a plus sign, a prefix, and digits with single
underscores between them. -/
def HexLiteral (s : PyStr) : Prop :=
  ∃ before sign base digits after : PyStr, s.map (toAscii u) = before ++ (sign ++ (base ++ (digits ++ after))) ∧
    before.all isSpace = true ∧ sign ∈ [[], text "+"] ∧ base ∈ [[], text "0x", text "0X", text "0x_", text "0X_"] ∧
    digits ≠ [] ∧ digits.all isDigitOrUnderscore = true ∧ wellSpaced digits = true ∧ after.all isSpace = true

theorem toAscii_minus {c : ℕ} (h : toAscii u c = 0x2d) : c = 0x2d := by
  unfold toAscii at h
  split at h
  · exact h
  · split at h
    · cases h
    · split at h
      · omega
      · cases h

theorem toAscii_ascii {c : ℕ} (h : c < 0x80) : toAscii u c = c := if_pos h

/-- What stands before the digits is one of the five prefixes. -/
theorem afterPrefix_eq (s : PyStr) :
    ∃ base ∈ [[], text "0x", text "0X", text "0x_", text "0X_"], s = base ++ afterPrefix s := by
  unfold afterPrefix
  split
  case h_1 x rest =>
    split
    case isTrue hx =>
      cases rest with
      | nil =>
        rcases hx with rfl | rfl
        · exact ⟨text "0x", by simp, rfl⟩
        · exact ⟨text "0X", by simp, rfl⟩
      | cons r rest =>
        by_cases hr : r = 0x5f
        · subst hr
          rcases hx with rfl | rfl
          · exact ⟨text "0x_", by simp, rfl⟩
          · exact ⟨text "0X_", by simp, rfl⟩
        · rw [if_neg (by simpa using hr)]
          rcases hx with rfl | rfl
          · exact ⟨text "0x", by simp, rfl⟩
          · exact ⟨text "0X", by simp, rfl⟩
    case isFalse => exact ⟨[], by simp, rfl⟩
  case h_2 => exact ⟨[], by simp, rfl⟩

theorem isDigitOrUnderscore_iff {c : ℕ} : isDigitOrUnderscore c = true ↔
    (0x30 ≤ c ∧ c ≤ 0x39) ∨ (0x41 ≤ c ∧ c ≤ 0x46) ∨ (0x61 ≤ c ∧ c ≤ 0x66) ∨ c = 0x5f := by
  unfold isDigitOrUnderscore hexDigit
  split_ifs <;> simp <;> omega

theorem isSpace_iff {c : ℕ} : isSpace c = true ↔ c = 0x20 ∨ (0x09 ≤ c ∧ c ≤ 0x0d) := by
  simp [isSpace]

/-- A list whose first element does not meet `p` loses nothing. -/
theorem dropWhile_head {p : ℕ → Bool} {s : PyStr} (h : ∀ c, s.head? = some c → p c = false) : s.dropWhile p = s := by
  cases s with
  | nil => rfl
  | cons c s => rw [List.dropWhile_cons, if_neg (by simp [h c rfl])]

variable {digits after : PyStr} (hne : digits ≠ []) (hdigits : digits.all isDigitOrUnderscore = true)
variable (hspaced : wellSpaced digits = true) (hafter : after.all isSpace = true)

include hafter in
theorem after_not_digit {c : ℕ} (h : after.head? = some c) : isDigitOrUnderscore c = false := by
  have hspace := isSpace_iff.mp (List.all_eq_true.mp hafter c (List.mem_of_head? h))
  by_contra hdigit
  have := isDigitOrUnderscore_iff.mp (by simpa using hdigit)
  omega

include hdigits hafter in
/-- The digits end where the white space begins. -/
theorem digits_span : (digits ++ after).takeWhile isDigitOrUnderscore = digits ∧
    (digits ++ after).dropWhile isDigitOrUnderscore = after := by
  have hall : ∀ c ∈ digits, isDigitOrUnderscore c = true := List.all_eq_true.mp hdigits
  rw [List.takeWhile_append_of_pos hall, List.dropWhile_append_of_pos hall]
  have hdrop := dropWhile_head fun c hc => after_not_digit hafter hc
  have htake : after.takeWhile isDigitOrUnderscore = [] := by
    cases hafter' : after with
    | nil => rfl
    | cons c rest => rw [List.takeWhile_cons, if_neg (by simp [after_not_digit hafter (by rw [hafter']; rfl)])]
  rw [htake, hdrop, List.append_nil]
  exact ⟨rfl, rfl⟩

include hne hdigits hspaced in
/-- The first digit. -/
theorem digits_head : ∃ c rest, digits = c :: rest ∧ isDigitOrUnderscore c = true ∧ c ≠ 0x5f := by
  cases digits with
  | nil => exact absurd rfl hne
  | cons c rest =>
    refine ⟨c, rest, rfl, List.all_eq_true.mp hdigits c List.mem_cons_self, ?_⟩
    rintro rfl
    simp [wellSpaced] at hspaced

include hne hdigits hspaced hafter in
theorem afterPrefix_base {base : PyStr} (hbase : base ∈ [[], text "0x", text "0X", text "0x_", text "0X_"]) :
    afterPrefix (base ++ (digits ++ after)) = digits ++ after := by
  obtain ⟨c, rest, rfl, hc, hunderscore⟩ := digits_head hne hdigits hspaced
  simp only [List.mem_cons, List.not_mem_nil, or_false] at hbase
  rcases hbase with rfl | rfl | rfl | rfl | rfl
  · -- the second character is no `x`: it is a digit, an underscore or white space
    rw [List.nil_append]
    unfold afterPrefix
    split
    case h_1 x tail heq =>
      rw [if_neg]
      intro hx
      rw [List.cons_append] at heq
      obtain ⟨rfl, htail⟩ := List.cons.inj heq
      cases rest with
      | nil =>
        have hspace := isSpace_iff.mp (List.all_eq_true.mp hafter x (List.mem_of_head? (by rw [List.nil_append] at htail; rw [htail]; rfl)))
        omega
      | cons d rest =>
        obtain ⟨rfl, -⟩ := List.cons.inj htail
        have := isDigitOrUnderscore_iff.mp (List.all_eq_true.mp hdigits d (by simp))
        omega
    case h_2 => rfl
  · show (if (c :: (rest ++ after)).head? = some 0x5f then _ else _) = _
    rw [if_neg (by simpa using hunderscore)]
    rfl
  · show (if (c :: (rest ++ after)).head? = some 0x5f then _ else _) = _
    rw [if_neg (by simpa using hunderscore)]
    rfl
  · rfl
  · rfl

include hne hdigits hspaced in
theorem base_head {base : PyStr} (hbase : base ∈ [[], text "0x", text "0X", text "0x_", text "0X_"]) (after : PyStr) :
    ∃ c, (base ++ (digits ++ after)).head? = some c ∧ isDigitOrUnderscore c = true := by
  obtain ⟨c, rest, rfl, hc, -⟩ := digits_head hne hdigits hspaced
  simp only [List.mem_cons, List.not_mem_nil, or_false] at hbase
  rcases hbase with rfl | rfl | rfl | rfl | rfl
  · exact ⟨c, rfl, hc⟩
  all_goals exact ⟨0x30, rfl, rfl⟩

/-- The host's parser reads exactly the literals. -/
theorem pyIntHex_isSome {s : PyStr} (hminus : 0x2d ∉ s) : (pyIntHex u s).isSome = true ↔ HexLiteral u s := by
  have hplain : 0x2d ∉ s.map (toAscii u) := by
    rw [List.mem_map]
    rintro ⟨c, hc, h⟩
    exact hminus (toAscii_minus u h ▸ hc)
  have hhead : ∀ t : PyStr, 0x2d ∉ t → t.head? ≠ some 0x2d := fun t ht h => ht (List.mem_of_head? h)
  constructor
  · intro h
    generalize hmap : s.map (toAscii u) = t at *
    have hrest : t = t.takeWhile isSpace ++ t.dropWhile isSpace := List.takeWhile_append_dropWhile.symm
    have hminus' : 0x2d ∉ t.dropWhile isSpace := fun h => hplain ((List.dropWhile_sublist _).subset h)
    simp only [pyIntHex, hmap] at h
    generalize t.dropWhile isSpace = r at *
    have hsign : ∃ sign ∈ [[], text "+"], r = sign ++ (if r.head? = some 0x2b ∨ r.head? = some 0x2d then r.tail else r) := by
      by_cases hplus : r.head? = some 0x2b
      · refine ⟨text "+", by simp, ?_⟩
        rw [if_pos (Or.inl hplus)]
        exact (List.cons_head?_tail hplus).symm
      · refine ⟨[], by simp, ?_⟩
        rw [if_neg (not_or.mpr ⟨hplus, hhead r hminus'⟩), List.nil_append]
    obtain ⟨sign, hsign, hunsigned⟩ := hsign
    generalize (if r.head? = some 0x2b ∨ r.head? = some 0x2d then r.tail else r) = unsigned at *
    obtain ⟨base, hbase, hafter⟩ := afterPrefix_eq unsigned
    generalize afterPrefix unsigned = body at *
    split at h
    case isTrue => cases h
    case isFalse hok =>
      simp only [not_or, Bool.not_eq_true', Bool.not_eq_false] at hok
      refine ⟨t.takeWhile isSpace, sign, base, body.takeWhile isDigitOrUnderscore, body.dropWhile isDigitOrUnderscore, ?_,
        List.all_takeWhile, hsign, hbase, hok.1, List.all_takeWhile, hok.2.1, hok.2.2⟩
      rw [List.takeWhile_append_dropWhile, ← hafter, ← hunsigned, hmap]
      exact hrest
  · rintro ⟨before, sign, base, digits, after, hs, hbefore, hsign, hbase, hne, hdigits, hspaced, hafter⟩
    have hprefix := afterPrefix_base hne hdigits hspaced hafter hbase
    obtain ⟨htake, hdrop⟩ := digits_span hdigits hafter
    obtain ⟨c, hc, hhex⟩ := base_head hne hdigits hspaced hbase after
    have hstart : (sign ++ (base ++ (digits ++ after))).dropWhile isSpace = sign ++ (base ++ (digits ++ after)) := by
      apply dropWhile_head
      intro x hx
      by_contra hspace
      have hspace := isSpace_iff.mp (by simpa using hspace)
      simp only [List.mem_cons, List.not_mem_nil, or_false] at hsign
      rcases hsign with rfl | rfl
      · rw [List.nil_append, hc] at hx
        cases hx
        have := isDigitOrUnderscore_iff.mp hhex
        omega
      · have hplus : 0x2b = x := Option.some.inj hx
        omega
    have hunsigned : (if (sign ++ (base ++ (digits ++ after))).head? = some 0x2b ∨
        (sign ++ (base ++ (digits ++ after))).head? = some 0x2d then (sign ++ (base ++ (digits ++ after))).tail
        else sign ++ (base ++ (digits ++ after))) = base ++ (digits ++ after) := by
      simp only [List.mem_cons, List.not_mem_nil, or_false] at hsign
      rcases hsign with rfl | rfl
      · rw [List.nil_append, hc, if_neg]
        have := isDigitOrUnderscore_iff.mp hhex
        simp only [Option.some.injEq]
        omega
      · exact if_pos (Or.inl rfl)
    simp only [pyIntHex, hs, List.dropWhile_append_of_pos (List.all_eq_true.mp hbefore), hstart, hunsigned, hprefix, htake, hdrop]
    rw [if_neg (by simp [hne, hspaced, hafter])]
    split <;> rfl

theorem hexDigit_lt {c d : ℕ} (h : hexDigit c = some d) : d < 16 := by
  unfold hexDigit at h
  split_ifs at h <;> cases h <;> omega

theorem hexValue_lt (s : PyStr) : hexValue s < 16 ^ s.length := by
  induction s using List.reverseRecOn with
  | nil => decide
  | append_singleton s c ih =>
    have hstep : hexValue (s ++ [c]) ≤ hexValue s * 16 + 15 := by
      rw [hexValue, List.foldl_append, List.foldl_cons, List.foldl_nil]
      cases hd : hexDigit c with
      | none => exact (Nat.le_mul_of_pos_right _ (by decide)).trans (Nat.le_add_right _ _)
      | some d => exact Nat.add_le_add_left (Nat.le_of_lt_succ (hexDigit_lt hd)) _
    rw [List.length_append, List.length_singleton, pow_succ]
    omega

/-- A literal without a minus sign is not negative, and has no more digits than characters. -/
theorem pyIntHex_bound {s : PyStr} {n : ℤ} (hminus : 0x2d ∉ s) (h : pyIntHex u s = some n) : 0 ≤ n ∧ n < 16 ^ s.length := by
  have hplain : 0x2d ∉ (s.map (toAscii u)).dropWhile isSpace := by
    intro hmem
    obtain ⟨c, hc, heq⟩ := List.mem_map.mp ((List.dropWhile_sublist _).subset hmem)
    exact hminus (toAscii_minus u heq ▸ hc)
  have hlength : ((s.map (toAscii u)).dropWhile isSpace).length ≤ s.length := by
    simpa using (List.dropWhile_sublist (l := s.map (toAscii u)) isSpace).length_le
  simp only [pyIntHex] at h
  generalize (s.map (toAscii u)).dropWhile isSpace = r at *
  have hpositive : r.head? ≠ some 0x2d := fun h => hplain (List.mem_of_head? h)
  have hunsigned : (if r.head? = some 0x2b ∨ r.head? = some 0x2d then r.tail else r).length ≤ r.length := by
    split
    · simp
    · exact le_rfl
  generalize (if r.head? = some 0x2b ∨ r.head? = some 0x2d then r.tail else r) = unsigned at *
  obtain ⟨base, -, hbase⟩ := afterPrefix_eq unsigned
  have hbody : (afterPrefix unsigned).length ≤ unsigned.length := by
    have := congrArg List.length hbase
    rw [List.length_append] at this
    omega
  split at h
  case isTrue => cases h
  case isFalse =>
    obtain rfl := Option.some.inj h
    have hvalue := hexValue_lt ((afterPrefix unsigned).takeWhile isDigitOrUnderscore)
    have hdigits := (List.takeWhile_sublist (l := afterPrefix unsigned) isDigitOrUnderscore).length_le
    have hpow := Nat.pow_le_pow_right (n := 16) (by decide) (hdigits.trans (hbody.trans (hunsigned.trans hlength)))
    refine ⟨Int.natCast_nonneg _, ?_⟩
    exact_mod_cast hvalue.trans_le hpow

end Number

section Accepted

variable (u : Unicode)

/-- The strings that pass the `uuid` format: four hyphens in their places, and a literal of 32 characters once the texts
`urn:` and `uuid:`, the braces around and all hyphens are taken away. -/
def AcceptedId (s : PyStr) : Prop :=
  (∀ position ∈ [8, 13, 18, 23], s[position]? = some 0x2d) ∧ (uuidHex s).length = 32 ∧ HexLiteral u (uuidHex s)

/-- The identifiers of the Device. -/
def DeviceUuid (s : PyStr) : Prop := ∃ b : Bytes, isValidUuid b = true ∧ s = b.map UInt8.toNat

theorem uuidHex_minus (s : PyStr) : 0x2d ∉ uuidHex s := by
  intro h
  simpa using (List.mem_filter.mp h).2

theorem uuidParse_isSome (s : PyStr) : uuidParse u s ≠ none ↔ (uuidHex s).length = 32 ∧ HexLiteral u (uuidHex s) := by
  rw [← pyIntHex_isSome u (uuidHex_minus s), uuidParse]
  by_cases hlength : (uuidHex s).length = 32
  · rw [if_neg (not_not.mpr hlength)]
    cases hn : pyIntHex u (uuidHex s) with
    | none => simp
    | some n =>
      have hbound := pyIntHex_bound u (uuidHex_minus s) hn
      rw [hlength] at hbound
      simp only [Option.filter_some, hlength, Option.isSome_some, and_self, iff_true]
      rw [if_pos (by simp only [decide_eq_true_eq]; omega)]
      simp
  · simp [hlength]

theorem validateFormat_uuid (s path : PyStr) : validateFormat u s (text "uuid") path = .ok () ↔ AcceptedId u s := by
  have hparse := uuidParse_isSome u s
  rw [validateFormat, if_pos rfl, AcceptedId]
  by_cases hnone : uuidParse u s = none
  · rw [if_pos hnone]
    constructor
    · intro h
      cases h
    · rintro ⟨-, haccepted⟩
      exact absurd hnone (hparse.mpr haccepted)
  · rw [if_neg hnone]
    constructor
    · intro h
      split at h
      case isTrue hall => exact ⟨fun position hp => by simpa using List.all_eq_true.mp hall position hp, hparse.mp hnone⟩
      case isFalse => cases h
    · rintro ⟨hpositions, -⟩
      rw [if_pos]
      exact List.all_eq_true.mpr fun position hp => by simpa using hpositions position hp

end Accepted

section Canonical

variable (u : Unicode)

theorem hexDigit_isSome {c : ℕ} : (hexDigit c).isSome = true ↔
    (0x30 ≤ c ∧ c ≤ 0x39) ∨ (0x41 ≤ c ∧ c ≤ 0x46) ∨ (0x61 ≤ c ∧ c ≤ 0x66) := by
  unfold hexDigit
  split_ifs <;> simp <;> omega

/-- The places of the hyphens. -/
def hyphenPlaces : Finset ℕ := {8, 13, 18, 23}

/-- What the Device accepts, by places. -/
theorem deviceUuid_iff (s : PyStr) : DeviceUuid s ↔ s.length = 36 ∧
    ∀ i c, s[i]? = some c → if i ∈ hyphenPlaces then c = 0x2d else (hexDigit c).isSome = true := by
  have hplace : ∀ i, i ∈ hyphenPlaces ↔ i = 8 ∨ i = 13 ∨ i = 18 ∨ i = 23 := fun i => by simp [hyphenPlaces]
  constructor
  · rintro ⟨b, hb, rfl⟩
    simp only [isValidUuid, Bool.and_eq_true, decide_eq_true_eq, List.all_eq_true, List.mem_range] at hb
    obtain ⟨hlength, hall⟩ := hb
    refine ⟨by simpa using hlength, fun i c hc => ?_⟩
    obtain ⟨x, hx, rfl⟩ : ∃ x, b[i]? = some x ∧ x.toNat = c := by simpa using hc
    have hi : i < 36 := hlength ▸ (List.getElem?_eq_some_iff.mp hx).1
    have hat : at' b i = x := by simp [at', hx]
    have hplaced := hall i hi
    rw [hat] at hplaced
    by_cases hp : i = 8 ∨ i = 13 ∨ i = 18 ∨ i = 23
    · rw [if_pos hp, decide_eq_true_eq] at hplaced
      rw [if_pos ((hplace i).mpr hp), hplaced]
      rfl
    · rw [if_neg hp] at hplaced
      rw [if_neg fun h => hp ((hplace i).mp h), hexDigit_isSome]
      have := (isHex_iff x).mp hplaced
      omega
  · rintro ⟨hlength, hall⟩
    have hsmall : ∀ c ∈ s, c < 0x80 := by
      intro c hc
      obtain ⟨i, hi⟩ := List.mem_iff_getElem?.mp hc
      have hplaced := hall i c hi
      split at hplaced
      · omega
      · have := hexDigit_isSome.mp hplaced
        omega
    have hbyte : ∀ c ∈ s, c.toUInt8.toNat = c := fun c hc => Nat.mod_eq_of_lt ((hsmall c hc).trans (by decide))
    refine ⟨s.map Nat.toUInt8, ?_, ?_⟩
    · simp only [isValidUuid, Bool.and_eq_true, decide_eq_true_eq, List.all_eq_true, List.mem_range, List.length_map]
      refine ⟨hlength, fun i hi => ?_⟩
      have hget : s[i]? = some s[i] := List.getElem?_eq_getElem (by omega)
      have hat : at' (s.map Nat.toUInt8) i = s[i].toUInt8 := by simp [at', hget]
      have hplaced := hall i s[i] hget
      have hnat := hbyte s[i] (List.getElem_mem _)
      rw [hat]
      by_cases hp : i = 8 ∨ i = 13 ∨ i = 18 ∨ i = 23
      · rw [if_pos ((hplace i).mpr hp)] at hplaced
        rw [if_pos hp, hplaced]
        rfl
      · rw [if_neg fun h => hp ((hplace i).mp h), hexDigit_isSome] at hplaced
        rw [if_neg hp, isHex_iff, hnat]
        omega
    · rw [List.map_map]
      conv_lhs => rw [← List.map_id s]
      exact List.map_congr_left fun c hc => (hbyte c hc).symm

/-- How often a character occurs is at how many places it stands. -/
theorem count_places (s : PyStr) (c : ℕ) : s.count c = ((Finset.range s.length).filter fun i => s[i]? = some c).card := by
  induction s using List.reverseRecOn with
  | nil => rfl
  | append_singleton s x ih =>
    have hold : ((Finset.range s.length).filter fun i => (s ++ [x])[i]? = some c) =
        (Finset.range s.length).filter fun i => s[i]? = some c := by
      apply Finset.filter_congr
      intro i hi
      rw [List.getElem?_append_left (Finset.mem_range.mp hi)]
    rw [List.length_append, List.length_singleton, Finset.range_add_one, Finset.filter_insert, hold, List.count_append, ih]
    by_cases hx : x = c
    · rw [if_pos (by simp [hx]), Finset.card_insert_of_notMem (by simp), hx, List.count_singleton_self]
    · rw [if_neg (by simpa using hx), List.count_singleton, if_neg (by simpa using hx), add_zero]

/-- The hyphens of 36 characters, four of which are in their places. -/
theorem hyphens_only {s : PyStr} (hplaces : ∀ i ∈ hyphenPlaces, s[i]? = some 0x2d) :
    s.count 0x2d = 4 ↔ ∀ i, s[i]? = some 0x2d → i ∈ hyphenPlaces := by
  have hsub : hyphenPlaces ⊆ (Finset.range s.length).filter fun i => s[i]? = some 0x2d := by
    intro i hi
    rw [Finset.mem_filter, Finset.mem_range]
    exact ⟨(List.getElem?_eq_some_iff.mp (hplaces i hi)).1, hplaces i hi⟩
  have hcard : hyphenPlaces.card = 4 := rfl
  rw [count_places]
  constructor
  · intro hcount i hi
    rw [Finset.eq_of_subset_of_card_le hsub (by omega), Finset.mem_filter, Finset.mem_range]
    exact ⟨(List.getElem?_eq_some_iff.mp hi).1, hi⟩
  · intro hall
    rw [← hcard]
    congr 1
    exact Finset.Subset.antisymm (fun i hi => hall i (Finset.mem_filter.mp hi).2) hsub

/-- Of a string without texts and braces only the hyphens are taken away. -/
theorem uuidHex_plain {s : PyStr} (h : ∀ c ∈ s, (hexDigit c).isSome = true ∨ c = 0x2d) :
    uuidHex s = s.filter (· ≠ 0x2d) := by
  have hcolon : 0x3a ∉ s := by
    intro hc
    have := h _ hc
    rw [hexDigit_isSome] at this
    omega
  have hbrace : ∀ c ∈ s, isBrace c = false := by
    intro c hc
    have := h c hc
    rw [hexDigit_isSome] at this
    simp only [isBrace, Bool.or_eq_false_iff, decide_eq_false_iff_not]
    omega
  rw [uuidHex, removeText_absent (c := 0x3a) (by simp [text]) hcolon, removeText_absent (c := 0x3a) (by simp [text]) hcolon,
    strip_absent hbrace]

theorem filter_length (s : PyStr) : (s.filter (· ≠ 0x2d)).length + s.count 0x2d = s.length := by
  have h := List.length_eq_countP_add_countP (fun c => decide (c ≠ 0x2d)) (l := s)
  rw [List.countP_eq_length_filter] at h
  rw [h, List.count_eq_countP]
  congr 2
  funext c
  by_cases hc : c = 0x2d <;> simp [hc]

/-- The strings of the Device pass. -/
theorem deviceUuid_accepted {s : PyStr} (h : DeviceUuid s) : AcceptedId u s := by
  obtain ⟨hlength, hall⟩ := (deviceUuid_iff s).mp h
  have hplaces : ∀ i ∈ hyphenPlaces, s[i]? = some 0x2d := by
    intro i hi
    have hlt : i < s.length := by
      simp only [hyphenPlaces, Finset.mem_insert, Finset.mem_singleton] at hi
      omega
    have hget : s[i]? = some s[i] := List.getElem?_eq_getElem hlt
    have hplaced := hall i _ hget
    rw [if_pos hi] at hplaced
    rw [hget, hplaced]
  have hchars : ∀ c ∈ s, (hexDigit c).isSome = true ∨ c = 0x2d := by
    intro c hc
    obtain ⟨i, hi⟩ := List.mem_iff_getElem?.mp hc
    have hplaced := hall i c hi
    split at hplaced
    · exact Or.inr hplaced
    · exact Or.inl hplaced
  have honly : ∀ i, s[i]? = some 0x2d → i ∈ hyphenPlaces := by
    intro i hi
    by_contra hp
    have hplaced := hall i _ hi
    rw [if_neg hp] at hplaced
    cases hplaced
  have hcount := (hyphens_only hplaces).mpr honly
  have hfilter := filter_length s
  have hdigits : ∀ c ∈ s.filter (· ≠ 0x2d), (hexDigit c).isSome = true := by
    intro c hc
    rw [List.mem_filter, decide_eq_true_eq] at hc
    exact (hchars c hc.1).resolve_right hc.2
  rw [AcceptedId, uuidHex_plain hchars]
  generalize hhex : s.filter (· ≠ 0x2d) = hex at *
  refine ⟨fun i hi => hplaces i (by simpa [hyphenPlaces] using hi), by omega, [], [], [], hex, [], ?_, rfl, by simp, by simp, ?_, ?_,
    ?_, rfl⟩
  · rw [List.nil_append, List.nil_append, List.nil_append, List.append_nil]
    conv_rhs => rw [← List.map_id hex]
    apply List.map_congr_left
    intro c hc
    have := hexDigit_isSome.mp (hdigits c hc)
    exact toAscii_ascii u (by omega)
  · intro hnil
    simp [hnil] at hfilter
    omega
  · rw [List.all_eq_true]
    intro c hc
    simp [isDigitOrUnderscore, hdigits c hc]
  · have hunder : 0x5f ∉ hex := fun hc => by simpa [hexDigit] using hdigits _ hc
    simp only [wellSpaced, Bool.and_eq_true, decide_eq_true_eq, Bool.not_eq_true', List.contains_eq_mem, decide_eq_false_iff_not]
    refine ⟨⟨fun hc => hunder (List.mem_of_head? hc), fun hc => hunder (List.mem_of_getLast? hc)⟩, fun hc => ?_⟩
    exact hunder (List.of_mem_zip hc).1

/-- A string that passes is one of the Device exactly when it has 36 characters, each a hexadecimal digit or a hyphen. -/
theorem accepted_deviceUuid {s : PyStr} (h : AcceptedId u s) :
    DeviceUuid s ↔ s.length = 36 ∧ ∀ c ∈ s, (hexDigit c).isSome = true ∨ c = 0x2d := by
  obtain ⟨hpositions, hlength, -⟩ := h
  rw [deviceUuid_iff]
  constructor
  · rintro ⟨hlen, hall⟩
    refine ⟨hlen, fun c hc => ?_⟩
    obtain ⟨i, hi⟩ := List.mem_iff_getElem?.mp hc
    have hplaced := hall i c hi
    split at hplaced
    · exact Or.inr hplaced
    · exact Or.inl hplaced
  · rintro ⟨hlen, hchars⟩
    refine ⟨hlen, fun i c hi => ?_⟩
    have hplaces : ∀ i ∈ hyphenPlaces, s[i]? = some 0x2d := fun i hi => hpositions i (by simpa [hyphenPlaces] using hi)
    rw [uuidHex_plain hchars] at hlength
    have hcount : s.count 0x2d = 4 := by
      have := filter_length s
      omega
    split
    case isTrue hp => exact Option.some.inj (hi.symm.trans (hplaces i hp))
    case isFalse hp =>
      apply (hchars c (List.mem_of_getElem? hi)).resolve_right
      rintro rfl
      exact hp ((hyphens_only hplaces).mp hcount i hi)

end Canonical

section Leaf

variable (u : Unicode)

/-- A character that an accepted identifier may hold: none of them separates paths. -/
def idChar (c : ℕ) : Prop := c ≠ 0 ∧ c ≠ 0x2e ∧ c ≠ 0x2f ∧ c ≠ 0x5c

theorem literal_char {s : PyStr} (h : HexLiteral u s) {c : ℕ} (hc : c ∈ s) : idChar c ∧ c ≠ 0x3a := by
  obtain ⟨before, sign, base, digits, after, hs, hbefore, hsign, hbase, -, hdigits, -, hafter⟩ := h
  by_cases hascii : c < 0x80
  · have hmem : c ∈ before ++ (sign ++ (base ++ (digits ++ after))) := by
      rw [← hs, List.mem_map]
      exact ⟨c, hc, toAscii_ascii u hascii⟩
    have hspace : ∀ l : PyStr, l.all isSpace = true → c ∈ l → idChar c ∧ c ≠ 0x3a := fun l hl hcl => by
      have := isSpace_iff.mp (List.all_eq_true.mp hl c hcl)
      unfold idChar
      omega
    have htext : ∀ l : PyStr, (∀ x ∈ l, x = 0x2b ∨ x = 0x30 ∨ x = 0x78 ∨ x = 0x58 ∨ x = 0x5f) → c ∈ l → idChar c ∧ c ≠ 0x3a :=
      fun l hl hcl => by
        have := hl c hcl
        unfold idChar
        omega
    simp only [List.mem_append] at hmem
    rcases hmem with hmem | hmem | hmem | hmem | hmem
    · exact hspace before hbefore hmem
    · apply htext sign _ hmem
      simp only [List.mem_cons, List.not_mem_nil, or_false] at hsign
      rcases hsign with rfl | rfl <;> simp [text]
    · apply htext base _ hmem
      simp only [List.mem_cons, List.not_mem_nil, or_false] at hbase
      rcases hbase with rfl | rfl | rfl | rfl | rfl <;> simp [text]
    · have := isDigitOrUnderscore_iff.mp (List.all_eq_true.mp hdigits c hmem)
      unfold idChar
      omega
    · exact hspace after hafter hmem
  · unfold idChar
    omega

/-- No character of an accepted identifier separates paths. -/
theorem accepted_char {s : PyStr} (h : AcceptedId u s) {c : ℕ} (hc : c ∈ s) : idChar c := by
  have hurn : text "urn:" ≠ [] := by simp [text]
  rcases removeText_mem hurn hc with hc | hc
  · simp [text] at hc
    unfold idChar
    omega
  · have huuid : text "uuid:" ≠ [] := by simp [text]
    rcases removeText_mem huuid hc with hc | hc
    · simp [text] at hc
      unfold idChar
      omega
    · rcases strip_mem (p := isBrace) hc with hc | hc
      · simp [isBrace] at hc
        unfold idChar
        omega
      · by_cases hminus : c = 0x2d
        · unfold idChar
          omega
        · exact (literal_char u h.2.2 (List.mem_filter.mpr ⟨hc, by simpa using hminus⟩)).1

/-- An accepted identifier does not begin with a drive. -/
theorem accepted_drive {s : PyStr} (h : AcceptedId u s) : s[1]? ≠ some 0x3a := by
  intro hcolon
  obtain ⟨x, rest, rfl⟩ : ∃ x rest, s = x :: 0x3a :: rest := by
    match s, hcolon with
    | x :: y :: rest, hcolon => exact ⟨x, rest, by simpa using hcolon⟩
  have hurn : removeText (text "urn:") (x :: 0x3a :: rest) = x :: 0x3a :: removeText (text "urn:") rest :=
    removeText_colon (by decide) (by decide)
  have huuid : ∀ rest, removeText (text "uuid:") (x :: 0x3a :: rest) = x :: 0x3a :: removeText (text "uuid:") rest :=
    fun rest => removeText_colon (by decide) (by decide)
  have hmem : 0x3a ∈ uuidHex (x :: 0x3a :: rest) := by
    rw [uuidHex, hurn, huuid, List.mem_filter]
    refine ⟨?_, by decide⟩
    apply (strip_mem _).resolve_left
    · decide
    · simp
  exact (literal_char u h.2.2 hmem).2 rfl

end Leaf

section Target

def isSeparator (c : ℕ) : Bool := c = 0x2f || c = 0x5c

/-- The parts of a path text: what stands between separators, without empty parts and single dots. -/
def pathParts (s : PyStr) : List PyStr := (s.splitOnP isSeparator).filter fun part => part ≠ [] ∧ part ≠ text "."

/-- `path / s`; a text that begins at a root or with a drive starts over. -/
def joinPath (path : List PyStr) (s : PyStr) : List PyStr :=
  if (s.head?.map isSeparator).getD false ∨ s[1]? = some 0x3a then pathParts s else path ++ pathParts s

def paddedText (n k : ℕ) : PyStr := (PcSync.padded n k).map UInt8.toNat

/-- `_target_path`; `none` where it raises. -/
def targetPath (u : Unicode) (libraryRoot : List PyStr) (startedAt recordingId : PyStr) : Option (List PyStr) :=
  match rfc3339Groups u startedAt with
  | none => none
  | some (year, month, day) =>
    if year = 0 ∨ ¬ (1 ≤ day ∧ day ≤ Calendar.monthDays year month) then none
    else
      some (joinPath (joinPath (joinPath (joinPath (joinPath libraryRoot (paddedText 4 year)) (paddedText 2 month))
        (paddedText 2 day)) (text "raw")) (recordingId ++ text ".wav"))

/-- A text without separators that is not a dot and begins with no drive is one part. -/
theorem joinPath_single (path : List PyStr) {s : PyStr} (hne : s ≠ []) (hdot : s ≠ text ".")
    (hsep : ∀ c ∈ s, isSeparator c = false) (hdrive : s[1]? ≠ some 0x3a) : joinPath path s = path ++ [s] := by
  have hparts : pathParts s = [s] := by
    rw [pathParts, List.splitOnP_eq_singleton hsep]
    simp [hne, hdot]
  have hhead : (s.head?.map isSeparator).getD false = false := by
    cases s with
    | nil => rfl
    | cons c s => exact hsep c List.mem_cons_self
  rw [joinPath, if_neg (by simp [hhead, hdrive]), hparts]

theorem paddedText_digit {n k c : ℕ} (hc : c ∈ paddedText n k) : 0x30 ≤ c ∧ c ≤ 0x39 := by
  obtain ⟨b, hb, rfl⟩ := List.mem_map.mp hc
  rw [PcSync.padded, List.mem_append] at hb
  rcases hb with hb | hb
  · rw [List.eq_of_mem_replicate hb]
    decide
  · exact (isDigit_iff b).mp (dec_digits b hb)

theorem paddedText_length {n k : ℕ} (hn : 0 < n) (hk : k < 10 ^ n) : (paddedText n k).length = n := by
  have := dec_length_le hn hk
  rw [paddedText, List.length_map, PcSync.padded, List.length_append, List.length_replicate]
  omega

theorem joinPath_padded (path : List PyStr) {n k : ℕ} (hn : 0 < n) (hk : k < 10 ^ n) :
    joinPath path (paddedText n k) = path ++ [paddedText n k] := by
  have hlength := paddedText_length hn hk
  apply joinPath_single
  · intro hnil
    rw [hnil, List.length_nil] at hlength
    omega
  · intro hdot
    have := paddedText_digit (n := n) (k := k) (c := 0x2e) (by rw [hdot]; simp [text])
    omega
  · intro c hc
    have := paddedText_digit hc
    simp only [isSeparator, Bool.or_eq_false_iff, decide_eq_false_iff_not]
    omega
  · intro hcolon
    have := paddedText_digit (List.mem_of_getElem? hcolon)
    omega

theorem fixedNumber_le {n bound k : ℕ} {s rest : Bytes} (h : PcSync.fixedNumber n bound s = some (k, rest)) : k ≤ bound := by
  rw [PcSync.fixedNumber] at h
  split at h
  case isTrue hok =>
    cases h
    exact hok.2.2
  case isFalse => cases h

theorem rfc3339Date_bounds {value : Bytes} {year month day : ℕ} (h : PcSync.rfc3339Date value = some (year, month, day)) :
    year < 10 ^ 4 ∧ month < 10 ^ 2 ∧ day < 10 ^ 2 := by
  simp only [PcSync.rfc3339Date, Option.bind_eq_bind, Option.bind_eq_some_iff] at h
  obtain ⟨⟨year', s1⟩, hyear, s2, -, ⟨month', s3⟩, hmonth, s4, -, ⟨day', s5⟩, hday, h⟩ := h
  have hgroups : (year', month', day') = (year, month, day) := by
    obtain ⟨s6, -, ⟨hour, s7⟩, -, s8, -, ⟨minute, s9⟩, -, s10, -, ⟨second, s11⟩, -, h⟩ := h
    dsimp only at h
    split at h
    · cases h
    · exact Option.some.inj h
  cases hgroups
  have := fixedNumber_le hyear
  have := fixedNumber_le hmonth
  have := fixedNumber_le hday
  omega

/-- The file of a recording whose identifier is accepted stands in the directory of its date. -/
theorem targetPath_accepted {u : Unicode} {root path : List PyStr} {startedAt id : PyStr} (hid : AcceptedId u id)
    (h : targetPath u root startedAt id = some path) :
    ∃ year month day, path = root ++ [paddedText 4 year, paddedText 2 month, paddedText 2 day, text "raw", id ++ text ".wav"] ∧
      (paddedText 4 year).length = 4 ∧ (paddedText 2 month).length = 2 ∧ (paddedText 2 day).length = 2 := by
  rw [targetPath] at h
  split at h
  case h_1 => cases h
  case h_2 year month day hgroups =>
    split at h
    case isTrue => cases h
    case isFalse =>
      have hbounds : year < 10 ^ 4 ∧ month < 10 ^ 2 ∧ day < 10 ^ 2 := by
        rw [rfc3339Groups] at hgroups
        split at hgroups
        · exact rfc3339Date_bounds hgroups
        · cases hgroups
      have hraw : ∀ path, joinPath path (text "raw") = path ++ [text "raw"] := fun path =>
        joinPath_single path (by simp [text]) (by decide) (by decide) (by decide)
      have hleaf : ∀ path, joinPath path (id ++ text ".wav") = path ++ [id ++ text ".wav"] := fun path => by
        have hlong : 1 < id.length := (List.getElem?_eq_some_iff.mp (hid.1 8 (by simp))).1.trans' (by decide)
        apply joinPath_single
        · simp [text]
        · intro hdot
          have := congrArg List.length hdot
          rw [List.length_append] at this
          simp [text] at this
        · intro c hc
          rcases List.mem_append.mp hc with hc | hc
          · have := accepted_char u hid hc
            unfold idChar at this
            simp only [isSeparator, Bool.or_eq_false_iff, decide_eq_false_iff_not]
            omega
          · simp [text] at hc
            simp only [isSeparator, Bool.or_eq_false_iff, decide_eq_false_iff_not]
            omega
        · rw [List.getElem?_append_left hlong]
          exact accepted_drive u hid
      obtain ⟨hyear, hmonth, hday⟩ := hbounds
      rw [joinPath_padded _ (by decide) hyear, joinPath_padded _ (by decide) hmonth, joinPath_padded _ (by decide) hday, hraw,
        hleaf] at h
      refine ⟨year, month, day, ?_, paddedText_length (by decide) hyear, paddedText_length (by decide) hmonth,
        paddedText_length (by decide) hday⟩
      rw [← Option.some.inj h]
      simp

end Target

section Passes

variable (u : Unicode) (search : PyStr → PyStr → Bool) (defs : List (PyStr × Schema))

/-- The value passes the schema, somewhere in a document. -/
def Passes (value : Json) (schema : Schema) : Prop := ∃ fuel path, validateValue u search defs fuel value schema path = .ok ()

variable {u search defs}

theorem bind_ok {ε α : Type} {x : Except ε Unit} {f : Unit → Except ε α} {a : α} (h : x >>= f = .ok a) :
    x = .ok () ∧ f () = .ok a := by
  cases x with
  | error e => cases h
  | ok r => exact ⟨rfl, h⟩

theorem allOk_mem {ε α : Type} {check : α → Except ε Unit} {xs : List α} (h : allOk check xs = .ok ()) {x : α} (hx : x ∈ xs) :
    check x = .ok () := by
  induction xs with
  | nil => cases hx
  | cons y ys ih =>
    obtain ⟨hy, hys⟩ := bind_ok h
    rcases List.mem_cons.mp hx with rfl | hx
    · exact hy
    · exact ih hys hx

theorem check_ok {ok : Bool} {path : PyStr} {keyword : String} (h : check ok path keyword = .ok ()) : ok = true := by
  cases ok with
  | true => rfl
  | false => cases h

/-- What a value meets that passes: the definition it refers to, its own keywords, and those of its children. -/
structure Meets (u : Unicode) (search : PyStr → PyStr → Bool) (defs : List (PyStr × Schema)) (value : Json) (schema : Schema) :
    Prop where
  ref : ∀ name, schema.ref = some name → ∃ target, defs.lookup name = some target ∧ Passes u search defs value target
  scalar : ∃ path, validateScalar u search value path schema = .ok ()
  required : ∀ fields, value = .dict fields → ∀ name ∈ schema.required, (fields.lookup name).isSome = true
  properties : ∀ fields, value = .dict fields → ∀ p ∈ schema.properties, ∀ child, fields.lookup p.1 = some child →
    Passes u search defs child p.2
  items : ∀ values, value = .list values → ∀ child, schema.items = some child → ∀ v ∈ values, Passes u search defs v child

theorem passes_meets {value : Json} {schema : Schema} (h : Passes u search defs value schema) : Meets u search defs value schema := by
  obtain ⟨fuel, path, h⟩ := h
  cases fuel with
  | zero => cases h
  | succ fuel =>
    obtain ⟨href, h⟩ := bind_ok h
    obtain ⟨hscalar, h⟩ := bind_ok h
    refine ⟨fun name hname => ?_, ⟨path, hscalar⟩, ?_, ?_, ?_⟩
    · rw [hname, validateRef] at href
      split at href
      case h_1 => cases href
      case h_2 target htarget => exact ⟨target, htarget, fuel, path, href⟩
    · rintro fields rfl name hname
      exact check_ok (allOk_mem (bind_ok h).1 hname)
    · rintro fields rfl p hp child hchild
      have hproperty := allOk_mem (bind_ok h).2 hp
      rw [hchild] at hproperty
      exact ⟨fuel, _, hproperty⟩
    · rintro values rfl child hchild v hv
      obtain ⟨i, hi⟩ := List.mem_iff_getElem?.mp hv
      have hitems : validateItems (validateValue u search defs fuel) values path schema.items = .ok () := h
      rw [hchild] at hitems
      exact ⟨fuel, _, allOk_mem hitems (List.mk_mem_zipIdx_iff_getElem?.mpr hi)⟩

/-- A value that passes an object schema has every required property, which passes its own. -/
theorem passes_object {value : Json} {required : List String} {properties : List (String × Schema)}
    (h : Passes u search defs value (object required properties)) {name : String} {schema : Schema} (hname : name ∈ required)
    (hproperty : (name, schema) ∈ properties) : ∃ child, value.get (text name) = some child ∧ Passes u search defs child schema := by
  have hmeets := passes_meets h
  obtain ⟨path, hscalar⟩ := hmeets.scalar
  have htype := check_ok (bind_ok hscalar).1
  obtain ⟨fields, rfl⟩ : ∃ fields, value = .dict fields := by
    cases value with
    | dict fields => exact ⟨fields, rfl⟩
    | _ => simp [Json.hasType] at htype
  obtain ⟨child, hchild⟩ := Option.isSome_iff_exists.mp (hmeets.required fields rfl (text name) (List.mem_map_of_mem hname))
  exact ⟨child, hchild, hmeets.properties fields rfl (text name, schema) (List.mem_map_of_mem hproperty) child hchild⟩

theorem passes_uuid {value : Json} (h : Passes u search defs value (formatted "uuid")) : ∃ s, value = .str s ∧ AcceptedId u s := by
  obtain ⟨path, hscalar⟩ := (passes_meets h).scalar
  have htype := check_ok (bind_ok hscalar).1
  obtain ⟨s, rfl⟩ : ∃ s, value = .str s := by
    cases value with
    | str s => exact ⟨s, rfl⟩
    | _ => simp [Json.hasType] at htype
  exact ⟨s, rfl, (validateFormat_uuid u s path).mp hscalar⟩

/-- A value that passes an array schema is an array whose elements pass the schema that its items refer to. -/
theorem passes_array {value : Json} {name : String} {target : Schema} (htarget : defs.lookup (text name) = some target)
    (h : Passes u search defs value (.mk none (some .array) none none none none none none [] [] (some (reference name)))) :
    ∃ values, value = .list values ∧ ∀ v ∈ values, Passes u search defs v target := by
  have hmeets := passes_meets h
  obtain ⟨path, hscalar⟩ := hmeets.scalar
  have htype := check_ok (bind_ok hscalar).1
  obtain ⟨values, rfl⟩ : ∃ values, value = .list values := by
    cases value with
    | list values => exact ⟨values, rfl⟩
    | _ => simp [Json.hasType] at htype
  refine ⟨values, rfl, fun v hv => ?_⟩
  obtain ⟨found, hfound, hpasses⟩ := (passes_meets (hmeets.items values rfl _ rfl v hv)).ref _ rfl
  rw [htarget] at hfound
  obtain rfl := Option.some.inj hfound
  exact hpasses

end Passes

section Identifiers

variable (u : Unicode) (search : PyStr → PyStr → Bool)

/-- The identifier of a device or of a recording: a string that passes the format, and is one of the Device exactly when it
has 36 characters, each a hexadecimal digit or a hyphen. -/
def Identified (value : Json) (name : String) (s : PyStr) : Prop :=
  value.get (text name) = some (.str s) ∧ AcceptedId u s ∧
    (DeviceUuid s ↔ s.length = 36 ∧ ∀ c ∈ s, (hexDigit c).isSome = true ∨ c = 0x2d)

theorem identified {defs : List (PyStr × Schema)} {value : Json} {required : List String} {properties : List (String × Schema)}
    (h : Passes u search defs value (object required properties)) {name : String} (hname : name ∈ required)
    (hproperty : (name, formatted "uuid") ∈ properties) : ∃ s, Identified u value name s := by
  obtain ⟨child, hchild, hpasses⟩ := passes_object h hname hproperty
  obtain ⟨s, rfl, haccepted⟩ := passes_uuid hpasses
  exact ⟨s, hchild, haccepted, accepted_deviceUuid u haccepted⟩

/-- The strings that pass the format are those of `AcceptedId`, every identifier that the Device accepts among them. In a
document that passes its schema the identifiers are such strings, and the file of a recording stands in the directory of
its date, under a name that is the identifier with the suffix. -/
theorem contract_identifiers (fuel : ℕ) (document : Json) :
    (∀ s path, validateFormat u s (text "uuid") path = .ok () ↔ AcceptedId u s) ∧ (∀ s, DeviceUuid s → AcceptedId u s) ∧
      (validateContractDocument u search deviceFile fuel document = .ok () → ∃ s, Identified u document "deviceId" s) ∧
      (validateContractDocument u search manifestFile fuel document = .ok () → (∃ s, Identified u document "deviceId" s) ∧
        ∃ recordings, document.get (text "recordings") = some (.list recordings) ∧ ∀ recording ∈ recordings, ∃ id,
          Identified u recording "recordingId" id ∧ ∀ root startedAt path, targetPath u root startedAt id = some path →
            ∃ year month day, path = root ++ [year, month, day, text "raw", id ++ text ".wav"] ∧ (∀ c ∈ id, idChar c) ∧
              year.length = 4 ∧ month.length = 2 ∧ day.length = 2 ∧
              ∀ c ∈ year ++ month ++ day, 0x30 ≤ c ∧ c ≤ 0x39) := by
  refine ⟨validateFormat_uuid u, fun s => deviceUuid_accepted u, fun h => ?_, fun h => ?_⟩
  · exact identified u search ⟨fuel, _, h⟩ (by simp) (.tail _ (.head _))
  · have hpasses : Passes u search manifestFile.defs document manifestFile.root := ⟨fuel, _, h⟩
    refine ⟨identified u search hpasses (by simp) (.tail _ (.head _)), ?_⟩
    have hrequired : "recordings" ∈ ["schemaVersion", "deviceId", "updatedAt", "recordings"] := by simp
    obtain ⟨_, hchild, harray⟩ := passes_object hpasses hrequired (.tail _ (.tail _ (.tail _ (.head _))))
    have htarget : manifestFile.defs.lookup (text "recording") = some recordingSchema := rfl
    obtain ⟨recordings, rfl, hrecordings⟩ := passes_array htarget harray
    refine ⟨recordings, hchild, fun recording hrecording => ?_⟩
    have hid : ∃ id, Identified u recording "recordingId" id :=
      identified u search (hrecordings recording hrecording) (by simp) (.head _)
    obtain ⟨id, hid⟩ := hid
    refine ⟨id, hid, fun root startedAt path hpath => ?_⟩
    obtain ⟨year, month, day, hpath, hyear, hmonth, hday⟩ := targetPath_accepted hid.2.1 hpath
    refine ⟨_, _, _, hpath, fun c => accepted_char u hid.2.1, hyear, hmonth, hday, fun c hc => ?_⟩
    simp only [List.mem_append] at hc
    rcases hc with (hc | hc) | hc <;> exact paddedText_digit hc

section Sample

def sampleRecording (id : String) : Json :=
  .dict [(text "recordingId", .str (text id)), (text "filename", .str (text "recordings/2026-10-03/010203_a.wav")),
    (text "startedAt", .str (text "2026-10-03T01:02:03+09:00")), (text "durationMs", .int 5), (text "sizeBytes", .int 204),
    (text "sha256", .str (List.replicate 64 0x61)), (text "sampleRate", .int 16000), (text "bitDepth", .int 16),
    (text "channels", .int 1), (text "state", .str (text "finalized")), (text "firmwareVersion", .str (text "0.0.0"))]

def sampleManifest (id : String) : Json :=
  .dict [(text "schemaVersion", .int 1), (text "deviceId", .str (text "11111111-1111-4111-8111-111111111111")),
    (text "updatedAt", .str (text "2026-10-03T12:00:00Z")), (text "recordings", .list [sampleRecording id])]

/-- A prefix in the place of two digits passes. -/
theorem contract_prefix : validateContractDocument asciiOnly (fun _ _ => true) manifestFile 9
      (sampleManifest "0x111111-1111-4111-8111-111111111111") = .ok () ∧
    ¬ DeviceUuid (text "0x111111-1111-4111-8111-111111111111") := by
  refine ⟨by decide +kernel, fun h => ?_⟩
  obtain ⟨-, hall⟩ := (deviceUuid_iff _).mp h
  exact absurd (hall 1 0x78 (by decide +kernel)) (by decide)

theorem contract_identifiers_sample : ∃ s, Identified asciiOnly (sampleManifest "22222222-2222-4222-8222-222222222222") "deviceId" s :=
  ((contract_identifiers asciiOnly (fun _ _ => true) 9 (sampleManifest "22222222-2222-4222-8222-222222222222")).2.2.2
    (by decide +kernel)).1

end Sample

end Identifiers

end M5DayLog.Contract
