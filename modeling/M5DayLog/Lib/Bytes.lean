import Mathlib.Data.Nat.Digits.Lemmas
import Mathlib.Data.List.Basic

/-! Byte strings as C code sees them: bounded search, decimal printing, and texts made of quoted words. A
cursor into a buffer is the suffix it points at. The one fact about searching is `memfind_spell`: in a text
whose gaps are not words of their own, a search for a quoted word finds that word and nothing else. -/

abbrev Bytes := List UInt8

namespace Bytes

/-- The bytes of an ASCII literal. Opaque to unification, so that two texts are never compared by unfolding
their literals; closed facts about literals are decided by the kernel. -/
@[irreducible] def lit (s : String) : Bytes := s.toList.map fun c => c.toNat.toUInt8

/-- A literal by its characters, which are not decoded again where the bytes are evaluated. -/
theorem lit_ofList (cs : List Char) : lit (String.ofList cs) = cs.map fun c => c.toNat.toUInt8 := by
  rw [lit, String.toList_ofList]

def quote : UInt8 := 0x22

def slash : UInt8 := 0x2f

def isDigit (c : UInt8) : Bool := 0x30 ≤ c && c ≤ 0x39

/-- First occurrence of `ndl`, as the suffix that starts there. An empty needle is never found. -/
def memfind (ndl : Bytes) : Bytes → Option Bytes
  | [] => none
  | c :: t => if ndl ≠ [] ∧ ndl <+: c :: t then some (c :: t) else memfind ndl t

theorem memfind_nil (ndl : Bytes) : memfind ndl [] = none := rfl

theorem memfind_cons (ndl : Bytes) (c : UInt8) (t : Bytes) :
    memfind ndl (c :: t) = if ndl ≠ [] ∧ ndl <+: c :: t then some (c :: t) else memfind ndl t := rfl

/-- First occurrence of a byte, as the suffix that starts there. The text ends at a NUL. -/
def strchr (c : UInt8) : Bytes → Option Bytes
  | [] => none
  | d :: t => if d = c then some (d :: t) else if d = 0 then none else strchr c t

theorem strchr_cons (c d : UInt8) (t : Bytes) :
    strchr c (d :: t) = if d = c then some (d :: t) else if d = 0 then none else strchr c t := rfl

/-- A search for `c` goes past these bytes. -/
def Skips (c : UInt8) (l : Bytes) : Prop := ∀ d ∈ l, d ≠ c ∧ d ≠ 0

instance (c : UInt8) (l : Bytes) : Decidable (Skips c l) := List.decidableBAll _ l

theorem strchr_skip {c : UInt8} {l : Bytes} (hl : Skips c l) (x : Bytes) : strchr c (l ++ x) = strchr c x := by
  induction l with
  | nil => rfl
  | cons d l ih =>
    obtain ⟨hd, hl⟩ := List.forall_mem_cons.mp hl
    rw [List.cons_append, strchr_cons, if_neg hd.1, if_neg hd.2, ih hl]

theorem strchr_length_le {c : UInt8} {s p : Bytes} (h : strchr c s = some p) : p.length ≤ s.length := by
  induction s with
  | nil => cases h
  | cons d s ih =>
    rw [strchr_cons] at h
    split at h
    · rw [← Option.some.inj h]
    · split at h
      · cases h
      · exact (ih h).trans (Nat.le_succ _)

section Decimal

/-- The digits of `n`, as printed by `%u`. -/
def dec (n : ℕ) : Bytes :=
  if n = 0 then [0x30] else (Nat.digits 10 n).reverse.map fun d => (0x30 + d).toUInt8

/-- The value of a digit string read on from `acc`. -/
def decVal (acc : ℕ) (ds : Bytes) : ℕ := ds.foldl (fun a c => a * 10 + (c.toNat - 0x30)) acc

theorem isDigit_iff (c : UInt8) : isDigit c = true ↔ 0x30 ≤ c.toNat ∧ c.toNat ≤ 0x39 := by
  simp [isDigit, UInt8.le_iff_toNat_le]

theorem toNat_digit {d : ℕ} (h : d < 10) : (0x30 + d).toUInt8.toNat = 0x30 + d := by
  simp only [Nat.toUInt8, UInt8.toNat_ofNat']
  omega

theorem isDigit_digit {d : ℕ} (h : d < 10) : isDigit (0x30 + d).toUInt8 = true := by
  rw [isDigit_iff, toNat_digit h]
  omega

theorem decVal_cons (acc : ℕ) (c : UInt8) (ds : Bytes) :
    decVal acc (c :: ds) = decVal (acc * 10 + (c.toNat - 0x30)) ds := by
  simp only [decVal, List.foldl_cons]

theorem le_decVal (acc : ℕ) (ds : Bytes) : acc ≤ decVal acc ds := by
  induction ds generalizing acc with
  | nil => simp [decVal]
  | cons c ds ih =>
    rw [decVal_cons]
    have := ih (acc * 10 + (c.toNat - 0x30))
    omega

/-- A digit string read from the left is its reverse read in Mathlib's little-endian digits. -/
theorem decVal_eq_ofDigits (acc : ℕ) (ds : Bytes) :
    decVal acc ds = Nat.ofDigits 10 ((ds.map fun c => c.toNat - 0x30).reverse) + 10 ^ ds.length * acc := by
  induction ds generalizing acc with
  | nil => simp [decVal]
  | cons c ds ih =>
    rw [decVal_cons, ih, List.map_cons, List.reverse_cons, Nat.ofDigits_append]
    simp only [List.length_reverse, List.length_map, Nat.ofDigits_singleton, List.length_cons]
    ring

theorem dec_digits {n : ℕ} : ∀ c ∈ dec n, isDigit c = true := by
  intro c hc
  unfold dec at hc
  split at hc
  · rw [List.mem_singleton.mp hc]
    decide
  · simp only [List.mem_map, List.mem_reverse] at hc
    obtain ⟨d, hd, rfl⟩ := hc
    exact isDigit_digit (Nat.digits_lt_base (by norm_num) hd)

theorem dec_ne_nil (n : ℕ) : dec n ≠ [] := by
  unfold dec
  split
  · simp
  · simpa only [ne_eq, List.map_eq_nil_iff, List.reverse_eq_nil_iff, Nat.digits_eq_nil_iff_eq_zero]

theorem dec_length_le {n k : ℕ} (hk : 0 < k) (h : n < 10 ^ k) : (dec n).length ≤ k := by
  unfold dec
  split
  · exact hk
  · rw [List.length_map, List.length_reverse]
    exact (Nat.digits_length_le_iff (by norm_num) n).mpr h

theorem decVal_dec (n : ℕ) : decVal 0 (dec n) = n := by
  unfold dec
  split
  case isTrue h =>
    subst h
    decide
  case isFalse h =>
    rw [decVal_eq_ofDigits, List.map_map]
    have hd : ∀ d ∈ (Nat.digits 10 n).reverse,
        ((fun c : UInt8 => c.toNat - 0x30) ∘ fun d : ℕ => (0x30 + d).toUInt8) d = d := by
      intro d hd
      have hlt : d < 10 := Nat.digits_lt_base (by norm_num) (List.mem_reverse.mp hd)
      simp only [Function.comp_apply, toNat_digit hlt]
      omega
    rw [List.map_congr_left hd, List.map_id', List.reverse_reverse, Nat.ofDigits_digits]
    simp

/-- The printed digits have no leading zero, but for zero itself. -/
theorem dec_head {n : ℕ} {t : Bytes} (h : dec n = 0x30 :: t) : t = [] := by
  unfold dec at h
  split at h
  · exact (List.cons.inj h).2.symm
  · rename_i hn
    exfalso
    have hne : Nat.digits 10 n ≠ [] := Nat.digits_ne_nil_iff_ne_zero.mpr hn
    have hlast := Nat.getLast_digit_ne_zero 10 hn
    rw [← List.dropLast_append_getLast hne, List.reverse_append] at h
    simp only [List.reverse_singleton, List.singleton_append, List.map_cons, List.cons.injEq] at h
    have hlt : (Nat.digits 10 n).getLast hne < 10 :=
      Nat.digits_lt_base (by norm_num) (List.getLast_mem hne)
    have := congrArg UInt8.toNat h.1
    rw [toNat_digit hlt] at this
    simp at this
    exact hlast this

/-- A digit string without a leading zero is the printed form of its value. -/
theorem dec_decVal {ds : Bytes} (hd : ∀ c ∈ ds, isDigit c = true) (hne : ds ≠ [])
    (hz : ∀ t, ds = 0x30 :: t → t = []) : dec (decVal 0 ds) = ds := by
  set L := (ds.map fun c => c.toNat - 0x30).reverse with hL
  have hval : decVal 0 ds = Nat.ofDigits 10 L := by simp [decVal_eq_ofDigits, hL]
  obtain ⟨c, t, rfl⟩ := List.exists_cons_of_ne_nil hne
  have hc := (isDigit_iff c).mp (hd c (by simp))
  by_cases h0 : c = 0x30
  · subst h0
    obtain rfl := hz t rfl
    decide
  · have hcn : c.toNat ≠ 0x30 := fun h => h0 (UInt8.toNat_inj.mp (by simpa using h))
    have hdig : Nat.digits 10 (Nat.ofDigits 10 L) = L := by
      apply Nat.digits_ofDigits 10 (by norm_num)
      · intro d hdL
        simp only [hL, List.mem_reverse, List.mem_map] at hdL
        obtain ⟨x, hx, rfl⟩ := hdL
        have := (isDigit_iff x).mp (hd x hx)
        omega
      · intro hLne
        simp only [hL, List.map_cons, List.reverse_cons, List.getLast_append_singleton]
        omega
    have hnz : decVal 0 (c :: t) ≠ 0 := by
      have hle := le_decVal (0 * 10 + (c.toNat - 0x30)) t
      rw [decVal_cons]
      omega
    rw [dec, if_neg hnz, hval, hdig, hL, List.reverse_reverse, List.map_map]
    have hid : ∀ x ∈ c :: t,
        ((fun d : ℕ => (0x30 + d).toUInt8) ∘ fun c : UInt8 => c.toNat - 0x30) x = x := by
      intro x hx
      have := (isDigit_iff x).mp (hd x hx)
      apply UInt8.toNat_inj.mp
      simp only [Function.comp_apply, Nat.toUInt8, UInt8.toNat_ofNat']
      omega
    rw [List.map_congr_left hid, List.map_id']

end Decimal

section Words

/-- The text holds no quotation mark. -/
def Quiet (l : Bytes) : Prop := quote ∉ l

instance (l : Bytes) : Decidable (Quiet l) := inferInstanceAs (Decidable (quote ∉ l))

/-- A text of quoted words, each after a gap, and a last gap. -/
def spell : List (Bytes × Bytes) → Bytes → Bytes
  | [], tail => tail
  | (gap, word) :: ts, tail => gap ++ quote :: (word ++ quote :: spell ts tail)

/-- The first word equal to `w` that is followed by `r`, as the suffix that starts at its opening quote. -/
def findWord (w r : Bytes) : List (Bytes × Bytes) → Bytes → Option Bytes
  | [], _ => none
  | (_, word) :: ts, tail =>
    if word = w ∧ r <+: spell ts tail then some (quote :: (word ++ quote :: spell ts tail))
    else findWord w r ts tail

/-- The needle for a quoted word followed by `r`. -/
def wordNeedle (w r : Bytes) : Bytes := quote :: (w ++ quote :: r)

/-- Gaps and words hold no quotation mark, and no gap reads `w`. -/
structure Plain (w : Bytes) (ts : List (Bytes × Bytes)) (tail : Bytes) : Prop where
  gap : ∀ t ∈ ts, Quiet t.1 ∧ t.1 ≠ w
  word : ∀ t ∈ ts, Quiet t.2
  tail : Quiet tail

/-- A needle is not found where its first byte does not occur. -/
theorem memfind_skip {c : UInt8} (ndl x : Bytes) {l : Bytes} (hl : c ∉ l) :
    memfind (c :: ndl) (l ++ x) = memfind (c :: ndl) x := by
  induction l with
  | nil => rfl
  | cons d l ih =>
    have hd : ¬ (c :: ndl) <+: d :: (l ++ x) := by
      intro h
      exact hl (by simp [(List.cons_prefix_cons.mp h).1])
    rw [List.cons_append, memfind_cons, if_neg (fun h => hd h.2)]
    exact ih fun h => hl (List.mem_cons_of_mem _ h)

theorem memfind_prefix {ndl : Bytes} (h : ndl ≠ []) (x : Bytes) : memfind ndl (ndl ++ x) = some (ndl ++ x) := by
  obtain ⟨c, t, rfl⟩ := List.exists_cons_of_ne_nil h
  rw [List.cons_append, memfind_cons, if_pos ⟨h, List.prefix_append (c :: t) x⟩]

/-- What is found is a suffix that begins with the needle. -/
theorem memfind_eq_some {ndl s d : Bytes} (h : memfind ndl s = some d) : ∃ l x, s = l ++ d ∧ d = ndl ++ x := by
  induction s with
  | nil => cases h
  | cons c t ih =>
    rw [memfind_cons] at h
    split at h
    case isTrue hp =>
      obtain ⟨x, hx⟩ := hp.2
      obtain rfl := Option.some.inj h
      exact ⟨[], x, rfl, hx.symm⟩
    case isFalse =>
      obtain ⟨l, x, hl, hx⟩ := ih h
      exact ⟨c :: l, x, by rw [hl, List.cons_append], hx⟩

theorem memfind_append_ne_none {ndl s : Bytes} (h : memfind ndl s ≠ none) (l : Bytes) : memfind ndl (l ++ s) ≠ none := by
  induction l with
  | nil => exact h
  | cons c l ih =>
    rw [List.cons_append, memfind_cons]
    split
    · simp
    · exact ih

/-- Where a needle does not begin within `l` it is found behind it. -/
theorem memfind_append {ndl l x : Bytes} (h : ∀ i < l.length, ¬ ndl <+: (l ++ x).drop i) :
    memfind ndl (l ++ x) = memfind ndl x := by
  induction l with
  | nil => rfl
  | cons c l ih =>
    rw [List.cons_append, memfind_cons, if_neg]
    · exact ih fun i hi => h (i + 1) (Nat.succ_lt_succ hi)
    · exact fun hp => h 0 (Nat.zero_lt_succ _) hp.2

/-- Whether a needle begins before its first occurrence does not depend on what follows. -/
theorem first_le {ndl l x : Bytes} {i : ℕ} (hfirst : ∀ i < l.length, ¬ ndl <+: (l ++ ndl).drop i)
    (h : ndl <+: (l ++ (ndl ++ x)).drop i) : l.length ≤ i := by
  by_contra hi
  apply hfirst i (Nat.lt_of_not_le hi)
  rw [← List.append_assoc, List.drop_append_of_le_length (by rw [List.length_append]; omega)] at h
  apply List.prefix_of_prefix_length_le h (List.prefix_append _ _)
  rw [List.length_drop, List.length_append]
  omega

theorem memfind_first {ndl l : Bytes} (hne : ndl ≠ []) (hfirst : ∀ i < l.length, ¬ ndl <+: (l ++ ndl).drop i) (x : Bytes) :
    memfind ndl (l ++ (ndl ++ x)) = some (ndl ++ x) := by
  rw [memfind_append, memfind_prefix hne]
  exact fun i hi h => absurd (first_le hfirst h) (Nat.not_le_of_lt hi)

theorem memfind_quiet_append (ndl x : Bytes) {l : Bytes} (hl : Quiet l) :
    memfind (quote :: ndl) (l ++ x) = memfind (quote :: ndl) x :=
  memfind_skip ndl x hl

theorem quiet_append_quote {a b x y : Bytes} (ha : Quiet a) (hb : Quiet b)
    (h : a ++ quote :: x <+: b ++ quote :: y) : a = b ∧ x <+: y := by
  induction a generalizing b with
  | nil =>
    cases b with
    | nil => exact ⟨rfl, (List.cons_prefix_cons.mp h).2⟩
    | cons c b => exact absurd (List.cons_prefix_cons.mp h).1 fun hc => hb (by simp [hc])
  | cons d a ih =>
    cases b with
    | nil => exact absurd (List.cons_prefix_cons.mp h).1 fun hd => ha (by simp [hd])
    | cons c b =>
      obtain ⟨rfl, h'⟩ := List.cons_prefix_cons.mp h
      obtain ⟨rfl, hxy⟩ := ih (fun hm => ha (by simp [hm])) (fun hm => hb (by simp [hm])) h'
      exact ⟨rfl, hxy⟩

/-- Two texts that begin with the same number of quoted words agree word by word. -/
theorem quiet_append_quote_eq {a b x y : Bytes} (ha : Quiet a) (hb : Quiet b)
    (h : a ++ quote :: x = b ++ quote :: y) : a = b ∧ x = y := by
  obtain ⟨rfl, -⟩ := quiet_append_quote (x := x) (y := y) ha hb (h ▸ List.prefix_refl _)
  exact ⟨rfl, (List.cons.inj (List.append_cancel_left h)).2⟩

theorem not_prefix_of_quiet {a b x : Bytes} (hb : Quiet b) : ¬ a ++ quote :: x <+: b := by
  intro h
  exact hb (h.subset (by simp))

/-- A closing quote never starts a match: the gap after it is not the word sought. -/
theorem not_prefix_spell {w r : Bytes} {ts : List (Bytes × Bytes)} {tail : Bytes} (hw : Quiet w)
    (h : Plain w ts tail) : ¬ w ++ quote :: r <+: spell ts tail := by
  cases ts with
  | nil => exact not_prefix_of_quiet h.tail
  | cons t ts =>
    intro hp
    obtain ⟨hg, hne⟩ := h.gap t (by simp)
    exact hne (quiet_append_quote hw hg hp).1.symm

/-- Searching a text of quoted words for a quoted word finds exactly the words that match. -/
theorem memfind_spell {w : Bytes} (r : Bytes) {ts : List (Bytes × Bytes)} {tail : Bytes} (hw : Quiet w)
    (h : Plain w ts tail) : memfind (wordNeedle w r) (spell ts tail) = findWord w r ts tail := by
  induction ts with
  | nil =>
    have := memfind_quiet_append (w ++ quote :: r) [] h.tail
    simpa [spell, findWord, memfind_nil, wordNeedle] using this
  | cons t ts ih =>
    obtain ⟨gap, word⟩ := t
    have hrest : Plain w ts tail := ⟨fun t ht => h.gap t (by simp [ht]), fun t ht => h.word t (by simp [ht]), h.tail⟩
    have hword : Quiet word := h.word (gap, word) (by simp)
    rw [spell, wordNeedle, memfind_quiet_append _ _ (h.gap (gap, word) (by simp)).1, findWord]
    by_cases hm : word = w ∧ r <+: spell ts tail
    · rw [if_pos hm, memfind_cons, if_pos]
      obtain ⟨rfl, hr⟩ := hm
      refine ⟨by simp, ?_⟩
      rw [List.cons_prefix_cons, List.prefix_append_right_inj, List.cons_prefix_cons]
      exact ⟨rfl, rfl, hr⟩
    · rw [if_neg hm, memfind_cons, if_neg, memfind_quiet_append _ _ hword, memfind_cons, if_neg]
      · exact ih hrest
      · rintro ⟨-, hp⟩
        exact not_prefix_spell hw hrest (List.cons_prefix_cons.mp hp).2
      · rintro ⟨-, hp⟩
        obtain ⟨rfl, hr⟩ := quiet_append_quote hw hword (List.cons_prefix_cons.mp hp).2
        exact hm ⟨rfl, hr⟩

end Words

end Bytes
