import M5DayLog.Pc.Contract
import Mathlib.Data.Int.Log
import Mathlib.Data.List.TakeWhile

/-! The tokens of a JSON text. For strings and for numbers there are a grammar and the scanner of the host's `json.loads`; the
scanner takes exactly what the grammar derives. -/

namespace M5DayLog.Contract

section Blanks

def isWs (c : ℕ) : Bool := c = 0x20 || c = 0x09 || c = 0x0a || c = 0x0d

def skipWs (s : PyStr) : PyStr := s.dropWhile isWs

/-- `t` is what is left of `s` after some white space. -/
def Ws (s t : PyStr) : Prop := ∃ w, (∀ c ∈ w, isWs c) ∧ s = w ++ t

/-- What may stand after a value: the end of the text, white space, or the delimiter of a container. -/
def Follow (s : PyStr) : Prop := ∀ c ∈ s.head?, isWs c ∨ c = 0x2c ∨ c = 0x5d ∨ c = 0x7d

/-- The text does not start with white space. -/
def NoWs (s : PyStr) : Prop := ∀ c ∈ s.head?, ¬ isWs c

theorem ws_skipWs (s : PyStr) : Ws s (skipWs s) :=
  ⟨s.takeWhile isWs, fun _ hc => List.mem_takeWhile_imp hc, (List.takeWhile_append_dropWhile).symm⟩

theorem Ws.refl (s : PyStr) : Ws s s := ⟨[], fun _ hc => absurd hc List.not_mem_nil, rfl⟩

theorem Ws.length_le {s t : PyStr} (h : Ws s t) : t.length ≤ s.length := by
  obtain ⟨w, -, rfl⟩ := h
  rw [List.length_append]
  exact Nat.le_add_left _ _

theorem noWs_skipWs (s : PyStr) : NoWs (skipWs s) := by
  intro c hc
  have hnot := List.head?_dropWhile_not isWs s
  rw [show (s.dropWhile isWs).head? = some c from hc] at hnot
  simpa using hnot

/-- The scanner takes all the white space there is. -/
theorem Ws.skipWs_eq {s t : PyStr} (h : Ws s t) : skipWs s = skipWs t := by
  obtain ⟨w, hw, rfl⟩ := h
  rw [skipWs, List.dropWhile_append_of_pos hw, skipWs]

theorem NoWs.skipWs_eq {s : PyStr} (h : NoWs s) : skipWs s = s := by
  cases s with
  | nil => rfl
  | cons c s => exact List.dropWhile_cons_of_neg (h c rfl)

theorem noWs_cons {c : ℕ} (hc : ¬ isWs c) (s : PyStr) : NoWs (c :: s) := fun c' hc' => by
  obtain rfl := Option.some.inj hc'
  exact hc

theorem Follow.of_ws {s t : PyStr} {c : ℕ} (h : Ws s (c :: t)) (hc : c = 0x2c ∨ c = 0x5d ∨ c = 0x7d) : Follow s := by
  obtain ⟨w, hw, rfl⟩ := h
  intro c' hc'
  cases w with
  | nil =>
    obtain rfl := Option.some.inj hc'
    exact .inr hc
  | cons b w =>
    obtain rfl := Option.some.inj hc'
    exact .inl (hw _ List.mem_cons_self)

end Blanks

section Strings

def isHigh (u : ℕ) : Bool := 0xd800 ≤ u && u ≤ 0xdbff

def isLow (u : ℕ) : Bool := 0xdc00 ≤ u && u ≤ 0xdfff

def joinSurrogates (high low : ℕ) : ℕ := 0x10000 + ((high - 0xd800) * 0x400 + (low - 0xdc00))

/-- The escapes of one letter. -/
def simpleEscapes : List (ℕ × ℕ) :=
  [(0x22, 0x22), (0x5c, 0x5c), (0x2f, 0x2f), (0x62, 0x08), (0x66, 0x0c), (0x6e, 0x0a), (0x72, 0x0d), (0x74, 0x09)]

/-- The four digits after `\u`. -/
def hex4 : PyStr → Option (ℕ × PyStr)
  | a :: b :: c :: d :: s => do
    let a ← hexDigit a
    let b ← hexDigit b
    let c ← hexDigit c
    let d ← hexDigit d
    return (((a * 16 + b) * 16 + c) * 16 + d, s)
  | _ => none

/-- The escape of a low surrogate. -/
inductive LowEscape : PyStr → ℕ → PyStr → Prop
  | mk {s t u} (hex : hex4 s = some (u, t)) (hlow : isLow u) : LowEscape (0x5c :: 0x75 :: s) u t

/-- What stands for one character after a backslash. Two escapes that make a surrogate pair are one. -/
inductive Escape : PyStr → ℕ → PyStr → Prop
  | simple {e c s} (h : simpleEscapes.lookup e = some c) : Escape (e :: s) c s
  | pair {s t t' high low} (hex : hex4 s = some (high, t)) (hhigh : isHigh high) (hlow : LowEscape t low t') :
    Escape (0x75 :: s) (joinSurrogates high low) t'
  | unit {s t u} (hex : hex4 s = some (u, t)) (halone : isHigh u → ∀ low t', ¬ LowEscape t low t') : Escape (0x75 :: s) u t

/-- The characters of a string and its last quote. -/
inductive Chars : PyStr → PyStr → PyStr → Prop
  | quote {s} : Chars (0x22 :: s) [] s
  | plain {c s str rest} (hc : 0x20 ≤ c) (hquote : c ≠ 0x22) (hslash : c ≠ 0x5c) (hrest : Chars s str rest) :
    Chars (c :: s) (c :: str) rest
  | escape {s t c str rest} (h : Escape s c t) (hrest : Chars t str rest) : Chars (0x5c :: s) (c :: str) rest

def lowEscape : PyStr → Option (ℕ × PyStr)
  | 0x5c :: 0x75 :: s => (hex4 s).filter fun p => isLow p.1
  | _ => none

def unicodeEscape (s : PyStr) : Option (ℕ × PyStr) :=
  match hex4 s with
  | none => none
  | some (u, t) =>
    match if isHigh u then lowEscape t else none with
    | some (low, t') => some (joinSurrogates u low, t')
    | none => some (u, t)

def scanEscape : PyStr → Option (ℕ × PyStr)
  | [] => none
  | c :: s => if c = 0x75 then unicodeEscape s else (simpleEscapes.lookup c).map (·, s)

/-- `scanstring`, from after the first quote; each round takes a character of the text or more. -/
def scanStringFrom : (fuel : ℕ) → PyStr → Option (PyStr × PyStr)
  | 0, _ => none
  | _ + 1, [] => none
  | fuel + 1, c :: s =>
    if c = 0x22 then some ([], s)
    else if c = 0x5c then do
      let (c, s) ← scanEscape s
      let (str, rest) ← scanStringFrom fuel s
      return (c :: str, rest)
    else if c < 0x20 then none
    else do
      let (str, rest) ← scanStringFrom fuel s
      return (c :: str, rest)

def scanString (s : PyStr) : Option (PyStr × PyStr) := scanStringFrom (s.length + 1) s

theorem hex4_length {s t : PyStr} {u : ℕ} (h : hex4 s = some (u, t)) : s.length = t.length + 4 := by
  match s, h with
  | a :: b :: c :: d :: s, h =>
    simp only [hex4, Option.bind_eq_bind, Option.bind_eq_some_iff, Option.pure_def, Option.some.injEq, Prod.mk.injEq] at h
    obtain ⟨_, _, _, _, _, _, _, _, _, rfl⟩ := h
    rfl

theorem lowEscape_iff {s t : PyStr} {u : ℕ} : lowEscape s = some (u, t) ↔ LowEscape s u t := by
  constructor
  · intro h
    rw [lowEscape.eq_def] at h
    split at h
    · obtain ⟨hex, hlow⟩ := Option.filter_eq_some_iff.mp h
      exact .mk hex hlow
    · cases h
  · rintro ⟨hex, hlow⟩
    exact Option.filter_eq_some_iff.mpr ⟨hex, hlow⟩

theorem unicodeEscape_iff {s t : PyStr} {c : ℕ} : unicodeEscape s = some (c, t) ↔ Escape (0x75 :: s) c t := by
  constructor
  · intro h
    rw [unicodeEscape] at h
    split at h
    · cases h
    · next u t' hex =>
      split at h
      · next low t'' hlow =>
        obtain ⟨rfl, rfl⟩ := Prod.mk.inj (Option.some.inj h)
        split at hlow
        · next hhigh => exact .pair hex hhigh (lowEscape_iff.mp hlow)
        · cases hlow
      · next hnone =>
        obtain ⟨rfl, rfl⟩ := Prod.mk.inj (Option.some.inj h)
        refine .unit hex fun hhigh low t'' hlow => ?_
        rw [if_pos hhigh, lowEscape_iff.mpr hlow] at hnone
        cases hnone
  · intro h
    cases h with
    | simple h => cases h
    | pair hex hhigh hlow => simp only [unicodeEscape, hex, hhigh, if_true, lowEscape_iff.mpr hlow]
    | unit hex halone =>
      have hnone : (if isHigh c then lowEscape t else none) = none := by
        split
        · next hhigh =>
          rcases hlow : lowEscape t with _ | ⟨low, t'⟩
          · rfl
          · exact absurd (lowEscape_iff.mp hlow) (halone hhigh low t')
        · rfl
      simp only [unicodeEscape, hex, hnone]

theorem scanEscape_iff {s t : PyStr} {c : ℕ} : scanEscape s = some (c, t) ↔ Escape s c t := by
  cases s with
  | nil => exact ⟨fun h => (Option.some_ne_none _ h.symm).elim, fun h => by cases h⟩
  | cons e s =>
    rw [scanEscape]
    split
    · next he => rw [he, unicodeEscape_iff]
    · next he =>
      constructor
      · intro h
        obtain ⟨c', hc, heq⟩ := Option.map_eq_some_iff.mp h
        obtain ⟨rfl, rfl⟩ := Prod.mk.inj heq
        exact .simple hc
      · intro h
        cases h with
        | simple h => rw [h, Option.map_some]
        | pair | unit => exact absurd rfl he

theorem Escape.length_lt {s t : PyStr} {c : ℕ} (h : Escape s c t) : t.length < s.length := by
  cases h with
  | simple => exact Nat.lt_succ_self _
  | pair hex _ hlow =>
    obtain ⟨hex', -⟩ := hlow
    have := hex4_length hex
    have := hex4_length hex'
    simp only [List.length_cons] at *
    omega
  | unit hex =>
    have := hex4_length hex
    simp only [List.length_cons]
    omega

theorem Chars.length_lt {s str rest : PyStr} (h : Chars s str rest) : rest.length < s.length := by
  induction h with
  | quote => exact Nat.lt_succ_self _
  | plain _ _ _ _ ih => exact Nat.lt_succ_of_lt ih
  | escape h _ ih => exact Nat.lt_succ_of_lt (ih.trans h.length_lt)

theorem scanStringFrom_sound {fuel : ℕ} {s str rest : PyStr} (h : scanStringFrom fuel s = some (str, rest)) : Chars s str rest := by
  induction fuel generalizing s str with
  | zero => cases h
  | succ fuel ih =>
    cases s with
    | nil => cases h
    | cons c s =>
      rw [scanStringFrom] at h
      split at h
      · next hquote =>
        obtain ⟨rfl, rfl⟩ := Prod.mk.inj (Option.some.inj h)
        rw [hquote]
        exact .quote
      · next hquote =>
        split at h
        · next hslash =>
          obtain ⟨⟨x, s'⟩, hescape, h⟩ := Option.bind_eq_some_iff.mp h
          obtain ⟨⟨str', rest'⟩, hstr, h⟩ := Option.bind_eq_some_iff.mp h
          obtain ⟨rfl, rfl⟩ := Prod.mk.inj (Option.some.inj h)
          rw [hslash]
          exact .escape (scanEscape_iff.mp hescape) (ih hstr)
        · next hslash =>
          split at h
          · cases h
          · next hc =>
            obtain ⟨⟨str', rest'⟩, hstr, h⟩ := Option.bind_eq_some_iff.mp h
            obtain ⟨rfl, rfl⟩ := Prod.mk.inj (Option.some.inj h)
            exact .plain (Nat.le_of_not_lt hc) hquote hslash (ih hstr)

theorem scanStringFrom_complete {s str rest : PyStr} (h : Chars s str rest) {fuel : ℕ} (hfuel : s.length < fuel) :
    scanStringFrom fuel s = some (str, rest) := by
  induction h generalizing fuel with
  | quote =>
    obtain ⟨fuel, rfl⟩ := Nat.exists_eq_succ_of_ne_zero (Nat.ne_zero_of_lt hfuel)
    rw [scanStringFrom, if_pos rfl]
  | plain hc hquote hslash _ ih =>
    obtain ⟨fuel, rfl⟩ := Nat.exists_eq_succ_of_ne_zero (Nat.ne_zero_of_lt hfuel)
    rw [scanStringFrom, if_neg hquote, if_neg hslash, if_neg (Nat.not_lt.mpr hc), ih (Nat.lt_of_succ_lt_succ hfuel)]
    rfl
  | escape h _ ih =>
    obtain ⟨fuel, rfl⟩ := Nat.exists_eq_succ_of_ne_zero (Nat.ne_zero_of_lt hfuel)
    rw [scanStringFrom, if_neg (by decide), if_pos rfl, scanEscape_iff.mpr h]
    have hrest := ih (h.length_lt.trans (Nat.lt_of_succ_lt_succ hfuel))
    simp only [Option.bind_eq_bind, Option.bind_some, hrest, Option.pure_def]

/-- The scanner of strings takes what the grammar derives. -/
theorem scanString_iff {s str rest : PyStr} : scanString s = some (str, rest) ↔ Chars s str rest :=
  ⟨scanStringFrom_sound, fun h => scanStringFrom_complete h (Nat.lt_succ_self _)⟩

end Strings

section Numbers

def isDec (c : ℕ) : Bool := 0x30 ≤ c && c ≤ 0x39

/-- `int(s)`, of decimal digits. -/
def decNat (s : PyStr) : ℕ := s.foldl (fun n c => n * 10 + (c - 0x30)) 0

/-- A number as the parts of its text; the exponent is a sign and digits. -/
structure NumberLit where
  negative : Bool
  int : PyStr
  frac : PyStr
  exp : Option (Bool × PyStr)

/-- `-` or nothing. -/
def minus (negative : Bool) : PyStr := if negative then [0x2d] else []

def Digits (s : PyStr) : Prop := s ≠ [] ∧ ∀ c ∈ s, isDec c

inductive IntText : PyStr → Prop
  | zero : IntText [0x30]
  | digits {c s} (hc : isDec c) (hzero : c ≠ 0x30) (hs : ∀ x ∈ s, isDec x) : IntText (c :: s)

inductive FracText : PyStr → PyStr → Prop
  | absent : FracText [] []
  | digits {d} (h : Digits d) : FracText (0x2e :: d) d

inductive SignText : PyStr → Bool → Prop
  | absent : SignText [] false
  | plus : SignText [0x2b] false
  | minus : SignText [0x2d] true

inductive ExpText : PyStr → Option (Bool × PyStr) → Prop
  | absent : ExpText [] none
  | digits {e sign negative d} (he : e = 0x65 ∨ e = 0x45) (hsign : SignText sign negative) (h : Digits d) :
    ExpText (e :: (sign ++ d)) (some (negative, d))

inductive NumberText : PyStr → NumberLit → Prop
  | mk {negative int fracText frac expText exp} (hint : IntText int) (hfrac : FracText fracText frac) (hexp : ExpText expText exp) :
    NumberText (minus negative ++ (int ++ (fracText ++ expText))) ⟨negative, int, frac, exp⟩

def NoDigit (s : PyStr) : Prop := ∀ c ∈ s.head?, ¬ isDec c

/-- The text starts with an integer of more than `limit` digits, and that is all there is of the number. -/
inductive LongInt (limit : ℕ) : PyStr → Prop
  | mk {negative int rest} (hint : IntText int) (hlong : limit < int.length) (hdigit : NoDigit rest)
    (hfrac : ∀ text frac t, rest = text ++ t → FracText text frac → text = [])
    (hexp : ∀ text exp t, rest = text ++ t → ExpText text exp → text = []) : LongInt limit (minus negative ++ (int ++ rest))

def takeMinus (s : PyStr) : Bool × PyStr := if s.head? = some 0x2d then (true, s.tail) else (false, s)

def takeInt : PyStr → Option (PyStr × PyStr)
  | [] => none
  | c :: s =>
    if c = 0x30 then some ([c], s) else if isDec c then some (c :: s.takeWhile isDec, s.dropWhile isDec) else none

def takeFrac (s : PyStr) : PyStr × PyStr :=
  if s.head? = some 0x2e ∧ s.tail.takeWhile isDec ≠ [] then (s.tail.takeWhile isDec, s.tail.dropWhile isDec) else ([], s)

def takeSign (s : PyStr) : Bool × PyStr :=
  if s.head? = some 0x2d then (true, s.tail) else if s.head? = some 0x2b then (false, s.tail) else (false, s)

/-- An `e` without digits does not belong to the number. -/
def takeExp (s : PyStr) : Option (Bool × PyStr) × PyStr :=
  if (s.head? = some 0x65 ∨ s.head? = some 0x45) ∧ (takeSign s.tail).2.takeWhile isDec ≠ [] then
    (some ((takeSign s.tail).1, (takeSign s.tail).2.takeWhile isDec), (takeSign s.tail).2.dropWhile isDec)
  else (none, s)

/-- `_match_number_unicode`, as the parts of the number. -/
def scanNumber (s : PyStr) : Option (NumberLit × PyStr) := do
  let (int, t) ← takeInt (takeMinus s).2
  let (exp, rest) := takeExp (takeFrac t).2
  return (⟨(takeMinus s).1, int, (takeFrac t).1, exp⟩, rest)

theorem head_digit {c : ℕ} (h : isDec c) : c ≠ 0x2d ∧ c ≠ 0x2b ∧ c ≠ 0x2e ∧ c ≠ 0x65 ∧ c ≠ 0x45 := by
  simp only [isDec, Bool.and_eq_true, decide_eq_true_eq] at h
  omega

theorem Follow.noDigit {s : PyStr} (h : Follow s) : NoDigit s := by
  intro c hc hdec
  have := h c hc
  simp only [isDec, isWs, Bool.and_eq_true, Bool.or_eq_true, decide_eq_true_eq] at *
  omega

theorem Follow.head_ne {s : PyStr} (h : Follow s) {c : ℕ} (hc : c = 0x2e ∨ c = 0x65 ∨ c = 0x45) : s.head? ≠ some c := by
  intro hs
  have := h c hs
  simp only [isWs, Bool.or_eq_true, decide_eq_true_eq] at this
  omega

theorem digits_takeWhile {s : PyStr} (h : s.takeWhile isDec ≠ []) : Digits (s.takeWhile isDec) :=
  ⟨h, fun _ hc => List.mem_takeWhile_imp hc⟩

theorem NoDigit.takeWhile {s : PyStr} (h : NoDigit s) : s.takeWhile isDec = [] := by
  cases s with
  | nil => rfl
  | cons c s => exact List.takeWhile_cons_of_neg (h c rfl)

theorem NoDigit.dropWhile {s : PyStr} (h : NoDigit s) : s.dropWhile isDec = s := by
  cases s with
  | nil => rfl
  | cons c s => exact List.dropWhile_cons_of_neg (h c rfl)

theorem noDigit_dropWhile (s : PyStr) : NoDigit (s.dropWhile isDec) := by
  intro c hc
  have hnot := List.head?_dropWhile_not isDec s
  rw [show (s.dropWhile isDec).head? = some c from hc] at hnot
  simpa using hnot

theorem takeWhile_digits {d rest : PyStr} (hd : ∀ c ∈ d, isDec c) (hrest : NoDigit rest) :
    (d ++ rest).takeWhile isDec = d ∧ (d ++ rest).dropWhile isDec = rest := by
  rw [List.takeWhile_append_of_pos hd, List.dropWhile_append_of_pos hd, hrest.takeWhile, hrest.dropWhile, List.append_nil]
  exact ⟨rfl, rfl⟩

theorem takeMinus_eq (s : PyStr) : s = minus (takeMinus s).1 ++ (takeMinus s).2 := by
  rw [takeMinus]
  split
  · next h =>
    obtain ⟨t, rfl⟩ := List.head?_eq_some_iff.mp h
    rfl
  · rfl

theorem takeInt_sound {s int rest : PyStr} (h : takeInt s = some (int, rest)) :
    s = int ++ rest ∧ IntText int ∧ (int ≠ [0x30] → NoDigit rest) := by
  cases s with
  | nil => cases h
  | cons c s =>
    rw [takeInt] at h
    split at h
    · next hzero =>
      obtain ⟨rfl, rfl⟩ := Prod.mk.inj (Option.some.inj h)
      rw [hzero]
      exact ⟨rfl, .zero, fun h => absurd rfl h⟩
    · next hzero =>
      split at h
      · next hc =>
        obtain ⟨rfl, rfl⟩ := Prod.mk.inj (Option.some.inj h)
        exact ⟨by simp, .digits hc hzero fun x hx => List.mem_takeWhile_imp hx, fun _ => noDigit_dropWhile s⟩
      · cases h

theorem takeInt_complete {int rest : PyStr} (h : IntText int) (hrest : NoDigit rest) :
    takeInt (int ++ rest) = some (int, rest) := by
  cases h with
  | zero => rfl
  | digits hc hzero hs =>
    obtain ⟨htake, hdrop⟩ := takeWhile_digits hs hrest
    rw [List.cons_append, takeInt, if_neg hzero, if_pos hc, htake, hdrop]

theorem takeFrac_sound (s : PyStr) : ∃ text, s = text ++ (takeFrac s).2 ∧ FracText text (takeFrac s).1 := by
  rw [takeFrac]
  split
  · next h =>
    obtain ⟨t, rfl⟩ := List.head?_eq_some_iff.mp h.1
    exact ⟨0x2e :: t.takeWhile isDec, by simp, .digits (digits_takeWhile h.2)⟩
  · exact ⟨[], rfl, .absent⟩

theorem takeFrac_digits {d rest : PyStr} (h : Digits d) (hrest : NoDigit rest) : takeFrac (0x2e :: (d ++ rest)) = (d, rest) := by
  obtain ⟨htake, hdrop⟩ := takeWhile_digits h.2 hrest
  rw [takeFrac, List.tail_cons, htake, hdrop, if_pos ⟨rfl, h.1⟩]

/-- Where the scanner finds no fraction there is none. -/
theorem takeFrac_nil {s : PyStr} : takeFrac s = ([], s) ↔ ∀ text frac t, s = text ++ t → FracText text frac → text = [] := by
  constructor
  · rintro h text frac t rfl hfrac
    cases hfrac with
    | absent => rfl
    | digits hd =>
      obtain ⟨c, d', rfl⟩ := List.exists_cons_of_ne_nil hd.1
      have hc := hd.2 c List.mem_cons_self
      rw [takeFrac, if_pos ⟨rfl, by simp [hc]⟩] at h
      simp [hc] at h
  · intro h
    rw [takeFrac, if_neg]
    rintro ⟨hdot, hdigits⟩
    obtain ⟨t, rfl⟩ := List.head?_eq_some_iff.mp hdot
    have := h (0x2e :: t.takeWhile isDec) _ (t.dropWhile isDec) (by simp) (.digits (digits_takeWhile hdigits))
    cases this

theorem takeSign_sound (s : PyStr) : ∃ sign, s = sign ++ (takeSign s).2 ∧ SignText sign (takeSign s).1 := by
  rw [takeSign]
  split
  · next h =>
    obtain ⟨t, rfl⟩ := List.head?_eq_some_iff.mp h
    exact ⟨[0x2d], rfl, .minus⟩
  · split
    · next h =>
      obtain ⟨t, rfl⟩ := List.head?_eq_some_iff.mp h
      exact ⟨[0x2b], rfl, .plus⟩
    · exact ⟨[], rfl, .absent⟩

theorem takeSign_complete {sign d rest : PyStr} {negative : Bool} (h : SignText sign negative) (hd : Digits d) :
    takeSign (sign ++ d ++ rest) = (negative, d ++ rest) := by
  cases h with
  | absent =>
    obtain ⟨c, d', rfl⟩ := List.exists_cons_of_ne_nil hd.1
    obtain ⟨hminus, hplus, -⟩ := head_digit (hd.2 c List.mem_cons_self)
    simp [takeSign, hminus, hplus]
  | plus | minus => rfl

theorem takeExp_sound (s : PyStr) : ∃ text, s = text ++ (takeExp s).2 ∧ ExpText text (takeExp s).1 := by
  rw [takeExp]
  split
  · next h =>
    obtain ⟨he, hdigits⟩ := h
    obtain ⟨e, t, rfl⟩ : ∃ e t, s = e :: t := by
      cases s with
      | nil => exact absurd he (by simp)
      | cons e t => exact ⟨e, t, rfl⟩
    obtain ⟨sign, hsplit, hsign⟩ := takeSign_sound t
    refine ⟨e :: (sign ++ (takeSign t).2.takeWhile isDec), ?_, .digits (by simpa using he) hsign (digits_takeWhile hdigits)⟩
    rw [List.cons_append, List.append_assoc, List.tail_cons, List.takeWhile_append_dropWhile, ← hsplit]
  · exact ⟨[], rfl, .absent⟩

theorem takeExp_digits {e : ℕ} {sign d rest : PyStr} {negative : Bool} (he : e = 0x65 ∨ e = 0x45) (hsign : SignText sign negative)
    (hd : Digits d) (hrest : NoDigit rest) : takeExp (e :: (sign ++ d ++ rest)) = (some (negative, d), rest) := by
  obtain ⟨htake, hdrop⟩ := takeWhile_digits hd.2 hrest
  rw [takeExp, List.tail_cons, takeSign_complete hsign hd, htake, hdrop, if_pos ⟨by simpa using he, hd.1⟩]

theorem takeExp_none {s : PyStr} : takeExp s = (none, s) ↔ ∀ text exp t, s = text ++ t → ExpText text exp → text = [] := by
  constructor
  · rintro h text exp t rfl hexp
    cases hexp with
    | absent => rfl
    | @digits e sign negative d he hsign hd =>
      have htake : (d ++ t).takeWhile isDec ≠ [] := by
        obtain ⟨c, d', rfl⟩ := List.exists_cons_of_ne_nil hd.1
        simp [hd.2 c List.mem_cons_self]
      rw [List.cons_append, takeExp, List.tail_cons, takeSign_complete hsign hd, if_pos ⟨by simpa using he, htake⟩] at h
      cases h
  · intro h
    rw [takeExp, if_neg]
    rintro ⟨he, hdigits⟩
    obtain ⟨text, hsplit, hexp⟩ := takeExp_sound s
    rw [takeExp, if_pos ⟨he, hdigits⟩] at hsplit hexp
    obtain rfl := h text _ _ hsplit hexp
    cases hexp

theorem scanNumber_eq_some {s rest : PyStr} {lit : NumberLit} :
    scanNumber s = some (lit, rest) ↔ ∃ int t, takeInt (takeMinus s).2 = some (int, t) ∧
      lit = ⟨(takeMinus s).1, int, (takeFrac t).1, (takeExp (takeFrac t).2).1⟩ ∧ rest = (takeExp (takeFrac t).2).2 := by
  simp only [scanNumber, Option.bind_eq_bind, Option.bind_eq_some_iff, Option.pure_def, Option.some.injEq, Prod.mk.injEq,
    Prod.exists]
  refine exists_congr fun int => exists_congr fun t => and_congr_right fun _ => and_congr eq_comm eq_comm

theorem scanNumber_sound {s rest : PyStr} {lit : NumberLit} (h : scanNumber s = some (lit, rest)) :
    ∃ text, s = text ++ rest ∧ NumberText text lit := by
  obtain ⟨int, t, hint, rfl, rfl⟩ := scanNumber_eq_some.mp h
  obtain ⟨ht, hint, -⟩ := takeInt_sound hint
  obtain ⟨fracText, hfracSplit, hfrac⟩ := takeFrac_sound t
  obtain ⟨expText, hexpSplit, hexp⟩ := takeExp_sound (takeFrac t).2
  refine ⟨minus (takeMinus s).1 ++ (int ++ (fracText ++ expText)), ?_, .mk hint hfrac hexp⟩
  calc s = minus (takeMinus s).1 ++ (takeMinus s).2 := takeMinus_eq s
    _ = minus (takeMinus s).1 ++ (int ++ (fracText ++ (expText ++ (takeExp (takeFrac t).2).2))) := by
      rw [ht, ← hexpSplit, ← hfracSplit]
    _ = _ := by simp only [List.append_assoc]

theorem IntText.exists_cons {int : PyStr} (h : IntText int) : ∃ c t, int = c :: t ∧ isDec c := by
  cases h with
  | zero => exact ⟨_, _, rfl, rfl⟩
  | digits hc => exact ⟨_, _, rfl, hc⟩

theorem takeMinus_minus (negative : Bool) {int : PyStr} (h : IntText int) (rest : PyStr) :
    takeMinus (minus negative ++ (int ++ rest)) = (negative, int ++ rest) := by
  cases negative with
  | true => rfl
  | false =>
    obtain ⟨c, t, rfl, hc⟩ := h.exists_cons
    simp [takeMinus, minus, (head_digit hc).1]

theorem scanNumber_complete {text rest : PyStr} {lit : NumberLit} (h : NumberText text lit) (hrest : Follow rest) :
    scanNumber (text ++ rest) = some (lit, rest) := by
  obtain @⟨negative, int, fracText, frac, expText, exp, hint, hfrac, hexp⟩ := h
  have hexpDigit : NoDigit (expText ++ rest) := by
    cases hexp with
    | absent => exact hrest.noDigit
    | digits he =>
      rintro c ⟨⟩ hdec
      obtain ⟨-, -, -, he', hE⟩ := head_digit hdec
      exact he.elim he' hE
  have hfracDigit : NoDigit (fracText ++ (expText ++ rest)) := by
    cases hfrac with
    | absent => exact hexpDigit
    | digits =>
      rintro c ⟨⟩ hdec
      exact (head_digit hdec).2.2.1 rfl
  have htakeExp : takeExp (expText ++ rest) = (exp, rest) := by
    cases hexp with
    | absent => exact if_neg fun h => h.1.elim (hrest.head_ne (by simp)) (hrest.head_ne (by simp))
    | digits he hsign hd => exact takeExp_digits he hsign hd hrest.noDigit
  have htakeFrac : takeFrac (fracText ++ (expText ++ rest)) = (frac, expText ++ rest) := by
    cases hfrac with
    | absent =>
      refine if_neg fun h => ?_
      cases hexp with
      | absent => exact hrest.head_ne (by simp) h.1
      | digits he =>
        obtain rfl := Option.some.inj h.1
        exact absurd he (by decide)
    | digits hd => exact takeFrac_digits hd hexpDigit
  simp only [List.append_assoc, scanNumber, takeMinus_minus negative hint, takeInt_complete hint hfracDigit, htakeFrac, htakeExp,
    Option.bind_eq_bind, Option.bind_some, Option.pure_def]

/-- The scanner reads a long integer exactly where there is one. -/
theorem longInt_iff {limit : ℕ} (hlimit : 0 < limit) {s : PyStr} :
    LongInt limit s ↔ ∃ lit rest, scanNumber s = some (lit, rest) ∧ lit.frac = [] ∧ lit.exp = none ∧ limit < lit.int.length := by
  constructor
  · rintro @⟨negative, int, rest, hint, hlong, hdigit, hfrac, hexp⟩
    refine ⟨⟨negative, int, [], none⟩, rest, ?_, rfl, rfl, hlong⟩
    simp only [scanNumber, takeMinus_minus negative hint, takeInt_complete hint hdigit, takeFrac_nil.mpr hfrac,
      takeExp_none.mpr hexp, Option.bind_eq_bind, Option.bind_some, Option.pure_def]
  · rintro ⟨lit, rest, hscan, hfrac, hexp, hlong⟩
    obtain ⟨int, t, hint, rfl, rfl⟩ := scanNumber_eq_some.mp hscan
    obtain ⟨ht, hint, hdigit⟩ := takeInt_sound hint
    dsimp only at hfrac hexp hlong
    have hfracNil : takeFrac t = ([], t) := by
      obtain ⟨text, hsplit, htext⟩ := takeFrac_sound t
      rw [hfrac] at htext
      cases htext with
      | absent => exact Prod.ext hfrac hsplit.symm
      | digits h => exact absurd rfl h.1
    have hexpNone : takeExp t = (none, t) := by
      rw [hfracNil] at hexp
      obtain ⟨text, hsplit, htext⟩ := takeExp_sound t
      rw [hexp] at htext
      cases htext
      exact Prod.ext hexp hsplit.symm
    rw [takeMinus_eq s, ht]
    refine .mk hint hlong (hdigit ?_) (takeFrac_nil.mp hfracNil) (takeExp_none.mp hexpNone)
    rintro rfl
    simp only [List.length_cons, List.length_nil] at hlong
    omega

end Numbers

end M5DayLog.Contract
