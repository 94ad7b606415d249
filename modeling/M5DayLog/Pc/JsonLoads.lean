import M5DayLog.Pc.JsonTokens
import Mathlib.Data.Rat.Floor

/-! The values of a JSON text. `json.loads` reads every text of the grammar as the value that the grammar gives it. A text that
is none is a decoding error, save for an integer of too many digits and for containers nested too deep. -/

namespace M5DayLog.Contract

/-- `JSONDecodeError`, `ValueError` of a long integer, `RecursionError`. -/
inductive LoadsExc
  | decode
  | value
  | recursion
  deriving DecidableEq

/-- A value and the rest of the text. -/
abbrev Scanned (α : Type) := Except LoadsExc (α × PyStr)

/-- The limits of the host: the digits of an integer, and how many containers stand open at one time. -/
structure Limits where
  digits : ℕ
  digits_pos : 0 < digits
  depth : ℕ

section Scalars

/-- Half of the way goes to the even neighbour. -/
def roundHalfEven (q : ℚ) : ℤ :=
  if q - ⌊q⌋ < 1 / 2 ∨ (q - ⌊q⌋ = 1 / 2 ∧ ⌊q⌋ % 2 = 0) then ⌊q⌋ else ⌊q⌋ + 1

/-- The double that `float` gives: 53 bits, and none below `2 ^ (-1074)`. -/
def toDouble (q : ℚ) : PyFloat :=
  let ulp : ℚ := 2 ^ max (Int.log 2 |q| - 52) (-1074)
  let rounded := roundHalfEven (q / ulp) * ulp
  if 2 ^ 1024 ≤ |rounded| then .infinite (q < 0) else .finite rounded

namespace NumberLit

def exponent (lit : NumberLit) : ℤ :=
  match lit.exp with
  | none => 0
  | some (negative, d) => if negative then -(decNat d : ℤ) else decNat d

def isInt (lit : NumberLit) : Bool := lit.frac = [] && lit.exp = none

def toInt (lit : NumberLit) : ℤ := if lit.negative then -(decNat lit.int : ℤ) else decNat lit.int

def toRat (lit : NumberLit) : ℚ :=
  (if lit.negative then -1 else 1) * decNat (lit.int ++ lit.frac) * 10 ^ (lit.exponent - lit.frac.length)

def value (lit : NumberLit) : Json := if lit.isInt then .int lit.toInt else .float (toDouble lit.toRat)

/-- `int` refuses the text. -/
def TooLong (lit : NumberLit) (limit : ℕ) : Prop := lit.isInt ∧ limit < lit.int.length

instance (lit : NumberLit) (limit : ℕ) : Decidable (lit.TooLong limit) := inferInstanceAs (Decidable (_ ∧ _))

end NumberLit

def constants : List (PyStr × Json) :=
  [(text "null", .null), (text "true", .bool true), (text "false", .bool false), (text "NaN", .float .nan),
    (text "Infinity", .float (.infinite false)), (text "-Infinity", .float (.infinite true))]

inductive Scalar (limit : ℕ) : PyStr → Json → PyStr → Prop
  | string {s str rest} (h : Chars s str rest) : Scalar limit (0x22 :: s) (.str str) rest
  | constant {name v rest} (h : (name, v) ∈ constants) : Scalar limit (name ++ rest) v rest
  | number {text lit rest} (h : NumberText text lit) (hlimit : ¬ lit.TooLong limit) : Scalar limit (text ++ rest) lit.value rest

def scanConstant (s : PyStr) : Option (Json × PyStr) :=
  constants.findSome? fun p => if p.1.isPrefixOf s then some (p.2, s.drop p.1.length) else none

def scanScalar (limit : ℕ) (s : PyStr) : Scanned Json :=
  if s.head? = some 0x22 then
    match scanString s.tail with
    | none => .error .decode
    | some (str, rest) => .ok (.str str, rest)
  else
    match scanConstant s with
    | some p => .ok p
    | none =>
      match scanNumber s with
      | none => .error .decode
      | some (lit, rest) => if lit.TooLong limit then .error .value else .ok (lit.value, rest)

/-- A value starts neither with white space nor with the end of a container. -/
def Starts (s : PyStr) : Prop := ∃ c t, s = c :: t ∧ ¬ isWs c ∧ c ≠ 0x5d ∧ c ≠ 0x7d

/-- A scanner takes what a grammar derives, and stops at a limit where the text overruns it. -/
structure Exact {α : Type} (scan : PyStr → Scanned α) (Derives : PyStr → α → PyStr → Prop) (Overruns : PyStr → Prop) : Prop where
  sound : ∀ {s x rest}, scan s = .ok (x, rest) → Derives s x rest
  complete : ∀ {s x rest}, Derives s x rest → Follow rest → scan s = .ok (x, rest)
  overrun : ∀ {s}, Overruns s ↔ ∃ e, scan s = .error e ∧ e ≠ .decode
  shorter : ∀ {s x rest}, Derives s x rest → rest.length < s.length
  starts : ∀ {s x rest}, Derives s x rest → Starts s
  overrunStarts : ∀ {s}, Overruns s → Starts s

theorem Starts.noWs {s : PyStr} (h : Starts s) : NoWs s := by
  obtain ⟨c, t, rfl, hc, -⟩ := h
  exact noWs_cons hc t

theorem isDec_starts {c : ℕ} (h : isDec c) (t : PyStr) : Starts (c :: t) := by
  refine ⟨c, t, rfl, ?_⟩
  simp only [isDec, isWs, Bool.and_eq_true, Bool.or_eq_true, decide_eq_true_eq] at *
  omega

theorem intText_starts (negative : Bool) {int : PyStr} (h : IntText int) (rest : PyStr) :
    Starts (minus negative ++ (int ++ rest)) := by
  cases negative with
  | true => exact ⟨0x2d, int ++ rest, rfl, by decide⟩
  | false =>
    obtain ⟨c, t, rfl, hc⟩ := h.exists_cons
    exact isDec_starts hc (t ++ rest)

theorem numberText_starts {text : PyStr} {lit : NumberLit} (h : NumberText text lit) (rest : PyStr) : Starts (text ++ rest) := by
  obtain @⟨negative, int, fracText, frac, expText, exp, hint, -, -⟩ := h
  simp only [List.append_assoc]
  exact intText_starts negative hint _

theorem scanConstant_sound {s rest : PyStr} {v : Json} (h : scanConstant s = some (v, rest)) :
    ∃ name, (name, v) ∈ constants ∧ s = name ++ rest := by
  obtain ⟨⟨name, v'⟩, hmem, h⟩ := List.exists_of_findSome?_eq_some h
  split at h
  · next hpre =>
    obtain ⟨rfl, rfl⟩ := Prod.mk.inj (Option.some.inj h)
    obtain ⟨t, rfl⟩ := List.isPrefixOf_iff_prefix.mp hpre
    exact ⟨name, hmem, by rw [List.drop_left]⟩
  · cases h

theorem scanConstant_complete {name : PyStr} {v : Json} (h : (name, v) ∈ constants) (rest : PyStr) :
    scanConstant (name ++ rest) = some (v, rest) ∧ Starts (name ++ rest) ∧ (name ++ rest).head? ≠ some 0x22 ∧ name ≠ [] := by
  simp only [constants, List.mem_cons, Prod.mk.injEq, List.not_mem_nil, or_false] at h
  rcases h with ⟨rfl, rfl⟩ | ⟨rfl, rfl⟩ | ⟨rfl, rfl⟩ | ⟨rfl, rfl⟩ | ⟨rfl, rfl⟩ | ⟨rfl, rfl⟩ <;>
    exact ⟨rfl, ⟨_, _, rfl, by decide⟩, by simp [text], by decide⟩

/-- A number is neither a string nor a constant. -/
theorem number_head (negative : Bool) {int : PyStr} (h : IntText int) (rest : PyStr) :
    (minus negative ++ (int ++ rest)).head? ≠ some 0x22 ∧ scanConstant (minus negative ++ (int ++ rest)) = none := by
  obtain ⟨c, t, rfl, hc⟩ := h.exists_cons
  have hdigit : ∀ k, ¬ isDec k → c ≠ k := by
    rintro k hk rfl
    exact hk hc
  refine ⟨?_, Option.eq_none_iff_forall_ne_some.mpr fun p hp => ?_⟩
  · cases negative with
    | true => exact fun h => absurd (Option.some.inj h) (by decide)
    | false => simpa [minus] using hdigit 0x22 (by decide)
  · obtain ⟨name, hmem, heq⟩ := scanConstant_sound (show scanConstant _ = some (p.1, p.2) from hp)
    simp only [constants, List.mem_cons, Prod.mk.injEq, List.not_mem_nil, or_false] at hmem
    rcases hmem with ⟨rfl, -⟩ | ⟨rfl, -⟩ | ⟨rfl, -⟩ | ⟨rfl, -⟩ | ⟨rfl, -⟩ | ⟨rfl, -⟩ <;> cases negative <;>
      simp [minus, text] at heq <;> exact hdigit _ (by decide) heq.1

theorem scanScalar_exact {limit : ℕ} (hlimit : 0 < limit) : Exact (scanScalar limit) (Scalar limit) (LongInt limit) where
  sound {s v rest} h := by
    rw [scanScalar] at h
    split at h
    · next hquote =>
      obtain ⟨t, rfl⟩ := List.head?_eq_some_iff.mp hquote
      split at h
      · cases h
      · next str rest' hstr =>
        obtain ⟨rfl, rfl⟩ := Prod.mk.inj (Except.ok.inj h)
        exact .string (scanString_iff.mp hstr)
    · split at h
      · next p hconst =>
        obtain rfl := Except.ok.inj h
        obtain ⟨name, hmem, rfl⟩ := scanConstant_sound hconst
        exact .constant hmem
      · split at h
        · cases h
        · next lit rest' hnumber =>
          split at h
          · cases h
          · next hshort =>
            obtain ⟨rfl, rfl⟩ := Prod.mk.inj (Except.ok.inj h)
            obtain ⟨text, rfl, htext⟩ := scanNumber_sound hnumber
            exact .number htext hshort
  complete {s v rest} h hrest := by
    cases h with
    | string h => simp only [scanScalar, List.head?_cons, if_true, List.tail_cons, scanString_iff.mpr h]
    | constant h =>
      obtain ⟨hscan, -, hquote, -⟩ := scanConstant_complete h rest
      simp only [scanScalar, if_neg hquote, hscan]
    | number h hshort =>
      have hscan := scanNumber_complete h hrest
      obtain @⟨negative, int, fracText, frac, expText, exp, hint, -, -⟩ := h
      simp only [List.append_assoc] at hscan ⊢
      obtain ⟨hquote, hconst⟩ := number_head negative hint (fracText ++ (expText ++ rest))
      simp only [scanScalar, if_neg hquote, hconst, hscan, if_neg hshort]
  overrun {s} := by
    constructor
    · intro h
      obtain ⟨lit, rest, hscan, hfrac, hexp, hlong⟩ := (longInt_iff hlimit).mp h
      obtain @⟨negative, int, rest', hint, -, -, -, -⟩ := h
      obtain ⟨hquote, hconst⟩ := number_head negative hint rest'
      have htooLong : lit.TooLong limit := ⟨by simp [NumberLit.isInt, hfrac, hexp], hlong⟩
      refine ⟨.value, ?_, by decide⟩
      simp only [scanScalar, if_neg hquote, hconst, hscan, if_pos htooLong]
    · rintro ⟨e, h, he⟩
      rw [scanScalar] at h
      split at h
      · split at h
        · exact absurd (Except.error.inj h).symm he
        · cases h
      · split at h
        · cases h
        · split at h
          · exact absurd (Except.error.inj h).symm he
          · next lit rest hscan =>
            split at h
            · next htooLong =>
              obtain ⟨hint, hlong⟩ := htooLong
              simp only [NumberLit.isInt, Bool.and_eq_true, decide_eq_true_eq] at hint
              exact (longInt_iff hlimit).mpr ⟨lit, rest, hscan, hint.1, hint.2, hlong⟩
            · cases h
  shorter {s v rest} h := by
    cases h with
    | string h => exact Nat.lt_succ_of_lt h.length_lt
    | constant h =>
      have := List.length_pos_iff.mpr (scanConstant_complete h rest).2.2.2
      rw [List.length_append]
      omega
    | number h =>
      obtain @⟨negative, int, fracText, frac, expText, exp, hint, -, -⟩ := h
      obtain ⟨c, t, rfl, -⟩ := hint.exists_cons
      simp only [List.length_append, List.length_cons]
      omega
  starts {s v rest} h := by
    cases h with
    | string => exact ⟨_, _, rfl, by decide⟩
    | constant h => exact (scanConstant_complete h rest).2.1
    | number h => exact numberText_starts h rest
  overrunStarts {s} h := by
    obtain @⟨negative, int, rest, hint, -, -, -, -⟩ := h
    exact intText_starts negative hint rest

end Scalars

section Containers

variable {α : Type}

def keep {β : Type} (f : α → β) (x : Scanned α) : Scanned β := x.map fun p => (f p.1, p.2)

/-- The elements of a container and its end, from the first element. -/
inductive Elements (E : PyStr → α → PyStr → Prop) (close : ℕ) : PyStr → List α → PyStr → Prop
  | last {s x t rest} (hx : E s x t) (hclose : Ws t (close :: rest)) : Elements E close s [x] rest
  | more {s x t u v xs rest} (hx : E s x t) (hcomma : Ws t (0x2c :: u)) (hws : Ws u v) (hxs : Elements E close v xs rest) :
    Elements E close s (x :: xs) rest

inductive ElementsOverrun (E : PyStr → α → PyStr → Prop) (O : PyStr → Prop) : PyStr → Prop
  | here {s} (h : O s) : ElementsOverrun E O s
  | later {s x t u v} (hx : E s x t) (hcomma : Ws t (0x2c :: u)) (hws : Ws u v) (h : ElementsOverrun E O v) : ElementsOverrun E O s

/-- What follows the start of a container. -/
inductive Bracketed (E : PyStr → α → PyStr → Prop) (close : ℕ) : PyStr → List α → PyStr → Prop
  | empty {s rest} (h : Ws s (close :: rest)) : Bracketed E close s [] rest
  | elements {s t xs rest} (hws : Ws s t) (h : Elements E close t xs rest) : Bracketed E close s xs rest

inductive BracketedOverrun (E : PyStr → α → PyStr → Prop) (O : PyStr → Prop) : PyStr → Prop
  | mk {s t} (hws : Ws s t) (h : ElementsOverrun E O t) : BracketedOverrun E O s

inductive Key : PyStr → PyStr → PyStr → Prop
  | mk {s key t rest} (hkey : Chars s key t) (hcolon : Ws t (0x3a :: rest)) : Key (0x22 :: s) key rest

inductive Member (V : PyStr → Json → PyStr → Prop) : PyStr → PyStr × Json → PyStr → Prop
  | mk {s key t u v rest} (hkey : Key s key t) (hws : Ws t u) (hvalue : V u v rest) : Member V s (key, v) rest

inductive MemberOverrun (O : PyStr → Prop) : PyStr → Prop
  | mk {s key t u} (hkey : Key s key t) (hws : Ws t u) (h : O u) : MemberOverrun O s

/-- `d[key] = v`: an old key keeps its place. -/
def setItem : List (PyStr × Json) → PyStr → Json → List (PyStr × Json)
  | [], key, v => [(key, v)]
  | (k, w) :: fields, key, v => if k = key then (k, v) :: fields else (k, w) :: setItem fields key v

def toDict (members : List (PyStr × Json)) : List (PyStr × Json) := members.foldl (fun fields p => setItem fields p.1 p.2) []

inductive Container (V : PyStr → Json → PyStr → Prop) : PyStr → Json → PyStr → Prop
  | array {s vs rest} (h : Bracketed V 0x5d s vs rest) : Container V (0x5b :: s) (.list vs) rest
  | object {s members rest} (h : Bracketed (Member V) 0x7d s members rest) : Container V (0x7b :: s) (.dict (toDict members)) rest

inductive ContainerOverrun (V : PyStr → Json → PyStr → Prop) (O : PyStr → Prop) : PyStr → Prop
  | array {s} (h : BracketedOverrun V O s) : ContainerOverrun V O (0x5b :: s)
  | object {s} (h : BracketedOverrun (Member V) (MemberOverrun O) s) : ContainerOverrun V O (0x7b :: s)

def opens (s : PyStr) : Prop := s.head? = some 0x5b ∨ s.head? = some 0x7b

instance (s : PyStr) : Decidable (opens s) := inferInstanceAs (Decidable (_ ∨ _))

/-- The loop over the elements of a container; each takes a character of the text or more. -/
def scanElements (element : PyStr → Scanned α) (close : ℕ) : (fuel : ℕ) → PyStr → Scanned (List α)
  | 0, _ => .error .decode
  | fuel + 1, s =>
    match element s with
    | .error e => .error e
    | .ok (x, t) =>
      match skipWs t with
      | [] => .error .decode
      | c :: u =>
        if c = close then .ok ([x], u)
        else if c = 0x2c then keep (x :: ·) (scanElements element close fuel (skipWs u))
        else .error .decode

def scanBracketed (element : PyStr → Scanned α) (close : ℕ) (s : PyStr) : Scanned (List α) :=
  if (skipWs s).head? = some close then .ok ([], (skipWs s).tail) else scanElements element close (s.length + 1) (skipWs s)

def scanKey : PyStr → Scanned PyStr
  | [] => .error .decode
  | c :: s =>
    if c = 0x22 then
      match scanString s with
      | none => .error .decode
      | some (key, t) => if (skipWs t).head? = some 0x3a then .ok (key, (skipWs t).tail) else .error .decode
    else .error .decode

def scanMember (scan : PyStr → Scanned Json) (s : PyStr) : Scanned (PyStr × Json) :=
  match scanKey s with
  | .error e => .error e
  | .ok (key, t) => keep (key, ·) (scan (skipWs t))

/-- `_scan_once_unicode`, with what the limit of the host leaves of the nesting. -/
def scanOnce (limit : ℕ) : (depth : ℕ) → PyStr → Scanned Json
  | 0, s => if opens s then .error .recursion else scanScalar limit s
  | depth + 1, s =>
    if s.head? = some 0x5b then keep .list (scanBracketed (scanOnce limit depth) 0x5d s.tail)
    else if s.head? = some 0x7b then keep (.dict ∘ toDict) (scanBracketed (scanMember (scanOnce limit depth)) 0x7d s.tail)
    else scanScalar limit s

/-- A value with at most `depth` containers around any part of it. -/
def Value (limit : ℕ) : (depth : ℕ) → PyStr → Json → PyStr → Prop
  | 0, s, v, rest => Scalar limit s v rest
  | depth + 1, s, v, rest => Scalar limit s v rest ∨ Container (Value limit depth) s v rest

/-- The text reads as a value up to an integer that is too long or a container that is nested too deep. -/
def Overrun (limit : ℕ) : (depth : ℕ) → PyStr → Prop
  | 0, s => LongInt limit s ∨ opens s
  | depth + 1, s => LongInt limit s ∨ ContainerOverrun (Value limit depth) (Overrun limit depth) s

variable {E : PyStr → α → PyStr → Prop} {O : PyStr → Prop} {element : PyStr → Scanned α} {close : ℕ}

@[simp] theorem keep_ok {β : Type} {f : α → β} {x : Scanned α} {b : β} {rest : PyStr} :
    keep f x = .ok (b, rest) ↔ ∃ a, x = .ok (a, rest) ∧ f a = b := by
  cases x with
  | error e => simp [keep, Except.map]
  | ok p =>
    obtain ⟨a, t⟩ := p
    simp only [keep, Except.map, Except.ok.injEq, Prod.mk.injEq]
    exact ⟨fun ⟨h, ht⟩ => ⟨a, ⟨rfl, ht⟩, h⟩, fun ⟨_, ⟨ha, ht⟩, h⟩ => ⟨ha ▸ h, ht⟩⟩

@[simp] theorem keep_error {β : Type} {f : α → β} {x : Scanned α} {e : LoadsExc} : keep f x = .error e ↔ x = .error e := by
  cases x <;> simp [keep, Except.map]

theorem Elements.starts (hE : Exact element E O) {s rest : PyStr} {xs : List α} (h : Elements E close s xs rest) : Starts s := by
  cases h with
  | last hx => exact hE.starts hx
  | more hx => exact hE.starts hx

theorem Elements.shorter (hE : Exact element E O) {s rest : PyStr} {xs : List α} (h : Elements E close s xs rest) :
    rest.length < s.length := by
  induction h with
  | last hx hclose =>
    have := hE.shorter hx
    have := hclose.length_le
    simp only [List.length_cons] at this
    omega
  | more hx hcomma hws _ ih =>
    have := hE.shorter hx
    have := hcomma.length_le
    have := hws.length_le
    simp only [List.length_cons] at *
    omega

theorem ElementsOverrun.starts (hE : Exact element E O) {s : PyStr} (h : ElementsOverrun E O s) : Starts s := by
  cases h with
  | here h => exact hE.overrunStarts h
  | later hx => exact hE.starts hx

/-- After an element stands the end, or a comma and more. -/
theorem scanElements_succ {fuel : ℕ} {s t u : PyStr} {x : α} {c : ℕ} (hx : element s = .ok (x, t)) (hskip : skipWs t = c :: u) :
    scanElements element close (fuel + 1) s =
      if c = close then .ok ([x], u)
      else if c = 0x2c then keep (x :: ·) (scanElements element close fuel (skipWs u))
      else .error .decode := by
  simp only [scanElements, hx, hskip]

theorem scanElements_sound (hE : Exact element E O) {fuel : ℕ} {s rest : PyStr} {xs : List α}
    (h : scanElements element close fuel s = .ok (xs, rest)) : Elements E close s xs rest := by
  induction fuel generalizing s xs with
  | zero => cases h
  | succ fuel ih =>
    rw [scanElements] at h
    split at h
    · cases h
    · next x t hx =>
      have hws := ws_skipWs t
      split at h
      · cases h
      · next c u hskip =>
        rw [hskip] at hws
        split at h
        · next hc =>
          obtain ⟨rfl, rfl⟩ := Prod.mk.inj (Except.ok.inj h)
          exact .last (hE.sound hx) (hc ▸ hws)
        · split at h
          · next hc =>
            obtain ⟨xs, hxs, rfl⟩ := keep_ok.mp h
            exact .more (hE.sound hx) (hc ▸ hws) (ws_skipWs u) (ih hxs)
          · cases h

theorem skipWs_of_ws {s t : PyStr} {c : ℕ} (h : Ws s (c :: t)) (hc : c = 0x2c ∨ c = 0x5d ∨ c = 0x7d ∨ c = 0x3a) :
    skipWs s = c :: t := by
  rw [h.skipWs_eq]
  exact (noWs_cons (by rcases hc with rfl | rfl | rfl | rfl <;> decide) t).skipWs_eq

theorem scanElements_complete (hE : Exact element E O) (hclose : close = 0x5d ∨ close = 0x7d) {s rest : PyStr} {xs : List α}
    (h : Elements E close s xs rest) {fuel : ℕ} (hfuel : s.length < fuel) :
    scanElements element close fuel s = .ok (xs, rest) := by
  induction h generalizing fuel with
  | last hx hend =>
    obtain ⟨fuel, rfl⟩ := Nat.exists_eq_succ_of_ne_zero (Nat.ne_zero_of_lt hfuel)
    rw [scanElements_succ (hE.complete hx (.of_ws hend (.inr hclose))) (skipWs_of_ws hend (by tauto)), if_pos rfl]
  | @more s x t u v xs rest hx hcomma hws hxs ih =>
    obtain ⟨fuel, rfl⟩ := Nat.exists_eq_succ_of_ne_zero (Nat.ne_zero_of_lt hfuel)
    have hne : 0x2c ≠ close := by rcases hclose with rfl | rfl <;> decide
    have hshort := hE.shorter hx
    have := hcomma.length_le
    have := hws.length_le
    simp only [List.length_cons] at *
    rw [scanElements_succ (hE.complete hx (.of_ws hcomma (.inl rfl))) (skipWs_of_ws hcomma (.inl rfl)), if_neg hne, if_pos rfl,
      hws.skipWs_eq, (hxs.starts hE).noWs.skipWs_eq, ih (by omega)]
    rfl

theorem scanElements_overrun (hE : Exact element E O) (hclose : close = 0x5d ∨ close = 0x7d) {s : PyStr} (h : ElementsOverrun E O s)
    {fuel : ℕ} (hfuel : s.length < fuel) : ∃ e, scanElements element close fuel s = .error e ∧ e ≠ .decode := by
  induction h generalizing fuel with
  | here h =>
    obtain ⟨fuel, rfl⟩ := Nat.exists_eq_succ_of_ne_zero (Nat.ne_zero_of_lt hfuel)
    obtain ⟨e, he, hne⟩ := hE.overrun.mp h
    exact ⟨e, by rw [scanElements, he], hne⟩
  | later hx hcomma hws h ih =>
    obtain ⟨fuel, rfl⟩ := Nat.exists_eq_succ_of_ne_zero (Nat.ne_zero_of_lt hfuel)
    have hne : 0x2c ≠ close := by rcases hclose with rfl | rfl <;> decide
    have hshort := hE.shorter hx
    have := hcomma.length_le
    have := hws.length_le
    simp only [List.length_cons] at *
    obtain ⟨e, he, hdecode⟩ := @ih fuel (by omega)
    refine ⟨e, ?_, hdecode⟩
    rw [scanElements_succ (hE.complete hx (.of_ws hcomma (.inl rfl))) (skipWs_of_ws hcomma (.inl rfl)), if_neg hne, if_pos rfl,
      hws.skipWs_eq, (h.starts hE).noWs.skipWs_eq, keep_error, he]

theorem scanElements_error (hE : Exact element E O) {fuel : ℕ} {s : PyStr} {e : LoadsExc}
    (h : scanElements element close fuel s = .error e) (he : e ≠ .decode) : ElementsOverrun E O s := by
  induction fuel generalizing s with
  | zero => exact absurd (Except.error.inj h).symm he
  | succ fuel ih =>
    rw [scanElements] at h
    split at h
    · next e' hx =>
      obtain rfl := Except.error.inj h
      exact .here (hE.overrun.mpr ⟨e', hx, he⟩)
    · next x t hx =>
      have hws := ws_skipWs t
      split at h
      · exact absurd (Except.error.inj h).symm he
      · next c u hskip =>
        rw [hskip] at hws
        split at h
        · cases h
        · split at h
          · next hc => exact .later (hE.sound hx) (hc ▸ hws) (ws_skipWs u) (ih (keep_error.mp h))
          · exact absurd (Except.error.inj h).symm he

theorem scanBracketed_sound (hE : Exact element E O) {s rest : PyStr} {xs : List α}
    (h : scanBracketed element close s = .ok (xs, rest)) : Bracketed E close s xs rest := by
  have hws := ws_skipWs s
  rw [scanBracketed] at h
  split at h
  · next hhead =>
    obtain ⟨t, hskip⟩ := List.head?_eq_some_iff.mp hhead
    obtain ⟨rfl, rfl⟩ := Prod.mk.inj (Except.ok.inj h)
    rw [hskip] at hws ⊢
    exact .empty hws
  · exact .elements hws (scanElements_sound hE h)

theorem Starts.head_ne {s : PyStr} (h : Starts s) (hclose : close = 0x5d ∨ close = 0x7d) : s.head? ≠ some close := by
  obtain ⟨c, t, rfl, -, hbracket, hbrace⟩ := h
  intro hc
  obtain rfl := Option.some.inj hc
  exact hclose.elim hbracket hbrace

theorem scanBracketed_elements (hclose : close = 0x5d ∨ close = 0x7d) {s t : PyStr} (hws : Ws s t) (ht : Starts t) :
    scanBracketed element close s = scanElements element close (s.length + 1) t := by
  have hskip : skipWs s = t := by rw [hws.skipWs_eq, ht.noWs.skipWs_eq]
  rw [scanBracketed, hskip, if_neg (ht.head_ne hclose)]

theorem scanBracketed_complete (hE : Exact element E O) (hclose : close = 0x5d ∨ close = 0x7d) {s rest : PyStr} {xs : List α}
    (h : Bracketed E close s xs rest) : scanBracketed element close s = .ok (xs, rest) := by
  cases h with
  | empty h =>
    rw [scanBracketed, skipWs_of_ws h (by tauto), if_pos List.head?_cons]
    rfl
  | elements hws h =>
    rw [scanBracketed_elements hclose hws (h.starts hE)]
    exact scanElements_complete hE hclose h (Nat.lt_succ_of_le hws.length_le)

theorem scanBracketed_overrun (hE : Exact element E O) (hclose : close = 0x5d ∨ close = 0x7d) {s : PyStr} :
    BracketedOverrun E O s ↔ ∃ e, scanBracketed element close s = .error e ∧ e ≠ .decode := by
  constructor
  · rintro ⟨hws, h⟩
    rw [scanBracketed_elements hclose hws (h.starts hE)]
    exact scanElements_overrun hE hclose h (Nat.lt_succ_of_le hws.length_le)
  · rintro ⟨e, h, he⟩
    rw [scanBracketed] at h
    split at h
    · cases h
    · exact ⟨ws_skipWs s, scanElements_error hE h he⟩

theorem Bracketed.length_le (hE : Exact element E O) {s rest : PyStr} {xs : List α} (h : Bracketed E close s xs rest) :
    rest.length < s.length := by
  cases h with
  | empty h => exact h.length_le
  | elements hws h => exact (h.shorter hE).trans_le hws.length_le

theorem scanKey_iff {s key rest : PyStr} : scanKey s = .ok (key, rest) ↔ Key s key rest := by
  constructor
  · intro h
    cases s with
    | nil => cases h
    | cons c s =>
      rw [scanKey] at h
      split at h
      · next hc =>
        split at h
        · cases h
        · next key' t hkey =>
          have hws := ws_skipWs t
          split at h
          · next hcolon =>
            obtain ⟨u, hskip⟩ := List.head?_eq_some_iff.mp hcolon
            obtain ⟨rfl, rfl⟩ := Prod.mk.inj (Except.ok.inj h)
            rw [hskip] at hws ⊢
            rw [hc]
            exact .mk (scanString_iff.mp hkey) hws
          · cases h
      · cases h
  · rintro ⟨hkey, hcolon⟩
    simp only [scanKey, if_true, scanString_iff.mpr hkey, skipWs_of_ws hcolon (by simp), List.head?_cons, List.tail_cons]

theorem scanKey_error {s : PyStr} {e : LoadsExc} (h : scanKey s = .error e) : e = .decode := by
  cases s with
  | nil => exact (Except.error.inj h).symm
  | cons c s =>
    rw [scanKey] at h
    split at h
    · split at h
      · exact (Except.error.inj h).symm
      · split at h
        · cases h
        · exact (Except.error.inj h).symm
    · exact (Except.error.inj h).symm

theorem Key.length_lt {s key rest : PyStr} (h : Key s key rest) : rest.length < s.length := by
  obtain ⟨hkey, hcolon⟩ := h
  have := hkey.length_lt
  have := hcolon.length_le
  simp only [List.length_cons] at *
  omega

theorem Key.starts {s key rest : PyStr} (h : Key s key rest) : Starts s := by
  obtain ⟨-, -⟩ := h
  exact ⟨_, _, rfl, by decide⟩

section Members

variable {V : PyStr → Json → PyStr → Prop} {scan : PyStr → Scanned Json}

theorem scanMember_eq {s key t u : PyStr} (hkey : Key s key t) (hws : Ws t u) (hu : Starts u) :
    scanMember scan s = keep (key, ·) (scan u) := by
  simp only [scanMember, scanKey_iff.mpr hkey, hws.skipWs_eq, hu.noWs.skipWs_eq]

theorem scanMember_exact (hV : Exact scan V O) : Exact (scanMember scan) (Member V) (MemberOverrun O) where
  sound {s x rest} h := by
    rw [scanMember] at h
    split at h
    · cases h
    · next key t hkey =>
      obtain ⟨v, hv, rfl⟩ := keep_ok.mp h
      exact .mk (scanKey_iff.mp hkey) (ws_skipWs t) (hV.sound hv)
  complete {s x rest} h hrest := by
    obtain ⟨hkey, hws, hv⟩ := h
    rw [scanMember_eq hkey hws (hV.starts hv), hV.complete hv hrest]
    rfl
  overrun {s} := by
    constructor
    · rintro ⟨hkey, hws, h⟩
      rw [scanMember_eq hkey hws (hV.overrunStarts h)]
      simp only [keep_error]
      exact hV.overrun.mp h
    · rintro ⟨e, h, he⟩
      rw [scanMember] at h
      split at h
      · next e' hkey =>
        obtain rfl := Except.error.inj h
        exact absurd (scanKey_error hkey) he
      · next key t hkey => exact .mk (scanKey_iff.mp hkey) (ws_skipWs t) (hV.overrun.mpr ⟨e, keep_error.mp h, he⟩)
  shorter {s x rest} h := by
    obtain ⟨hkey, hws, hv⟩ := h
    exact (hV.shorter hv).trans_le (hws.length_le.trans hkey.length_lt.le)
  starts {s x rest} h := by
    obtain ⟨hkey, -, -⟩ := h
    exact hkey.starts
  overrunStarts {s} h := by
    obtain ⟨hkey, -, -⟩ := h
    exact hkey.starts

end Members

theorem scanScalar_opens {limit : ℕ} {s : PyStr} (h : opens s) : scanScalar limit s = .error .decode := by
  rcases h with h | h
  all_goals
    obtain ⟨t, rfl⟩ := List.head?_eq_some_iff.mp h
    rfl

theorem opens_starts {s : PyStr} (h : opens s) : Starts s := by
  rcases h with h | h
  all_goals
    obtain ⟨t, rfl⟩ := List.head?_eq_some_iff.mp h
    exact ⟨_, t, rfl, by decide⟩

theorem scanOnce_scalar {limit : ℕ} (depth : ℕ) {s : PyStr} (h : ¬ opens s) : scanOnce limit depth s = scanScalar limit s := by
  cases depth with
  | zero => rw [scanOnce, if_neg h]
  | succ depth => rw [scanOnce, if_neg fun h' => h (.inl h'), if_neg fun h' => h (.inr h')]

/-- At every depth the scanner takes the values of the grammar, and no other text. -/
theorem scanOnce_exact {limit : ℕ} (hlimit : 0 < limit) (depth : ℕ) :
    Exact (scanOnce limit depth) (Value limit depth) (Overrun limit depth) := by
  have hscalar := scanScalar_exact hlimit
  have scalarComplete : ∀ {depth s v rest}, Scalar limit s v rest → Follow rest → scanOnce limit depth s = .ok (v, rest) := by
    intro depth s v rest h hrest
    have hscan := hscalar.complete h hrest
    rwa [scanOnce_scalar depth fun hopens => by rw [scanScalar_opens hopens] at hscan; cases hscan]
  have scalarOverrun : ∀ {depth s}, LongInt limit s → ∃ e, scanOnce limit depth s = .error e ∧ e ≠ .decode := by
    intro depth s h
    obtain ⟨e, he, hne⟩ := hscalar.overrun.mp h
    refine ⟨e, ?_, hne⟩
    rwa [scanOnce_scalar depth fun hopens => by rw [scanScalar_opens hopens] at he; exact hne (Except.error.inj he).symm]
  induction depth with
  | zero =>
    exact {
      sound := fun {s v rest} h => by
        rw [scanOnce] at h
        split at h
        · cases h
        · exact hscalar.sound h
      complete := scalarComplete
      overrun := fun {s} => by
        constructor
        · rintro (h | h)
          · exact scalarOverrun h
          · exact ⟨.recursion, by rw [scanOnce, if_pos h], by decide⟩
        · rintro ⟨e, h, he⟩
          rw [scanOnce] at h
          split at h
          · next hopens => exact .inr hopens
          · exact .inl (hscalar.overrun.mpr ⟨e, h, he⟩)
      shorter := hscalar.shorter
      starts := hscalar.starts
      overrunStarts := fun h => h.elim hscalar.overrunStarts opens_starts }
  | succ depth ih =>
    have hmember := scanMember_exact ih
    exact {
      sound := fun {s v rest} h => by
        rw [scanOnce] at h
        split at h
        · next hhead =>
          obtain ⟨t, rfl⟩ := List.head?_eq_some_iff.mp hhead
          obtain ⟨vs, hvs, rfl⟩ := keep_ok.mp h
          exact .inr (.array (scanBracketed_sound ih hvs))
        · split at h
          · next hhead =>
            obtain ⟨t, rfl⟩ := List.head?_eq_some_iff.mp hhead
            obtain ⟨members, hmembers, rfl⟩ := keep_ok.mp h
            exact .inr (.object (scanBracketed_sound hmember hmembers))
          · exact .inl (hscalar.sound h)
      complete := fun {s v rest} h hrest => by
        rcases h with h | h | h
        · exact scalarComplete h hrest
        · rw [scanOnce, if_pos List.head?_cons, List.tail_cons, scanBracketed_complete ih (.inl rfl) h]
          rfl
        · rw [scanOnce, if_neg (by simp), if_pos List.head?_cons, List.tail_cons, scanBracketed_complete hmember (.inr rfl) h]
          rfl
      overrun := fun {s} => by
        constructor
        · rintro (h | h | h)
          · exact scalarOverrun h
          · rw [scanOnce, if_pos List.head?_cons, List.tail_cons]
            simp only [keep_error]
            exact (scanBracketed_overrun ih (.inl rfl)).mp h
          · rw [scanOnce, if_neg (by simp), if_pos List.head?_cons, List.tail_cons]
            simp only [keep_error]
            exact (scanBracketed_overrun hmember (.inr rfl)).mp h
        · rintro ⟨e, h, he⟩
          rw [scanOnce] at h
          split at h
          · next hhead =>
            obtain ⟨t, rfl⟩ := List.head?_eq_some_iff.mp hhead
            exact .inr (.array ((scanBracketed_overrun ih (.inl rfl)).mpr ⟨e, keep_error.mp h, he⟩))
          · split at h
            · next hhead =>
              obtain ⟨t, rfl⟩ := List.head?_eq_some_iff.mp hhead
              exact .inr (.object ((scanBracketed_overrun hmember (.inr rfl)).mpr ⟨e, keep_error.mp h, he⟩))
            · exact .inl (hscalar.overrun.mpr ⟨e, h, he⟩)
      shorter := fun h => by
        rcases h with h | h | h
        · exact hscalar.shorter h
        · exact Nat.lt_succ_of_lt (h.length_le ih)
        · exact Nat.lt_succ_of_lt (h.length_le hmember)
      starts := fun h => by
        rcases h with h | h | h
        · exact hscalar.starts h
        · exact ⟨_, _, rfl, by decide⟩
        · exact ⟨_, _, rfl, by decide⟩
      overrunStarts := fun h => by
        rcases h with h | h | h
        · exact hscalar.overrunStarts h
        · exact ⟨_, _, rfl, by decide⟩
        · exact ⟨_, _, rfl, by decide⟩ }

end Containers

section Texts

/-- A JSON text: a value, with white space around it. -/
inductive JsonText (limits : Limits) : PyStr → Json → Prop
  | mk {s t v rest} (hws : Ws s t) (h : Value limits.digits limits.depth t v rest) (hend : Ws rest []) : JsonText limits s v

/-- The text reads as JSON up to where it overruns a limit. -/
inductive Overruns (limits : Limits) : PyStr → Prop
  | mk {s t} (hws : Ws s t) (h : Overrun limits.digits limits.depth t) : Overruns limits s

/-- `json.loads(s)`. -/
def loads (limits : Limits) (s : PyStr) : Except LoadsExc Json :=
  match scanOnce limits.digits limits.depth (skipWs s) with
  | .error e => .error e
  | .ok (v, rest) => if skipWs rest = [] then .ok v else .error .decode

theorem follow_of_end {s : PyStr} (h : Ws s []) : Follow s := by
  obtain ⟨w, hw, rfl⟩ := h
  rw [List.append_nil]
  exact fun c hc => .inl (hw c (List.mem_of_mem_head? hc))

theorem loads_eq_of_ws {limits : Limits} {s t : PyStr} (hws : Ws s t) (ht : Starts t) :
    loads limits s = match scanOnce limits.digits limits.depth t with
      | .error e => .error e
      | .ok (v, rest) => if skipWs rest = [] then .ok v else .error .decode := by
  rw [loads, hws.skipWs_eq, ht.noWs.skipWs_eq]

/-- `json.loads` gives a value to the JSON texts, the one that the grammar gives. -/
theorem loads_ok_iff {limits : Limits} {s : PyStr} {v : Json} : loads limits s = .ok v ↔ JsonText limits s v := by
  have hexact := scanOnce_exact limits.digits_pos limits.depth
  constructor
  · intro h
    rw [loads] at h
    split at h
    · cases h
    · next v' rest hscan =>
      have hws := ws_skipWs rest
      split at h
      · next hend =>
        obtain rfl := Except.ok.inj h
        rw [hend] at hws
        exact .mk (ws_skipWs s) (hexact.sound hscan) hws
      · cases h
  · rintro ⟨hws, hv, hend⟩
    have hskip : skipWs _ = [] := hend.skipWs_eq
    simp only [loads_eq_of_ws hws (hexact.starts hv), hexact.complete hv (follow_of_end hend), hskip, if_true]

/-- `json.loads` fails with another error than that of decoding where the text overruns a limit, and nowhere else. -/
theorem loads_error_iff {limits : Limits} {s : PyStr} :
    Overruns limits s ↔ ∃ e, loads limits s = .error e ∧ e ≠ .decode := by
  have hexact := scanOnce_exact limits.digits_pos limits.depth
  constructor
  · rintro ⟨hws, h⟩
    obtain ⟨e, he, hne⟩ := hexact.overrun.mp h
    exact ⟨e, by rw [loads_eq_of_ws hws (hexact.overrunStarts h), he], hne⟩
  · rintro ⟨e, h, hne⟩
    rw [loads] at h
    split at h
    · next e' hscan =>
      obtain rfl := Except.error.inj h
      exact .mk (ws_skipWs s) (hexact.overrun.mpr ⟨e', hscan, hne⟩)
    · split at h
      · cases h
      · exact absurd (Except.error.inj h).symm hne

/-- The text is JSON of this value, whatever the limits of a host. -/
def IsJson (s : PyStr) (v : Json) : Prop := ∃ limits, JsonText limits s v

/-- `scan'` gives what `scan` gives, save where `scan` stops at a limit. -/
def Extends {α : Type} (scan scan' : PyStr → Scanned α) : Prop := ∀ s, (∃ e, scan s = .error e ∧ e ≠ .decode) ∨ scan' s = scan s

variable {α : Type}

theorem scanElements_extends {element element' : PyStr → Scanned α} (h : Extends element element') (close fuel : ℕ) :
    Extends (scanElements element close fuel) (scanElements element' close fuel) := by
  induction fuel with
  | zero => exact fun s => .inr rfl
  | succ fuel ih =>
    intro s
    rcases h s with ⟨e, he, hne⟩ | hsame
    · exact .inl ⟨e, by rw [scanElements, he], hne⟩
    · simp only [scanElements, hsame]
      rcases element s with e | ⟨x, t⟩
      · exact .inr rfl
      · dsimp only
        rcases skipWs t with _ | ⟨c, u⟩
        · exact .inr rfl
        · dsimp only
          split_ifs
          · exact .inr rfl
          · rcases ih (skipWs u) with ⟨e, he, hne⟩ | hrest
            · exact .inl ⟨e, keep_error.mpr he, hne⟩
            · exact .inr (by rw [hrest])
          · exact .inr rfl

theorem scanBracketed_extends {element element' : PyStr → Scanned α} (h : Extends element element') (close : ℕ) :
    Extends (scanBracketed element close) (scanBracketed element' close) := by
  intro s
  simp only [scanBracketed]
  split_ifs
  · exact .inr rfl
  · exact scanElements_extends h close _ _

theorem keep_extends {β : Type} {scan scan' : PyStr → Scanned α} (h : Extends scan scan') (f : α → β) (s : PyStr) :
    (∃ e, keep f (scan s) = .error e ∧ e ≠ .decode) ∨ keep f (scan' s) = keep f (scan s) := by
  rcases h s with ⟨e, he, hne⟩ | hsame
  · exact .inl ⟨e, keep_error.mpr he, hne⟩
  · exact .inr (by rw [hsame])

theorem scanMember_extends {scan scan' : PyStr → Scanned Json} (h : Extends scan scan') : Extends (scanMember scan) (scanMember scan') := by
  intro s
  simp only [scanMember]
  rcases scanKey s with e | ⟨key, t⟩
  · exact .inr rfl
  · exact keep_extends h (key, ·) _

theorem scanScalar_extends {limit limit' : ℕ} (h : limit ≤ limit') : Extends (scanScalar limit) (scanScalar limit') := by
  intro s
  simp only [scanScalar]
  split_ifs
  · exact .inr rfl
  · rcases scanConstant s with _ | p
    · dsimp only
      rcases scanNumber s with _ | ⟨lit, rest⟩
      · exact .inr rfl
      · dsimp only
        by_cases hlong : lit.TooLong limit
        · exact .inl ⟨.value, if_pos hlong, by decide⟩
        · have hshort : ¬ lit.TooLong limit' := fun h' => hlong ⟨h'.1, h.trans_lt h'.2⟩
          exact .inr (by rw [if_neg hlong, if_neg hshort])
    · exact .inr rfl

/-- Higher limits change nothing but where a limit is hit. -/
theorem scanOnce_extends {limit limit' depth depth' : ℕ} (hlimit : limit ≤ limit') (hdepth : depth ≤ depth') :
    Extends (scanOnce limit depth) (scanOnce limit' depth') := by
  induction depth generalizing depth' with
  | zero =>
    intro s
    by_cases hopens : opens s
    · exact .inl ⟨.recursion, if_pos hopens, by decide⟩
    · rw [scanOnce_scalar 0 hopens, scanOnce_scalar depth' hopens]
      exact scanScalar_extends hlimit s
  | succ depth ih =>
    obtain ⟨depth', rfl⟩ := Nat.exists_eq_add_of_le' (Nat.le_of_add_left_le hdepth)
    have h := ih (Nat.le_of_succ_le_succ hdepth)
    intro s
    simp only [scanOnce]
    split_ifs
    · exact keep_extends (scanBracketed_extends h _) _ _
    · exact keep_extends (scanBracketed_extends (scanMember_extends h) _) _ _
    · exact scanScalar_extends hlimit s

theorem loads_extends {limits limits' : Limits} (hdigits : limits.digits ≤ limits'.digits) (hdepth : limits.depth ≤ limits'.depth)
    {s : PyStr} (h : ¬ Overruns limits s) : loads limits' s = loads limits s := by
  rcases scanOnce_extends hdigits hdepth (skipWs s) with ⟨e, he, hne⟩ | hsame
  · exact absurd (loads_error_iff.mpr ⟨e, by rw [loads, he], hne⟩) h
  · rw [loads, loads, hsame]

/-- Within the limits of the host, `json.loads` reads the JSON texts and takes every other for a decoding error. -/
theorem loads_iff {limits : Limits} {s : PyStr} (h : ¬ Overruns limits s) :
    (∀ v, loads limits s = .ok v ↔ IsJson s v) ∧ ((∃ v, loads limits s = .ok v) ∨ loads limits s = .error .decode) := by
  constructor
  · intro v
    refine ⟨fun hv => ⟨limits, loads_ok_iff.mp hv⟩, fun ⟨limits', hv⟩ => ?_⟩
    let top : Limits := ⟨max limits.digits limits'.digits, lt_max_of_lt_left limits.digits_pos, max limits.depth limits'.depth⟩
    have hv' := loads_ok_iff.mpr hv
    have hwithin : ¬ Overruns limits' s := fun hover => by
      obtain ⟨e, he, -⟩ := loads_error_iff.mp hover
      rw [hv'] at he
      cases he
    calc loads limits s = loads top s := (loads_extends (le_max_left _ _) (le_max_left _ _) h).symm
      _ = loads limits' s := loads_extends (le_max_right _ _) (le_max_right _ _) hwithin
      _ = .ok v := hv'
  · rcases hloads : loads limits s with e | v
    · by_cases he : e = .decode
      · exact .inr (by rw [he])
      · exact absurd (loads_error_iff.mpr ⟨e, hloads, he⟩) h
    · exact .inl ⟨v, rfl⟩

end Texts

end M5DayLog.Contract
