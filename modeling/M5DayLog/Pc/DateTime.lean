import M5DayLog.Pc.Contract
import Mathlib.Data.List.TakeWhile

/-! Date-times. The grammar is the one of RFC 3339 without leap seconds, and its letters are of either case; the expression that
the program matches takes the texts of the grammar, also before a last newline. -/

namespace M5DayLog.Contract

open Bytes

section Grammar

/-- A number in exactly `n` digits. -/
structure Field (n bound : ℕ) (s : Bytes) (k : ℕ) : Prop where
  length : s.length = n
  digits : ∀ c ∈ s, isDigit c
  value : decVal 0 s = k
  le : k ≤ bound

inductive SecFrac : Bytes → Prop
  | absent : SecFrac []
  | digits {d} (hne : d ≠ []) (h : ∀ c ∈ d, isDigit c) : SecFrac (0x2e :: d)

inductive TimeOffset : Bytes → Prop
  | utc : TimeOffset [0x5a]
  | numeric {sign hour minute h m} (hsign : sign = 0x2b ∨ sign = 0x2d) (hhour : Field 2 23 hour h) (hminute : Field 2 59 minute m) :
    TimeOffset (sign :: (hour ++ 0x3a :: minute))

/-- `date-time`, in upper case. -/
inductive DateTimeText : ℕ → ℕ → ℕ → Bytes → Prop
  | mk {year month day y m d hour minute second h n s frac offset} (hyear : Field 4 9999 y year) (hmonth : Field 2 12 m month)
    (hmonth0 : month ≠ 0) (hday : Field 2 99 d day) (hhour : Field 2 23 hour h) (hminute : Field 2 59 minute n)
    (hsecond : Field 2 59 second s) (hfrac : SecFrac frac) (hoffset : TimeOffset offset) :
    DateTimeText year month day (y ++ 0x2d :: (m ++ 0x2d :: (d ++ 0x54 :: (hour ++ 0x3a :: (minute ++ 0x3a ::
      (second ++ (frac ++ offset)))))))

/-- A date-time of a year, a month and a day of the month. -/
def Rfc3339 (year month day : ℕ) (s : PyStr) : Prop := ∃ b : Bytes, s = b.map UInt8.toNat ∧ DateTimeText year month day (b.map PcSync.upper)

/-- A date-time on a day that there is. -/
def DateTime (s : PyStr) : Prop := ∃ year month day, Rfc3339 year month day s ∧ 1 ≤ day ∧ day ≤ Calendar.monthDays year month

/-- The date-times that the program takes: none of the year 0, and a newline may follow. -/
def HostDateTime (s : PyStr) : Prop :=
  ∃ t year month day, (s = t ∨ s = t ++ [0x0a]) ∧ Rfc3339 year month day t ∧ year ≠ 0 ∧ 1 ≤ day ∧ day ≤ Calendar.monthDays year month

end Grammar

section Matching

variable {n bound k : ℕ} {s t rest : Bytes}

theorem fixedNumber_iff : PcSync.fixedNumber n bound s = some (k, rest) ↔ ∃ t, s = t ++ rest ∧ Field n bound t k := by
  rw [PcSync.fixedNumber]
  constructor
  · intro h
    split at h
    · next hok =>
      obtain ⟨rfl, rfl⟩ := Prod.mk.inj (Option.some.inj h)
      exact ⟨s.take n, (List.take_append_drop n s).symm, hok.1, List.all_eq_true.mp hok.2.1, rfl, hok.2.2⟩
    · cases h
  · rintro ⟨t, rfl, rfl, hdigits, rfl, hle⟩
    rw [List.take_left, List.drop_left, if_pos ⟨rfl, List.all_eq_true.mpr hdigits, hle⟩]

theorem expect_iff {c : UInt8} : PcSync.expect c s = some rest ↔ s = c :: rest := by
  cases s with
  | nil => simp [PcSync.expect]
  | cons b s => simp [PcSync.expect, eq_comm]

theorem skipFraction_sound (s : Bytes) : ∃ frac, s = frac ++ PcSync.skipFraction s ∧ SecFrac frac := by
  rw [PcSync.skipFraction.eq_def]
  split
  · next t =>
    split
    · exact ⟨[], rfl, .absent⟩
    · next h =>
      exact ⟨0x2e :: t.takeWhile isDigit, by simp, .digits h fun c hc => List.mem_takeWhile_imp hc⟩
  · exact ⟨[], rfl, .absent⟩

/-- What follows the seconds and their fraction. -/
theorem skipFraction_complete {frac : Bytes} (h : SecFrac frac) (hdigit : ∀ c ∈ rest.head?, ¬ isDigit c ∧ c ≠ 0x2e) :
    PcSync.skipFraction (frac ++ rest) = rest := by
  have htake : rest.takeWhile isDigit = [] := by
    cases rest with
    | nil => rfl
    | cons c rest => exact List.takeWhile_cons_of_neg (hdigit c rfl).1
  have hdrop : rest.dropWhile isDigit = rest := by
    cases rest with
    | nil => rfl
    | cons c rest => exact List.dropWhile_cons_of_neg (hdigit c rfl).1
  cases h with
  | absent =>
    rw [List.nil_append, PcSync.skipFraction.eq_def]
    split
    · next t => exact absurd rfl (hdigit 0x2e rfl).2
    · rfl
  | @digits d hne h =>
    rw [List.cons_append, PcSync.skipFraction, List.takeWhile_append_of_pos h, List.dropWhile_append_of_pos h, htake, hdrop,
      List.append_nil, if_neg hne]

/-- `$` stands at the end or before a last newline. -/
def AtEnd (e : Bytes) : Prop := e = [] ∨ e = [0x0a]

theorem isZone_iff : PcSync.isZone s = true ↔ ∃ t e, s = t ++ e ∧ AtEnd e ∧ TimeOffset t := by
  constructor
  · intro h
    rw [PcSync.isZone.eq_def] at h
    split at h
    · next rest => exact ⟨[0x5a], rest, rfl, by simpa [AtEnd] using h, .utc⟩
    · next c rest _ =>
      obtain ⟨hsign, hzone⟩ := (Bool.and_eq_true _ _).mp h
      have hsome := (Option.getD_eq_iff.mp hzone).resolve_right fun h => Bool.false_ne_true h.2
      simp only [Option.bind_eq_bind, Option.bind_eq_some_iff, Prod.exists, Option.pure_def, Option.some.injEq, decide_eq_true_eq,
        fixedNumber_iff, expect_iff] at hsome
      obtain ⟨h, _, ⟨hour, rfl, hhour⟩, _, rfl, m, e, ⟨minute, rfl, hminute⟩, hend⟩ := hsome
      exact ⟨c :: (hour ++ 0x3a :: minute), e, by simp, hend, .numeric (of_decide_eq_true hsign) hhour hminute⟩
    · cases h
  · rintro ⟨t, e, rfl, hend, hoffset⟩
    cases hoffset with
    | utc => exact decide_eq_true hend
    | @numeric sign hour minute h m hsign hhour hminute =>
      have hfirst : PcSync.fixedNumber 2 23 (hour ++ 0x3a :: (minute ++ e)) = some (h, 0x3a :: (minute ++ e)) :=
        fixedNumber_iff.mpr ⟨hour, rfl, hhour⟩
      have hsecond : PcSync.fixedNumber 2 59 (minute ++ e) = some (m, e) := fixedNumber_iff.mpr ⟨minute, rfl, hminute⟩
      have hcolon : PcSync.expect 0x3a (0x3a :: (minute ++ e)) = some (minute ++ e) := expect_iff.mpr rfl
      have hne : sign ≠ 0x5a := by rcases hsign with rfl | rfl <;> decide
      simp only [List.cons_append, List.append_assoc, PcSync.isZone, hfirst, hcolon, hsecond, Option.bind_eq_bind, Option.bind_some,
        Option.pure_def, Option.getD_some, decide_eq_true hsign, Bool.true_and]
      exact decide_eq_true hend

theorem timeOffset_head {offset : Bytes} (h : TimeOffset offset) (e : Bytes) :
    ∀ c ∈ (offset ++ e).head?, ¬ isDigit c ∧ c ≠ 0x2e := by
  intro c hc
  cases h with
  | utc =>
    obtain rfl := Option.some.inj hc
    decide
  | numeric hsign =>
    obtain rfl := Option.some.inj hc
    rcases hsign with rfl | rfl <;> decide

/-- The expression takes the texts of the grammar. -/
theorem rfc3339Date_iff {v : Bytes} {year month day : ℕ} :
    PcSync.rfc3339Date v = some (year, month, day) ↔ ∃ t e, v.map PcSync.upper = t ++ e ∧ AtEnd e ∧ DateTimeText year month day t := by
  constructor
  · intro h
    simp only [PcSync.rfc3339Date, Option.bind_eq_bind, Option.bind_eq_some_iff, Prod.exists, fixedNumber_iff, expect_iff,
      Option.pure_def, Option.ite_none_left_eq_some, Option.some.injEq, Prod.mk.injEq, not_or, Bool.not_eq_true', Bool.not_eq_false] at h
    obtain ⟨_, _, ⟨y, hv, hyear⟩, _, rfl, _, _, ⟨m, rfl, hmonth⟩, _, rfl, _, _, ⟨d, rfl, hday⟩, _, rfl, h', _, ⟨hour, rfl, hhour⟩,
      _, rfl, n', _, ⟨minute, rfl, hminute⟩, _, rfl, s', rest, ⟨second, rfl, hsecond⟩, ⟨hmonth0, hzone⟩, rfl, rfl, rfl⟩ := h
    obtain ⟨frac, hsplit, hfrac⟩ := skipFraction_sound rest
    obtain ⟨offset, e, hrest, hend, hoffset⟩ := isZone_iff.mp hzone
    refine ⟨_, e, ?_, hend, .mk hyear hmonth hmonth0 hday hhour hminute hsecond hfrac hoffset⟩
    rw [hv, hsplit, hrest]
    simp only [List.append_assoc, List.cons_append]
  · rintro ⟨t, e, hv, hend, h⟩
    obtain @⟨y, m, d, hour, minute, second, h, n, s, frac, offset, hyear, hmonth, hmonth0, hday, hhour, hminute, hsecond,
      hfrac, hoffset⟩ := h
    have hzone : PcSync.isZone (PcSync.skipFraction (frac ++ (offset ++ e))) = true := by
      rw [skipFraction_complete hfrac (timeOffset_head hoffset e)]
      exact isZone_iff.mpr ⟨offset, e, rfl, hend, hoffset⟩
    simp only [List.append_assoc, List.cons_append] at hv
    simp only [PcSync.rfc3339Date, Option.bind_eq_bind, Option.bind_eq_some_iff, Prod.exists, fixedNumber_iff, expect_iff,
      Option.pure_def, Option.ite_none_left_eq_some, Option.some.injEq, Prod.mk.injEq, not_or, Bool.not_eq_true', Bool.not_eq_false]
    exact ⟨_, _, ⟨y, hv, hyear⟩, _, rfl, _, _, ⟨m, rfl, hmonth⟩, _, rfl, _, _, ⟨d, rfl, hday⟩, _, rfl, h, _, ⟨hour, rfl, hhour⟩,
      _, rfl, n, _, ⟨minute, rfl, hminute⟩, _, rfl, s, _, ⟨second, rfl, hsecond⟩, ⟨hmonth0, hzone⟩, rfl, rfl, rfl⟩

end Matching

section Uppercase

/-- What the date-times that the program takes are made of. -/
def dateTimeChar (c : ℕ) : Bool := (0x30 ≤ c && c ≤ 0x39) || [0x0a, 0x2b, 0x2d, 0x2e, 0x3a, 0x54, 0x5a, 0x74, 0x7a].contains c

/-- Above ASCII, no character has an upper case that could stand in a date-time. -/
def NoDateTimeUpper (u : Unicode) : Prop := ∀ c, 0x80 ≤ c → ∃ x ∈ u.upper c, dateTimeChar x = false

theorem upper_toNat (c : UInt8) :
    (PcSync.upper c).toNat = if 0x61 ≤ c.toNat ∧ c.toNat ≤ 0x7a then c.toNat - 0x20 else c.toNat := by
  have hletter : (0x61 ≤ c && c ≤ 0x7a) = true ↔ 0x61 ≤ c.toNat ∧ c.toNat ≤ 0x7a := by
    rw [Bool.and_eq_true, decide_eq_true_eq, decide_eq_true_eq, UInt8.le_iff_toNat_le, UInt8.le_iff_toNat_le]
    rfl
  simp only [PcSync.upper, hletter]
  split
  case isTrue h => exact UInt8.toNat_sub_of_le c 0x20 (UInt8.le_iff_toNat_le.mpr (h.1.trans' (by decide)))
  case isFalse => rfl

theorem upper_upper (c : UInt8) : PcSync.upper (PcSync.upper c) = PcSync.upper c := by
  have hc := upper_toNat c
  refine UInt8.toNat_inj.mp ?_
  rw [upper_toNat, if_neg]
  split at hc <;> omega

theorem eq_newline_of_upper (c : UInt8) (h : PcSync.upper c = 0x0a) : c = 0x0a := by
  have hc := upper_toNat c
  rw [h, show (0x0a : UInt8).toNat = 0x0a from rfl] at hc
  refine UInt8.toNat_inj.mp (?_ : c.toNat = 0x0a)
  split at hc <;> omega

theorem upper_ascii (c : UInt8) : (PcSync.upper c).toNat < 0x80 ↔ c.toNat < 0x80 := by
  rw [upper_toNat]
  split <;> omega

theorem dateTimeChar_of_upper (c : UInt8) : dateTimeChar (PcSync.upper c).toNat = true → dateTimeChar c.toNat = true := by
  simp only [upper_toNat, dateTimeChar, Bool.or_eq_true, Bool.and_eq_true, decide_eq_true_eq, List.contains_iff_mem, List.mem_cons,
    List.not_mem_nil, or_false]
  split <;> omega

theorem dateTimeChar_ascii {c : ℕ} (h : dateTimeChar c = true) : c < 0x80 := by
  simp only [dateTimeChar, Bool.or_eq_true, Bool.and_eq_true, decide_eq_true_eq, List.contains_iff_mem, List.mem_cons,
    List.not_mem_nil, or_false] at h
  omega

theorem dateTimeChar_of_isDigit {c : UInt8} (h : isDigit c) : dateTimeChar c.toNat := by
  have := (isDigit_iff c).mp h
  simp only [dateTimeChar, Bool.or_eq_true, Bool.and_eq_true, decide_eq_true_eq]
  exact .inl this

theorem Field.chars {n bound k : ℕ} {s : Bytes} (h : Field n bound s k) : ∀ c ∈ s, dateTimeChar c.toNat :=
  fun c hc => dateTimeChar_of_isDigit (h.digits c hc)

theorem DateTimeText.chars {year month day : ℕ} {t : Bytes} (h : DateTimeText year month day t) : ∀ c ∈ t, dateTimeChar c.toNat := by
  obtain ⟨hyear, hmonth, -, hday, hhour, hminute, hsecond, hfrac, hoffset⟩ := h
  have fracChars : ∀ {frac}, SecFrac frac → ∀ c ∈ frac, dateTimeChar c.toNat := by
    rintro frac (_ | ⟨-, hd⟩)
    · exact fun c hc => absurd hc List.not_mem_nil
    · exact List.forall_mem_cons.mpr ⟨by decide, fun c hc => dateTimeChar_of_isDigit (hd c hc)⟩
  have offsetChars : ∀ {offset}, TimeOffset offset → ∀ c ∈ offset, dateTimeChar c.toNat := by
    rintro offset (_ | ⟨hsign, hhour, hminute⟩)
    · exact List.forall_mem_cons.mpr ⟨by decide, List.forall_mem_nil _⟩
    · simp only [List.forall_mem_cons, List.forall_mem_append]
      exact ⟨by rcases hsign with rfl | rfl <;> decide, hhour.chars, by decide, hminute.chars⟩
  simp only [List.forall_mem_cons, List.forall_mem_append]
  exact ⟨hyear.chars, by decide, hmonth.chars, by decide, hday.chars, by decide, hhour.chars, by decide, hminute.chars, by decide,
    hsecond.chars, fracChars hfrac, offsetChars hoffset⟩

/-- In ASCII the groups are those of the bytes. -/
theorem rfc3339Groups_ascii (u : Unicode) {b : Bytes} (hb : ∀ c ∈ b, c.toNat < 0x80) :
    rfc3339Groups u (b.map UInt8.toNat) = PcSync.rfc3339Date b := by
  have hupper : ((b.map UInt8.toNat).flatMap fun c => if c < 0x80 then [(PcSync.upper c.toUInt8).toNat] else u.upper c) =
      (b.map PcSync.upper).map UInt8.toNat := by
    rw [List.flatMap_map, List.map_map, List.map_eq_flatMap]
    refine List.flatMap_congr fun c hc => ?_
    rw [if_pos (hb c hc), Nat.toUInt8_eq, UInt8.ofNat_toNat]
    rfl
  have hall : ((b.map PcSync.upper).map UInt8.toNat).all (· < 0x80) = true := by
    simp only [List.all_map, List.all_eq_true, Function.comp_apply, decide_eq_true_eq]
    exact fun c hc => (upper_ascii c).mpr (hb c hc)
  have hback : ((b.map PcSync.upper).map UInt8.toNat).map Nat.toUInt8 = b.map PcSync.upper := by
    rw [List.map_map]
    exact List.map_id'' (fun c => UInt8.ofNat_toNat) _
  have hdate : PcSync.rfc3339Date (b.map PcSync.upper) = PcSync.rfc3339Date b := by
    rw [PcSync.rfc3339Date, PcSync.rfc3339Date, List.map_map]
    simp only [Function.comp_def, upper_upper]
  rw [rfc3339Groups, hupper, if_pos hall, hback, hdate]

theorem rfc3339Date_chars {v : Bytes} {year month day : ℕ} (h : PcSync.rfc3339Date v = some (year, month, day)) :
    ∀ c ∈ v, dateTimeChar c.toNat := by
  obtain ⟨t, e, hsplit, hend, htext⟩ := rfc3339Date_iff.mp h
  have hchars : ∀ c ∈ v.map PcSync.upper, dateTimeChar c.toNat := by
    rw [hsplit]
    refine List.forall_mem_append.mpr ⟨htext.chars, ?_⟩
    rcases hend with rfl | rfl
    · exact List.forall_mem_nil _
    · exact List.forall_mem_singleton.mpr (by decide)
  exact fun c hc => dateTimeChar_of_upper c (hchars _ (List.mem_map_of_mem hc))

/-- The groups of a match are the numbers of the date-time, with or without a newline after it. -/
theorem rfc3339Groups_iff {u : Unicode} (hu : NoDateTimeUpper u) {value : PyStr} {year month day : ℕ} :
    rfc3339Groups u value = some (year, month, day) ↔ ∃ t, (value = t ∨ value = t ++ [0x0a]) ∧ Rfc3339 year month day t := by
  constructor
  · intro h
    -- a character above ASCII would leave one that no date-time has
    have hascii : ∀ c ∈ value, c < 0x80 := by
      intro c hc
      by_contra hbig
      obtain ⟨x, hx, hchar⟩ := hu c (Nat.le_of_not_lt hbig)
      rw [rfc3339Groups] at h
      split at h
      · next hall =>
        have hmem : x ∈ value.flatMap fun c => if c < 0x80 then [(PcSync.upper c.toUInt8).toNat] else u.upper c :=
          List.mem_flatMap.mpr ⟨c, hc, by rwa [if_neg hbig]⟩
        have hsmall : x < 0x80 := of_decide_eq_true (List.all_eq_true.mp hall x hmem)
        have := rfc3339Date_chars h _ (List.mem_map_of_mem hmem)
        rw [Nat.toUInt8_eq, UInt8.toNat_ofNat', Nat.mod_eq_of_lt (by omega), hchar] at this
        cases this
      · cases h
    obtain ⟨b, rfl⟩ : ∃ b : Bytes, value = b.map UInt8.toNat := by
      refine ⟨value.map Nat.toUInt8, ?_⟩
      rw [List.map_map]
      refine Eq.trans (List.map_id value).symm (List.map_congr_left fun c hc => ?_)
      have := hascii c hc
      rw [Function.comp_apply, Nat.toUInt8_eq, UInt8.toNat_ofNat', Nat.mod_eq_of_lt (by omega), id]
    rw [rfc3339Groups_ascii u fun c hc => hascii _ (List.mem_map_of_mem hc)] at h
    obtain ⟨t, e, hsplit, hend, htext⟩ := rfc3339Date_iff.mp h
    obtain ⟨b₁, b₂, rfl, rfl, rfl⟩ := List.map_eq_append_iff.mp hsplit
    refine ⟨b₁.map UInt8.toNat, ?_, b₁, rfl, htext⟩
    rcases hend with hnil | hlast
    · rw [List.map_eq_nil_iff.mp hnil, List.append_nil]
      exact .inl rfl
    · obtain ⟨c, rfl, hc⟩ := List.map_eq_singleton_iff.mp hlast
      rw [eq_newline_of_upper c hc, List.map_append]
      exact .inr rfl
  · rintro ⟨t, hvalue, b, rfl, htext⟩
    have hb : ∀ c ∈ b, c.toNat < 0x80 := fun c hc =>
      (upper_ascii c).mp (dateTimeChar_ascii (htext.chars _ (List.mem_map_of_mem hc)))
    rcases hvalue with rfl | rfl
    · rw [rfc3339Groups_ascii u hb]
      exact rfc3339Date_iff.mpr ⟨_, [], (List.append_nil _).symm, .inl rfl, htext⟩
    · have hlast : b.map UInt8.toNat ++ [0x0a] = (b ++ [0x0a]).map UInt8.toNat := by simp
      rw [hlast, rfc3339Groups_ascii u (List.forall_mem_append.mpr ⟨hb, List.forall_mem_singleton.mpr (by decide)⟩)]
      exact rfc3339Date_iff.mpr ⟨_, [0x0a], List.map_append, .inr rfl, htext⟩

end Uppercase

end M5DayLog.Contract
