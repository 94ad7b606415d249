import M5DayLog.Recorder.Civil

/-! The texts of a time that the RTC correction takes. `StampText` is the grammar, with the stamp that a text spells; the
parser accepts it within the chip's century, gives the instant of the stamp, and its normal form is a fixed point. -/

namespace M5DayLog.Rtc

open Bytes Calendar

section Digits

variable {w n : ℕ} {p ds : Bytes}

/-- The last `w` decimal digits of a number. -/
def digits : ℕ → ℕ → Bytes
  | 0, _ => []
  | w + 1, n => digits w (n / 10) ++ [(0x30 + n % 10).toUInt8]

theorem digits_length (w n : ℕ) : (digits w n).length = w := by
  induction w generalizing n with
  | zero => rfl
  | succ w ih => rw [digits, List.length_append, ih, List.length_singleton]

theorem digits_isDigit (w n : ℕ) : ∀ c ∈ digits w n, isDigit c = true := by
  induction w generalizing n with
  | zero => simp [digits]
  | succ w ih =>
    intro c hc
    rcases List.mem_append.mp hc with hc | hc
    · exact ih _ c hc
    · rw [List.mem_singleton.mp hc]
      exact isDigit_digit (Nat.mod_lt n (by decide))

theorem decVal_concat (ds : Bytes) (c : UInt8) : decVal 0 (ds ++ [c]) = decVal 0 ds * 10 + (c.toNat - 0x30) := by
  simp [decVal]

theorem decVal_digits (h : n < 10 ^ w) : decVal 0 (digits w n) = n := by
  induction w generalizing n with
  | zero =>
    obtain rfl : n = 0 := by omega
    rfl
  | succ w ih =>
    have hrest : n / 10 < 10 ^ w := by
      rw [pow_succ] at h
      omega
    rw [digits, decVal_concat, ih hrest, toNat_digit (Nat.mod_lt n (by decide))]
    omega

/-- A digit string is spelled by its value. -/
theorem digits_decVal (h : ∀ c ∈ ds, isDigit c = true) :
    digits ds.length (decVal 0 ds) = ds ∧ decVal 0 ds < 10 ^ ds.length := by
  induction ds using List.reverseRecOn with
  | nil => exact ⟨rfl, by decide⟩
  | append_singleton ds c ih =>
    obtain ⟨htext, hlt⟩ := ih fun d hd => h d (List.mem_append_left _ hd)
    have hc := (isDigit_iff c).mp (h c (by simp))
    have hdiv : (decVal 0 ds * 10 + (c.toNat - 0x30)) / 10 = decVal 0 ds := by omega
    have hmod : 0x30 + (decVal 0 ds * 10 + (c.toNat - 0x30)) % 10 = c.toNat := by omega
    rw [decVal_concat, List.length_append, List.length_singleton, digits, hdiv, htext, hmod, pow_succ]
    refine ⟨by simp, by omega⟩

theorem rtcParseFixedDigits_iff {v : ℤ} :
    rtcParseFixedDigits p w = some v ↔ ∃ n : ℕ, n < 10 ^ w ∧ v = n ∧ p.take w = digits w n := by
  unfold rtcParseFixedDigits
  constructor
  · intro h
    rw [Option.ite_none_right_eq_some] at h
    obtain ⟨⟨hlen, hall⟩, hv⟩ := h
    obtain ⟨htext, hlt⟩ := digits_decVal (List.all_eq_true.mp hall)
    rw [hlen] at htext hlt
    exact ⟨_, hlt, (Option.some.inj hv).symm, htext.symm⟩
  · rintro ⟨n, hn, rfl, htext⟩
    rw [htext, if_pos ⟨digits_length w n, List.all_eq_true.mpr (digits_isDigit w n)⟩, decVal_digits hn]

theorem decVal_zeros (k : ℕ) (ds : Bytes) : decVal 0 (List.replicate k 0x30 ++ ds) = decVal 0 ds := by
  induction k with
  | zero => rfl
  | succ k ih =>
    rw [List.replicate_succ, List.cons_append, decVal_cons]
    exact ih

/-- `%0wd` of a number that fits. -/
theorem fmtInt_digits (hw : 0 < w) (h : n < 10 ^ w) : fmtInt w n = digits w n := by
  have hlen := dec_length_le hw h
  have htext : fmtInt w n = List.replicate (w - (dec n).length) 0x30 ++ dec n := by
    simp [fmtInt]
  have hall : ∀ c ∈ fmtInt w n, isDigit c = true := by
    intro c hc
    rw [htext] at hc
    rcases List.mem_append.mp hc with hc | hc
    · rw [List.eq_of_mem_replicate hc]
      decide
    · exact dec_digits c hc
  have hval : decVal 0 (fmtInt w n) = n := by
    rw [htext, decVal_zeros, decVal_dec]
  have hwidth : (fmtInt w n).length = w := by
    rw [htext, List.length_append, List.length_replicate]
    omega
  have hspell := (digits_decVal hall).1
  rw [hwidth, hval] at hspell
  exact hspell.symm

end Digits

section Grammar

/-- A fraction of a second, or none. -/
inductive FractionText : Bytes → Prop
  | none : FractionText []
  | digits {ds : Bytes} (hne : ds ≠ []) (hds : ∀ c ∈ ds, isDigit c = true) : FractionText (0x2e :: ds)

/-- A zone, and how many seconds it is ahead of UTC: at most 14 hours to either side. -/
inductive ZoneText : Bytes → ℤ → Prop
  | utc : ZoneText [0x5a] 0
  | ahead {h m : ℕ} (hh : h ≤ 14) (hm : m ≤ 59) (hmax : h = 14 → m = 0) :
      ZoneText (0x2b :: digits 2 h ++ colon :: digits 2 m) (h * 3600 + m * 60)
  | behind {h m : ℕ} (hh : h ≤ 14) (hm : m ≤ 59) (hmax : h = 14 → m = 0) :
      ZoneText (dash :: digits 2 h ++ colon :: digits 2 m) (-(h * 3600 + m * 60))

/-- `YYYY-MM-DDTHH:MM:SS`. -/
def dateTimeText (st : Stamp) : Bytes :=
  digits 4 st.date.year ++ dash :: digits 2 st.date.month ++ dash :: digits 2 st.date.day ++ 0x54 :: digits 2 st.hour ++
    colon :: digits 2 st.minute ++ colon :: digits 2 st.second

/-- `YYYY-MM-DDTHH:MM:SS[.digits](Z|±HH:MM)` with a real date and time of day, and the stamp that it spells. -/
structure StampText (text : Bytes) (st : Stamp) : Prop where
  valid : st.Valid
  year : st.date.year < 10000
  spelled : ∃ fraction zone, FractionText fraction ∧ ZoneText zone st.offset ∧
    text = dateTimeText st ++ (fraction ++ zone)

end Grammar

section Parser

variable {f z rest text : Bytes} {off : ℤ} {st : Stamp}

theorem exists_of_length_six (h : z.length = 6) : ∃ s a b c d e, z = [s, a, b, c, d, e] := by
  match z, h with
  | [s, a, b, c, d, e], _ => exact ⟨s, a, b, c, d, e, rfl⟩

theorem rtcParseOffset_text (s : UInt8) (hs : s = 0x2b ∨ s = dash) {h m : ℕ} (hh : h ≤ 14) (hm : m ≤ 59)
    (hmax : h = 14 → m = 0) : rtcParseOffset (s :: digits 2 h ++ colon :: digits 2 m) =
      some ((if s = 0x2b then 1 else -1) * ((h : ℤ) * 3600 + m * 60)) := by
  obtain ⟨a, b, hab⟩ := List.length_eq_two.mp (digits_length 2 h)
  obtain ⟨d, e, hde⟩ := List.length_eq_two.mp (digits_length 2 m)
  have hhour : rtcParseFixedDigits [a, b, colon, d, e] 2 = some (h : ℤ) :=
    rtcParseFixedDigits_iff.mpr ⟨h, by omega, rfl, by rw [hab]; rfl⟩
  have hminute : rtcParseFixedDigits [d, e] 2 = some (m : ℤ) :=
    rtcParseFixedDigits_iff.mpr ⟨m, by omega, rfl, by rw [hde]; rfl⟩
  rw [hab, hde]
  have hrange : ¬ ((h : ℤ) > 14 ∨ (m : ℤ) > 59 ∨ (h : ℤ) = 14 ∧ (m : ℤ) ≠ 0) := by omega
  have hsign : ¬ (s ≠ 0x2b ∧ s ≠ dash) := by
    rcases hs with rfl | rfl <;> simp
  simp only [rtcParseOffset, List.cons_append, List.nil_append, at', List.getD_cons_zero, List.getD_cons_succ, List.length_cons,
    List.length_nil, List.drop_succ_cons, List.drop_zero, hhour, hminute, hrange, hsign, if_false, ne_eq, not_true,
    Nat.reduceAdd, or_self, List.cons.injEq, reduceCtorEq, and_false]

theorem rtcParseOffset_iff : rtcParseOffset z = some off ↔ ZoneText z off := by
  constructor
  · intro h
    unfold rtcParseOffset at h
    split at h
    · rename_i hz
      obtain rfl := Option.some.inj h
      exact hz ▸ .utc
    · split at h
      · cases h
      · split at h
        · cases h
        · rename_i hsign hshape
          simp only [not_or, ne_eq, not_not] at hshape
          obtain ⟨s, a, b, c, d, e, rfl⟩ := exists_of_length_six hshape.1
          split at h
          case h_2 => cases h
          case h_1 offHour offMinute hhour hminute =>
            rw [Option.ite_none_left_eq_some] at h
            obtain ⟨hrange, hoff⟩ := h
            obtain ⟨hh, -, rfl, hab⟩ := rtcParseFixedDigits_iff.mp hhour
            obtain ⟨mm, -, rfl, hde⟩ := rtcParseFixedDigits_iff.mp hminute
            have htext : [s, a, b, c, d, e] = s :: digits 2 hh ++ colon :: digits 2 mm := by
              rw [← hab, ← hde, ← hshape.2]
              rfl
            have hs : s = 0x2b ∨ s = dash := by
              by_contra hno
              exact hsign (not_or.mp hno)
            rw [htext, ← Option.some.inj hoff]
            rcases hs with rfl | rfl
            · have hahead := ZoneText.ahead (h := hh) (m := mm) (by omega) (by omega) (by omega)
              simpa [at'] using hahead
            · have hbehind := ZoneText.behind (h := hh) (m := mm) (by omega) (by omega) (by omega)
              simpa [at', dash] using hbehind
  · intro h
    cases h with
    | utc => rfl
    | ahead hh hm hmax =>
      rw [rtcParseOffset_text _ (.inl rfl) hh hm hmax, if_pos rfl, one_mul]
    | behind hh hm hmax =>
      rw [rtcParseOffset_text _ (.inr rfl) hh hm hmax, if_neg (by decide), neg_one_mul]

theorem zone_cons (h : ZoneText z off) : ∃ c t, z = c :: t ∧ isDigit c = false ∧ c ≠ 0x2e := by
  cases h
  · exact ⟨_, _, rfl, by decide, by decide⟩
  · exact ⟨_, _, rfl, by decide, by decide⟩
  · exact ⟨_, _, rfl, by decide, by decide⟩

theorem zone_le (h : ZoneText z off) : -50400 ≤ off ∧ off ≤ 50400 := by
  cases h <;> omega

theorem rtcSkipFraction_text (hf : FractionText f) (hz : ZoneText z off) : rtcSkipFraction (f ++ z) = some z := by
  obtain ⟨c, t, rfl, hc, hdot⟩ := zone_cons hz
  cases hf with
  | none =>
    rw [List.nil_append, rtcSkipFraction]
    rintro r hr
    exact hdot (List.cons.inj hr).1
  | @digits ds hne hds =>
    have hstop : (c :: t).takeWhile isDigit = [] ∧ (c :: t).dropWhile isDigit = c :: t := by simp [hc]
    have htake : (ds ++ c :: t).takeWhile isDigit = ds := by
      rw [List.takeWhile_append_of_pos hds, hstop.1, List.append_nil]
    have hdrop : (ds ++ c :: t).dropWhile isDigit = c :: t := by
      rw [List.dropWhile_append_of_pos hds, hstop.2]
    rw [List.cons_append, rtcSkipFraction, htake, hdrop, if_neg hne]

theorem rtcSkipFraction_eq_some (h : rtcSkipFraction rest = some z) : ∃ f, FractionText f ∧ rest = f ++ z := by
  unfold rtcSkipFraction at h
  split at h
  case h_1 t =>
    rw [Option.ite_none_left_eq_some] at h
    obtain rfl := Option.some.inj h.2
    refine ⟨0x2e :: t.takeWhile isDigit, .digits h.1 fun c hc => List.mem_takeWhile_imp hc, ?_⟩
    rw [List.cons_append, List.takeWhile_append_dropWhile]
  case h_2 =>
    obtain rfl := Option.some.inj h
    exact ⟨[], .none, rfl⟩

theorem zoneText_utc : ZoneText (lit "+00:00") 0 := by
  have htext : lit "+00:00" = 0x2b :: digits 2 0 ++ colon :: digits 2 0 := by with_unfolding_all decide
  rw [htext]
  exact .ahead (h := 0) (m := 0) (by omega) (by omega) fun _ => rfl

theorem fmtUtc_eq (h : st.Valid) (hyear : st.date.year < 10000) :
    fmtUtc (tmOf st) = dateTimeText st ++ lit "+00:00" := by
  have hmonth := h.date.month.2
  have hday := h.date.day.2
  have hlast := monthDays_le st.date.year st.date.month
  have hhour := h.hour
  have hminute := h.minute
  have hsecond := h.second
  simp only [fmtUtc, tmOf, dateTimeText]
  rw [fmtInt_digits (by omega) hyear, fmtInt_digits (by omega) (by omega), fmtInt_digits (by omega) (by omega),
    fmtInt_digits (by omega) (by omega), fmtInt_digits (by omega) (by omega), fmtInt_digits (by omega) (by omega)]

theorem dateTimeText_length (st : Stamp) : (dateTimeText st).length = 19 := by
  simp [dateTimeText, digits_length]

/-- Within the century the normal form of an instant spells its stamp of UTC. -/
theorem rtcNormalize_ok {t : ℤ} (h : 946684800 ≤ t) (h' : t ≤ 4102444799) :
    ∃ st : Stamp, st.instant = t ∧ StampText (fmtUtc (tmOf st)) st ∧ rtcNormalize t = .ok (t, fmtUtc (tmOf st)) := by
  obtain ⟨st, hvalid, hutc, hinstant, htm⟩ := gmtimeR_eq (by omega : 0 ≤ t) (by omega)
  have hyear := (year_century hvalid hutc).mpr (by omega)
  have htext := fmtUtc_eq hvalid (by omega)
  have hlen : (fmtUtc (tmOf st)).length = 25 := by
    rw [htext, List.length_append, dateTimeText_length]
    with_unfolding_all decide
  refine ⟨st, hinstant, ⟨hvalid, by omega, [], lit "+00:00", .none, hutc ▸ zoneText_utc, htext⟩, ?_⟩
  rw [rtcNormalize, if_neg (by omega), htm]
  simp [hlen]

theorem rtcNormalize_error {t : ℤ} (h : t < 946684800 ∨ 4102444799 < t) : rtcNormalize t = .error .rangeError := by
  rw [rtcNormalize, if_pos h]

theorem eq_append_iff {t a b : Bytes} : t = a ++ b ↔ t.take a.length = a ∧ t.drop a.length = b := by
  constructor
  · rintro rfl
    exact ⟨List.take_left, List.drop_left⟩
  · rintro ⟨ha, hb⟩
    have hsplit := List.take_append_drop a.length t
    rw [ha, hb] at hsplit
    exact hsplit.symm

theorem drop_eq_cons_iff {t b : Bytes} {c : UInt8} {k : ℕ} (h : k < t.length) :
    t.drop k = c :: b ↔ at' t k = c ∧ t.drop (k + 1) = b := by
  rw [List.drop_eq_getElem_cons h, List.cons.injEq, at', List.getD_eq_getElem?_getD, List.getElem?_eq_getElem h,
    Option.getD_some]

/-- The fields of a date and time stand at fixed places. -/
theorem dateTimeText_iff (hlen : 19 ≤ text.length) :
    text = dateTimeText st ++ text.drop 19 ↔
      (at' text 4 = dash ∧ at' text 7 = dash ∧ at' text 10 = 0x54 ∧ at' text 13 = colon ∧ at' text 16 = colon) ∧
      text.take 4 = digits 4 st.date.year ∧ (text.drop 5).take 2 = digits 2 st.date.month ∧
      (text.drop 8).take 2 = digits 2 st.date.day ∧ (text.drop 11).take 2 = digits 2 st.hour ∧
      (text.drop 14).take 2 = digits 2 st.minute ∧ (text.drop 17).take 2 = digits 2 st.second := by
  have hsep (b : Bytes) (k : ℕ) (hk : k < 19) (c : UInt8) := drop_eq_cons_iff (b := b) (c := c) (by omega : k < text.length)
  simp only [dateTimeText, List.append_assoc, List.cons_append]
  rw [eq_append_iff, digits_length, hsep _ 4 (by decide), eq_append_iff, digits_length, List.drop_drop,
    hsep _ 7 (by decide), eq_append_iff, digits_length, List.drop_drop, hsep _ 10 (by decide), eq_append_iff,
    digits_length, List.drop_drop, hsep _ 13 (by decide), eq_append_iff, digits_length, List.drop_drop,
    hsep _ 16 (by decide), eq_append_iff, digits_length, List.drop_drop]
  tauto

/-- The parser reads the fields of a date and time and takes the rest for a fraction and a zone. -/
theorem rtcParseIso8601_fields (hlen : 20 ≤ text.length ∧ text.length ≤ 40) (htext : text = dateTimeText st ++ text.drop 19)
    (hyear : st.date.year < 10000) (hmonth : st.date.month < 100) (hday : st.date.day < 100) (hhour : st.hour < 100)
    (hminute : st.minute < 100) (hsecond : st.second < 100) :
    rtcParseIso8601 (some text) =
      if (st.date.month : ℤ) < 1 ∨ (st.date.month : ℤ) > 12 ∨ (st.date.day : ℤ) < 1 ∨
          (st.date.day : ℤ) > rtcDaysInMonth st.date.year st.date.month ∨ (st.hour : ℤ) > 23 ∨ (st.minute : ℤ) > 59 ∨
          (st.second : ℤ) > 59 then .error .rangeError
      else
        match (rtcSkipFraction (text.drop 19)).bind rtcParseOffset with
        | none => .error .invalidArgs
        | some offset =>
          rtcNormalize (rtcDaysFromCivil st.date.year st.date.month st.date.day * 86400 + st.hour * 3600 + st.minute * 60 +
            st.second - offset) := by
  obtain ⟨⟨h4, h7, h10, h13, h16⟩, hy, hmo, hd, hh, hmi, hs⟩ := (dateTimeText_iff (by omega)).mp htext
  have hy := rtcParseFixedDigits_iff.mpr ⟨_, hyear, rfl, hy⟩
  have hmo := rtcParseFixedDigits_iff.mpr ⟨_, hmonth, rfl, hmo⟩
  have hd := rtcParseFixedDigits_iff.mpr ⟨_, hday, rfl, hd⟩
  have hh := rtcParseFixedDigits_iff.mpr ⟨_, hhour, rfl, hh⟩
  have hmi := rtcParseFixedDigits_iff.mpr ⟨_, hminute, rfl, hmi⟩
  have hs := rtcParseFixedDigits_iff.mpr ⟨_, hsecond, rfl, hs⟩
  have hshape : ¬ (text.length < 20 ∨ text.length > 40 ∨ at' text 4 ≠ dash ∨ at' text 7 ≠ dash ∨ at' text 10 ≠ 0x54 ∨
      at' text 13 ≠ colon ∨ at' text 16 ≠ colon) := by
    simp only [h4, h7, h10, h13, h16, ne_eq, not_true, or_false]
    omega
  simp only [rtcParseIso8601, if_neg hshape, hy, hmo, hd, hh, hmi, hs] <;> rfl

/-- A text of the grammar that is short enough is taken to the normal form of its instant. -/
theorem rtcParseIso8601_text (h : StampText text st) (hlen : text.length ≤ 40) :
    rtcParseIso8601 (some text) = rtcNormalize st.instant := by
  obtain ⟨fraction, zone, hf, hz, htext⟩ := h.spelled
  have hdrop : text.drop 19 = fraction ++ zone := by
    rw [htext, ← dateTimeText_length st, List.drop_left]
  have hlong : 20 ≤ text.length := by
    obtain ⟨c, t, rfl, -⟩ := zone_cons hz
    rw [htext, List.length_append, dateTimeText_length, List.length_append, List.length_cons]
    omega
  have hvalid := h.valid.date
  have hmonth := hvalid.month
  have hday := hvalid.day
  have hhour := h.valid.hour
  have hminute := h.valid.minute
  have hsecond := h.valid.second
  have hlast := monthDays_le st.date.year st.date.month
  rw [rtcParseIso8601_fields ⟨hlong, hlen⟩ (hdrop ▸ htext) h.year (by omega) (by omega) (by omega) (by omega) (by omega),
    rtcDaysInMonth_eq hmonth, if_neg (by omega), hdrop, rtcSkipFraction_text hf hz, Option.bind_some,
    rtcParseOffset_iff.mpr hz, rtcDaysFromCivil_eq hvalid]
  rfl

/-- The year 0 lies before the century, whatever the rest of the text is. -/
theorem rtcDaysFromCivil_zero {m d : ℕ} (hm : 1 ≤ m ∧ m ≤ 12) (hd : d ≤ 31) : rtcDaysFromCivil 0 m d ≤ 0 := by
  unfold rtcDaysFromCivil
  dsimp only
  by_cases h : (m : ℤ) ≤ 2
  · rw [if_pos h, if_neg (by omega : ¬ (m : ℤ) > 2)]
    norm_num
    omega
  · rw [if_neg h, if_pos (by omega : (m : ℤ) > 2)]
    norm_num
    omega

/-- Only texts of the grammar are accepted. -/
theorem stampText_of_ok {r : ℤ × Bytes} (h : rtcParseIso8601 (some text) = .ok r) :
    text.length ≤ 40 ∧ ∃ st, StampText text st ∧ rtcNormalize st.instant = .ok r := by
  have hparse := h
  unfold rtcParseIso8601 at h
  dsimp only at h
  split at h
  · cases h
  · rename_i hshape
    simp only [not_or, ne_eq, not_not, not_lt] at hshape
    obtain ⟨hshort, hlong, hseps⟩ := hshape
    split at h
    case h_2 => cases h
    case h_1 year month day hour minute second hy' hmo' hd' hh' hmi' hs' =>
      clear h
      obtain ⟨y, hyear, rfl, hy⟩ := rtcParseFixedDigits_iff.mp hy'
      obtain ⟨mo, hmonth, rfl, hmo⟩ := rtcParseFixedDigits_iff.mp hmo'
      obtain ⟨d, hday, rfl, hd⟩ := rtcParseFixedDigits_iff.mp hd'
      obtain ⟨hr, hhour, rfl, hh⟩ := rtcParseFixedDigits_iff.mp hh'
      obtain ⟨mi, hminute, rfl, hmi⟩ := rtcParseFixedDigits_iff.mp hmi'
      obtain ⟨se, hsecond, rfl, hs⟩ := rtcParseFixedDigits_iff.mp hs'
      have htext : text = dateTimeText ⟨⟨y, mo, d⟩, hr, mi, se, 0⟩ ++ text.drop 19 :=
        (dateTimeText_iff (by omega)).mpr ⟨hseps, hy, hmo, hd, hh, hmi, hs⟩
      rw [rtcParseIso8601_fields ⟨hshort, by omega⟩ htext hyear hmonth hday hhour hminute hsecond] at hparse
      split at hparse
      · cases hparse
      · rename_i hrange
        dsimp only at hrange
        have hmon : 1 ≤ mo ∧ mo ≤ 12 := by omega
        rw [rtcDaysInMonth_eq hmon] at hrange
        have hlast := monthDays_le y mo
        split at hparse
        case h_1 => cases hparse
        case h_2 offset hoffset =>
          obtain ⟨zone, hskip, hzone⟩ := Option.bind_eq_some_iff.mp hoffset
          obtain ⟨fraction, hf, hrest⟩ := rtcSkipFraction_eq_some hskip
          have hz := rtcParseOffset_iff.mp hzone
          have hoff := zone_le hz
          -- the instant of the year 0 is out of range
          have hpos : y ≠ 0 := by
            rintro rfl
            have hdays := rtcDaysFromCivil_zero hmon (by omega : d ≤ 31)
            rw [rtcNormalize_error (by dsimp only; push_cast; omega)] at hparse
            cases hparse
          have hd' : 1 ≤ d ∧ d ≤ monthDays y mo := by omega
          have hdate : (⟨y, mo, d⟩ : Date).Valid := ⟨Nat.pos_of_ne_zero hpos, hmon, hd'⟩
          have hclock : hr < 24 ∧ mi < 60 ∧ se < 60 := by omega
          have hvalid : (⟨⟨y, mo, d⟩, hr, mi, se, offset⟩ : Stamp).Valid := ⟨hdate, hclock.1, hclock.2.1, hclock.2.2⟩
          refine ⟨hlong, _, ⟨hvalid, hyear, fraction, zone, hf, hz, hrest ▸ htext⟩, ?_⟩
          rw [← hparse, Stamp.instant, ← rtcDaysFromCivil_eq hdate]

theorem rtcNormalize_instant {t : ℤ} {r : ℤ × Bytes} (h : rtcNormalize t = .ok r) :
    (centuryStart.instant ≤ t ∧ t < centuryEnd.instant) ∧ r.1 = t ∧ rtcParseIso8601 (some r.2) = .ok r := by
  rw [century_instants.1, century_instants.2]
  by_cases hrange : t < 946684800 ∨ 4102444799 < t
  · rw [rtcNormalize_error hrange] at h
    cases h
  · obtain ⟨st, hinstant, htext, hok⟩ := rtcNormalize_ok (by omega : 946684800 ≤ t) (by omega)
    obtain rfl := Except.ok.inj (h.symm.trans hok)
    have hlen : (fmtUtc (tmOf st)).length ≤ 40 := by
      rw [fmtUtc_eq htext.valid htext.year, List.length_append, dateTimeText_length]
      with_unfolding_all decide
    refine ⟨by omega, rfl, ?_⟩
    rw [rtcParseIso8601_text htext hlen, hinstant, hok]

/-- The parser accepts the texts of the grammar of at most 40 bytes whose instant is in the years 2000 to 2099 of UTC, and
no others. The epoch that it gives is the instant of the stamp, and the normal form is parsed to that epoch and itself. -/
theorem rtcParseIso8601_grammar :
    rtcParseIso8601 none = .error .invalidArgs ∧
    (∀ text : Bytes, (∃ r, rtcParseIso8601 (some text) = .ok r) ↔
      text.length ≤ 40 ∧ ∃ st, StampText text st ∧ centuryStart.instant ≤ st.instant ∧ st.instant < centuryEnd.instant) ∧
    ∀ (text : Bytes) (e : ℤ) (normalized : Bytes), rtcParseIso8601 (some text) = .ok (e, normalized) →
      (∀ st, StampText text st → st.instant = e) ∧ rtcParseIso8601 (some normalized) = .ok (e, normalized) := by
  refine ⟨rfl, fun text => ⟨?_, ?_⟩, ?_⟩
  · rintro ⟨r, h⟩
    obtain ⟨hlen, st, htext, hnormal⟩ := stampText_of_ok h
    exact ⟨hlen, st, htext, (rtcNormalize_instant hnormal).1⟩
  · rintro ⟨hlen, st, htext, hstart, hend⟩
    rw [century_instants.1] at hstart
    rw [century_instants.2] at hend
    obtain ⟨st', -, -, hok⟩ := rtcNormalize_ok hstart (by omega)
    exact ⟨_, (rtcParseIso8601_text htext hlen).trans hok⟩
  · intro text e normalized h
    obtain ⟨hlen, st, htext, hnormal⟩ := stampText_of_ok h
    refine ⟨fun st' htext' => ?_, (rtcNormalize_instant hnormal).2.2⟩
    rw [rtcParseIso8601_text htext' hlen] at h
    exact (rtcNormalize_instant h).2.1.symm

/-- A fraction and an offset that moves the instant into the next day. -/
theorem rtcParseIso8601_grammar_offset :
    rtcParseIso8601 (some (lit "2024-02-28T23:30:00.25-01:00")) = .ok (1709166600, lit "2024-02-29T00:30:00+00:00") ∧
    rtcParseIso8601 (some (lit "2024-02-29T00:30:00+00:00")) = .ok (1709166600, lit "2024-02-29T00:30:00+00:00") := by
  have h : rtcParseIso8601 (some (lit "2024-02-28T23:30:00.25-01:00")) =
      .ok (1709166600, lit "2024-02-29T00:30:00+00:00") := by with_unfolding_all decide
  exact ⟨h, (rtcParseIso8601_grammar.2.2 _ _ _ h).2⟩

end Parser

end M5DayLog.Rtc
