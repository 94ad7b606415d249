import M5DayLog.Manifest.Duplicate
import M5DayLog.Recorder.Rtc

/-! The firmware converts between dates and days in two places, the RTC's and the manifest's. Both count the days of the
calendar, and the broken-down time of an instant is the stamp of UTC that denotes it. -/

namespace M5DayLog

open Bytes Calendar Rtc

section Days

variable {d : Date} {s : Bytes}

theorem rtcDaysFromCivil_eq (h : d.Valid) :
    rtcDaysFromCivil d.year d.month d.day = (d.dayNumber : ℤ) - epoch.dayNumber := by
  have hyear := h.year
  have hmonth := h.month
  have hday := h.day.1
  obtain ⟨y, hy⟩ : ∃ y, y = if d.month ≤ 2 then d.year - 1 else d.year := ⟨_, rfl⟩
  obtain ⟨k, hk⟩ : ∃ k, k = if d.month ≤ 2 then d.month + 9 else d.month - 3 := ⟨_, rfl⟩
  have hya : (if (d.month : ℤ) ≤ 2 then (d.year : ℤ) - 1 else d.year) = y := by
    rw [hy]
    split <;> split <;> omega
  have hmp : (if (d.month : ℤ) > 2 then (d.month : ℤ) - 3 else d.month + 9) = k := by
    rw [hk]
    split <;> split <;> omega
  have hera : (if (y : ℤ) ≥ 0 then (y : ℤ) else (y : ℤ) - 399).tdiv 400 = (y : ℤ) / 400 := by
    rw [if_pos (by omega), Int.tdiv_eq_ediv_of_nonneg (by omega)]
  have hdays := era_days y
  unfold rtcDaysFromCivil
  dsimp only
  rw [hya, hmp, hera, epoch_dayNumber, dayNumber_eq h hy hk]
  omega

theorem isLeap_eq (y : ℕ) : rtcIsLeap y = isLeap y := by
  have hmod (k : ℕ) : (y : ℤ).tmod k = 0 ↔ y % k = 0 := by
    rw [Int.tmod_eq_emod_of_nonneg (by omega)]
    omega
  have h4 := hmod 4
  have h100 := hmod 100
  have h400 := hmod 400
  push_cast at h4 h100 h400
  simp only [rtcIsLeap, isLeap, ne_eq, h4, h100, h400]

theorem rtcDaysInMonth_eq {y m : ℕ} (hm : 1 ≤ m ∧ m ≤ 12) : rtcDaysInMonth y m = monthDays y m := by
  obtain ⟨h, h'⟩ := hm
  unfold rtcDaysInMonth monthDays
  rw [isLeap_eq]
  interval_cases m <;> cases hl : isLeap y <;> simp

/-- A stamp whose second is the leap one denotes the first instant of the next minute. -/
theorem instant_leapSecond (st : Stamp) (h : st.second = 60) :
    st.instant = ({ st with minute := st.minute + 1, second := 0 } : Stamp).instant := by
  simp only [Stamp.instant, h]
  push_cast
  omega

/-- The manifest reads from every stamp that it accepts the instant that the stamp denotes, a leap second as the next
minute's first one; and it counts the days of every date that it accepts as the RTC does. -/
theorem manifestUtcSeconds_calendar :
    (∀ s : Bytes, isValidIso8601Offset s = true →
      manifestUtcSeconds s = some (stampOf s).instant ∧
      ((stampOf s).second = 60 →
        (stampOf s).instant = ({ stampOf s with minute := (stampOf s).minute + 1, second := 0 } : Stamp).instant) ∧
      manifestUtcSeconds s =
        some (manifestDays (fourDigits s 0) (twoDigits s 5) (twoDigits s 8) * 86400 + twoDigits s 11 * 3600 +
          twoDigits s 14 * 60 + twoDigits s 17 +
          (if at' s 19 = 0x2b then -1 else 1) * (twoDigits s 20 * 3600 + twoDigits s 23 * 60))) ∧
    ∀ y m d : ℕ, validCalendarDate y m d = true →
      (d : ℤ) ≤ rtcDaysInMonth y m ∧ manifestDays y m d = rtcDaysFromCivil y m d := by
  constructor
  · intro s h
    exact ⟨manifestUtcSeconds_eq h, instant_leapSecond _, manifestUtcSeconds_days h⟩
  · intro y m d h
    have hv := validCalendarDate_iff.mp h
    have hdays := manifestDays_eq hv
    have hmonth := rtcDaysInMonth_eq (y := y) hv.month
    refine ⟨?_, hdays.trans (rtcDaysFromCivil_eq hv).symm⟩
    rw [hmonth]
    exact_mod_cast hv.day.2

theorem manifestUtcSeconds_calendar_leapSecond :
    manifestUtcSeconds (lit "2016-12-31T23:59:60-05:00") =
      some (stampOf (lit "2016-12-31T23:59:60-05:00")).instant ∧
    manifestDays 2016 2 29 = rtcDaysFromCivil 2016 2 29 :=
  ⟨(manifestUtcSeconds_calendar.1 (lit "2016-12-31T23:59:60-05:00") (by with_unfolding_all decide)).1,
    (manifestUtcSeconds_calendar.2 2016 2 29 (by decide)).2⟩

end Days

section BrokenDown

/-- What `gmtime_r` gives for a stamp of UTC. -/
def tmOf (st : Stamp) : Tm :=
  ⟨st.date.year, st.date.month, st.date.day, st.hour, st.minute, st.second,
    ((st.date.dayNumber : ℤ) - epoch.dayNumber + 4) % 7⟩

/-- The last day of a year from March is the 366th in leap years only. -/
theorem eraSplit_isLeap {era doe c q k u : ℤ} {y n : ℕ} (h : EraSplit doe c q k u)
    (hy : (y : ℤ) = 400 * era + (100 * c + 4 * q + k)) (hn : (n : ℤ) = u) :
    n ≤ 364 ∨ n = 365 ∧ isLeap (y + 1) = true := by
  have hc := h.century
  have hq := h.group
  rcases h.day.2 with hu | ⟨hu, hk, hlast⟩
  · left
    omega
  · right
    have hfour : (y + 1) % 4 = 0 := by omega
    refine ⟨by omega, (isLeap_iff _).mpr ⟨hfour, ?_⟩⟩
    rcases hlast with hlast | hlast
    · left
      omega
    · by_cases hq' : q = 24
      · right
        omega
      · left
        omega

/-- The day of the era, the year of it and the day of that year. -/
theorem civil_dayNumber {era doe c q k u z : ℤ} {y n : ℕ} (h : EraSplit doe c q k u) (hz : z = era * 146097 + doe)
    (hy : (y : ℤ) = 400 * era + (100 * c + 4 * q + k)) (hn : (n : ℤ) = u) (hpos : 1 ≤ y) :
    ((marchDate y n).dayNumber : ℤ) = z + 60 := by
  have heq := h.eq
  have hc := h.century
  have hq := h.group
  have hk := h.year
  have hfour : (y : ℤ) / 4 = 100 * era + 25 * c + q := by omega
  have hcent : (y : ℤ) / 100 = 4 * era + c := by omega
  have hera : (y : ℤ) / 400 = era := by omega
  rw [marchDate_dayNumber hpos (eraSplit_isLeap h hy hn), hfour, hcent, hera]
  omega

theorem marchDate_cast (y : ℕ) {n : ℕ} {mp mon : ℤ} (hmp : mp = (5 * n + 2) / 153)
    (hmon : mon = if mp < 10 then mp + 3 else mp - 9) : ((marchDate y n).day : ℤ) = n - (153 * mp + 2) / 5 + 1 ∧
    ((marchDate y n).month : ℤ) = mon ∧ ((marchDate y n).year : ℤ) = y + if mon ≤ 2 then 1 else 0 := by
  obtain ⟨k, hk⟩ : ∃ k, k = (5 * n + 2) / 153 := ⟨_, rfl⟩
  obtain rfl : mp = k := by omega
  simp only [marchDate, ← hk]
  subst hmon
  refine ⟨by omega, ?_, ?_⟩
  · by_cases h : k < 10 <;> simp only [h, Nat.cast_lt_ofNat, if_true, if_false] <;> omega
  · by_cases h : k < 10 <;> simp only [h, Nat.cast_lt_ofNat, if_true, if_false] <;> split <;> split <;> omega

/-- From the epoch on an instant has a stamp of UTC, and that is its broken-down time. -/
theorem gmtimeR_eq {t : ℤ} (h : 0 ≤ t) (h' : t < 2 ^ 40) :
    ∃ st : Stamp, st.Valid ∧ st.offset = 0 ∧ st.instant = t ∧ gmtimeR t = some (tmOf st) := by
  obtain ⟨era, hera⟩ : ∃ era, era = (t / 86400 + 719468) / 146097 := ⟨_, rfl⟩
  obtain ⟨doe, hdoe⟩ : ∃ doe, doe = (t / 86400 + 719468) % 146097 := ⟨_, rfl⟩
  obtain ⟨c, q, k, u, hsplit⟩ := exists_eraSplit (by omega : 0 ≤ doe) (by omega)
  have hpos : 1 ≤ era := by omega
  have hyears : 0 ≤ 100 * c + 4 * q + k := by
    have hc := hsplit.century.1
    have hq := hsplit.group.1
    have hk := hsplit.year.1
    omega
  obtain ⟨y, hy⟩ : ∃ y : ℕ, (y : ℤ) = 400 * era + (100 * c + 4 * q + k) := ⟨_, Int.toNat_of_nonneg (by omega)⟩
  obtain ⟨n, hn⟩ : ∃ n : ℕ, (n : ℤ) = u := ⟨_, Int.toNat_of_nonneg hsplit.day.1⟩
  have hyear : 1 ≤ y := by omega
  have hdate := marchDate_valid hyear (eraSplit_isLeap hsplit hy hn)
  have hdays : ((marchDate y n).dayNumber : ℤ) - epoch.dayNumber = t / 86400 := by
    rw [civil_dayNumber hsplit (by omega : t / 86400 + 719468 = era * 146097 + doe) hy hn hyear, epoch_dayNumber]
    omega
  have hbound : era ≤ 100 := by omega
  have hyoe : 100 * c + 4 * q + k ≤ 399 := by
    have hc := hsplit.century.2
    have hq := hsplit.group.2
    have hk := hsplit.year.2
    omega
  refine ⟨⟨marchDate y n, (t % 86400 / 3600).toNat, (t % 86400 % 3600 / 60).toNat, (t % 86400 % 60).toNat, 0⟩,
    ⟨hdate, ?_, ?_, ?_⟩, rfl, ?_, ?_⟩
  · show (t % 86400 / 3600).toNat < 24
    omega
  · show (t % 86400 % 3600 / 60).toNat < 60
    omega
  · show (t % 86400 % 60).toNat < 60
    omega
  · rw [Stamp.instant, hdays]
    dsimp only
    omega
  · unfold gmtimeR
    dsimp only
    rw [← hdoe, ← hera, hsplit.yearOfEra, hsplit.dayOfYear rfl, ← hn]
    obtain ⟨mp, hmp⟩ : ∃ mp : ℤ, mp = (5 * n + 2) / 153 := ⟨_, rfl⟩
    obtain ⟨mon, hmon⟩ : ∃ mon, mon = if mp < 10 then mp + 3 else mp - 9 := ⟨_, rfl⟩
    obtain ⟨hday, hmonth, hcivil⟩ := marchDate_cast y hmp hmon
    have hbranch : (0 : ℤ) ≤ (if mon ≤ 2 then 1 else 0) ∧ (if mon ≤ 2 then 1 else 0) ≤ (1 : ℤ) := by
      split <;> omega
    have hcycle : 100 * c + 4 * q + k + era * 400 = y := by omega
    rw [← hmp, ← hmon, hcycle, if_neg (by omega), tmOf, hdays]
    dsimp only
    rw [hday, hmonth, hcivil, Int.toNat_of_nonneg (by omega), Int.toNat_of_nonneg (by omega),
      Int.toNat_of_nonneg (by omega)]

/-- The first instants of the years 2000 and 2100: the two-digit year of the chip stands for those between. -/
def centuryStart : Stamp := ⟨⟨2000, 1, 1⟩, 0, 0, 0, 0⟩
def centuryEnd : Stamp := ⟨⟨2100, 1, 1⟩, 0, 0, 0, 0⟩

theorem daysBeforeYear_century : daysBeforeYear 2000 = 730485 ∧ daysBeforeYear 2100 = 767010 := by
  have hstart : daysBeforeYear 2000 + 1999 / 100 = 365 * 1999 + 1999 / 4 + 1999 / 400 + 366 := daysBeforeYear_eq 1999
  have hend : daysBeforeYear 2100 + 2099 / 100 = 365 * 2099 + 2099 / 4 + 2099 / 400 + 366 := daysBeforeYear_eq 2099
  omega

theorem century_instants : centuryStart.instant = 946684800 ∧ centuryEnd.instant = 4102444800 := by
  obtain ⟨hstart, hend⟩ := daysBeforeYear_century
  have hmonth (y : ℕ) : daysBeforeMonth y 1 = 0 := by simp [daysBeforeMonth]
  simp only [Stamp.instant, epoch_dayNumber]
  simp only [Date.dayNumber, centuryStart, centuryEnd, hstart, hend, hmonth, Nat.sub_self]
  omega

/-- A stamp of UTC has its year from 2000 to 2099 exactly when its instant is in the century. -/
theorem year_century {st : Stamp} (h : st.Valid) (hutc : st.offset = 0) :
    (2000 ≤ st.date.year ∧ st.date.year ≤ 2099) ↔ 946684800 ≤ st.instant ∧ st.instant ≤ 4102444799 := by
  have hhour := h.hour
  have hminute := h.minute
  have hsecond := h.second
  have hstart := le_year_iff h.date (y := 2000)
  have hend := le_year_iff h.date (y := 2100)
  obtain ⟨hs, he⟩ := daysBeforeYear_century
  rw [hs] at hstart
  rw [he] at hend
  rw [Stamp.instant, epoch_dayNumber, hutc]
  omega

end BrokenDown

end M5DayLog
