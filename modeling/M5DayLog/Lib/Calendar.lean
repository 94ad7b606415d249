import Mathlib.Algebra.Order.BigOperators.Group.Finset
import Mathlib.Tactic.IntervalCases
import Mathlib.Tactic.Ring

/-! The Gregorian calendar, by counting days. A date is numbered by the days of the years and months before it, and a
local time with its offset denotes one instant. `dayNumber_eq` is the closed form that counts years from March, where
the leap day comes last; `EraSplit` and `marchDate` go back from a number to its date. -/

namespace Calendar

open Finset

def isLeap (y : ℕ) : Bool := y % 4 = 0 && (y % 100 ≠ 0 || y % 400 = 0)

def yearDays (y : ℕ) : ℕ := if isLeap y then 366 else 365

def monthDays (y m : ℕ) : ℕ :=
  if m = 2 then if isLeap y then 29 else 28
  else if m = 4 ∨ m = 6 ∨ m = 9 ∨ m = 11 then 30 else 31

/-- Days from the first of January of the year 0 to that of a year. -/
def daysBeforeYear (y : ℕ) : ℕ := ∑ k ∈ range y, yearDays k

/-- Days of a year before the first of a month. -/
def daysBeforeMonth (y m : ℕ) : ℕ := ∑ k ∈ range (m - 1), monthDays y (k + 1)

structure Date where
  year : ℕ
  month : ℕ
  day : ℕ
  deriving DecidableEq

/-- A day of the calendar. -/
structure Date.Valid (d : Date) : Prop where
  year : 1 ≤ d.year
  month : 1 ≤ d.month ∧ d.month ≤ 12
  day : 1 ≤ d.day ∧ d.day ≤ monthDays d.year d.month

def Date.dayNumber (d : Date) : ℕ := daysBeforeYear d.year + daysBeforeMonth d.year d.month + (d.day - 1)

def epoch : Date := ⟨1970, 1, 1⟩

/-- A local date and time of day, and how many seconds it is ahead of UTC. -/
structure Stamp where
  date : Date
  hour : ℕ
  minute : ℕ
  second : ℕ
  offset : ℤ

/-- A day of the calendar and a time of day. -/
structure Stamp.Valid (s : Stamp) : Prop where
  date : s.date.Valid
  hour : s.hour < 24
  minute : s.minute < 60
  second : s.second < 60

/-- The instant that a stamp denotes, in seconds from the epoch. -/
def Stamp.instant (s : Stamp) : ℤ :=
  ((s.date.dayNumber : ℤ) - epoch.dayNumber) * 86400 + s.hour * 3600 + s.minute * 60 + s.second - s.offset

theorem monthDays_le (y m : ℕ) : monthDays y m ≤ 31 := by
  unfold monthDays
  split_ifs <;> omega

theorem daysBeforeYear_succ (y : ℕ) : daysBeforeYear (y + 1) = daysBeforeYear y + yearDays y := sum_range_succ ..

theorem isLeap_iff (y : ℕ) : isLeap y = true ↔ y % 4 = 0 ∧ (y % 100 ≠ 0 ∨ y % 400 = 0) := by
  simp [isLeap]

theorem daysBeforeYear_eq (y : ℕ) : daysBeforeYear (y + 1) + y / 100 = 365 * y + y / 4 + y / 400 + 366 := by
  induction y with
  | zero => decide
  | succ y ih =>
    have hleap := isLeap_iff (y + 1)
    rw [daysBeforeYear_succ, yearDays]
    split
    · rename_i h
      have := hleap.mp h
      omega
    · rename_i h
      have := mt hleap.mpr h
      omega

/-- The days of a year before its first of March. -/
theorem daysBeforeMonth_march (y : ℕ) : daysBeforeMonth y 3 = if isLeap y then 60 else 59 := by
  cases hl : isLeap y <;> simp [daysBeforeMonth, monthDays, sum_range_succ, hl]

/-- From March on a month begins after `(153 k + 2) / 5` days, `k` months into the year of March. -/
theorem daysBeforeMonth_eq {y m : ℕ} (h : 3 ≤ m) (h' : m ≤ 12) :
    daysBeforeMonth y m = daysBeforeMonth y 3 + (153 * (m - 3) + 2) / 5 := by
  interval_cases m <;> simp [daysBeforeMonth, monthDays, sum_range_succ]

theorem dayNumber_late {d : Date} (h : 3 ≤ d.month) (h' : d.month ≤ 12) :
    d.dayNumber + d.year / 100 = 365 * d.year + d.year / 4 + d.year / 400 + 60 + (153 * (d.month - 3) + 2) / 5 + (d.day - 1) := by
  have hyear := daysBeforeYear_eq d.year
  have hleap := isLeap_iff d.year
  rw [daysBeforeYear_succ, yearDays] at hyear
  rw [Date.dayNumber, daysBeforeMonth_eq h h', daysBeforeMonth_march]
  split at hyear <;> rename_i hl <;> simp only [hl, if_true, Bool.false_eq_true, if_false] <;> omega

theorem dayNumber_early {d : Date} (hy : 1 ≤ d.year) (h : 1 ≤ d.month) (h' : d.month ≤ 2) :
    d.dayNumber + (d.year - 1) / 100 = 365 * (d.year - 1) + (d.year - 1) / 4 + (d.year - 1) / 400 + 60 +
      (153 * (d.month + 9) + 2) / 5 + (d.day - 1) := by
  obtain ⟨y, hyear⟩ := Nat.exists_eq_add_of_le' hy
  have hbefore := daysBeforeYear_eq y
  rw [Date.dayNumber, hyear, Nat.add_sub_cancel]
  have hmonth : daysBeforeMonth (y + 1) d.month = if d.month = 1 then 0 else 31 := by
    interval_cases d.month <;> rfl
  rw [hmonth]
  interval_cases d.month <;> simp only [if_true, OfNat.ofNat_ne_one, if_false] <;> omega

/-- The number of a date, with years counted from March. -/
theorem dayNumber_eq {d : Date} (h : d.Valid) {y k : ℕ} (hy : y = if d.month ≤ 2 then d.year - 1 else d.year)
    (hk : k = if d.month ≤ 2 then d.month + 9 else d.month - 3) :
    (d.dayNumber : ℤ) = 365 * y + y / 4 - y / 100 + y / 400 + 60 + (153 * k + 2) / 5 + (d.day - 1) := by
  have hyear := h.year
  have hmonth := h.month
  have hday := h.day.1
  by_cases hm : d.month ≤ 2
  · have hnum := dayNumber_early hyear hmonth.1 hm
    rw [if_pos hm] at hy hk
    subst hy hk
    omega
  · have hnum := dayNumber_late (by omega) hmonth.2
    rw [if_neg hm] at hy hk
    subst hy hk
    omega

section Years

variable {d : Date} {y : ℕ}

theorem daysBeforeYear_mono : Monotone daysBeforeYear := by
  apply monotone_nat_of_le_succ
  intro y
  rw [daysBeforeYear_succ]
  exact Nat.le_add_right _ _

theorem daysBeforeMonth_end (y : ℕ) : daysBeforeMonth y 13 = yearDays y := by
  cases hl : isLeap y <;> simp [daysBeforeMonth, monthDays, yearDays, sum_range_succ, hl]

theorem daysBeforeMonth_mono (y : ℕ) : Monotone (daysBeforeMonth y) := by
  intro m m' h
  exact sum_le_sum_of_subset (range_subset_range.mpr (by omega))

theorem daysBeforeMonth_succ (y : ℕ) {m : ℕ} (h : 1 ≤ m) :
    daysBeforeMonth y (m + 1) = daysBeforeMonth y m + monthDays y m := by
  obtain ⟨k, rfl⟩ := Nat.exists_eq_add_of_le' h
  exact sum_range_succ ..

/-- The days of a year end before the next one begins. -/
theorem dayNumber_lt (h : d.Valid) : d.dayNumber < daysBeforeYear (d.year + 1) := by
  have hday := h.day
  have hend := daysBeforeMonth_mono d.year (by have := h.month.2; omega : d.month + 1 ≤ 13)
  rw [daysBeforeMonth_succ d.year h.month.1, daysBeforeMonth_end] at hend
  rw [daysBeforeYear_succ, Date.dayNumber]
  omega

theorem le_year_iff (h : d.Valid) : y ≤ d.year ↔ daysBeforeYear y ≤ d.dayNumber := by
  constructor
  · intro hy
    exact (daysBeforeYear_mono hy).trans (by rw [Date.dayNumber, Nat.add_assoc]; exact Nat.le_add_right _ _)
  · intro hy
    by_contra hlt
    have hbefore := daysBeforeYear_mono (by omega : d.year + 1 ≤ y)
    have hend := dayNumber_lt h
    omega

/-- A date is known by its number. -/
theorem dayNumber_injective {d' : Date} (h : d.Valid) (h' : d'.Valid) (heq : d.dayNumber = d'.dayNumber) : d = d' := by
  have hyear : d.year = d'.year := by
    apply le_antisymm
    · exact (le_year_iff h').mpr (heq ▸ (le_year_iff h).mp le_rfl)
    · exact (le_year_iff h).mpr (heq ▸ (le_year_iff h').mp le_rfl)
  have hday := h.day
  have hday' := h'.day
  have hsucc := daysBeforeMonth_succ d.year h.month.1
  have hsucc' := daysBeforeMonth_succ d'.year h'.month.1
  rw [Date.dayNumber, Date.dayNumber, hyear] at heq
  rw [hyear] at hday hsucc
  have hmonth : d.month = d'.month := by
    by_contra hne
    rcases Nat.lt_or_gt_of_ne hne with hlt | hlt
    · have := daysBeforeMonth_mono d'.year (by omega : d.month + 1 ≤ d'.month)
      omega
    · have := daysBeforeMonth_mono d'.year (by omega : d'.month + 1 ≤ d.month)
      omega
  rw [hmonth] at heq
  obtain ⟨y, m, n⟩ := d
  obtain ⟨y', m', n'⟩ := d'
  simp only [Date.mk.injEq] at *
  omega

/-- At one offset an instant has one stamp. -/
theorem stamp_eq {s s' : Stamp} (h : s.Valid) (h' : s'.Valid) (hoff : s.offset = s'.offset)
    (heq : s.instant = s'.instant) : s = s' := by
  have hhour := h.hour
  have hhour' := h'.hour
  have hminute := h.minute
  have hminute' := h'.minute
  have hsecond := h.second
  have hsecond' := h'.second
  rw [Stamp.instant, Stamp.instant, hoff] at heq
  have hdate := dayNumber_injective h.date h'.date (by omega)
  rw [hdate] at heq
  have hsame : s.hour = s'.hour := by omega
  have hsame' : s.minute = s'.minute := by omega
  obtain ⟨date, hour, minute, second, offset⟩ := s
  obtain ⟨date', hour', minute', second', offset'⟩ := s'
  simp only [Stamp.mk.injEq] at *
  exact ⟨hdate, hsame, hsame', by omega, hoff⟩

end Years

section Inverse

/-- A day of an era of 400 years from March, in centuries, groups of four years, years and days. -/
structure EraSplit (doe c q t u : ℤ) : Prop where
  eq : doe = 36524 * c + 1461 * q + 365 * t + u
  century : 0 ≤ c ∧ c ≤ 3
  group : 0 ≤ q ∧ q ≤ 24
  year : 0 ≤ t ∧ t ≤ 3
  day : 0 ≤ u ∧ (u ≤ 364 ∨ u = 365 ∧ t = 3 ∧ (q < 24 ∨ c = 3))

theorem exists_eraSplit {doe : ℤ} (h : 0 ≤ doe) (h' : doe < 146097) : ∃ c q t u, EraSplit doe c q t u := by
  obtain ⟨c, hc⟩ : ∃ c, c = if doe = 146096 then 3 else doe / 36524 := ⟨_, rfl⟩
  obtain ⟨q, hq⟩ : ∃ q, q = (doe - 36524 * c) / 1461 := ⟨_, rfl⟩
  obtain ⟨s, hs⟩ : ∃ s, s = (doe - 36524 * c) % 1461 := ⟨_, rfl⟩
  have hcentury : 0 ≤ c ∧ c ≤ 3 ∧ 0 ≤ doe - 36524 * c ∧ (doe - 36524 * c ≤ 36523 ∨ c = 3 ∧ doe - 36524 * c = 36524) := by
    split at hc <;> omega
  have hgroup : 0 ≤ q ∧ q ≤ 24 ∧ 0 ≤ s ∧ (s ≤ 1459 ∨ s = 1460 ∧ (q < 24 ∨ c = 3)) := by omega
  refine ⟨c, q, if s = 1460 then 3 else s / 365, s - 365 * if s = 1460 then 3 else s / 365, ?_, ?_, ?_, ?_, ?_⟩
  · omega
  · omega
  · omega
  · split <;> omega
  · split <;> omega

theorem EraSplit.yearOfEra {doe c q t u : ℤ} (h : EraSplit doe c q t u) :
    (doe - doe / 1460 + doe / 36524 - doe / 146096) / 365 = 100 * c + 4 * q + t := by
  have heq := h.eq
  have hc := h.century
  have hq := h.group
  have ht := h.year
  have hu := h.day
  obtain ⟨e, he⟩ : ∃ e, e = (24 * c + q + 365 * t + u) / 1460 := ⟨_, rfl⟩
  have hfour : doe / 1460 = 25 * c + q + e := by omega
  have hrest : 0 ≤ 1461 * q + 365 * t + u ∧ (1461 * q + 365 * t + u ≤ 36523 ∨ c = 3 ∧ 1461 * q + 365 * t + u = 36524) := by
    omega
  have hcent : doe / 36524 - doe / 146096 = c := by omega
  have hcarry : e = 0 ∧ u ≤ 364 ∨ e = 1 ∧ 1 ≤ u := by omega
  omega

theorem EraSplit.dayOfYear {doe c q t u : ℤ} (h : EraSplit doe c q t u) {yoe : ℤ} (hy : yoe = 100 * c + 4 * q + t) :
    doe - (365 * yoe + yoe / 4 - yoe / 100) = u := by
  have heq := h.eq
  have hc := h.century
  have hq := h.group
  have ht := h.year
  omega

/-- The date of a day of a year that begins in March. -/
def marchDate (y u : ℕ) : Date :=
  let mp := (5 * u + 2) / 153
  let month := if mp < 10 then mp + 3 else mp - 9
  ⟨y + if month ≤ 2 then 1 else 0, month, u - (153 * mp + 2) / 5 + 1⟩

variable {y u : ℕ}

theorem marchDate_valid (hy : 1 ≤ y) (hu : u ≤ 364 ∨ u = 365 ∧ isLeap (y + 1) = true) : (marchDate y u).Valid := by
  have hmp : (5 * u + 2) / 153 ≤ 11 := by omega
  obtain ⟨mp, heq⟩ : ∃ mp, mp = (5 * u + 2) / 153 := ⟨_, rfl⟩
  rw [← heq] at hmp
  have hfeb : mp = 11 → u - 337 + 1 ≤ monthDays (y + 1) 2 := by
    intro h
    rcases hu with hu | ⟨hu, hleap⟩
    · have hshort : 28 ≤ monthDays (y + 1) 2 := by
        cases hl : isLeap (y + 1) <;> simp [monthDays, hl]
      omega
    · simp [monthDays, hleap, hu]
  constructor <;> simp only [marchDate, ← heq]
  · omega
  · split <;> omega
  · refine ⟨by omega, ?_⟩
    interval_cases mp
    case «11» => simpa using hfeb rfl
    all_goals simp [monthDays]; omega

theorem marchDate_dayNumber (hy : 1 ≤ y) (hu : u ≤ 364 ∨ u = 365 ∧ isLeap (y + 1) = true) :
    ((marchDate y u).dayNumber : ℤ) = 365 * y + y / 4 - y / 100 + y / 400 + 60 + u := by
  have hv := marchDate_valid hy hu
  obtain ⟨mp, heq⟩ : ∃ mp, mp = (5 * u + 2) / 153 := ⟨_, rfl⟩
  have hyear : y = if (marchDate y u).month ≤ 2 then (marchDate y u).year - 1 else (marchDate y u).year := by
    simp only [marchDate, ← heq]
    by_cases h : mp < 10 <;> simp only [h, if_true, if_false] <;> split <;> omega
  have hmonth : mp = if (marchDate y u).month ≤ 2 then (marchDate y u).month + 9 else (marchDate y u).month - 3 := by
    simp only [marchDate, ← heq]
    split <;> split <;> omega
  rw [dayNumber_eq hv hyear hmonth]
  simp only [marchDate, ← heq]
  omega

end Inverse

end Calendar
