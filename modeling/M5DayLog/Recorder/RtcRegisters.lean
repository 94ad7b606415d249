import M5DayLog.Recorder.Iso8601

/-! The registers of the RTC chip. Over a bus that carries what it is given, the image that the firmware writes for an
instant of the century is read back as that instant; and an image that is read as an instant is, bit for bit that the
reader looks at, the one that is written for it. -/

namespace M5DayLog.Rtc

open Bytes Calendar

section Bcd

theorem bcd_table : ∀ n : Fin 100, rtcBcdValid (rtcToBcd n.val) = true ∧ rtcFromBcd (rtcToBcd n.val) = n.val ∧
    (n.val < 80 → rtcToBcd n.val &&& 0x80 = 0 ∧ rtcToBcd n.val &&& 0x7f = rtcToBcd n.val) ∧
    (n.val < 40 → rtcToBcd n.val &&& 0x3f = rtcToBcd n.val) ∧
    (n.val < 20 → rtcToBcd n.val &&& 0x1f = rtcToBcd n.val) ∧ (n.val < 8 → rtcToBcd n.val &&& 0x07 = rtcToBcd n.val) := by
  decide +kernel

/-- A two-digit number survives its BCD form and every mask that is wide enough. -/
structure BcdOf (n : ℕ) (b : UInt8) : Prop where
  valid : rtcBcdValid b = true
  value : rtcFromBcd b = n
  mask7f : n < 80 → b &&& 0x80 = 0 ∧ b &&& 0x7f = b
  mask3f : n < 40 → b &&& 0x3f = b
  mask1f : n < 20 → b &&& 0x1f = b
  mask07 : n < 8 → b &&& 0x07 = b

theorem bcdOf {n : ℕ} (h : n < 100) : BcdOf n (rtcToBcd n) := by
  obtain ⟨hvalid, hvalue, h7f, h3f, h1f, h07⟩ := bcd_table ⟨n, h⟩
  exact ⟨hvalid, hvalue, h7f, h3f, h1f, h07⟩

/-- A valid BCD byte is that of its number. -/
theorem rtcFromBcd_spec (b : Fin 256) : rtcBcdValid (UInt8.ofFin b) = true →
    rtcToBcd (rtcFromBcd (UInt8.ofFin b)) = UInt8.ofFin b ∧ 0 ≤ rtcFromBcd (UInt8.ofFin b) ∧
      rtcFromBcd (UInt8.ofFin b) < 100 := by
  revert b
  decide +kernel

theorem exists_bcd {b : UInt8} (h : rtcBcdValid b = true) : ∃ n : ℕ, n < 100 ∧ rtcFromBcd b = n ∧ rtcToBcd n = b := by
  have hspec := rtcFromBcd_spec b.toFin
  rw [UInt8.ofFin_toFin] at hspec
  obtain ⟨hback, hpos, hlt⟩ := hspec h
  obtain ⟨n, hn⟩ := Int.eq_ofNat_of_zero_le hpos
  exact ⟨n, by omega, hn, hn ▸ hback⟩

end Bcd

section Image

/-- The seven registers from the seconds on. -/
def timeRegisters (w : RtcWorld) : Bytes := (List.range 7).map fun i => w.chip (2 + i)

/-- The bits of a time register that the reader looks at. -/
def registerMask (i : ℕ) : UInt8 := at' [0x7f, 0x7f, 0x3f, 0x3f, 0x07, 0x1f, 0xff] i

/-- The image of a stamp of UTC. -/
def rtcImage (st : Stamp) : Bytes :=
  [rtcToBcd st.second, rtcToBcd st.minute, rtcToBcd st.hour, rtcToBcd st.date.day,
    rtcToBcd (((st.date.dayNumber : ℤ) - epoch.dayNumber + 4) % 7), rtcToBcd st.date.month, rtcToBcd (st.date.year % 100)]

theorem eval_rtcHwReadEpoch (w : RtcWorld) : rtcDevice.eval rtcHwReadEpoch w = (rtcEpochOf (timeRegisters w), w) := rfl

theorem eval_rtcHwWriteEpoch {st : Stamp} {t : ℤ} (h : gmtimeR t = some (tmOf st))
    (hyear : 2000 ≤ st.date.year ∧ st.date.year ≤ 2099) (w : RtcWorld) :
    (rtcDevice.eval (rtcHwWriteEpoch t) w).1 = true ∧
      timeRegisters (rtcDevice.eval (rtcHwWriteEpoch t) w).2 = rtcImage st := by
  have hno : ¬ ((tmOf st).year < 2000 ∨ (tmOf st).year > 2099) := by
    simp only [tmOf]
    omega
  have hmod : (st.date.year : ℤ).tmod 100 = st.date.year % 100 := Int.tmod_eq_emod_of_nonneg (by omega)
  unfold rtcHwWriteEpoch
  rw [h]
  dsimp only
  rw [if_neg hno]
  constructor
  · rfl
  · simp only [rtcImage, ← hmod]
    rfl

theorem weekday_exists (st : Stamp) : ∃ n : ℕ, n < 7 ∧ ((st.date.dayNumber : ℤ) - epoch.dayNumber + 4) % 7 = n := by
  obtain ⟨n, hn⟩ := Int.eq_ofNat_of_zero_le (Int.emod_nonneg ((st.date.dayNumber : ℤ) - epoch.dayNumber + 4) (by decide : (7 : ℤ) ≠ 0))
  exact ⟨n, by omega, hn⟩

/-- Every register of a written image is in BCD and within its mask. -/
theorem rtcImage_registers {st : Stamp} (h : st.Valid) {i : ℕ} (hi : i < 7) :
    rtcBcdValid (at' (rtcImage st) i) = true ∧ at' (rtcImage st) i &&& registerMask i = at' (rtcImage st) i := by
  have hhour := h.hour
  have hminute := h.minute
  have hsecond := h.second
  have hmonth := h.date.month
  have hday := h.date.day
  have hlast := monthDays_le st.date.year st.date.month
  obtain ⟨wday, hwday, hweek⟩ := weekday_exists st
  have hcast : ((st.date.year : ℤ) % 100) = (st.date.year % 100 : ℕ) := by omega
  simp only [rtcImage, hweek, hcast]
  interval_cases i
  case «0» => exact ⟨(bcdOf (by omega)).valid, ((bcdOf (by omega)).mask7f (by omega)).2⟩
  case «1» => exact ⟨(bcdOf (by omega)).valid, ((bcdOf (by omega)).mask7f (by omega)).2⟩
  case «2» => exact ⟨(bcdOf (by omega)).valid, (bcdOf (by omega)).mask3f (by omega)⟩
  case «3» => exact ⟨(bcdOf (by omega)).valid, (bcdOf (by omega)).mask3f (by omega)⟩
  case «4» => exact ⟨(bcdOf (by omega)).valid, (bcdOf (by omega)).mask07 (by omega)⟩
  case «5» => exact ⟨(bcdOf (by omega)).valid, (bcdOf (by omega)).mask1f (by omega)⟩
  case «6» => exact ⟨(bcdOf (by omega)).valid, UInt8.and_neg_one⟩

theorem rtcEpochOf_image {st : Stamp} (h : st.Valid) (hutc : st.offset = 0)
    (hyear : 2000 ≤ st.date.year ∧ st.date.year ≤ 2099) : rtcEpochOf (rtcImage st) = some st.instant := by
  have hhour := h.hour
  have hminute := h.minute
  have hsecond := h.second
  have hmonth := h.date.month
  have hday := h.date.day
  have hlast := monthDays_le st.date.year st.date.month
  have hs := bcdOf (by omega : st.second < 100)
  have hmi := bcdOf (by omega : st.minute < 100)
  have hh := bcdOf (by omega : st.hour < 100)
  have hd := bcdOf (by omega : st.date.day < 100)
  have hmo := bcdOf (by omega : st.date.month < 100)
  have hy := bcdOf (by omega : st.date.year % 100 < 100)
  have hcast : ((st.date.year : ℤ) % 100) = (st.date.year % 100 : ℕ) := by omega
  have hcentury : (2000 + (st.date.year % 100 : ℕ) : ℤ) = st.date.year := by omega
  obtain ⟨hlow, hsm⟩ := hs.mask7f (by omega)
  obtain ⟨hcen, hmom⟩ := hmo.mask7f (by omega)
  have hrange : ¬ ((st.date.month : ℤ) < 1 ∨ (st.date.month : ℤ) > 12 ∨ (st.date.day : ℤ) < 1 ∨
      (st.date.day : ℤ) > monthDays st.date.year st.date.month ∨ (st.hour : ℤ) > 23 ∨ (st.minute : ℤ) > 59 ∨
      (st.second : ℤ) > 59) := by omega
  simp only [rtcEpochOf, rtcImage, at', List.getD_cons_zero, List.getD_cons_succ, hcast, hlow, hcen, hsm,
    (hmi.mask7f (by omega)).2, hh.mask3f (by omega), hd.mask3f (by omega), hmo.mask1f (by omega), ne_eq, not_true, or_self,
    if_false, List.all_cons, List.all_nil, hs.valid, hmi.valid, hh.valid, hd.valid, hmo.valid, hy.valid, Bool.and_self,
    Bool.not_true, Bool.false_eq_true, hs.value, hmi.value, hh.value, hd.value, hmo.value, hy.value, hcentury,
    rtcDaysInMonth_eq hmonth, hrange, rtcDaysFromCivil_eq h.date, Stamp.instant, hutc, sub_zero]

/-- The registers that the reader takes a time from: all but the day of the week. -/
def readRegisters : List ℕ := [0, 1, 2, 3, 5, 6]

/-- An image that says a time is that time's, in the bits that the reader looks at. -/
theorem rtcEpochOf_eq_some {data : Bytes} {t : ℤ} (h : rtcEpochOf data = some t) :
    ∃ st : Stamp, st.Valid ∧ st.offset = 0 ∧ (2000 ≤ st.date.year ∧ st.date.year ≤ 2099) ∧ st.instant = t ∧
      ∀ i ∈ readRegisters, at' (rtcImage st) i = at' data i &&& registerMask i := by
  unfold rtcEpochOf at h
  dsimp only at h
  rw [Option.ite_none_left_eq_some] at h
  obtain ⟨-, h⟩ := h
  rw [Option.ite_none_left_eq_some] at h
  obtain ⟨hvalid, h⟩ := h
  simp only [List.all_cons, List.all_nil, Bool.and_true, Bool.not_eq_true', Bool.and_eq_false_iff, not_or,
    Bool.not_eq_false] at hvalid
  obtain ⟨hs, hmi, hh, hd, hmo, hy⟩ := hvalid
  obtain ⟨se, -, hse, hseb⟩ := exists_bcd hs
  obtain ⟨mi, -, hmi, hmib⟩ := exists_bcd hmi
  obtain ⟨hr, -, hh, hhrb⟩ := exists_bcd hh
  obtain ⟨d, -, hd, hdb⟩ := exists_bcd hd
  obtain ⟨mo, -, hmo, hmob⟩ := exists_bcd hmo
  obtain ⟨y, hy', hy, hyb⟩ := exists_bcd hy
  have hcentury : (2000 + (y : ℤ)) = (2000 + y : ℕ) := by omega
  rw [hse, hmi, hh, hd, hmo, hy, hcentury, Option.ite_none_left_eq_some] at h
  obtain ⟨hrange, ht⟩ := h
  have hmon : 1 ≤ mo ∧ mo ≤ 12 := by omega
  rw [rtcDaysInMonth_eq hmon] at hrange
  have hday : 1 ≤ d ∧ d ≤ monthDays (2000 + y) mo := by omega
  have hdate : (⟨2000 + y, mo, d⟩ : Date).Valid := ⟨by dsimp only; omega, hmon, hday⟩
  have hclock : hr < 24 ∧ mi < 60 ∧ se < 60 := by omega
  have hmod : ((2000 + y : ℕ) : ℤ) % 100 = y := by omega
  refine ⟨⟨⟨2000 + y, mo, d⟩, hr, mi, se, 0⟩, ⟨hdate, hclock.1, hclock.2.1, hclock.2.2⟩, rfl, by dsimp only; omega, ?_, ?_⟩
  · have hdays := rtcDaysFromCivil_eq hdate
    dsimp only at hdays
    rw [← Option.some.inj ht, hdays, Stamp.instant, sub_zero]
  · have hyff : at' data 6 &&& registerMask 6 = at' data 6 := UInt8.and_neg_one
    simp only [readRegisters, List.forall_mem_cons, rtcImage, hmod, hyff]
    exact ⟨hseb, hmib, hhrb, hdb, hmob, hyb, List.forall_mem_nil _⟩

end Image

section RoundTrip

/-- Every instant of the century is read back from the image that is written for it, all of whose registers are in BCD and
within their masks. And where an image is read as an instant, writing that instant gives the image again in the bits of the
time registers that the reader looks at, with the day of the week of that instant. -/
theorem rtcRegisters_roundTrip :
    (∀ (t : ℤ) (w : RtcWorld), 946684800 ≤ t → t ≤ 4102444799 →
      (rtcDevice.eval (rtcHwWriteEpoch t) w).1 = true ∧
      (rtcDevice.eval rtcHwReadEpoch (rtcDevice.eval (rtcHwWriteEpoch t) w).2).1 = some t ∧
      ∀ i < 7, rtcBcdValid (at' (timeRegisters (rtcDevice.eval (rtcHwWriteEpoch t) w).2) i) = true ∧
        at' (timeRegisters (rtcDevice.eval (rtcHwWriteEpoch t) w).2) i &&& registerMask i =
          at' (timeRegisters (rtcDevice.eval (rtcHwWriteEpoch t) w).2) i) ∧
    ∀ (t : ℤ) (w : RtcWorld), (rtcDevice.eval rtcHwReadEpoch w).1 = some t →
      (rtcDevice.eval (rtcHwWriteEpoch t) w).1 = true ∧
      (∀ i ∈ readRegisters, at' (timeRegisters (rtcDevice.eval (rtcHwWriteEpoch t) w).2) i =
        at' (timeRegisters w) i &&& registerMask i) ∧
      at' (timeRegisters (rtcDevice.eval (rtcHwWriteEpoch t) w).2) 4 = rtcToBcd ((t / 86400 + 4) % 7) := by
  constructor
  · intro t w hstart hend
    obtain ⟨st, hvalid, hutc, hinstant, htm⟩ := gmtimeR_eq (by omega : 0 ≤ t) (by omega)
    have hyear := (year_century hvalid hutc).mpr (by omega)
    obtain ⟨hok, himage⟩ := eval_rtcHwWriteEpoch htm hyear w
    rw [eval_rtcHwReadEpoch, himage, rtcEpochOf_image hvalid hutc hyear, hinstant]
    exact ⟨hok, rfl, fun i hi => rtcImage_registers hvalid hi⟩
  · intro t w hread
    obtain ⟨st, hvalid, hutc, hyear, hinstant, himage⟩ := rtcEpochOf_eq_some hread
    obtain ⟨hstart, hend⟩ := (year_century hvalid hutc).mp hyear
    obtain ⟨st', hvalid', hutc', hinstant', htm⟩ := gmtimeR_eq (by omega : 0 ≤ t) (by omega)
    obtain rfl := stamp_eq hvalid' hvalid (hutc'.trans hutc.symm) (hinstant'.trans hinstant.symm)
    obtain ⟨hok, hwritten⟩ := eval_rtcHwWriteEpoch htm hyear w
    have hdays : t / 86400 = (st'.date.dayNumber : ℤ) - epoch.dayNumber := by
      have hhour := hvalid.hour
      have hminute := hvalid.minute
      have hsecond := hvalid.second
      rw [← hinstant, Stamp.instant, hutc]
      omega
    rw [hwritten, hdays]
    exact ⟨hok, himage, rfl⟩

/-- A chip whose time registers hold an image. -/
def chipOf (data : Bytes) : RtcWorld := ⟨fun i => if i < 2 then 0 else at' data (i - 2), none, none, none, ⟨none, []⟩, []⟩

theorem rtcRegisters_roundTrip_leapDay :
    (rtcDevice.eval rtcHwReadEpoch (rtcDevice.eval (rtcHwWriteEpoch 1709251199) (chipOf [])).2).1 = some 1709251199 ∧
    (rtcDevice.eval (rtcHwWriteEpoch 1709251199) (chipOf [0x59, 0x59, 0x23, 0x29, 0x04, 0x02, 0x24])).1 = true :=
  ⟨(rtcRegisters_roundTrip.1 1709251199 (chipOf []) (by decide) (by decide)).2.1,
    (rtcRegisters_roundTrip.2 1709251199 (chipOf [0x59, 0x59, 0x23, 0x29, 0x04, 0x02, 0x24]) (by decide +kernel)).1⟩

/-- A bit of the minutes that the reader masks, and a day of the week that is not the date's, are not written again. -/
theorem rtcRegisters_masked :
    (rtcDevice.eval rtcHwReadEpoch (chipOf [0, 0x80, 0, 0x01, 0x03, 0x01, 0])).1 = some 946684800 ∧
    timeRegisters (chipOf [0, 0x80, 0, 0x01, 0x03, 0x01, 0]) = [0, 0x80, 0, 0x01, 0x03, 0x01, 0] ∧
    timeRegisters (rtcDevice.eval (rtcHwWriteEpoch 946684800) (chipOf [0, 0x80, 0, 0x01, 0x03, 0x01, 0])).2 =
      [0, 0, 0, 0x01, 0x06, 0x01, 0] := by decide +kernel

end RoundTrip

end M5DayLog.Rtc
