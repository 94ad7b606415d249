import M5DayLog.Config

/-! Field checks of the device manifest: calendar dates, offset timestamps, UUIDs, hashes, file names, and
the recording id inside a file name. -/

namespace M5DayLog

open Bytes

/-- The character at an index of a C string; past the end it is the terminator. -/
def at' (s : Bytes) (i : ℕ) : UInt8 := s.getD i 0

/-- The value of the digit at an index. -/
def digitAt (s : Bytes) (i : ℕ) : ℕ := (at' s i).toNat - 0x30

def twoDigits (s : Bytes) (i : ℕ) : ℕ := digitAt s i * 10 + digitAt s (i + 1)

def fourDigits (s : Bytes) (i : ℕ) : ℕ :=
  digitAt s i * 1000 + digitAt s (i + 1) * 100 + digitAt s (i + 2) * 10 + digitAt s (i + 3)

def backslash : UInt8 := 0x5c
def dash : UInt8 := 0x2d
def colon : UInt8 := 0x3a
def underscore : UInt8 := 0x5f

/-- A character that needs no escape in a JSON string. -/
def plainChar (c : UInt8) : Bool := c ≠ quote && c ≠ backslash && 0x20 ≤ c

section Calendar

def daysInMonth (month : ℕ) : ℕ :=
  [31, 28, 31, 30, 31, 30, 31, 31, 30, 31, 30, 31].getD (month - 1) 0

def validCalendarDate (year month day : ℕ) : Bool :=
  if year = 0 ∨ month < 1 ∨ month > 12 ∨ day < 1 then false
  else
    let last := daysInMonth month
    let last := if month = 2 ∧ year % 4 = 0 ∧ (year % 100 ≠ 0 ∨ year % 400 = 0) then last + 1 else last
    day ≤ last

/-- `YYYY-MM-DDTHH:MM:SS+HH:MM`. -/
def isValidIso8601Offset (s : Bytes) : Bool :=
  if s.length ≠ 25 then false
  else if at' s 4 ≠ dash ∨ at' s 7 ≠ dash ∨ at' s 10 ≠ 0x54 ∨ at' s 13 ≠ colon ∨ at' s 16 ≠ colon ∨
      (at' s 19 ≠ 0x2b ∧ at' s 19 ≠ dash) ∨ at' s 22 ≠ colon then false
  else if ¬ (List.range 25).all fun i => i ∈ [4, 7, 10, 13, 16, 19, 22] || isDigit (at' s i) then false
  else if ¬ validCalendarDate (fourDigits s 0) (twoDigits s 5) (twoDigits s 8) then false
  else if twoDigits s 11 > 23 ∨ twoDigits s 14 > 59 ∨ twoDigits s 17 > 60 then false
  else if twoDigits s 20 > 14 ∨ twoDigits s 23 > 59 ∨ (twoDigits s 20 = 14 ∧ twoDigits s 23 ≠ 0) then false
  else true

/-- Seconds since the epoch of a valid timestamp. -/
def manifestUtcSeconds (s : Bytes) : Option ℤ :=
  if ¬ isValidIso8601Offset s then none
  else
    let y : ℤ := fourDigits s 0
    let m : ℤ := twoDigits s 5
    let d : ℤ := twoDigits s 8
    let hh : ℤ := twoDigits s 11
    let mm : ℤ := twoDigits s 14
    let ss : ℤ := twoDigits s 17
    let oh : ℤ := twoDigits s 20
    let om : ℤ := twoDigits s 23
    let ya := y - if m ≤ 2 then 1 else 0
    let era := if ya ≥ 0 then ya.tdiv 400 else (ya - 399).tdiv 400
    let yoe := ya - era * 400
    let doy := (153 * (m + if m > 2 then -3 else 9) + 2).tdiv 5 + d - 1
    let doe := yoe * 365 + yoe.tdiv 4 - yoe.tdiv 100 + doy
    let days := era * 146097 + doe - 719468
    some (days * 86400 + hh * 3600 + mm * 60 + ss +
      (if at' s 19 = 0x2b then -1 else 1) * (oh * 3600 + om * 60))

/-- The clock is read separately for the file name and for `startedAt`: two seconds of skew are accepted. -/
def manifestStartTimesCompatible (committed observed : Bytes) : Bool :=
  match manifestUtcSeconds committed, manifestUtcSeconds observed with
  | some old, some new => -2 ≤ old - new && old - new ≤ 2
  | _, _ => false

theorem utcSeconds_isSome {s : Bytes} (h : isValidIso8601Offset s = true) :
    ∃ t, manifestUtcSeconds s = some t := by
  simp [manifestUtcSeconds, h]

theorem startTimesCompatible_self {s : Bytes} (h : isValidIso8601Offset s = true) :
    manifestStartTimesCompatible s s = true := by
  obtain ⟨t, ht⟩ := utcSeconds_isSome h
  simp [manifestStartTimesCompatible, ht]

theorem iso8601_length {s : Bytes} (h : isValidIso8601Offset s = true) : s.length = 25 := by
  by_contra hne
  simp [isValidIso8601Offset, hne] at h

end Calendar

section Identity

def isHex (c : UInt8) : Bool :=
  (0x30 ≤ c && c ≤ 0x39) || (0x61 ≤ c && c ≤ 0x66) || (0x41 ≤ c && c ≤ 0x46)

def isValidUuid (s : Bytes) : Bool :=
  s.length = 36 && (List.range 36).all fun i =>
    if i = 8 ∨ i = 13 ∨ i = 18 ∨ i = 23 then at' s i = dash else isHex (at' s i)

def isValidSha256Hex (s : Bytes) : Bool :=
  s.length = 64 && s.all fun c => (0x30 ≤ c && c ≤ 0x39) || (0x61 ≤ c && c ≤ 0x66)

theorem uuid_length {s : Bytes} (h : isValidUuid s = true) : s.length = 36 := by
  simp only [isValidUuid, Bool.and_eq_true, decide_eq_true_eq] at h
  exact h.1

theorem sha256Hex_length {s : Bytes} (h : isValidSha256Hex s = true) : s.length = 64 := by
  simp only [isValidSha256Hex, Bool.and_eq_true, decide_eq_true_eq] at h
  exact h.1

end Identity

section Names

/-- Free text of an entry: nonempty, bounded, no quote, backslash or control character. -/
def safeFreeText (s : Bytes) (maxLen : ℕ) : Bool :=
  s ≠ [] && s.length ≤ maxLen && s.all plainChar

/-- The finalized path relative to the M5DAYLOG directory. -/
def validFilename (name : Bytes) : Bool :=
  if name.length < 5 ∨ name.length > 180 then false
  else if ¬ lit "recordings/" <+: name then false
  else if ¬ lit ".wav" <:+ name then false
  else if lit ".wav.part" <:+ name then false
  else name.all plainChar

def deviceManifestBuildFilename (date time recordingId : Bytes) (outSize : ℕ) : Option Bytes :=
  if outSize = 0 then none
  else if date.length ≠ 10 ∨ at' date 4 ≠ dash ∨ at' date 7 ≠ dash then none
  else if ¬ (List.range 10).all fun i => i ∈ [4, 7] || isDigit (at' date i) then none
  else if time.length ≠ 6 ∨ ¬ time.all isDigit then none
  else if recordingId = [] ∨ recordingId.length > 64 then none
  else if recordingId.any fun c => c = slash || !plainChar c then none
  else
    let out := lit "recordings/" ++ date ++ slash :: (time ++ underscore :: (recordingId ++ lit ".wav"))
    if out.length ≥ outSize then none
    else if validFilename out then some out else none

/-- The part of a path after its last separator, of either kind. -/
def baseName (path : Bytes) : Bytes :=
  (path.reverse.takeWhile fun c => c ≠ slash && c ≠ backslash).reverse

/-- The id of `HHMMSS_<id>.wav[.part]`. -/
def deviceManifestExtractRecordingId (wavPath : Bytes) (outSize : ℕ) : Option Bytes :=
  if outSize = 0 ∨ wavPath = [] then none
  else
    let base := baseName wavPath
    if base.length < 12 then none
    else if memfind (lit ".wav") base = none then none
    else if ¬ (base.take 6).all isDigit then none
    else if at' base 6 ≠ underscore then none
    else
      let us := base.drop 7
      match memfind (lit ".wav") us with
      | none => none
      | some dot =>
        let id := us.take (us.length - dot.length)
        if id = [] ∨ id.length + 1 > outSize ∨ id.length > 64 then none
        else if id.any fun c => c = slash || c = backslash || c = quote || c = 0x27 || c ≤ 0x20 then none
        else some id

theorem filename_starts {name : Bytes} (h : validFilename name = true) : lit "recordings/" <+: name := by
  by_contra hp
  simp [validFilename, hp] at h

theorem filename_length {name : Bytes} (h : validFilename name = true) :
    5 ≤ name.length ∧ name.length ≤ 180 := by
  by_contra hl
  have : name.length < 5 ∨ name.length > 180 := by omega
  simp [validFilename, this] at h

theorem filename_plain {name : Bytes} (h : validFilename name = true) : name.all plainChar = true := by
  simp only [validFilename] at h
  split_ifs at h
  exact h

end Names

/-- 32000 payload bytes per second. -/
def deviceManifestDurationMs (pcmBytes : ℕ) : ℕ := pcmBytes / 32

end M5DayLog
