import M5DayLog.Lib.Buffer
import M5DayLog.Recorder.DeviceIdentity
import Mathlib.Data.Option.Basic

/-! The reads of the parsers of `device.json`. Both are given a buffer and its length; but the search for the colon behind a key knows
no length, and the byte behind an id is read at a fixed offset. -/

namespace M5DayLog.Reads

open Bytes Buffer

section Parsers

def keyRound (key json : Bytes) (i : ℕ) : Except Fault (Round ℕ (Option ℕ)) := do
  if i + key.length ≤ json.length then
    let block ← readBlock json i key.length
    if block = key then return .done (some i) else return .next (i + 1)
  else return .done none

/-- The search for the key, at every position from which it would fit. -/
def readKey (key json : Bytes) : Except Fault (Option ℕ) :=
  if json.length = 0 ∨ key.length = 0 ∨ json.length < key.length then return none
  else loop (keyRound key json) (json.length + 1) 0

/-- `strchr`: it goes on to the byte or to a NUL. -/
def strchr (c : UInt8) (json : Bytes) (i : ℕ) : Except Fault (Option ℕ) := do
  let p ← scan (fun d => d = c ∨ d = 0) json i
  let d ← readAt json p
  return if d = c then some p else none

/-- The place of the colon behind the key. -/
def readColon (key json : Bytes) : Except Fault (Option ℕ) := do
  match ← readKey key json with
  | none => return none
  | some start =>
    match ← strchr colon json start with
    | none => return none
    | some p => if p ≥ json.length then return none else return some p

/-- The place of the value behind the key: past the colon, and past the blanks behind it. -/
def readValue (key json : Bytes) : Except Fault (Option ℕ) := do
  match ← readColon key json with
  | none => return none
  | some p =>
    let p ← skip isBlank json (p + 1)
    return some p

/-- Where the digits are read, and what has been read of them. -/
structure Digits where
  p : ℕ
  value : ℕ
  any : Bool

def digitsRound (json : Bytes) (s : Digits) : Except Fault (Round Digits (Option ℕ)) := do
  if s.p < json.length then
    let c ← readAt json s.p
    if isDigit c then
      let value := s.value * 10 + (c.toNat - 0x30)
      if value > 1000000 then return .done none else return .next ⟨s.p + 1, value, true⟩
    else return .done (if s.any then some s.value else none)
  else return .done (if s.any then some s.value else none)

def schemaVersionKey : Bytes := lit "\"schemaVersion\""
def deviceIdKey : Bytes := lit "\"deviceId\""

def deviceIdentityParseSchemaVersion (json : Bytes) : Except Fault (Option ℕ) := do
  match ← readValue schemaVersionKey json with
  | none => return none
  | some p => loop (digitsRound json) (json.length + 1) ⟨p, 0, false⟩

/-- The id at its opening quote. The byte behind its 36 is read without a look at the length. -/
def readId (json : Bytes) (p : ℕ) : Except Fault (Option Bytes) := do
  if p ≥ json.length then return none
  else
    let c ← readAt json p
    if c ≠ quote then return none
    else if p + 1 + 36 > json.length then return none
    else
      let out ← readBlock json (p + 1) 36
      let closing ← readAt json (p + 1 + 36)
      if closing ≠ quote then return none
      else if !isValidUuid out then return none
      else return some out

def deviceIdentityParseDeviceId (json : Bytes) : Except Fault (Option Bytes) := do
  match ← readValue deviceIdKey json with
  | none => return none
  | some p => readId json p

end Parsers

section Colon

variable {key json rest : Bytes} {i : ℕ} {c : UInt8}

theorem memfind_short (h : rest.length < key.length) : memfind key rest = none := by
  induction rest with
  | nil => rfl
  | cons d rest ih =>
    rw [memfind, if_neg fun hbegins => absurd hbegins.2.length_le (Nat.not_le.mpr h)]
    exact ih (Nat.lt_of_succ_lt h)

theorem readKey_run (hkey : key ≠ []) (json : Bytes) :
    ∃ found, readKey key json = .ok found ∧ Option.Rel (At json) found (memfind key json) := by
  rw [readKey]
  split
  · next hshort =>
    have hlength := List.length_pos_iff.mpr hkey
    rw [memfind_short (by omega)]
    exact ⟨none, rfl, .none⟩
  · refine loop_potential (fun i => ∃ rest, At json i rest ∧ memfind key rest = memfind key json) (json.length - ·)
      (fun i h => ?_) ⟨json, At.start json, rfl⟩ (by omega)
    obtain ⟨rest, hat, hsame⟩ := h
    have hlength := hat.length
    rw [keyRound]
    by_cases hfits : i + key.length ≤ json.length
    · rw [if_pos hfits, hat.readBlock (by omega), ok_bind]
      have hbegins : rest.take key.length = key ↔ key <+: rest := by
        rw [List.prefix_iff_eq_take, eq_comm]
      cases rest with
      | nil =>
        have hpos := List.length_pos_iff.mpr hkey
        rw [List.length_nil] at hlength
        omega
      | cons d rest =>
        by_cases hhere : key <+: d :: rest
        · rw [if_pos (hbegins.mpr hhere)]
          rw [memfind, if_pos ⟨hkey, hhere⟩] at hsame
          exact Or.inl ⟨some i, rfl, hsame ▸ .some hat⟩
        · rw [if_neg (mt hbegins.mp hhere)]
          rw [memfind, if_neg fun h => hhere h.2] at hsame
          rw [List.length_cons] at hlength
          exact Or.inr ⟨i + 1, rfl, ⟨rest, hat.tail, hsame⟩, by omega⟩
    · rw [if_neg hfits]
      rw [memfind_short (by omega)] at hsame
      exact Or.inl ⟨none, rfl, hsame ▸ .none⟩

/-- Where neither the byte nor a NUL follows, the search leaves the buffer. -/
theorem strchr_outside (h : At json i rest) (hrest : Skips c rest) :
    strchr c json i = .error (.outside json.length) := by
  have hscan : scan (fun d => decide (d = c ∨ d = 0)) json i = .error (.outside json.length) :=
    scan_outside h fun d hd => decide_eq_false (not_or.mpr (hrest d hd))
  rw [strchr, hscan]
  rfl

theorem strchr_run (h : At json i rest) (hrest : ∃ d ∈ rest, d = c ∨ d = 0) :
    ∃ found, strchr c json i = .ok found ∧ Option.Rel (At json) found (Bytes.strchr c rest) := by
  obtain ⟨d, hd⟩ : ∃ d, rest.find? (fun d => decide (d = c ∨ d = 0)) = some d := by
    rw [← Option.isSome_iff_exists, List.find?_isSome]
    obtain ⟨d, hmem, hd⟩ := hrest
    exact ⟨d, hmem, decide_eq_true hd⟩
  obtain ⟨hstop, l, r, rfl, hl⟩ := List.find?_eq_some_iff_append.mp hd
  have hskip : ∀ e ∈ l, e ≠ c ∧ e ≠ 0 := fun e he => by simpa using hl e he
  have hhere : At json (i + l.length) (d :: r) := by
    have := h.skip (n := l.length) (by rw [List.length_append]; omega)
    rwa [List.drop_left] at this
  rw [strchr, scan_found h (fun e he => decide_eq_false (not_or.mpr (hskip e he))) hstop, ok_bind, hhere.readAt,
    Bytes.strchr_skip hskip, Bytes.strchr]
  by_cases hdc : d = c
  · rw [if_pos hdc]
    exact ⟨_, rfl, by rw [if_pos hdc]; exact .some hhere⟩
  · have hzero : d = 0 := (of_decide_eq_true hstop).resolve_left hdc
    rw [if_neg hdc, if_pos hzero]
    exact ⟨_, rfl, by rw [if_neg hdc]; exact .none⟩

/-- The buffer from the first place at which the key begins. -/
def FromKey (key json rest : Bytes) : Prop :=
  ∃ before, json = before ++ rest ∧ key <+: rest ∧ ∀ i < before.length, ¬ key <+: json.drop i

theorem memfind_iff (hkey : key ≠ []) : memfind key json = some rest ↔ FromKey key json rest := by
  constructor
  · intro h
    induction json with
    | nil => cases h
    | cons d json ih =>
      rw [memfind] at h
      split at h
      · next hhere =>
        obtain rfl := Option.some.inj h
        exact ⟨[], rfl, hhere.2, fun i hi => absurd hi (Nat.not_lt_zero i)⟩
      · next hhere =>
        obtain ⟨before, hjson, hbegins, hfirst⟩ := ih h
        refine ⟨d :: before, by rw [hjson, List.cons_append], hbegins, fun i hi => ?_⟩
        cases i with
        | zero => exact fun hzero => hhere ⟨hkey, hzero⟩
        | succ i => exact hfirst i (Nat.lt_of_succ_lt_succ hi)
  · rintro ⟨before, rfl, ⟨x, rfl⟩, hfirst⟩
    rw [memfind_append hfirst, memfind_prefix hkey]

theorem strchr_iff {suffix : Bytes} :
    Bytes.strchr c rest = some suffix ↔ ∃ gap more, rest = gap ++ suffix ∧ suffix = c :: more ∧ Skips c gap := by
  constructor
  · intro h
    induction rest with
    | nil => cases h
    | cons d rest ih =>
      rw [Bytes.strchr] at h
      split at h
      · next hd =>
        obtain rfl := Option.some.inj h
        exact ⟨[], rest, rfl, by rw [hd], fun _ he => absurd he List.not_mem_nil⟩
      · next hd =>
        split at h
        · cases h
        · next hzero =>
          obtain ⟨gap, more, hrest, hsuffix, hgap⟩ := ih h
          exact ⟨d :: gap, more, by rw [hrest, List.cons_append], hsuffix, List.forall_mem_cons.mpr ⟨⟨hd, hzero⟩, hgap⟩⟩
  · rintro ⟨gap, more, rfl, rfl, hgap⟩
    rw [Bytes.strchr_skip hgap, Bytes.strchr, if_pos rfl]

/-- The key is there, but neither a colon nor a NUL from there on. -/
def ColonRunsOut (key json : Bytes) : Prop := ∃ rest, FromKey key json rest ∧ Skips colon rest

theorem readColon_outside (hkey : key ≠ []) (h : ColonRunsOut key json) : readColon key json = .error (.outside json.length) := by
  obtain ⟨rest, hfrom, hrest⟩ := h
  obtain ⟨found, hread, hrel⟩ := readKey_run hkey json
  rw [(memfind_iff hkey).mpr hfrom] at hrel
  cases hrel with
  | some hat =>
    rw [readColon, hread, ok_bind]
    simp only [strchr_outside hat hrest, error_bind]

theorem readColon_run (hkey : key ≠ []) (h : ¬ ColonRunsOut key json) :
    ∃ found, readColon key json = .ok found ∧ Option.Rel (At json) found ((memfind key json).bind (Bytes.strchr colon)) := by
  obtain ⟨found, hread, hrel⟩ := readKey_run hkey json
  rw [readColon, hread, ok_bind]
  cases hfind : memfind key json with
  | none =>
    rw [hfind] at hrel
    cases hrel
    exact ⟨none, rfl, .none⟩
  | some rest =>
    rw [hfind] at hrel
    cases hrel with
    | some hat =>
      have hstop : ∃ d ∈ rest, d = colon ∨ d = 0 := by
        by_contra hnone
        push Not at hnone
        exact h ⟨rest, (memfind_iff hkey).mp hfind, hnone⟩
      obtain ⟨p, hp, hprel⟩ := strchr_run hat hstop
      simp only [hp, ok_bind, Option.bind_some]
      cases hsuffix : Bytes.strchr colon rest with
      | none =>
        rw [hsuffix] at hprel
        cases hprel
        exact ⟨none, rfl, .none⟩
      | some suffix =>
        rw [hsuffix] at hprel
        cases hprel with
        | some hhere =>
          obtain ⟨gap, more, -, rfl, -⟩ := strchr_iff.mp hsuffix
          have hlt := hhere.lt_iff.mpr (List.cons_ne_nil colon more)
          exact ⟨some _, if_neg (Nat.not_le.mpr hlt), .some hhere⟩

theorem keys_ne_nil : schemaVersionKey ≠ [] ∧ deviceIdKey ≠ [] := by with_unfolding_all decide

/-- What stands behind the colon of the key, from the first byte that is no blank. -/
def valueOf (key json : Bytes) : Option Bytes :=
  ((memfind key json).bind (Bytes.strchr colon)).map fun suffix => (suffix.drop 1).dropWhile isBlank

/-- Where the search for the colon runs out, the key has no value. -/
theorem valueOf_colon (hkey : key ≠ []) (h : ColonRunsOut key json) : valueOf key json = none := by
  obtain ⟨rest, hfrom, hrest⟩ := h
  rw [valueOf, (memfind_iff hkey).mpr hfrom, Option.bind_some, ← List.append_nil rest, Bytes.strchr_skip hrest]
  rfl

theorem readValue_outside (hkey : key ≠ []) (h : ColonRunsOut key json) : readValue key json = .error (.outside json.length) := by
  rw [readValue, readColon_outside hkey h, error_bind]

theorem readValue_run (hkey : key ≠ []) (h : ¬ ColonRunsOut key json) :
    ∃ found, readValue key json = .ok found ∧ Option.Rel (At json) found (valueOf key json) := by
  obtain ⟨found, hread, hrel⟩ := readColon_run hkey h
  rw [readValue, hread, ok_bind, valueOf]
  cases hsuffix : (memfind key json).bind (Bytes.strchr colon) with
  | none =>
    rw [hsuffix] at hrel
    cases hrel
    exact ⟨none, rfl, .none⟩
  | some suffix =>
    rw [hsuffix] at hrel
    cases hrel with
    | some hhere =>
      obtain ⟨rest, -, hcolon⟩ := Option.bind_eq_some_iff.mp hsuffix
      obtain ⟨gap, more, -, rfl, -⟩ := strchr_iff.mp hcolon
      obtain ⟨p, hp, hat⟩ := skip_run (p := isBlank) hhere.tail
      exact ⟨some p, by simp only [hp, ok_bind, pure_eq_ok], .some hat⟩

end Colon

section Values

variable {json rest : Bytes} {s : Digits}

theorem digits_run (h : At json s.p rest) :
    loop (digitsRound json) (json.length + 1) s = .ok (versionDigits s.value s.any rest) := by
  have hrun : ∃ result, loop (digitsRound json) (json.length + 1) s = .ok result ∧ result = versionDigits s.value s.any rest := by
    refine loop_potential
      (fun t => ∃ more, At json t.p more ∧ versionDigits t.value t.any more = versionDigits s.value s.any rest) (json.length - ·.p)
      (fun t ht => ?_) ⟨rest, h, rfl⟩ (by omega)
    obtain ⟨more, hmore, hsame⟩ := ht
    have hlength := hmore.length
    cases more with
    | nil =>
      rw [List.length_nil] at hlength
      rw [digitsRound, if_neg (by omega)]
      exact Or.inl ⟨_, rfl, hsame⟩
    | cons c more =>
      rw [List.length_cons] at hlength
      rw [digitsRound, if_pos (by omega), hmore.readAt, ok_bind]
      rw [versionDigits] at hsame
      cases hc : isDigit c with
      | false =>
        rw [hc] at hsame
        exact Or.inl ⟨_, rfl, hsame⟩
      | true =>
        rw [hc] at hsame
        by_cases hbig : t.value * 10 + (c.toNat - 0x30) > 1000000
        · simp only [if_true, if_pos hbig] at hsame ⊢
          exact Or.inl ⟨_, rfl, hsame⟩
        · simp only [if_true, if_neg hbig] at hsame ⊢
          exact Or.inr ⟨_, rfl, ⟨more, hmore.tail, hsame⟩, by dsimp only; omega⟩
  obtain ⟨_, hloop, rfl⟩ := hrun
  exact hloop

/-- The id in a value. -/
def idOf : Bytes → Option Bytes
  | [] => none
  | c :: t =>
    if c ≠ quote ∨ t.length < 36 then none
    else if (t.drop 36).head? ≠ some quote then none
    else if isValidUuid (t.take 36) then some (t.take 36) else none

theorem parseDeviceId_eq (json : Bytes) : M5DayLog.deviceIdentityParseDeviceId json = (valueOf deviceIdKey json).bind idOf := by
  rw [M5DayLog.deviceIdentityParseDeviceId, valueOf, ← deviceIdKey, Option.bind_map]
  cases (memfind deviceIdKey json).bind (Bytes.strchr colon) <;> rfl

theorem parseSchemaVersion_eq (json : Bytes) :
    M5DayLog.deviceIdentityParseSchemaVersion json = (valueOf schemaVersionKey json).bind (versionDigits 0 false) := by
  rw [M5DayLog.deviceIdentityParseSchemaVersion, valueOf, ← schemaVersionKey, Option.bind_map]
  cases (memfind schemaVersionKey json).bind (Bytes.strchr colon) <;> rfl

theorem readId_outside {id : Bytes} {p : ℕ} (h : At json p (quote :: id)) (hid : id.length = 36) :
    readId json p = .error (.outside json.length) := by
  have hlength := h.length
  rw [List.length_cons] at hlength
  have hend : At json (p + 1 + 36) [] := by
    have := h.tail.skip (n := 36) (by omega)
    rwa [List.drop_eq_nil_of_le (by omega)] at this
  rw [readId, if_neg (by omega), h.readAt, ok_bind, if_neg (by simp), if_neg (by omega), h.tail.readBlock (by omega), ok_bind,
    hend.readAt_end, error_bind]

theorem readId_inside {p : ℕ} (h : At json p rest) (hrest : ∀ id, rest = quote :: id → id.length ≠ 36) :
    readId json p = .ok (idOf rest) := by
  have hlength := h.length
  cases rest with
  | nil =>
    rw [List.length_nil] at hlength
    rw [readId, if_pos (by omega)]
    rfl
  | cons c t =>
    rw [List.length_cons] at hlength
    rw [readId, if_neg (by omega), h.readAt, ok_bind, idOf]
    by_cases hquote : c ≠ quote
    · rw [if_pos hquote, if_pos (Or.inl hquote)]
      rfl
    rw [if_neg hquote]
    by_cases hshort : t.length < 36
    · rw [if_pos (by omega), if_pos (Or.inr hshort)]
      rfl
    rw [if_neg (by omega), if_neg (not_or.mpr ⟨hquote, hshort⟩), h.tail.readBlock (by omega), ok_bind]
    have hbehind : At json (p + 1 + 36) (t.drop 36) := h.tail.skip (by omega)
    cases hd : t.drop 36 with
    | nil =>
      have := List.drop_eq_nil_iff.mp hd
      exact absurd (by omega) (hrest t (by rw [not_not.mp hquote]))
    | cons d more =>
      rw [hd] at hbehind
      rw [hbehind.readAt, ok_bind, List.head?_cons]
      rcases eq_or_ne d quote with rfl | hclosing
      · rw [if_neg (not_not.mpr rfl), if_neg (not_not.mpr rfl)]
        cases isValidUuid (t.take 36) <;> rfl
      · rw [if_pos hclosing, if_pos (by rwa [ne_eq, Option.some.injEq])]
        rfl

/-- The value of the id begins with its quote, and its 36 bytes are the last of the buffer. -/
def ValueRunsOut (json : Bytes) : Prop :=
  ∃ gap blanks id, FromKey deviceIdKey json (gap ++ colon :: (blanks ++ quote :: id)) ∧ Skips colon gap ∧
    (∀ d ∈ blanks, isBlank d = true) ∧ id.length = 36

theorem valueOf_iff {key id : Bytes} (hkey : key ≠ []) : valueOf key json = some (quote :: id) ↔
    ∃ gap blanks, FromKey key json (gap ++ colon :: (blanks ++ quote :: id)) ∧ Skips colon gap ∧
      ∀ d ∈ blanks, isBlank d = true := by
  constructor
  · intro h
    obtain ⟨suffix, hsuffix, hvalue⟩ := Option.map_eq_some_iff.mp h
    obtain ⟨rest, hfind, hcolon⟩ := Option.bind_eq_some_iff.mp hsuffix
    obtain ⟨gap, more, rfl, rfl, hgap⟩ := strchr_iff.mp hcolon
    rw [List.drop_one, List.tail_cons] at hvalue
    refine ⟨gap, more.takeWhile isBlank, ?_, hgap, fun d hd => List.mem_takeWhile_imp hd⟩
    rw [← hvalue, List.takeWhile_append_dropWhile]
    exact (memfind_iff hkey).mp hfind
  · rintro ⟨gap, blanks, hfrom, hgap, hblanks⟩
    have hquote : isBlank quote = false := by decide
    rw [valueOf, (memfind_iff hkey).mpr hfrom, Option.bind_some, strchr_iff.mpr ⟨gap, _, rfl, rfl, hgap⟩, Option.map_some,
      List.drop_one, List.tail_cons, List.dropWhile_append_of_pos hblanks, List.dropWhile_cons_of_neg (by rw [hquote]; decide)]

theorem valueRunsOut_iff : ValueRunsOut json ↔ ∃ id, valueOf deviceIdKey json = some (quote :: id) ∧ id.length = 36 := by
  constructor
  · rintro ⟨gap, blanks, id, hfrom, hgap, hblanks, hid⟩
    exact ⟨id, (valueOf_iff keys_ne_nil.2).mpr ⟨gap, blanks, hfrom, hgap, hblanks⟩, hid⟩
  · rintro ⟨id, hvalue, hid⟩
    obtain ⟨gap, blanks, hfrom, hgap, hblanks⟩ := (valueOf_iff keys_ne_nil.2).mp hvalue
    exact ⟨gap, blanks, id, hfrom, hgap, hblanks, hid⟩

theorem parseSchemaVersion_outside (h : ColonRunsOut schemaVersionKey json) :
    deviceIdentityParseSchemaVersion json = .error (.outside json.length) := by
  rw [deviceIdentityParseSchemaVersion, readValue_outside keys_ne_nil.1 h, error_bind]

theorem parseSchemaVersion_inside (h : ¬ ColonRunsOut schemaVersionKey json) :
    deviceIdentityParseSchemaVersion json = .ok (M5DayLog.deviceIdentityParseSchemaVersion json) := by
  obtain ⟨found, hread, hrel⟩ := readValue_run keys_ne_nil.1 h
  rw [deviceIdentityParseSchemaVersion, hread, ok_bind, parseSchemaVersion_eq]
  cases hfound : valueOf schemaVersionKey json with
  | none =>
    rw [hfound] at hrel
    cases hrel
    rfl
  | some rest =>
    rw [hfound] at hrel
    cases hrel with
    | some hat => exact digits_run hat

theorem parseDeviceId_colon (h : ColonRunsOut deviceIdKey json) : deviceIdentityParseDeviceId json = .error (.outside json.length) := by
  rw [deviceIdentityParseDeviceId, readValue_outside keys_ne_nil.2 h, error_bind]

theorem parseDeviceId_value (h : ¬ ColonRunsOut deviceIdKey json) (hvalue : ValueRunsOut json) :
    deviceIdentityParseDeviceId json = .error (.outside json.length) := by
  obtain ⟨id, hid, hlength⟩ := valueRunsOut_iff.mp hvalue
  obtain ⟨found, hread, hrel⟩ := readValue_run keys_ne_nil.2 h
  rw [hid] at hrel
  cases hrel with
  | some hat =>
    rw [deviceIdentityParseDeviceId, hread, ok_bind]
    exact readId_outside hat hlength

theorem parseDeviceId_inside (h : ¬ ColonRunsOut deviceIdKey json) (hvalue : ¬ ValueRunsOut json) :
    deviceIdentityParseDeviceId json = .ok (M5DayLog.deviceIdentityParseDeviceId json) := by
  obtain ⟨found, hread, hrel⟩ := readValue_run keys_ne_nil.2 h
  rw [deviceIdentityParseDeviceId, hread, ok_bind, parseDeviceId_eq]
  cases hfound : valueOf deviceIdKey json with
  | none =>
    rw [hfound] at hrel
    cases hrel
    rfl
  | some rest =>
    rw [hfound] at hrel
    cases hrel with
    | some hat => exact readId_inside hat fun id hid hlength => hvalue (valueRunsOut_iff.mpr ⟨id, hid ▸ hfound, hlength⟩)

/-- The version is read inside the buffer unless the search for its colon runs out of it. The id is, unless that search does or the
id ends the buffer. -/
theorem identity_reads_inside_iff (json : Bytes) :
    ((∃ version, deviceIdentityParseSchemaVersion json = .ok version) ↔ ¬ ColonRunsOut schemaVersionKey json) ∧
    ((∃ id, deviceIdentityParseDeviceId json = .ok id) ↔ ¬ ColonRunsOut deviceIdKey json ∧ ¬ ValueRunsOut json) := by
  refine ⟨⟨?_, fun h => ⟨_, parseSchemaVersion_inside h⟩⟩, ⟨?_, fun h => ⟨_, parseDeviceId_inside h.1 h.2⟩⟩⟩
  · rintro ⟨version, hok⟩ hcolon
    rw [parseSchemaVersion_outside hcolon] at hok
    cases hok
  · rintro ⟨id, hok⟩
    have hcolon : ¬ ColonRunsOut deviceIdKey json := by
      intro hcolon
      rw [parseDeviceId_colon hcolon] at hok
      cases hok
    refine ⟨hcolon, fun hvalue => ?_⟩
    rw [parseDeviceId_value hcolon hvalue] at hok
    cases hok

/-- A full buffer of blanks behind the key of the version. -/
def cutAtKey : Bytes := schemaVersionKey ++ List.replicate 2033 0x20

/-- A full buffer that ends with the id, before its closing quote. -/
def cutAtId : Bytes := List.replicate 1981 0x20 ++ (deviceJsonHead ++ List.replicate 36 0x30)

theorem keys_texts : schemaVersionKey.length = 15 ∧ Skips colon schemaVersionKey ∧
    schemaVersionKey = quote :: schemaVersionKey.tail ∧ deviceIdKey = quote :: deviceIdKey.tail := by
  with_unfolding_all decide

theorem cutAtKey_colon : ColonRunsOut schemaVersionKey cutAtKey := by
  obtain ⟨-, hkey, -⟩ := keys_texts
  have hfind : memfind schemaVersionKey cutAtKey = some cutAtKey := memfind_prefix keys_ne_nil.1 _
  refine ⟨cutAtKey, (memfind_iff keys_ne_nil.1).mp hfind, fun d hd => ?_⟩
  rcases List.mem_append.mp hd with hd | hd
  · exact hkey d hd
  · rw [List.eq_of_mem_replicate hd]
    decide

theorem cutAtId_from : FromKey deviceIdKey cutAtId (deviceIdKey ++ colon :: ([] ++ quote :: List.replicate 36 0x30)) := by
  obtain ⟨-, -, -, hquote⟩ := keys_texts
  obtain ⟨hhead, hfirst⟩ := idKey_first
  have hblanks : quote ∉ List.replicate 1981 (0x20 : UInt8) := fun h => absurd (List.eq_of_mem_replicate h) (by decide)
  rw [← memfind_iff keys_ne_nil.2, cutAtId, hquote, memfind_skip _ _ hblanks, ← hquote, hhead, List.append_assoc, List.append_assoc]
  exact memfind_first keys_ne_nil.2 hfirst _

theorem cutAtId_value : ¬ ColonRunsOut deviceIdKey cutAtId ∧ ValueRunsOut cutAtId := by
  have hvalue : ValueRunsOut cutAtId := by
    obtain ⟨-, hgap, -⟩ := idKey_text
    exact ⟨_, _, _, cutAtId_from, hgap, by simp, List.length_replicate⟩
  refine ⟨fun hcolon => ?_, hvalue⟩
  obtain ⟨id, hid, -⟩ := valueRunsOut_iff.mp hvalue
  rw [valueOf_colon keys_ne_nil.2 hcolon] at hid
  cases hid

theorem cutAtId_version : deviceIdentityParseSchemaVersion cutAtId = .ok (some metadataSchemaVersion) := by
  obtain ⟨-, -, hquote, -⟩ := keys_texts
  have hblanks : quote ∉ List.replicate 1981 (0x20 : UInt8) := fun h => absurd (List.eq_of_mem_replicate h) (by decide)
  have hversion : M5DayLog.deviceIdentityParseSchemaVersion cutAtId = some metadataSchemaVersion := by
    rw [← parseSchemaVersion_head (List.replicate 36 0x30), parseSchemaVersion_eq, parseSchemaVersion_eq, valueOf, valueOf, cutAtId,
      hquote, memfind_skip _ _ hblanks]
  rw [parseSchemaVersion_inside, hversion]
  intro hcolon
  rw [parseSchemaVersion_eq, valueOf_colon keys_ne_nil.1 hcolon] at hversion
  cases hversion

theorem cut_buffers_outside :
    (cutAtKey.length = deviceJsonLocalSize ∧
      deviceIdentityParseSchemaVersion cutAtKey = .error (.outside deviceJsonLocalSize)) ∧
    cutAtId.length = deviceJsonLocalSize ∧ deviceIdentityParseSchemaVersion cutAtId = .ok (some metadataSchemaVersion) ∧
      deviceIdentityParseDeviceId cutAtId = .error (.outside deviceJsonLocalSize) := by
  have hkey : cutAtKey.length = deviceJsonLocalSize := by
    rw [cutAtKey, List.length_append, keys_texts.1, List.length_replicate]
    rfl
  have hid : cutAtId.length = deviceJsonLocalSize := by
    rw [cutAtId, List.length_append, List.length_append, deviceJsonHead_length, List.length_replicate, List.length_replicate]
    rfl
  refine ⟨⟨hkey, ?_⟩, hid, cutAtId_version, ?_⟩
  · rw [← hkey]
    exact parseSchemaVersion_outside cutAtKey_colon
  · rw [← hid]
    exact parseDeviceId_value cutAtId_value.1 cutAtId_value.2

end Values

end M5DayLog.Reads
