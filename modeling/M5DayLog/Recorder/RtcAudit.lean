import M5DayLog.Recorder.Rtc

/-! The audit trail of RTC corrections. A correction that is accepted stands in the store until its event stands in the log,
once, on the card; only then its record is cleared. What a loss of power leaves is again such a state. -/

namespace M5DayLog.Rtc

open Bytes Lines

section Texts

def plainAscii (c : UInt8) : Bool := plainChar c && c < 0x7f

/-- A record as a correction makes it. -/
structure RtcPendingRecord.Built (record : RtcPendingRecord) : Prop where
  valid : record.valid = true
  correctionId : record.correctionId.all plainAscii = true
  before : record.before.all plainAscii = true
  after : record.after.all plainAscii = true

theorem RtcPendingRecord.Built.source {record : RtcPendingRecord} (h : record.Built) : record.source = lit "pc" := by
  have hvalid := h.valid
  simp only [RtcPendingRecord.valid, Bool.and_eq_true, decide_eq_true_eq] at hvalid
  exact hvalid.1.1.2

theorem plainAscii_digit {c : UInt8} (h : isDigit c = true) : plainAscii c = true := by
  rw [isDigit_iff] at h
  simp only [plainAscii, plainChar, quote, backslash, Bool.and_eq_true, decide_eq_true_eq, UInt8.le_iff_toNat_le,
    UInt8.lt_iff_toNat_lt, ne_eq, ← UInt8.toNat_inj]
  simp only [UInt8.toNat_ofNat]
  omega

theorem plainAscii_hex {c : UInt8} (h : isHex c = true) : plainAscii c = true := by
  simp only [isHex, Bool.or_eq_true, Bool.and_eq_true, decide_eq_true_eq, UInt8.le_iff_toNat_le, UInt8.toNat_ofNat] at h
  simp only [plainAscii, plainChar, quote, backslash, Bool.and_eq_true, decide_eq_true_eq, UInt8.le_iff_toNat_le,
    UInt8.lt_iff_toNat_lt, ne_eq, ← UInt8.toNat_inj]
  simp only [UInt8.toNat_ofNat]
  omega

theorem plainAscii_fmtInt (w : ℕ) (n : ℤ) : (fmtInt w n).all plainAscii = true := by
  have hzeros : ∀ k, (List.replicate k (0x30 : UInt8)).all plainAscii = true := fun k => by
    rw [List.all_replicate]
    split <;> decide
  have hdigits : (dec n.natAbs).all plainAscii = true := List.all_eq_true.mpr fun c hc => plainAscii_digit (dec_digits c hc)
  unfold fmtInt
  dsimp only
  split
  · rw [List.all_cons, List.all_append, hzeros, hdigits]
    decide
  · rw [List.all_append, hzeros, hdigits]
    decide

theorem plainAscii_fmtUtc (tm : Tm) : (fmtUtc tm).all plainAscii = true := by
  have hcolon : plainAscii colon = true := by decide
  have hdash : plainAscii dash = true := by decide
  have hzone : (lit "+00:00").all plainAscii = true := by with_unfolding_all decide
  have ht : plainAscii 0x54 = true := by decide
  simp only [fmtUtc, List.all_append, List.all_cons, plainAscii_fmtInt, hcolon, hdash, hzone, ht, Bool.and_self]

theorem plainAscii_rtcFormatEpoch (epoch : ℤ) : (rtcFormatEpoch epoch).all plainAscii = true ∧ (rtcFormatEpoch epoch).length = 25 := by
  have hzero : (lit "1970-01-01T00:00:00+00:00").all plainAscii = true ∧ (lit "1970-01-01T00:00:00+00:00").length = 25 :=
    ⟨by with_unfolding_all decide, by with_unfolding_all decide⟩
  unfold rtcFormatEpoch
  split
  case h_1 tm _ =>
    split
    · exact hzero
    case isFalse hlength => exact ⟨plainAscii_fmtUtc tm, not_not.mp hlength⟩
  case h_2 => exact hzero

theorem rtcNormalize_cases (epoch : ℤ) : (∃ tm, rtcNormalize epoch = .ok (epoch, fmtUtc tm) ∧ (fmtUtc tm).length = 25) ∨
    rtcNormalize epoch = .error .rangeError ∨ rtcNormalize epoch = .error .internalError := by
  unfold rtcNormalize
  split
  · exact Or.inr (Or.inl rfl)
  · split
    · exact Or.inr (Or.inl rfl)
    case h_2 tm _ =>
      split
      · exact Or.inr (Or.inr rfl)
      case isFalse hlength => exact Or.inl ⟨tm, rfl, not_not.mp hlength⟩

/-- A parse gives a normal form, or finds fault with the arguments, the range or its own text. -/
theorem rtcParseIso8601_cases (text : Option Bytes) :
    (∃ epoch tm, rtcParseIso8601 text = .ok (epoch, fmtUtc tm) ∧ (fmtUtc tm).length = 25) ∨
      rtcParseIso8601 text = .error .invalidArgs ∨ rtcParseIso8601 text = .error .rangeError ∨
        rtcParseIso8601 text = .error .internalError := by
  unfold rtcParseIso8601
  repeat' split
  all_goals first
    | exact Or.inr (Or.inl rfl)
    | exact Or.inr (Or.inr (Or.inl rfl))
    | refine (rtcNormalize_cases _).imp ?_ Or.inr
      rintro ⟨tm, h⟩
      exact ⟨_, tm, h⟩

theorem rtcParseIso8601_normal {text : Option Bytes} {epoch : ℤ} {normalized : Bytes}
    (h : rtcParseIso8601 text = .ok (epoch, normalized)) : normalized.all plainAscii = true ∧ normalized.length = 25 := by
  rcases rtcParseIso8601_cases text with ⟨_, tm, heq, hlength⟩ | heq | heq | heq <;> rw [heq] at h
  · cases h
    exact ⟨plainAscii_fmtUtc tm, hlength⟩
  all_goals cases h

theorem plainAscii_uuid {id : Bytes} (h : isValidUuid id = true) : id.all plainAscii = true := by
  simp only [isValidUuid, Bool.and_eq_true, decide_eq_true_eq, List.all_eq_true, List.mem_range] at h
  obtain ⟨hlength, hall⟩ := h
  rw [List.all_eq_true]
  intro c hc
  obtain ⟨i, hi, rfl⟩ := List.mem_iff_getElem.mp hc
  have hat : at' id i = id[i] := by simp [at', List.getD_eq_getElem?_getD, hi]
  have := hall i (by omega)
  rw [hat] at this
  split at this
  · rw [of_decide_eq_true this]
    decide
  · exact plainAscii_hex this

theorem built_candidate {correctionId normalized : Bytes} {text : Option Bytes} {requested : ℤ} {rand16 : Fin 16 → UInt8} (before : ℤ)
    (hid : deviceIdentityFormatUuidV4 rand16 = some correctionId) (htext : rtcParseIso8601 text = .ok (requested, normalized)) :
    RtcPendingRecord.Built ⟨rtcPendingMagic, rtcPendingVersion, correctionId, rtcFormatEpoch before, normalized, lit "pc"⟩ := by
  have huuid := formatUuidV4_valid hid
  obtain ⟨hbefore, hlen⟩ := plainAscii_rtcFormatEpoch before
  obtain ⟨hafter, hlen'⟩ := rtcParseIso8601_normal htext
  have hpc : (lit "pc").length = 2 := by with_unfolding_all decide
  refine ⟨?_, plainAscii_uuid huuid, hbefore, hafter⟩
  simp [RtcPendingRecord.valid, huuid, hlen, hlen', hpc, iso8601StrLen, rtcSourceSize]

end Texts

section Events

variable (parse : Bytes → Option CJson)

/-- The parser reads an event as it is written: an object of five texts. -/
def ParsesEvents : Prop := ∀ r : RtcPendingRecord, r.Built → parse (eventText r ++ [newline]) = some (.object
  [(lit "event", some (lit "rtc_correction")), (lit "correctionId", some r.correctionId), (lit "before", some r.before),
    (lit "after", some r.after), (lit "source", some (lit "pc"))])

def logLines (content : Option Bytes) : List Bytes := completeLines (content.getD [])

def isEventOf (r : RtcPendingRecord) (line : Bytes) : Bool :=
  classifyCompleteEventLine parse (line ++ [newline]) r = some true

/-- The id of a line that is a correction's event. -/
def eventId (line : Bytes) : Option Bytes :=
  match parse (line ++ [newline]) with
  | some (.object members) =>
    if CJson.text members (lit "event") = some (lit "rtc_correction") then CJson.text members (lit "correctionId") else none
  | _ => none

def eventCount (r : RtcPendingRecord) (content : Option Bytes) : ℕ := (logLines content).countP (isEventOf parse r)

/-- No two events of a log share their id. -/
def UniqueIds (content : Option Bytes) : Prop :=
  ∀ id, (logLines content).countP (fun line => eventId parse line = some id) ≤ 1

variable {parse} {r r' : RtcPendingRecord} {line : Bytes} {content : Option Bytes}

theorem isEventOf_iff : isEventOf parse r line = true ↔ classifyCompleteEventLine parse (line ++ [newline]) r = some true :=
  decide_eq_true_iff

theorem eventId_of_isEventOf (h : isEventOf parse r line = true) : eventId parse line = some r.correctionId := by
  rw [isEventOf_iff, classifyCompleteEventLine] at h
  split at h
  case h_1 members hparse =>
    split at h
    case isTrue hid =>
      unfold eventId
      rw [hparse]
      exact (if_pos hid.2).trans hid.1
    case isFalse => cases h
  case h_2 => cases h

/-- A line of the record's id is its event or an error. -/
theorem isEventOf_of_eventId (hid : eventId parse line = some r.correctionId)
    (h : classifyCompleteEventLine parse (line ++ [newline]) r ≠ none) : isEventOf parse r line = true := by
  unfold eventId at hid
  split at hid
  case h_1 members hparse =>
    simp only [Option.ite_none_right_eq_some] at hid
    rw [isEventOf_iff]
    simp only [classifyCompleteEventLine, hparse] at h ⊢
    rw [if_pos ⟨hid.2, hid.1⟩] at h ⊢
    split
    case isTrue hother =>
      rw [if_pos hother] at h
      exact absurd rfl h
    case isFalse => rfl
  case h_2 => cases hid

theorem eventCount_le (h : UniqueIds parse content) (r : RtcPendingRecord) : eventCount parse r content ≤ 1 := by
  refine (List.countP_mono_left fun line _ hline => ?_).trans (h r.correctionId)
  simpa using eventId_of_isEventOf hline

theorem isEventOf_eventText (hparse : ParsesEvents parse) (hr : r.Built) : isEventOf parse r (eventText r) = true := by
  have hkeys : lit "event" ≠ lit "correctionId" ∧ lit "event" ≠ lit "before" ∧ lit "correctionId" ≠ lit "before" ∧
      lit "event" ≠ lit "after" ∧ lit "correctionId" ≠ lit "after" ∧ lit "before" ≠ lit "after" ∧ lit "event" ≠ lit "source" ∧
      lit "correctionId" ≠ lit "source" ∧ lit "before" ≠ lit "source" ∧ lit "after" ≠ lit "source" := by
    with_unfolding_all decide
  obtain ⟨h1, h2, h3, h4, h5, h6, h7, h8, h9, h10⟩ := hkeys
  rw [isEventOf_iff]
  simp [classifyCompleteEventLine, hparse r hr, CJson.text, h1, h2, h3, h4, h5, h6, h7, h8, h9, h10, hr.source]

theorem eventId_eventText (hparse : ParsesEvents parse) (hr : r.Built) : eventId parse (eventText r) = some r.correctionId :=
  eventId_of_isEventOf (isEventOf_eventText hparse hr)

/-- An event that comes after a log without its id is new to every count but its own. -/
theorem countP_append_event (hparse : ParsesEvents parse) (hr : r.Built) {ls : List Bytes}
    (hnew : ∀ l ∈ ls, eventId parse l ≠ some r.correctionId) (hcount : ls.countP (isEventOf parse r') = 1) :
    (ls ++ [eventText r]).countP (isEventOf parse r') = 1 := by
  have hother : isEventOf parse r' (eventText r) = false := by
    refine Bool.eq_false_iff.mpr fun hevent => ?_
    obtain ⟨l, hl, hl'⟩ := List.countP_pos_iff.mp (hcount ▸ Nat.one_pos)
    have hid := (eventId_of_isEventOf hevent).symm.trans (eventId_eventText hparse hr)
    exact hnew l hl ((eventId_of_isEventOf hl').trans hid)
  rw [List.countP_append, hcount, List.countP_cons_of_neg (by simp [hother]), List.countP_nil]

end Events

section Invariant

variable (parse : Bytes → Option CJson)

/-- The state of the stores and the log, at any time and after any loss of power. -/
structure RtcInv (w : RtcWorld) : Prop where
  unique : ∀ c ∈ w.log.contents, UniqueIds parse c
  built : ∀ r, w.nvs = some (some (.record r)) ∨ w.kept = some (some (.record r)) → r.valid = true → r.Built
  owed : ∀ r earlier, w.notes = .accepted r :: earlier → w.kept = some (some (.record r)) ∧ r.valid = true ∧
    (w.nvs = some (some (.record r)) ∨ w.nvs = some none ∧ ∀ c ∈ w.log.contents, eventCount parse r c = 1)
  settled : ∀ later old new log r earlier, w.notes = later ++ .changed old new log :: .accepted r :: earlier →
    old = some (some (.record r)) ∧ new = some none ∧ (∀ c ∈ log, eventCount parse r c = 1) ∧
      ∀ c ∈ w.log.contents, eventCount parse r c = 1

/-- What RAM says of the stores. -/
structure RtcRam.Fits (w : RtcWorld) (ram : RtcRam) : Prop where
  built : ram.pending = true → ram.record.Built
  owed : ∀ r earlier, w.notes = .accepted r :: earlier → ram.pending = true ∧ ram.record = r

/-- Everything but the chip and the clock is as it was. -/
structure RtcWorld.SameStores (w w' : RtcWorld) : Prop where
  nvs : w'.nvs = w.nvs
  kept : w'.kept = w.kept
  log : w'.log = w.log
  notes : w'.notes = w.notes

variable {parse} {w w' : RtcWorld}

theorem RtcWorld.SameStores.trans {w'' : RtcWorld} (h : w.SameStores w') (h' : w'.SameStores w'') : w.SameStores w'' :=
  ⟨h'.nvs.trans h.nvs, h'.kept.trans h.kept, h'.log.trans h.log, h'.notes.trans h.notes⟩

theorem RtcInv.same (hI : RtcInv parse w) (h : w.SameStores w') : RtcInv parse w' := by
  refine ⟨?_, ?_, ?_, ?_⟩
  · rw [h.log]
    exact hI.unique
  · rw [h.nvs, h.kept]
    exact hI.built
  · rw [h.nvs, h.kept, h.log, h.notes]
    exact hI.owed
  · rw [h.log, h.notes]
    exact hI.settled

theorem RtcRam.Fits.same {ram : RtcRam} (hram : ram.Fits w) (h : w'.notes = w.notes) : ram.Fits w' :=
  ⟨hram.built, h ▸ hram.owed⟩

/-- The log may change as long as the counts that matter stay. -/
theorem RtcInv.relog (hI : RtcInv parse w) {log : LogFile} (hunique : ∀ c ∈ log.contents, UniqueIds parse c)
    (hcount : ∀ r, (∀ c ∈ w.log.contents, eventCount parse r c = 1) → ∀ c ∈ log.contents, eventCount parse r c = 1) :
    RtcInv parse (w.setLog log) := by
  refine ⟨hunique, hI.built, fun r earlier hnotes => ?_, fun later old new log' r earlier hnotes => ?_⟩
  · obtain ⟨hkept, hvalid, hnvs⟩ := hI.owed r earlier hnotes
    exact ⟨hkept, hvalid, hnvs.imp_right fun h => ⟨h.1, hcount r h.2⟩⟩
  · obtain ⟨hold, hnew, hlog, hnow⟩ := hI.settled later old new log' r earlier hnotes
    exact ⟨hold, hnew, hlog, hcount r hnow⟩

/-- No line comes or goes. -/
theorem RtcInv.relog_lines (hI : RtcInv parse w) {log : LogFile}
    (hlines : ∀ c ∈ log.contents, ∃ c' ∈ w.log.contents, logLines c = logLines c') : RtcInv parse (w.setLog log) := by
  refine hI.relog (fun c hc => ?_) fun r hcount c hc => ?_
  · obtain ⟨c', hc', heq⟩ := hlines c hc
    have := hI.unique c' hc'
    rwa [UniqueIds, ← heq] at this
  · obtain ⟨c', hc', heq⟩ := hlines c hc
    have := hcount c' hc'
    rwa [eventCount, ← heq] at this

/-- A commit, where what it commits may take the place of what was committed. -/
theorem RtcInv.note (hI : RtcInv parse w) {new : Nvs}
    (hbuilt : ∀ r, new = some (some (.record r)) → r.valid = true → r.Built)
    (howed : ∀ r earlier, w.notes = .accepted r :: earlier → new = w.kept ∨
      new = some none ∧ ∀ c ∈ w.log.contents, eventCount parse r c = 1) : RtcInv parse (w.note new) := by
  unfold RtcWorld.note
  split
  · exact hI
  case isFalse hne =>
    refine ⟨hI.unique, fun r hr => ?_, fun r earlier hnotes => ?_, fun later old new' log r earlier hnotes => ?_⟩
    · rcases hr with hr | hr
      · exact hI.built r (Or.inl hr)
      · exact hbuilt r hr
    · cases hnotes
    · cases later with
      | nil =>
        rw [List.nil_append, List.cons_eq_cons] at hnotes
        obtain ⟨hnote, hnotes⟩ := hnotes
        cases hnote
        obtain ⟨hkept, -, -⟩ := hI.owed r earlier hnotes
        obtain ⟨hnew, hcount⟩ := (howed r earlier hnotes).resolve_left hne
        exact ⟨hkept, hnew, hcount, hcount⟩
      | cons x later =>
        rw [List.cons_append, List.cons_eq_cons] at hnotes
        exact hI.settled later old new' log r earlier hnotes.2

theorem LogFile.pick_mem (f : LogFile) (n : ℕ) : f.pick n ∈ f.contents := by
  unfold LogFile.pick
  rw [List.getD_eq_getElem?_getD]
  cases h : f.contents[n]? with
  | none => exact List.mem_cons_self
  | some c => exact List.mem_of_getElem? h

theorem RtcWorld.note_nvs (w : RtcWorld) (new : Nvs) : (w.note new).nvs = w.nvs ∧ (w.note new).log = w.log := by
  unfold RtcWorld.note
  split <;> exact ⟨rfl, rfl⟩

theorem RtcWorld.note_kept (w : RtcWorld) (new : Nvs) : (w.note new).kept = new := by
  unfold RtcWorld.note
  split
  case isTrue h => exact h.symm
  case isFalse => rfl

/-- The store as it reads from now on is what it has kept. -/
theorem RtcInv.reload (hI : RtcInv parse w) : RtcInv parse { w with nvs := w.kept } := by
  refine ⟨hI.unique, fun r hr => hI.built r (hr.elim Or.inr Or.inr), fun r earlier hnotes => ?_, hI.settled⟩
  obtain ⟨hkept, hvalid, -⟩ := hI.owed r earlier hnotes
  exact ⟨hkept, hvalid, Or.inl hkept⟩

theorem RtcInv.lose (hI : RtcInv parse w) (n : ℕ) : RtcInv parse (w.lose n) := by
  have hpicked : RtcInv parse { w with clock := none, log := .settle (w.log.pick (n / 2)) } := by
    have hlog : RtcInv parse (w.setLog (.settle (w.log.pick (n / 2)))) := hI.relog_lines fun c hc => by
      obtain rfl := List.mem_singleton.mp hc
      exact ⟨_, w.log.pick_mem _, rfl⟩
    exact hlog.same ⟨rfl, rfl, rfl, rfl⟩
  unfold RtcWorld.lose
  dsimp only
  split
  · refine (hpicked.note (fun r hr => hpicked.built r (Or.inl hr)) fun r earlier hnotes => ?_).reload
    obtain ⟨hkept, -, hnvs⟩ := hpicked.owed r earlier hnotes
    exact hnvs.imp_left fun h => h.trans hkept.symm
  · exact hpicked.reload

end Invariant

section Operations

variable {parse : Bytes → Option CJson} {w : RtcWorld} {α : Type}

/-- A program keeps the invariant under any faults, wherever power is lost, and returns with `Q`. -/
abbrev KeepsRtc (parse : Bytes → Option CJson) (p : RtcProg α) (Q : α → RtcWorld → Prop) (w : RtcWorld) : Prop :=
  rtcDevice.wp (fun _ => True) (RtcInv parse) p Q w

theorem keepsRtc_op {o : RtcOp} {Q : o.Ans → RtcWorld → Prop} (hinv : RtcInv parse (w.calm o).2)
    (h : ∀ f, Q (w.act o f).1 (w.act o f).2) : KeepsRtc parse (.op o) Q w :=
  ⟨fun n => hinv.lose n, fun f _ => h f⟩

/-- The operations that leave the stores and the log alone. -/
def RtcOp.isQuiet : RtcOp → Bool
  | .nvsOpen true | .nvsSetBlob _ | .nvsEraseKey | .nvsCommit | .fopenCreate | .ftruncate _ | .fsync | .fwrite _ | .fclose => false
  | _ => true

/-- The operations whose answer is what the hardware gives. -/
def RtcOp.isHardware : RtcOp → Bool
  | .transmitReceive .. | .gettimeofday | .esp_random => true
  | _ => false

theorem RtcWorld.act_eq {o : RtcOp} (ho : o.isHardware = false) (f : Option RtcFault) :
    w.act o f = w.calm o ∨ ∃ n, w.act o f = w.failing n o := by
  rcases f with _ | n | data | t
  · cases o <;> exact Or.inl rfl
  · cases o <;> exact Or.inr ⟨n, rfl⟩
  · cases o <;> first | exact Or.inl rfl | cases ho
  · cases o <;> first | exact Or.inl rfl | cases ho

theorem RtcWorld.sameStores_write (w : RtcWorld) (msg : Bytes) (n : ℕ) : w.SameStores (w.write msg n) := by
  cases msg <;> exact ⟨rfl, rfl, rfl, rfl⟩

theorem RtcWorld.sameStores_calm {o : RtcOp} (ho : o.isQuiet = true) : w.SameStores (w.calm o).2 := by
  cases o with
  | transmit msg => exact w.sameStores_write msg _
  | nvsOpen readwrite =>
    cases readwrite
    · exact ⟨rfl, rfl, rfl, rfl⟩
    · cases ho
  | _ => first | exact ⟨rfl, rfl, rfl, rfl⟩ | cases ho

theorem RtcWorld.sameStores_act {o : RtcOp} (ho : o.isQuiet = true) (f : Option RtcFault) : w.SameStores (w.act o f).2 := by
  by_cases hh : o.isHardware = true
  · rcases f with _ | n | data | t <;> cases o <;> first | exact ⟨rfl, rfl, rfl, rfl⟩ | cases hh
  · rcases w.act_eq (Bool.eq_false_iff.mpr hh) f with heq | ⟨n, heq⟩
    · rw [heq]
      exact w.sameStores_calm ho
    · rw [heq]
      cases o with
      | transmit msg => exact w.sameStores_write msg n
      | nvsOpen readwrite =>
        cases readwrite
        · rw [failing]
          split <;> exact ⟨rfl, rfl, rfl, rfl⟩
        · cases ho
      | _ => first | exact ⟨rfl, rfl, rfl, rfl⟩ | cases ho

theorem keepsRtc_quiet {o : RtcOp} {Q : o.Ans → RtcWorld → Prop} (hI : RtcInv parse w) (ho : o.isQuiet = true)
    (h : ∀ r w', w.SameStores w' → Q r w') : KeepsRtc parse (.op o) Q w :=
  keepsRtc_op (hI.same (w.sameStores_calm ho)) fun f => h _ _ (w.sameStores_act ho f)

/-- A program of quiet operations. -/
theorem keepsRtc_only {p : RtcProg α} (hp : Device.Only (fun o => o.isQuiet = true) p) (hI : RtcInv parse w) :
    KeepsRtc parse p (fun _ w' => w.SameStores w') w := by
  have hwp : ∀ w', w.SameStores w' → KeepsRtc parse p (fun _ w' => w.SameStores w') w' := by
    induction hp with
    | ret a => exact fun w' h => h
    | call o k ho _ ih =>
      intro w' h
      refine ⟨fun n => ((hI.same h).same (w'.sameStores_calm ho)).lose n, fun f _ => ih _ _ ?_⟩
      exact h.trans (w'.sameStores_act ho f)
  exact hwp w ⟨rfl, rfl, rfl, rfl⟩

theorem keepsRtc_bind {β : Type} {p : RtcProg α} {f : α → RtcProg β} {R : α → RtcWorld → Prop} {Q : β → RtcWorld → Prop}
    (hp : KeepsRtc parse p R w) (hf : ∀ a w', R a w' → KeepsRtc parse (f a) Q w') : KeepsRtc parse (p >>= f) Q w :=
  (Device.wp_bind p f Q w).mpr (Device.wp_mono p hp hf)

theorem keepsRtc_ite {c : Prop} [Decidable c] {p q : RtcProg α} {Q : α → RtcWorld → Prop} (hp : KeepsRtc parse p Q w)
    (hq : KeepsRtc parse q Q w) : KeepsRtc parse (if c then p else q) Q w := by
  split
  · exact hp
  · exact hq

section Store

/-- The namespace is made where it is missing. -/
theorem RtcInv.open (hI : RtcInv parse w) : RtcInv parse { w with nvs := some (w.nvs.getD none) } := by
  have heq : ∀ blob, w.nvs.getD none = some blob → w.nvs = some (some blob) := by
    intro blob h
    cases hn : w.nvs with
    | none =>
      rw [hn] at h
      cases h
    | some b =>
      rw [hn] at h
      exact congrArg some h
  refine ⟨hI.unique, fun r hr => hI.built r (hr.imp_left fun h => heq _ (Option.some.inj h)), fun r earlier hnotes => ?_, hI.settled⟩
  obtain ⟨hkept, hvalid, hnvs⟩ := hI.owed r earlier hnotes
  refine ⟨hkept, hvalid, hnvs.imp (fun h => ?_) fun h => ⟨?_, h.2⟩⟩
  · dsimp only
    rw [h]
    rfl
  · dsimp only
    rw [h.1]
    rfl

theorem keepsRtc_nvsOpen (hI : RtcInv parse w) {Q : Except NvsErr Unit → RtcWorld → Prop}
    (h : ∀ r w', RtcInv parse w' → w'.kept = w.kept → w'.log = w.log → w'.notes = w.notes → Q r w') :
    KeepsRtc parse (.op (.nvsOpen true)) Q w := by
  refine keepsRtc_op hI.open fun f => ?_
  rcases w.act_eq (o := .nvsOpen true) rfl f with heq | ⟨n, heq⟩
  · rw [heq]
    exact h _ _ hI.open rfl rfl rfl
  · rw [heq, RtcWorld.failing]
    dsimp only
    split
    · exact h _ _ hI rfl rfl rfl
    · exact h _ _ hI.open rfl rfl rfl

/-- A new pending record, where none is owed. -/
theorem RtcInv.set (hI : RtcInv parse w) {record : RtcPendingRecord} (hbuilt : record.Built)
    (howed : ∀ r earlier, w.notes ≠ .accepted r :: earlier) : RtcInv parse { w with nvs := some (some (.record record)) } := by
  refine ⟨hI.unique, fun r hr hvalid => ?_, fun r earlier hnotes => absurd hnotes (howed r earlier), hI.settled⟩
  rcases hr with hr | hr
  · cases hr
    exact hbuilt
  · exact hI.built r (Or.inr hr) hvalid

theorem keepsRtc_nvsSetBlob (hI : RtcInv parse w) {record : RtcPendingRecord} (hbuilt : record.Built)
    (howed : ∀ r earlier, w.notes ≠ .accepted r :: earlier) {Q : Bool → RtcWorld → Prop}
    (hok : Q true { w with nvs := some (some (.record record)) })
    (hfail : ∀ w', RtcInv parse w' → w'.notes = w.notes → Q false w') : KeepsRtc parse (.op (.nvsSetBlob record)) Q w := by
  refine keepsRtc_op (hI.set hbuilt howed) fun f => ?_
  rcases w.act_eq (o := .nvsSetBlob record) rfl f with heq | ⟨n, heq⟩
  · rw [heq]
    exact hok
  · rw [heq, RtcWorld.failing]
    dsimp only
    split
    · exact hfail _ hI rfl
    · exact hfail _ (hI.set hbuilt howed) rfl

/-- Erasing takes away what is owed only once its event is in the log. -/
theorem RtcInv.erase (hI : RtcInv parse w)
    (howed : ∀ r earlier, w.notes = .accepted r :: earlier → ∀ c ∈ w.log.contents, eventCount parse r c = 1) :
    RtcInv parse { w with nvs := some none } := by
  refine ⟨hI.unique, fun r hr hvalid => ?_, fun r earlier hnotes => ?_, hI.settled⟩
  · rcases hr with hr | hr
    · cases hr
    · exact hI.built r (Or.inr hr) hvalid
  · obtain ⟨hkept, hvalid, -⟩ := hI.owed r earlier hnotes
    exact ⟨hkept, hvalid, Or.inr ⟨rfl, howed r earlier hnotes⟩⟩

theorem keepsRtc_nvsEraseKey (hI : RtcInv parse w)
    (howed : ∀ r earlier, w.notes = .accepted r :: earlier → ∀ c ∈ w.log.contents, eventCount parse r c = 1)
    {Q : Except NvsErr Unit → RtcWorld → Prop} (hok : ∀ r, Q r { w with nvs := some none })
    (hfail : Q (.error .other) w) : KeepsRtc parse (.op .nvsEraseKey) Q w := by
  refine keepsRtc_op (hI.erase howed) fun f => ?_
  rcases w.act_eq (o := .nvsEraseKey) rfl f with heq | ⟨n, heq⟩
  · rw [heq]
    exact hok _
  · rw [heq, RtcWorld.failing]
    dsimp only
    split
    · exact hfail
    · exact hok _

/-- What the store holds may always be committed. -/
theorem RtcInv.commit (hI : RtcInv parse w) : RtcInv parse (w.note w.nvs) := by
  refine hI.note (fun r hr => hI.built r (Or.inl hr)) fun r earlier hnotes => ?_
  obtain ⟨hkept, -, hnvs⟩ := hI.owed r earlier hnotes
  exact hnvs.imp_left fun h => h.trans hkept.symm

theorem keepsRtc_nvsCommit (hI : RtcInv parse w) {Q : Bool → RtcWorld → Prop} (hok : ∀ b, Q b (w.note w.nvs))
    (hfail : Q false w) : KeepsRtc parse (.op .nvsCommit) Q w := by
  refine keepsRtc_op hI.commit fun f => ?_
  rcases w.act_eq (o := .nvsCommit) rfl f with heq | ⟨n, heq⟩
  · rw [heq]
    exact hok true
  · rw [heq, RtcWorld.failing]
    dsimp only
    split
    · exact hfail
    · exact hok false

end Store

end Operations

section Apply

variable {parse : Bytes → Option CJson} {w : RtcWorld} {ram : RtcRam}

/-- Only the handles of the bus differ. -/
structure RtcRam.SameBut (ram ram' : RtcRam) : Prop where
  lock : ram'.lock = ram.lock
  pending : ram'.pending = ram.pending
  record : ram'.record = ram.record

theorem RtcRam.Fits.sameBut {ram' : RtcRam} (hram : ram.Fits w) (h : ram.SameBut ram') : ram'.Fits w :=
  ⟨h.pending ▸ h.record ▸ hram.built, h.pending ▸ h.record ▸ hram.owed⟩

theorem RtcRam.SameBut.trans {ram' ram'' : RtcRam} (h : ram.SameBut ram') (h' : ram'.SameBut ram'') : ram.SameBut ram'' :=
  ⟨h'.lock.trans h.lock, h'.pending.trans h.pending, h'.record.trans h.record⟩

theorem keepsRtc_hwInit (hI : RtcInv parse w) (ram : RtcRam) :
    KeepsRtc parse (rtcHwInit ram) (fun r w' => w.SameStores w' ∧ ram.SameBut r.2) w := by
  unfold rtcHwInit
  split
  · exact ⟨⟨rfl, rfl, rfl, rfl⟩, rfl, rfl, rfl⟩
  · refine keepsRtc_bind (keepsRtc_quiet hI rfl fun r w' h => h) fun r w' h => ?_
    split
    · exact ⟨h, rfl, rfl, rfl⟩
    · refine keepsRtc_bind (keepsRtc_quiet (hI.same h) rfl fun r w'' h' => h.trans h') fun r w'' h => ?_
      split
      · refine keepsRtc_bind (keepsRtc_quiet (hI.same h) rfl fun r w3 h' => h.trans h') fun r w3 h => ?_
        exact ⟨h, rfl, rfl, rfl⟩
      · exact ⟨h, rfl, rfl, rfl⟩

theorem keepsRtc_hwDeinit (hI : RtcInv parse w) (ram : RtcRam) :
    KeepsRtc parse (rtcHwDeinit ram) (fun r w' => w.SameStores w' ∧ ram.SameBut r.2) w := by
  have hquiet : ∀ w', w.SameStores w' → ∀ o : RtcOp, o.isQuiet = true → KeepsRtc parse (.op o) (fun _ w' => w.SameStores w') w' :=
    fun w' h o ho => keepsRtc_quiet (hI.same h) ho fun _ _ h' => h.trans h'
  have hsame : w.SameStores w := ⟨rfl, rfl, rfl, rfl⟩
  unfold rtcHwDeinit
  refine keepsRtc_bind (keepsRtc_ite (hquiet w hsame .busRmDevice rfl) hsame) fun removed w' h => ?_
  refine keepsRtc_bind (keepsRtc_ite (hquiet w' h .delMasterBus rfl) h) fun deleted w'' h => ⟨h, ?_⟩
  constructor <;> (dsimp only; split_ifs <;> rfl)

theorem only_hwReadEpoch : Device.Only (fun o : RtcOp => o.isQuiet = true) rtcHwReadEpoch :=
  .call _ _ rfl fun _ => .ret _

theorem only_hwWriteEpoch (epoch : ℤ) : Device.Only (fun o : RtcOp => o.isQuiet = true) (rtcHwWriteEpoch epoch) := by
  have hop : ∀ o : RtcOp, o.isQuiet = true → Device.Only (fun o : RtcOp => o.isQuiet = true) (.op o : RtcProg o.Ans) :=
    fun o ho => .call _ _ ho fun _ => .ret _
  unfold rtcHwWriteEpoch
  split
  · exact .ret _
  · split
    · exact .ret _
    · refine (hop (.transmit _) rfl).bind fun r => ?_
      split
      · exact .ret _
      · refine (hop (.transmit _) rfl).bind fun r => ?_
        split
        · exact (hop (.transmit _) rfl).bind fun _ => .ret _
        · exact hop (.transmit _) rfl

/-- What `rtcCorrectionApply` leaves. -/
structure RtcApplied (parse : Bytes → Option CJson) (ram : RtcRam) (result : RtcCorrectionResult) (w : RtcWorld) : Prop where
  inv : RtcInv parse w
  failed : result ≠ .ok → ram.Fits w
  accepted : result = .ok → w.nvs = some (some (.record ram.record)) ∧ w.kept = some (some (.record ram.record)) ∧
    ram.pending = true ∧ ram.record.Built ∧ ∀ r earlier, w.notes ≠ .accepted r :: earlier

theorem RtcApplied.fail {result : RtcCorrectionResult} (hI : RtcInv parse w) (hram : ram.Fits w) (h : result ≠ .ok) :
    RtcApplied parse ram result w :=
  ⟨hI, fun _ => hram, fun hok => absurd hok h⟩

theorem RtcWorld.notes_note (w : RtcWorld) (new : Nvs) (h : ∀ r earlier, w.notes ≠ .accepted r :: earlier) :
    ∀ r earlier, (w.note new).notes ≠ .accepted r :: earlier := by
  unfold RtcWorld.note
  split
  · exact h
  · intro r earlier heq
    cases heq

theorem keepsRtc_epochBefore (hI : RtcInv parse w) : KeepsRtc parse rtcEpochBefore (fun _ w' => w.SameStores w') w := by
  refine keepsRtc_bind (keepsRtc_only only_hwReadEpoch hI) fun r w' h => ?_
  cases r with
  | some epoch => exact h
  | none => exact keepsRtc_bind (keepsRtc_quiet (hI.same h) rfl fun _ _ h' => h.trans h') fun _ _ h => h

/-- What stands once a record has been committed, or may have been. -/
theorem keepsRtc_commitPending (hI : RtcInv parse w) {candidate : RtcPendingRecord} (hbuilt : candidate.Built)
    (howed : ∀ r earlier, w.notes ≠ .accepted r :: earlier) : KeepsRtc parse (rtcCommitPending candidate)
      (fun r w' => RtcInv parse w' ∧ (∀ r earlier, w'.notes ≠ .accepted r :: earlier) ∧ (r = true →
        w'.nvs = some (some (.record candidate)) ∧ w'.kept = some (some (.record candidate)))) w := by
  refine keepsRtc_bind (keepsRtc_quiet hI rfl fun _ _ h => h) fun locked w' hsame => ?_
  have hI' := hI.same hsame
  split
  · exact ⟨hI', hsame.notes ▸ howed, by rintro ⟨⟩⟩
  · refine keepsRtc_bind (R := fun _ w'' => RtcInv parse w'' ∧ w''.notes = w.notes)
      (keepsRtc_nvsOpen hI' fun r w'' hI'' _ _ hnotes => ⟨hI'', hnotes.trans hsame.notes⟩) ?_
    rintro r w'' ⟨hI'', hnotes⟩
    have howed' : ∀ r earlier, w''.notes ≠ .accepted r :: earlier := hnotes ▸ howed
    cases r with
    | error e => exact ⟨hI'', howed', by rintro ⟨⟩⟩
    | ok _ =>
      refine keepsRtc_bind (R := fun r w' => (r = true → w' = { w'' with nvs := some (some (.record candidate)) }) ∧
        RtcInv parse w' ∧ ∀ r earlier, w'.notes ≠ .accepted r :: earlier) (keepsRtc_nvsSetBlob hI'' hbuilt howed'
          ⟨fun _ => rfl, hI''.set hbuilt howed', howed'⟩ fun w' hI hnotes => ⟨by rintro ⟨⟩, hI, hnotes ▸ howed'⟩) fun set w3 h => ?_
      obtain ⟨hset, hI3, howed3⟩ := h
      split
      · exact ⟨hI3, howed3, by rintro ⟨⟩⟩
      case isFalse hok =>
        have heq := hset (by simpa using hok)
        refine keepsRtc_nvsCommit hI3 (fun b => ⟨hI3.commit, w3.notes_note _ howed3, fun _ => ?_⟩) ⟨hI3, howed3, by rintro ⟨⟩⟩
        rw [(w3.note_nvs _).1, w3.note_kept, heq]
        exact ⟨rfl, rfl⟩

theorem keepsRtc_apply (hI : RtcInv parse w) (hram : ram.Fits w) (requestedTime : Option Bytes) (normalizedSize : Option ℕ) :
    KeepsRtc parse (rtcCorrectionApply ram requestedTime normalizedSize) (fun r w' => RtcApplied parse r.2.2 r.1 w') w := by
  unfold rtcCorrectionApply
  split
  · exact .fail hI hram (by rintro ⟨⟩)
  · split
    case h_1 e herror =>
      refine .fail hI hram ?_
      rcases rtcParseIso8601_cases requestedTime with ⟨_, _, h, _⟩ | h | h | h <;> rw [h] at herror <;> cases herror <;> rintro ⟨⟩
    case h_2 requested normalized htext =>
      split
      · exact .fail hI hram (by rintro ⟨⟩)
      · split
        · exact .fail hI hram (by rintro ⟨⟩)
        case isFalse hpending =>
          have howed : ∀ r earlier, w.notes ≠ .accepted r :: earlier := fun r earlier h => hpending (hram.owed r earlier h).1
          refine keepsRtc_bind (keepsRtc_hwInit hI ram) ?_
          rintro ⟨ready, ram'⟩ w' ⟨hsame, hbut⟩
          have hfail : ∀ w', w.SameStores w' → RtcApplied parse ram' .internalError w' := fun w' h =>
            .fail (hI.same h) ((hram.sameBut hbut).same h.notes) (by rintro ⟨⟩)
          dsimp only
          split
          · exact hfail _ hsame
          · refine keepsRtc_bind (keepsRtc_epochBefore (hI.same hsame)) fun before w' h => ?_
            have hsame := hsame.trans h
            refine keepsRtc_bind (keepsRtc_quiet (hI.same hsame) rfl fun _ _ h => hsame.trans h) fun random w' hsame => ?_
            cases hid : deviceIdentityFormatUuidV4 random with
            | none => exact hfail _ hsame
            | some correctionId =>
              have hbuilt := built_candidate before hid htext
              dsimp only
              refine keepsRtc_bind (keepsRtc_only (only_hwWriteEpoch requested) (hI.same hsame)) fun written w' h => ?_
              have hsame := hsame.trans h
              split
              · exact hfail _ hsame
              · refine keepsRtc_bind (keepsRtc_quiet (hI.same hsame) rfl fun _ _ h => hsame.trans h) fun set w' hsame => ?_
                split
                · exact hfail _ hsame
                · refine keepsRtc_bind (keepsRtc_commitPending (hI.same hsame) hbuilt (hsame.notes ▸ howed)) fun committed w' h => ?_
                  obtain ⟨hI', howed', hstored⟩ := h
                  split
                  · exact .fail hI' ⟨((hram.sameBut hbut)).built, fun r earlier h => absurd h (howed' r earlier)⟩ (by rintro ⟨⟩)
                  case isFalse hok =>
                    obtain ⟨hnvs, hkept⟩ := hstored (by simpa using hok)
                    exact ⟨hI', fun h => absurd rfl h, fun _ => ⟨hnvs, hkept, rfl, hbuilt, howed'⟩⟩

/-- After power has come back the store is what it has kept. What RAM takes up then is what is owed. -/
theorem keepsRtc_loadPending (hI : RtcInv parse w) (hfresh : w.nvs = w.kept) (ram : RtcRam) :
    KeepsRtc parse (rtcLoadPending ram) (fun r w' => RtcInv parse w' ∧ (r.1 = true → r.2.Fits w')) w := by
  -- an empty store owes nothing
  have habsent : w.nvs.getD none = none → ∀ w', w.SameStores w' → RtcInv parse w' ∧
      RtcRam.Fits w' { ram with pending := false, record := ⟨0, 0, [], [], [], []⟩ } := by
    intro hnone w' h
    refine ⟨hI.same h, by rintro ⟨⟩, fun r earlier hnotes => ?_⟩
    obtain ⟨hkept, -, -⟩ := hI.owed r earlier (h.notes ▸ hnotes)
    rw [hfresh, hkept] at hnone
    cases hnone
  refine keepsRtc_bind (R := fun r w' => w.SameStores w' ∧ (r = .error .notFound → w.nvs.getD none = none))
    (keepsRtc_op (hI.same (w.sameStores_calm rfl)) fun f => ⟨w.sameStores_act rfl f, ?_⟩) fun r w' h => ?_
  · rcases w.act_eq (o := .nvsOpen false) rfl f with heq | ⟨n, heq⟩
    · rw [heq, RtcWorld.calm]
      cases hn : w.nvs with
      | none => exact fun _ => rfl
      | some b => rintro ⟨⟩
    · rw [heq]
      rintro ⟨⟩
  · obtain ⟨hsame, hnone⟩ := h
    have hI' := hI.same hsame
    rcases r with (_ | _) | _
    · have := habsent (hnone rfl) w' hsame
      exact ⟨this.1, fun _ => this.2⟩
    · exact ⟨hI', by rintro ⟨⟩⟩
    · refine keepsRtc_bind (R := fun r w'' => w.SameStores w'' ∧ (r = .error .notFound → w.nvs.getD none = none) ∧
        ∀ blob, r = .ok blob → w.nvs = some (some blob)) (keepsRtc_op (hI'.same (w'.sameStores_calm rfl)) fun f => ?_) fun r w'' h => ?_
      · refine ⟨hsame.trans (w'.sameStores_act rfl f), ?_⟩
        rw [← hsame.nvs]
        rcases w'.act_eq (o := .nvsGetBlob) rfl f with heq | ⟨n, heq⟩
        · rw [heq, RtcWorld.calm]
          rcases hn : w'.nvs with _ | _ | blob
          · exact ⟨fun _ => rfl, by rintro _ ⟨⟩⟩
          · exact ⟨fun _ => rfl, by rintro _ ⟨⟩⟩
          · refine ⟨by rintro ⟨⟩, ?_⟩
            rintro _ ⟨⟩
            rfl
        · rw [heq]
          exact ⟨by rintro ⟨⟩, by rintro _ ⟨⟩⟩
      · obtain ⟨hsame, hnone, hblob⟩ := h
        have hI'' := hI.same hsame
        rcases r with (_ | _) | record | _
        · have := habsent (hnone rfl) w'' hsame
          exact ⟨this.1, fun _ => this.2⟩
        · exact ⟨hI'', by rintro ⟨⟩⟩
        · dsimp only
          split
          case isTrue hvalid =>
            have hstored := hblob _ rfl
            refine ⟨hI'', fun _ => ⟨fun _ => hI.built record (Or.inl hstored) hvalid, fun r earlier hnotes => ⟨rfl, ?_⟩⟩⟩
            obtain ⟨hkept, -, -⟩ := hI.owed r earlier (hsame.notes ▸ hnotes)
            rw [hfresh, hkept] at hstored
            cases hstored
            rfl
          case isFalse => exact ⟨hI'', by rintro ⟨⟩⟩
        · exact ⟨hI'', by rintro ⟨⟩⟩

theorem keepsRtc_init (hI : RtcInv parse w) (hfresh : w.nvs = w.kept) : KeepsRtc parse (rtcCorrectionInit {})
    (fun r w' => RtcInv parse w' ∧ (r.1 = true → r.2.Fits w')) w := by
  unfold rtcCorrectionInit
  refine keepsRtc_bind (keepsRtc_quiet hI rfl fun _ _ h => h) fun started w' hsame => ?_
  split
  · exact ⟨hI.same hsame, by rintro ⟨⟩⟩
  · refine keepsRtc_bind (R := fun _ w' => w.SameStores w')
      (keepsRtc_ite hsame (keepsRtc_quiet (hI.same hsame) rfl fun _ _ h => hsame.trans h)) fun lock w' hsame => ?_
    dsimp only
    split
    · exact ⟨hI.same hsame, by rintro ⟨⟩⟩
    · refine keepsRtc_bind (keepsRtc_quiet (hI.same hsame) rfl fun _ _ h => hsame.trans h) fun locked w' hsame => ?_
      split
      · exact ⟨hI.same hsame, by rintro ⟨⟩⟩
      · exact keepsRtc_loadPending (hI.same hsame) (hsame.nvs.trans (hfresh.trans hsame.kept.symm)) _

end Apply

section Scan

variable {parse : Bytes → Option CJson} {w : RtcWorld} {r : RtcPendingRecord}

/-- Everything but the log is as it was, the chip and the clock apart. -/
structure RtcWorld.SameNvs (w w' : RtcWorld) : Prop where
  nvs : w'.nvs = w.nvs
  kept : w'.kept = w.kept
  notes : w'.notes = w.notes

theorem RtcWorld.SameNvs.trans {w' w'' : RtcWorld} (h : w.SameNvs w') (h' : w'.SameNvs w'') : w.SameNvs w'' :=
  ⟨h'.nvs.trans h.nvs, h'.kept.trans h.kept, h'.notes.trans h.notes⟩

theorem RtcWorld.SameStores.nvsOnly {w' : RtcWorld} (h : w.SameStores w') : w.SameNvs w' := ⟨h.nvs, h.kept, h.notes⟩

theorem RtcInv.settle (hI : RtcInv parse w) {c : Option Bytes} (hc : c ∈ w.log.contents) :
    RtcInv parse (w.setLog (.settle c)) := by
  refine hI.relog_lines fun c' hc' => ⟨c, hc, ?_⟩
  obtain rfl := List.mem_singleton.mp hc'
  rfl

theorem keepsRtc_fclose (hI : RtcInv parse w) {Q : Bool → RtcWorld → Prop} (hok : Q true (w.setLog (.settle w.log.seen)))
    (hfail : ∀ w', RtcInv parse w' → w.SameNvs w' → Q false w') : KeepsRtc parse (.op .fclose) Q w := by
  refine keepsRtc_op (hI.settle List.mem_cons_self) fun f => ?_
  rcases w.act_eq (o := .fclose) rfl f with heq | ⟨n, heq⟩
  · rw [heq]
    exact hok
  · rw [heq]
    exact hfail _ (hI.settle (w.log.pick_mem n)) ⟨rfl, rfl, rfl⟩

theorem keepsRtc_fsync (hI : RtcInv parse w) {Q : Bool → RtcWorld → Prop} (hok : Q true (w.setLog (.settle w.log.seen)))
    (hfail : Q false w) : KeepsRtc parse (.op .fsync) Q w := by
  refine keepsRtc_op (hI.settle List.mem_cons_self) fun f => ?_
  rcases w.act_eq (o := .fsync) rfl f with heq | ⟨n, heq⟩
  · rw [heq]
    exact hok
  · rw [heq]
    exact hfail

theorem keepsRtc_failClosed {α : Type} (hI : RtcInv parse w) :
    KeepsRtc parse (failClosed : RtcProg (Option α)) (fun a w' => a = none ∧ RtcInv parse w' ∧ w.SameNvs w') w := by
  refine keepsRtc_bind (keepsRtc_fclose (Q := fun _ w' => RtcInv parse w' ∧ w.SameNvs w') hI
    ⟨hI.settle List.mem_cons_self, rfl, rfl, rfl⟩ fun w' hI' h => ⟨hI', h⟩) fun _ w' h => ⟨rfl, h⟩

/-- A content without new lines, on top of what there is. -/
theorem RtcInv.change (hI : RtcInv parse w) {c : Option Bytes} (hlines : logLines c = logLines w.log.seen) :
    RtcInv parse (w.setLog (w.log.change c)) := by
  refine hI.relog_lines fun c' hc' => ?_
  rcases List.mem_cons.mp hc' with rfl | hc'
  · exact ⟨w.log.seen, List.mem_cons_self, hlines⟩
  · exact ⟨c', hc', rfl⟩

/-- The lines that have been read, and what follows them in the log. -/
structure ScannedTo (parse : Bytes → Option CJson) (r : RtcPendingRecord) (w : RtcWorld) (ls : List Bytes) (rest : Bytes) : Prop where
  seen : w.log.seen = some (unlines ls ++ rest)
  lines : ∀ l ∈ ls, newline ∉ l
  clean : ∀ l ∈ ls, classifyCompleteEventLine parse (l ++ [newline]) r ≠ none

theorem cstr_eq_self {b : Bytes} (h : (cstr b).getLast? = some newline) (hb : ∀ c ∈ b.dropLast, c ≠ newline) : cstr b = b := by
  obtain ⟨t, ht⟩ := List.takeWhile_prefix (p := fun c : UInt8 => decide (c ≠ 0)) (l := b)
  rcases List.eq_nil_or_concat t with rfl | ⟨t', x, rfl⟩
  · rw [List.append_nil] at ht
    exact ht
  · have hmem : newline ∈ b.dropLast := by
      have hcstr : newline ∈ cstr b := List.mem_of_getLast? h
      rw [← ht, List.concat_eq_append, ← List.append_assoc, List.dropLast_concat]
      exact List.mem_append_left _ hcstr
    exact absurd rfl (hb _ hmem)

/-- What one read of the log tells of the rest of it. -/
theorem fgets_spec {ls : List Bytes} {rest : Bytes} (h : ScannedTo parse r w ls rest) (f : Option RtcFault) {a : Fgets}
    (ha : (w.act (.fgets (unlines ls).length rtcEventLineMax) f).1 = a) :
    (a.data = [] → a.error = false → rest = []) ∧ (a.eof = true → newline ∉ rest) ∧
      ((cstr a.data).getLast? = some newline → ∃ l t, newline ∉ l ∧ rest = l ++ newline :: t ∧ a.data = l ++ [newline] ∧
        cstr a.data = l ++ [newline]) := by
  have hline : w.line (unlines ls).length rtcEventLineMax = piece 511 rest := by
    rw [RtcWorld.line, h.seen, Option.getD_some, List.drop_left]
    rfl
  -- a read without a newline is no line
  have hnone : ∀ b : Bytes, newline ∉ b → (cstr b).getLast? = some newline → False := fun b hb hlast =>
    hb ((List.takeWhile_subset _) (List.mem_of_getLast? hlast))
  rcases w.act_eq (o := .fgets (unlines ls).length rtcEventLineMax) rfl f with heq | ⟨n, heq⟩
  · rw [heq, RtcWorld.calm] at ha
    subst ha
    dsimp only
    rw [hline]
    rcases cases_line rest with hrest | ⟨l, t, hl, rfl⟩
    · rw [piece_tail hrest]
      refine ⟨fun hnil _ => ?_, fun _ => hrest, fun hlast => (hnone _ (fun hm => hrest (List.mem_of_mem_take hm)) hlast).elim⟩
      rcases List.take_eq_nil_iff.mp hnil with h | h
      · cases h
      · exact h
    · rw [piece_line hl]
      refine ⟨fun hnil _ => ?_, fun heof => ?_, fun hlast => ?_⟩
      · rcases List.take_eq_nil_iff.mp hnil with h | h <;> simp at h
      · by_cases hlen : l.length + 1 ≤ 511
        · rw [List.take_of_length_le (by simpa using hlen)] at heof
          simp at heof
        · have hlength : ((l ++ [newline]).take 511).length = 511 := by
            rw [List.length_take, List.length_append]
            simp only [List.length_singleton]
            omega
          rw [hlength] at heof
          simp [rtcEventLineMax] at heof
      · by_cases hlen : l.length + 1 ≤ 511
        · rw [List.take_of_length_le (by simpa using hlen)] at hlast ⊢
          refine ⟨l, t, hl, rfl, rfl, cstr_eq_self hlast fun c hc => ?_⟩
          rw [List.dropLast_concat] at hc
          exact ne_of_mem_of_not_mem hc hl
        · rw [List.take_append_of_le_length (by omega)] at hlast
          exact (hnone _ (fun hm => hl (List.mem_of_mem_take hm)) hlast).elim
  · rw [heq, RtcWorld.failing] at ha
    subst ha
    dsimp only
    refine ⟨by rintro _ ⟨⟩, by rintro ⟨⟩, fun hlast => (hnone _ (fun hm => ?_) hlast).elim⟩
    rw [hline] at hm
    have hdrop : newline ∈ (piece 511 rest).dropLast := by
      rw [List.dropLast_eq_take]
      rw [← List.take_take] at hm
      exact List.mem_of_mem_take hm
    rcases cases_line rest with hrest | ⟨l, t, hl, rfl⟩
    · rw [piece_tail hrest] at hdrop
      exact hrest (List.mem_of_mem_take (List.mem_of_mem_dropLast hdrop))
    · rw [piece_line hl] at hdrop
      by_cases hlen : l.length + 1 ≤ 511
      · rw [List.take_of_length_le (by simpa using hlen), List.dropLast_concat] at hdrop
        exact hl hdrop
      · rw [List.take_append_of_le_length (by omega)] at hdrop
        exact hl (List.mem_of_mem_take (List.mem_of_mem_dropLast hdrop))

theorem ScannedTo.same {w' : RtcWorld} {ls : List Bytes} {rest : Bytes} (h : ScannedTo parse r w ls rest)
    (hlog : w'.log = w.log) : ScannedTo parse r w' ls rest :=
  ⟨hlog ▸ h.seen, h.lines, h.clean⟩

theorem ScannedTo.logLines_eq {ls : List Bytes} {rest : Bytes} (h : ScannedTo parse r w ls rest) (hrest : newline ∉ rest) :
    logLines w.log.seen = ls := by
  rw [logLines, h.seen, Option.getD_some, completeLines_unlines h.lines, completeLines_eq_nil hrest, List.append_nil]

/-- A torn tail is cut off. -/
theorem keepsRtc_ftruncate (hI : RtcInv parse w) {ls : List Bytes} {rest : Bytes} (h : ScannedTo parse r w ls rest)
    (hrest : newline ∉ rest) : KeepsRtc parse (.op (.ftruncate (unlines ls).length))
      (fun b w' => RtcInv parse w' ∧ w.SameNvs w' ∧ (b = true → ScannedTo parse r w' ls [])) w := by
  have hcut : w.log.seen.map (fun b => b.take (unlines ls).length) = some (unlines ls) := by
    rw [h.seen, Option.map_some, List.take_left]
  have hchange : RtcInv parse (w.setLog (w.log.change (w.log.seen.map fun b => b.take (unlines ls).length))) := by
    refine hI.change ?_
    have hself := completeLines_unlines h.lines []
    rw [completeLines_eq_nil (b := []) (by simp), List.append_nil, List.append_nil] at hself
    rw [hcut, h.logLines_eq hrest, logLines, Option.getD_some, hself]
  refine keepsRtc_op hchange fun f => ?_
  rcases w.act_eq (o := .ftruncate (unlines ls).length) rfl f with heq | ⟨n, heq⟩
  · rw [heq]
    refine ⟨hchange, ⟨rfl, rfl, rfl⟩, fun _ => ⟨?_, h.lines, h.clean⟩⟩
    rw [List.append_nil]
    exact hcut
  · rw [heq, RtcWorld.failing]
    dsimp only
    split
    · exact ⟨hI, ⟨rfl, rfl, rfl⟩, by rintro ⟨⟩⟩
    · exact ⟨hchange, ⟨rfl, rfl, rfl⟩, by rintro ⟨⟩⟩

/-- What a scan leaves: all lines read, whether the event is among them, and no tail. -/
def Scanned (parse : Bytes → Option CJson) (r : RtcPendingRecord) (w : RtcWorld) (a : Option Bool) (w' : RtcWorld) : Prop :=
  RtcInv parse w' ∧ w.SameNvs w' ∧
    ∀ found, a = some found → ∃ ls, ScannedTo parse r w' ls [] ∧ found = ls.any (isEventOf parse r)

theorem keepsRtc_scanEvents (fuel : ℕ) {ls : List Bytes} {rest : Bytes} {found : Bool} (hI : RtcInv parse w)
    (h : ScannedTo parse r w ls rest) (hfound : found = ls.any (isEventOf parse r)) :
    KeepsRtc parse (scanEvents parse r fuel (unlines ls).length found) (Scanned parse r w) w := by
  have hfail : ∀ {w w' : RtcWorld}, RtcInv parse w' → w.SameNvs w' →
      KeepsRtc parse (failClosed : RtcProg (Option Bool)) (Scanned parse r w) w' := by
    intro w w' hI' hsame
    refine Device.wp_mono _ (keepsRtc_failClosed hI') fun a w'' h => ?_
    obtain ⟨rfl, hI'', hsame'⟩ := h
    exact ⟨hI'', hsame.trans hsame', by rintro _ ⟨⟩⟩
  induction fuel generalizing w ls rest found with
  | zero => exact hfail hI ⟨rfl, rfl, rfl⟩
  | succ fuel ih =>
    refine keepsRtc_bind (R := fun a w' => w.SameStores w' ∧ ∃ f, (w.act (.fgets (unlines ls).length rtcEventLineMax) f).1 = a)
      (keepsRtc_op (hI.same (w.sameStores_calm rfl)) fun f => ⟨w.sameStores_act rfl f, f, rfl⟩) fun a w' ha => ?_
    obtain ⟨hsame, f, ha⟩ := ha
    obtain ⟨hend, htorn, hline⟩ := fgets_spec h f ha
    have hI' := hI.same hsame
    have h' := h.same hsame.log
    dsimp only
    split
    case isTrue hnil =>
      split
      · exact hfail hI' hsame.nvsOnly
      case isFalse herror =>
        obtain rfl := hend hnil (by simpa using herror)
        exact ⟨hI', hsame.nvsOnly, fun found' heq => ⟨ls, h', (Option.some.inj heq).symm.trans hfound⟩⟩
    case isFalse =>
      split
      · exact hfail hI' hsame.nvsOnly
      · split
        · split
          · exact hfail hI' hsame.nvsOnly
          case isFalse heof =>
            have hrest := htorn (by simpa using heof)
            refine keepsRtc_bind (keepsRtc_ftruncate hI' h' hrest) fun b w'' hb => ?_
            obtain ⟨hI'', hsame', hcut⟩ := hb
            have hsame := hsame.nvsOnly.trans hsame'
            split
            · exact hfail hI'' hsame
            case isFalse hb =>
              have hcut := hcut (by simpa using hb)
              refine keepsRtc_bind (keepsRtc_quiet hI'' rfl fun _ _ h => h) fun b w3 h3 => ?_
              have hI3 := hI''.same h3
              have hsame := hsame.trans h3.nvsOnly
              split
              · exact hfail hI3 hsame
              · refine keepsRtc_bind (R := fun b w4 => RtcInv parse w4 ∧ w.SameNvs w4 ∧ w4.log.seen = w3.log.seen)
                  (keepsRtc_fsync hI3 ⟨hI3.settle List.mem_cons_self, hsame.trans ⟨rfl, rfl, rfl⟩, rfl⟩ ⟨hI3, hsame, rfl⟩)
                  fun b w4 h4 => ?_
                obtain ⟨hI4, hsame, hseen⟩ := h4
                split
                · exact hfail hI4 hsame
                · refine ⟨hI4, hsame, fun found' heq => ⟨ls, ⟨?_, h.lines, h.clean⟩, (Option.some.inj heq).symm.trans hfound⟩⟩
                  rw [hseen, h3.log]
                  exact hcut.seen
        case isFalse hlast =>
          obtain ⟨l, t, hl, rfl, hdata, hcstr⟩ := hline (not_not.mp hlast)
          rw [hcstr, hdata]
          cases hclass : classifyCompleteEventLine parse (l ++ [newline]) r with
          | none => exact hfail hI' hsame.nvsOnly
          | some isMatch =>
            refine keepsRtc_bind (keepsRtc_quiet hI' rfl fun _ _ h => h) fun b w'' h'' => ?_
            have hsame := hsame.trans h''
            split
            · exact hfail (hI.same hsame) hsame.nvsOnly
            · have hread : ScannedTo parse r w'' (ls ++ [l]) t := by
                refine ⟨?_, fun m hm => ?_, fun m hm => ?_⟩
                · rw [hsame.log, h.seen, unlines_append, unlines_singleton, List.append_assoc, List.append_assoc]
                  rfl
                · rcases List.mem_append.mp hm with hm | hm
                  · exact h.lines m hm
                  · rwa [List.mem_singleton.mp hm]
                · rcases List.mem_append.mp hm with hm | hm
                  · exact h.clean m hm
                  · rw [List.mem_singleton.mp hm, hclass]
                    rintro ⟨⟩
              have hmatch : (found || isMatch) = (ls ++ [l]).any (isEventOf parse r) := by
                have hl : isEventOf parse r l = isMatch := by
                  rw [isEventOf, hclass]
                  cases isMatch <;> rfl
                rw [List.any_append, hfound, List.any_cons, List.any_nil, Bool.or_false, hl]
              have hlength : (unlines ls).length + (l ++ [newline]).length = (unlines (ls ++ [l])).length := by
                rw [unlines_append, unlines_singleton, ← List.length_append]
              rw [hlength]
              refine Device.wp_mono _ (ih (hI.same hsame) hread hmatch) fun a w3 h3 => ?_
              exact ⟨h3.1, hsame.nvsOnly.trans h3.2.1, h3.2.2⟩

section Append

theorem newline_not_mem_eventText (hr : r.Built) : newline ∉ eventText r := by
  have hplain : ∀ b : Bytes, b.all plainAscii = true → newline ∉ b := fun b hb hm => by
    have := List.all_eq_true.mp hb _ hm
    exact absurd this (by decide)
  have hlits : newline ∉ lit "\x7b\"event\":\"rtc_correction\",\"correctionId\":\"" ∧ newline ∉ lit "\",\"before\":\"" ∧
      newline ∉ lit "\",\"after\":\"" ∧ newline ∉ lit "\",\"source\":\"pc\"\x7d" := by
    with_unfolding_all decide
  simp only [eventText, List.mem_append, not_or]
  exact ⟨⟨⟨⟨⟨⟨hlits.1, hplain _ hr.correctionId⟩, hlits.2.1⟩, hplain _ hr.before⟩, hlits.2.2.1⟩, hplain _ hr.after⟩, hlits.2.2.2⟩

/-- Any first part of the event on top of a log without it: a tail, or the event as its last line. -/
theorem RtcInv.extend (hI : RtcInv parse w) (hparse : ParsesEvents parse) (hr : r.Built) {ls : List Bytes}
    (h : ScannedTo parse r w ls []) (hnew : ls.any (isEventOf parse r) = false) (n : ℕ) (hn : n ≤ (eventText r ++ [newline]).length) :
    RtcInv parse (w.setLog (w.log.extend (eventText r ++ [newline]) n)) := by
  have hid : ∀ l ∈ ls, eventId parse l ≠ some r.correctionId := fun l hl heq => by
    have hevent := isEventOf_of_eventId heq (h.clean l hl)
    rw [List.any_eq_false] at hnew
    exact hnew l hl hevent
  have hseen : w.log.seen = some (unlines ls) := by
    rw [h.seen, List.append_nil]
  have hls := h.logLines_eq (by simp)
  have hmem : w.log.seen ∈ w.log.contents := List.mem_cons_self
  have hcases : ∀ k, k ≤ (eventText r ++ [newline]).length →
      logLines (some (unlines ls ++ (eventText r ++ [newline]).take k)) = ls ∨
        logLines (some (unlines ls ++ (eventText r ++ [newline]).take k)) = ls ++ [eventText r] := by
    intro k hk
    rw [logLines, Option.getD_some, completeLines_unlines h.lines]
    rw [List.length_append] at hk
    by_cases hlast : k ≤ (eventText r).length
    · rw [List.take_append_of_le_length hlast,
        completeLines_eq_nil fun hm => newline_not_mem_eventText hr (List.mem_of_mem_take hm)]
      exact Or.inl (List.append_nil ls)
    · have hfull : (eventText r ++ [newline]).length ≤ k := by
        simp only [List.length_append, List.length_singleton]
        omega
      rw [List.take_of_length_le hfull, completeLines_cons (newline_not_mem_eventText hr),
        completeLines_eq_nil (by simp)]
      exact Or.inr rfl
  have hfits : ∀ k, k ≤ (eventText r ++ [newline]).length →
      UniqueIds parse (some (unlines ls ++ (eventText r ++ [newline]).take k)) ∧ ∀ r', eventCount parse r' w.log.seen = 1 →
        eventCount parse r' (some (unlines ls ++ (eventText r ++ [newline]).take k)) = 1 := by
    intro k hk
    have hunique := hI.unique _ hmem
    unfold UniqueIds eventCount
    rw [UniqueIds, hls] at hunique
    rw [hls]
    rcases hcases k hk with heq | heq
    · rw [heq]
      exact ⟨hunique, fun r' h => h⟩
    · rw [heq]
      refine ⟨fun id => ?_, fun r' h => countP_append_event hparse hr hid h⟩
      rw [List.countP_append]
      by_cases hsame : id = r.correctionId
      · have hzero : ls.countP (fun line => eventId parse line = some id) = 0 :=
          List.countP_eq_zero.mpr fun l hl => by simpa [hsame] using hid l hl
        rw [hzero, Nat.zero_add]
        exact List.countP_le_length
      · rw [List.countP_cons_of_neg (by simpa [eventId_eventText hparse hr] using Ne.symm hsame), List.countP_nil]
        exact hunique id
  have hcontents : ∀ c ∈ (w.log.extend (eventText r ++ [newline]) n).contents, c ∈ w.log.contents ∨
      ∃ k ≤ (eventText r ++ [newline]).length, c = some (unlines ls ++ (eventText r ++ [newline]).take k) := by
    intro c hc
    rw [LogFile.extend, hseen, LogFile.contents] at hc
    rcases List.mem_cons.mp hc with rfl | hc
    · exact Or.inr ⟨n, hn, rfl⟩
    · rcases List.mem_append.mp hc with hc | hc
      · obtain ⟨k, hk, rfl⟩ := List.mem_map.mp hc
        exact Or.inr ⟨k, (List.mem_range.mp hk).le.trans hn, rfl⟩
      · exact Or.inl hc
  refine hI.relog (fun c hc => ?_) fun r' hcount c hc => ?_
  · rcases hcontents c hc with hc | ⟨k, hk, rfl⟩
    · exact hI.unique c hc
    · exact (hfits k hk).1
  · rcases hcontents c hc with hc | ⟨k, hk, rfl⟩
    · exact hcount c hc
    · exact (hfits k hk).2 r' (hcount _ hmem)

/-- The log with the event as its last line. -/
theorem eventCount_appended (hparse : ParsesEvents parse) (hr : r.Built) {ls : List Bytes} (hls : ∀ l ∈ ls, newline ∉ l)
    (hnew : ls.any (isEventOf parse r) = false) :
    eventCount parse r (some (unlines ls ++ (eventText r ++ [newline]))) = 1 := by
  rw [eventCount, logLines, Option.getD_some, completeLines_unlines hls, completeLines_cons (newline_not_mem_eventText hr),
    completeLines_eq_nil (by simp), List.countP_append, List.countP_eq_zero.mpr fun l hl => ?_]
  · rw [List.countP_cons_of_pos (isEventOf_eventText hparse hr), List.countP_nil]
  · rw [List.any_eq_false] at hnew
    exact hnew l hl

theorem keepsRtc_appendEvent (hI : RtcInv parse w) (hparse : ParsesEvents parse) (hr : r.Built) {ls : List Bytes}
    (h : ScannedTo parse r w ls []) (hnew : ls.any (isEventOf parse r) = false) :
    KeepsRtc parse (appendEvent r) (fun b w' => RtcInv parse w' ∧ w.SameNvs w' ∧ (b = true → eventCount parse r w'.log.seen = 1)) w := by
  refine keepsRtc_bind (keepsRtc_quiet hI rfl fun _ _ h => h) fun b w' hsame => ?_
  have hI' := hI.same hsame
  have h' := h.same hsame.log
  have hseen : w'.log.seen = some (unlines ls) := by
    rw [h'.seen, List.append_nil]
  split
  · exact ⟨hI', hsame.nvsOnly, by rintro ⟨⟩⟩
  · split
    · exact ⟨hI', hsame.nvsOnly, by rintro ⟨⟩⟩
    · refine keepsRtc_bind (R := fun n w'' => RtcInv parse w'' ∧ w.SameNvs w'' ∧ (n = (eventText r ++ [newline]).length →
        w''.log.seen = some (unlines ls ++ (eventText r ++ [newline])))) ?_ fun n w'' h'' => ?_
      · refine keepsRtc_op (hI'.extend hparse hr h' hnew _ le_rfl) fun f => ?_
        rcases w'.act_eq (o := .fwrite (eventText r ++ [newline])) rfl f with heq | ⟨n, heq⟩
        · rw [heq]
          refine ⟨hI'.extend hparse hr h' hnew _ le_rfl, hsame.nvsOnly.trans ⟨rfl, rfl, rfl⟩, fun _ => ?_⟩
          simp only [RtcWorld.calm, RtcWorld.setLog, LogFile.extend, hseen, List.take_length]
        · rw [heq]
          have hle : min n ((eventText r ++ [newline]).length - 1) ≤ (eventText r ++ [newline]).length := by omega
          refine ⟨hI'.extend hparse hr h' hnew _ hle, hsame.nvsOnly.trans ⟨rfl, rfl, rfl⟩, fun hfull => ?_⟩
          simp only [RtcWorld.failing, List.length_append, List.length_singleton] at hfull
          omega
      · obtain ⟨hI'', hsame, hfull⟩ := h''
        split
        · exact ⟨hI'', hsame, by rintro ⟨⟩⟩
        case isFalse hn =>
          have hcount : eventCount parse r w''.log.seen = 1 := by
            rw [hfull (not_not.mp hn)]
            exact eventCount_appended hparse hr h.lines hnew
          refine keepsRtc_bind (keepsRtc_quiet hI'' rfl fun _ _ h => h) fun b w3 h3 => ?_
          have hI3 := hI''.same h3
          have hsame := hsame.trans h3.nvsOnly
          split
          · exact ⟨hI3, hsame, by rintro ⟨⟩⟩
          · rw [← h3.log] at hcount
            exact keepsRtc_fsync hI3 ⟨hI3.settle List.mem_cons_self, hsame.trans ⟨rfl, rfl, rfl⟩, fun _ => hcount⟩
              ⟨hI3, hsame, by rintro ⟨⟩⟩

end Append

section Flush

/-- What is owed after a step that clears nothing, or clears: nothing new, and nothing at all once it has succeeded. -/
structure Cleared (parse : Bytes → Option CJson) (w : RtcWorld) (b : Bool) (w' : RtcWorld) : Prop where
  inv : RtcInv parse w'
  kept : ∀ r earlier, w'.notes = .accepted r :: earlier → w.notes = .accepted r :: earlier
  done : b = true → ∀ r earlier, w'.notes ≠ .accepted r :: earlier

theorem Cleared.failed {w' : RtcWorld} (hI : RtcInv parse w') (h : w'.notes = w.notes) : Cleared parse w false w' :=
  ⟨hI, fun _ _ h' => h ▸ h', by rintro ⟨⟩⟩

theorem keepsRtc_clearPending (hI : RtcInv parse w)
    (howed : ∀ r earlier, w.notes = .accepted r :: earlier → ∀ c ∈ w.log.contents, eventCount parse r c = 1) :
    KeepsRtc parse rtcCorrectionClearPendingNvs (Cleared parse w) w := by
  refine keepsRtc_bind (keepsRtc_quiet hI rfl fun _ _ h => h) fun b w' hsame => ?_
  have hI' := hI.same hsame
  split
  · exact .failed hI' hsame.notes
  · refine keepsRtc_bind (R := fun _ w'' => RtcInv parse w'' ∧ w''.log = w.log ∧ w''.notes = w.notes)
      (keepsRtc_nvsOpen hI' fun r w'' hI'' _ hlog hnotes => ⟨hI'', hlog.trans hsame.log, hnotes.trans hsame.notes⟩) ?_
    rintro (e | _) w'' ⟨hI'', hlog, hnotes⟩
    · exact .failed hI'' hnotes
    · have howed'' : ∀ r earlier, w''.notes = .accepted r :: earlier → ∀ c ∈ w''.log.contents, eventCount parse r c = 1 :=
        hlog ▸ hnotes ▸ howed
      refine keepsRtc_bind (R := fun a w3 => w3.notes = w.notes ∧ RtcInv parse w3 ∧ (a ≠ .error .other → w3.nvs = some none))
        (keepsRtc_nvsEraseKey hI'' howed'' (fun _ => ⟨hnotes, hI''.erase howed'', fun _ => rfl⟩) ⟨hnotes, hI'', fun h => absurd rfl h⟩)
        fun a w3 h3 => ?_
      obtain ⟨hnotes, hI3, herased⟩ := h3
      split
      · exact .failed hI3 hnotes
      case h_2 hother =>
        have hnvs := herased fun h => hother h
        refine keepsRtc_nvsCommit hI3 (fun b => ?_) (.failed hI3 hnotes)
        have hnothing : ∀ r earlier, (w3.note w3.nvs).notes ≠ .accepted r :: earlier := by
          intro r earlier heq
          unfold RtcWorld.note at heq
          split at heq
          case isTrue hkept =>
            obtain ⟨hkept', -, -⟩ := hI3.owed r earlier heq
            rw [hnvs, hkept'] at hkept
            cases hkept
          case isFalse => cases heq
        exact ⟨hI3.commit, fun r earlier h => absurd h (hnothing r earlier), fun _ => hnothing⟩

theorem keepsRtc_openEvents (hI : RtcInv parse w) : KeepsRtc parse openEvents
    (fun b w' => RtcInv parse w' ∧ w.SameNvs w' ∧ (b = true → ∃ bytes, w'.log.seen = some bytes)) w := by
  refine keepsRtc_bind (R := fun (a : Except Fat.Errno Unit) w' => w.SameStores w' ∧ (a = .ok () → w.log.seen ≠ none) ∧
    (a = .error .ENOENT → w.log.seen = none)) (keepsRtc_op (hI.same (w.sameStores_calm rfl)) fun f => ⟨w.sameStores_act rfl f, ?_⟩) ?_
  · rcases w.act_eq (o := .fopenUpdate) rfl f with heq | ⟨n, heq⟩
    · rw [heq, RtcWorld.calm]
      dsimp only
      split
      case isTrue hnone => exact ⟨by rintro ⟨⟩, fun _ => hnone⟩
      case isFalse hsome => exact ⟨fun _ => hsome, by rintro ⟨⟩⟩
    · rw [heq]
      exact ⟨by rintro ⟨⟩, by rintro ⟨⟩⟩
  · rintro a w' ⟨hsame, hok, hnone⟩
    have hI' := hI.same hsame
    split
    · exact ⟨hI', hsame.nvsOnly, fun _ => by rw [hsame.log]; exact Option.ne_none_iff_exists'.mp (hok rfl)⟩
    · have hcreate : RtcInv parse (w'.setLog (w'.log.change (some []))) := by
        refine hI'.change ?_
        rw [hsame.log, hnone rfl]
        rfl
      refine keepsRtc_op hcreate fun f => ?_
      rcases w'.act_eq (o := .fopenCreate) rfl f with heq | ⟨n, heq⟩
      · rw [heq]
        exact ⟨hcreate, hsame.nvsOnly.trans ⟨rfl, rfl, rfl⟩, fun _ => ⟨[], rfl⟩⟩
      · rw [heq, RtcWorld.failing]
        dsimp only
        split
        · exact ⟨hI', hsame.nvsOnly, by rintro ⟨⟩⟩
        · exact ⟨hcreate, hsame.nvsOnly.trans ⟨rfl, rfl, rfl⟩, by rintro ⟨⟩⟩
    · exact ⟨hI', hsame.nvsOnly, by rintro ⟨⟩⟩

theorem keepsRtc_recoverEvent (hI : RtcInv parse w) (hparse : ParsesEvents parse) (hr : r.Built)
    (howed : ∀ r' earlier, w.notes = .accepted r' :: earlier → r' = r) (fuel : ℕ) :
    KeepsRtc parse (rtcCorrectionRecoverEvent parse r rtcCorrectionClearPendingNvs fuel) (Cleared parse w) w := by
  unfold rtcCorrectionRecoverEvent
  split
  · exact .failed hI rfl
  · refine keepsRtc_bind (keepsRtc_openEvents hI) fun opened w' h => ?_
    obtain ⟨hI', hsame, hseen⟩ := h
    split
    · exact .failed hI' hsame.notes
    case isFalse hopened =>
      obtain ⟨bytes, hseen⟩ := hseen (by simpa using hopened)
      have hscan : ScannedTo parse r w' [] bytes := ⟨hseen, by simp, by simp⟩
      refine keepsRtc_bind (keepsRtc_scanEvents fuel hI' hscan rfl) fun a w'' h => ?_
      obtain ⟨hI'', hsame', hscanned⟩ := h
      have hsame := hsame.trans hsame'
      cases a with
      | none => exact .failed hI'' hsame.notes
      | some found =>
        obtain ⟨ls, hls, hfound⟩ := hscanned found rfl
        dsimp only
        refine keepsRtc_bind (R := fun b w3 => RtcInv parse w3 ∧ w.SameNvs w3 ∧ (b = true → eventCount parse r w3.log.seen = 1)) ?_
          fun appended w3 h3 => ?_
        · split
          case isTrue htrue =>
            refine ⟨hI'', hsame, fun _ => ?_⟩
            have hle := eventCount_le (hI''.unique _ List.mem_cons_self) r
            rw [eventCount, hls.logLines_eq (by simp)] at hle ⊢
            rw [hfound, List.any_eq_true] at htrue
            have hpos := List.countP_pos_iff.mpr htrue
            omega
          case isFalse hfalse =>
            rw [Bool.not_eq_true, hfound] at hfalse
            refine Device.wp_mono _ (keepsRtc_appendEvent hI'' hparse hr hls hfalse) fun b w3 h3 => ?_
            exact ⟨h3.1, hsame.trans h3.2.1, h3.2.2⟩
        · obtain ⟨hI3, hsame, hcount⟩ := h3
          split
          · refine keepsRtc_bind (R := fun _ w4 => RtcInv parse w4 ∧ w3.SameNvs w4) (keepsRtc_fclose hI3
              ⟨hI3.settle List.mem_cons_self, rfl, rfl, rfl⟩ fun w' hI h => ⟨hI, h⟩) fun _ w4 h4 => ?_
            exact .failed h4.1 (hsame.trans h4.2).notes
          case isFalse happended =>
            have hcount := hcount (by simpa using happended)
            refine keepsRtc_bind (R := fun b w4 => RtcInv parse w4 ∧ w.SameNvs w4 ∧ (b = true → w4.log.contents = [w3.log.seen]))
              (keepsRtc_fclose hI3 ⟨hI3.settle List.mem_cons_self, hsame.trans ⟨rfl, rfl, rfl⟩, fun _ => rfl⟩
                fun w' hI h => ⟨hI, hsame.trans h, by rintro ⟨⟩⟩) fun closed w4 h4 => ?_
            obtain ⟨hI4, hsame, hclosed⟩ := h4
            split
            · exact .failed hI4 hsame.notes
            case isFalse hclose =>
              have hcontents := hclosed (by simpa using hclose)
              refine Device.wp_mono _ (keepsRtc_clearPending hI4 fun r' earlier hnotes c hc => ?_) fun b w5 h5 => ?_
              · rw [hcontents] at hc
                rw [List.mem_singleton.mp hc, howed r' earlier (hsame.notes ▸ hnotes)]
                exact hcount
              · exact ⟨h5.inv, fun r' earlier h => hsame.notes ▸ h5.kept r' earlier h, h5.done⟩

theorem keepsRtc_syncClock (hI : RtcInv parse w) (ram : RtcRam) :
    KeepsRtc parse (rtcSyncSystemClockBestEffort ram) (fun ram' w' => w.SameStores w' ∧ ram.SameBut ram') w := by
  refine keepsRtc_bind (keepsRtc_hwInit hI ram) ?_
  rintro ⟨ready, ram'⟩ w' ⟨hsame, hbut⟩
  dsimp only
  split
  · refine keepsRtc_bind (R := fun _ w'' => w.SameStores w'') ?_ fun _ w'' hsame => ?_
    · refine keepsRtc_bind (keepsRtc_only only_hwReadEpoch (hI.same hsame)) fun a w'' h => ?_
      cases a with
      | none => exact hsame.trans h
      | some epoch =>
        exact keepsRtc_bind (keepsRtc_quiet (hI.same (hsame.trans h)) rfl fun _ _ h' => (hsame.trans h).trans h') fun _ _ h => h
    · refine keepsRtc_bind (keepsRtc_hwDeinit (hI.same hsame) ram') fun r w3 h => ?_
      exact ⟨hsame.trans h.1, hbut.trans h.2⟩
  · refine keepsRtc_bind (keepsRtc_hwDeinit (hI.same hsame) ram') fun r w3 h => ?_
    exact ⟨hsame.trans h.1, hbut.trans h.2⟩

theorem keepsRtc_flush (hI : RtcInv parse w) (hparse : ParsesEvents parse) {ram : RtcRam} (hram : ram.Fits w)
    (eventsPath : Option Bytes) (fuel : ℕ) : KeepsRtc parse (rtcCorrectionFlushPendingEvent parse ram eventsPath fuel)
      (fun r w' => RtcInv parse w' ∧ r.2.Fits w') w := by
  unfold rtcCorrectionFlushPendingEvent
  split
  · exact ⟨hI, hram⟩
  · refine keepsRtc_bind (keepsRtc_syncClock hI ram) fun ram' w' h => ?_
    obtain ⟨hsame, hbut⟩ := h
    have hI' := hI.same hsame
    have hram' : ram'.Fits w' := (hram.sameBut hbut).same hsame.notes
    split
    · exact ⟨hI', hram'⟩
    case isFalse hpending =>
      have hr := hram'.built (by simpa using hpending)
      refine keepsRtc_bind (keepsRtc_recoverEvent hI' hparse hr (fun r' earlier h => (hram'.owed r' earlier h).2.symm) fuel)
        fun b w'' h => ?_
      cases b with
      | true => exact ⟨h.inv, by rintro ⟨⟩, fun r earlier heq => absurd heq (h.done rfl r earlier)⟩
      | false => exact ⟨h.inv, hram'.built, fun r earlier heq => hram'.owed r earlier (h.kept r earlier heq)⟩

end Flush

end Scan

end M5DayLog.Rtc
