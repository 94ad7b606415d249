import M5DayLog.Recorder.RtcAudit

/-! Runs of RTC corrections. Power may be lost in any operation and at any other time; a boot lets no correction and no flush
through before the pending record has been loaded, and other code goes on writing to the log. -/

namespace M5DayLog.Rtc

open Bytes Lines

section Runs

variable (parse : Bytes → Option CJson)

/-- The stores and the log, and RAM once a boot has loaded the pending record into it. -/
structure RtcSystem where
  world : RtcWorld
  ram : Option RtcRam

/-- A boot, after what a loss of power has left; a call, with the faults on its way; and what other code makes of the log. -/
inductive RtcCall
  | boot (n : ℕ) (es : List (Event RtcFault))
  | apply (requestedTime : Option Bytes) (normalizedSize : Option ℕ) (es : List (Event RtcFault))
  | flush (eventsPath : Option Bytes) (es : List (Event RtcFault))
  | others (content : Bytes)

/-- Other code takes no line away and adds no event of a correction. -/
def OthersMay (seen : Option Bytes) (content : Bytes) : Prop :=
  logLines seen <+: completeLines content ∧ ∀ l ∈ (completeLines content).drop (logLines seen).length, eventId parse l = none

instance (seen : Option Bytes) (content : Bytes) : Decidable (OthersMay parse seen content) :=
  inferInstanceAs (Decidable (_ ∧ _))

namespace RtcSystem

/-- A call that returns goes on with what it leaves in RAM; a loss of power takes RAM away. -/
def leave {α : Type} (outcome : Outcome α RtcWorld) (next : α → RtcWorld → RtcSystem) : RtcSystem :=
  match outcome with
  | .done a w => next a w
  | .cut w => ⟨w, none⟩

def step (s : RtcSystem) : RtcCall → RtcSystem
  | .boot n es =>
    leave (rtcDevice.run (rtcCorrectionInit {}) es (s.world.lose n)) fun r w => ⟨w, if r.1 then some r.2 else none⟩
  | .apply requestedTime normalizedSize es =>
    match s.ram with
    | none => s
    | some ram =>
      leave (rtcDevice.run (rtcCorrectionApply ram requestedTime normalizedSize) es s.world) fun r w =>
        ⟨if r.1 = .ok then { w with notes := .accepted r.2.2.record :: w.notes } else w, some r.2.2⟩
  | .flush eventsPath es =>
    match s.ram with
    | none => s
    | some ram =>
      leave (rtcDevice.run (rtcCorrectionFlushPendingEvent parse ram eventsPath ((s.world.log.seen.getD []).length + 1)) es s.world)
        fun r w => ⟨w, some r.2⟩
  | .others content =>
    if OthersMay parse s.world.log.seen content then ⟨s.world.setLog (.settle (some content)), s.ram⟩ else s

def run (s : RtcSystem) (calls : List RtcCall) : RtcSystem := calls.foldl (step parse) s

/-- What holds between the calls. -/
structure Inv (s : RtcSystem) : Prop where
  world : RtcInv parse s.world
  ram : ∀ ram, s.ram = some ram → ram.Fits s.world

end RtcSystem

section Results

variable {α β : Type}

/-- What a correction reports of itself: a refusal has touched nothing, and an acceptance gives the time that it has recorded. -/
structure RtcReport (w : RtcWorld) (r : RtcCorrectionResult × Bytes × RtcRam) (w' : RtcWorld) : Prop where
  refused : r.1 = .invalidArgs ∨ r.1 = .rangeError ∨ r.1 = .busy → w' = w
  accepted : r.1 = .ok → r.2.2.record.after = r.2.1

theorem RtcReport.internalError {w w' : RtcWorld} {ram : RtcRam} : RtcReport w (.internalError, [], ram) w' :=
  ⟨by simp, by rintro ⟨⟩⟩

theorem wp_free_bind {p : RtcProg α} {f : α → RtcProg β} {Q : β → RtcWorld → Prop} {w : RtcWorld}
    (h : ∀ a w', rtcDevice.wp (fun _ => True) (fun _ => True) (f a) Q w') :
    rtcDevice.wp (fun _ => True) (fun _ => True) (p >>= f) Q w :=
  (Device.wp_bind p f Q w).mpr (Device.wp_trivial p h)

theorem wp_report (ram : RtcRam) (requestedTime : Option Bytes) (normalizedSize : Option ℕ) (w : RtcWorld) :
    rtcDevice.wp (fun _ => True) (fun _ => True) (rtcCorrectionApply ram requestedTime normalizedSize) (RtcReport w) w := by
  have hsame : ∀ {e : RtcCorrectionResult}, e ≠ .ok → RtcReport w (e, [], ram) w := fun h => ⟨fun _ => rfl, fun hok => absurd hok h⟩
  unfold rtcCorrectionApply
  split
  · exact hsame (by rintro ⟨⟩)
  · split
    case h_1 e herror =>
      refine hsame ?_
      rcases rtcParseIso8601_cases requestedTime with ⟨_, _, h, _⟩ | h | h | h <;> rw [h] at herror <;> cases herror <;> rintro ⟨⟩
    case h_2 requested normalized _ =>
      split
      · exact hsame (by rintro ⟨⟩)
      · split
        · exact hsame (by rintro ⟨⟩)
        · refine wp_free_bind ?_
          rintro ⟨ready, ram'⟩ w'
          dsimp only
          split
          · exact .internalError
          · refine wp_free_bind fun before w' => wp_free_bind fun random w' => ?_
            split
            · exact .internalError
            · refine wp_free_bind fun written w' => ?_
              split
              · exact .internalError
              · refine wp_free_bind fun set w' => ?_
                split
                · exact .internalError
                · refine wp_free_bind fun committed w' => ?_
                  split
                  · exact .internalError
                  · exact ⟨by simp, fun _ => rfl⟩

end Results

/-- A Device at the beginning: a log in which no two events share their id, and no pending record but one that a correction
has made. -/
structure RtcWorld.Starts (w : RtcWorld) : Prop where
  unique : ∀ c ∈ w.log.contents, UniqueIds parse c
  built : ∀ r, w.nvs = some (some (.record r)) ∨ w.kept = some (some (.record r)) → r.valid = true → r.Built
  notes : w.notes = []

variable {parse} {s : RtcSystem}

theorem RtcSystem.leave_inv {α : Type} {p : RtcProg α} {es : List (Event RtcFault)} {w : RtcWorld} {Q : α → RtcWorld → Prop}
    {next : α → RtcWorld → RtcSystem} (hp : KeepsRtc parse p Q w) (hnext : ∀ a w', Q a w' → (next a w').Inv parse) :
    (leave (rtcDevice.run p es w) next).Inv parse := by
  have hsat := Device.run_sat p es hp fun _ _ _ _ => trivial
  cases hrun : rtcDevice.run p es w with
  | done a w' =>
    rw [hrun] at hsat
    exact hnext a w' hsat
  | cut w' =>
    rw [hrun] at hsat
    exact ⟨hsat, by rintro _ ⟨⟩⟩

theorem RtcWorld.lose_fresh (w : RtcWorld) (n : ℕ) : (w.lose n).nvs = (w.lose n).kept := rfl

/-- An accepted correction is owed from its return on. -/
theorem RtcApplied.note {ram : RtcRam} {w : RtcWorld} (h : RtcApplied parse ram .ok w) :
    (RtcSystem.mk { w with notes := .accepted ram.record :: w.notes } (some ram)).Inv parse := by
  obtain ⟨hnvs, hkept, hpending, hbuilt, -⟩ := h.accepted rfl
  refine ⟨⟨h.inv.unique, h.inv.built, fun r earlier hnotes => ?_, fun later old new log r earlier hnotes => ?_⟩, ?_⟩
  · cases hnotes
    exact ⟨hkept, hbuilt.valid, Or.inl hnvs⟩
  · cases later with
    | nil => cases hnotes
    | cons x later => exact h.inv.settled later old new log r earlier (List.cons_eq_cons.mp hnotes).2
  · rintro _ ⟨⟩
    refine ⟨fun _ => hbuilt, fun r earlier hnotes => ?_⟩
    cases hnotes
    exact ⟨hpending, rfl⟩

theorem RtcSystem.Inv.others (hI : s.Inv parse) {content : Bytes} (h : OthersMay parse s.world.log.seen content) :
    (RtcSystem.mk (s.world.setLog (.settle (some content))) s.ram).Inv parse := by
  obtain ⟨⟨added, hadded⟩, hnone⟩ := h
  rw [← hadded, List.drop_left] at hnone
  have hmem : s.world.log.seen ∈ s.world.log.contents := List.mem_cons_self
  refine ⟨hI.world.relog (fun c hc id => ?_) fun r hcount c hc => ?_, fun ram hram => (hI.ram ram hram).same rfl⟩
  · obtain rfl := List.mem_singleton.mp hc
    have hzero : added.countP (fun line => eventId parse line = some id) = 0 :=
      List.countP_eq_zero.mpr fun l hl => by simp [hnone l hl]
    show (completeLines content).countP _ ≤ 1
    rw [← hadded, List.countP_append, hzero]
    exact hI.world.unique _ hmem id
  · obtain rfl := List.mem_singleton.mp hc
    have hzero : added.countP (isEventOf parse r) = 0 := List.countP_eq_zero.mpr fun l hl hevent => by
      have := eventId_of_isEventOf hevent
      rw [hnone l hl] at this
      cases this
    show (completeLines content).countP _ = 1
    rw [← hadded, List.countP_append, hzero]
    exact hcount _ hmem

theorem RtcSystem.inv_step (hparse : ParsesEvents parse) (hI : s.Inv parse) (c : RtcCall) : (s.step parse c).Inv parse := by
  cases c with
  | boot n es =>
    refine leave_inv (keepsRtc_init (hI.world.lose n) (s.world.lose_fresh n)) fun r w h => ⟨h.1, fun ram hram => ?_⟩
    cases hok : r.1 with
    | false =>
      rw [hok] at hram
      cases hram
    | true =>
      rw [hok] at hram
      cases hram
      exact h.2 hok
  | apply requestedTime normalizedSize es =>
    rw [step]
    split
    · exact hI
    case h_2 ram hram =>
      refine leave_inv (keepsRtc_apply hI.world (hI.ram ram hram) requestedTime normalizedSize) fun r w h => ?_
      by_cases hok : r.1 = .ok
      · rw [if_pos hok]
        rw [hok] at h
        exact h.note
      · rw [if_neg hok]
        refine ⟨h.inv, ?_⟩
        rintro _ ⟨⟩
        exact h.failed hok
  | flush eventsPath es =>
    rw [step]
    split
    · exact hI
    case h_2 ram hram =>
      refine leave_inv (keepsRtc_flush hI.world hparse (hI.ram ram hram) eventsPath _) fun r w h => ⟨h.1, ?_⟩
      rintro _ ⟨⟩
      exact h.2
  | others content =>
    rw [step]
    split
    case isTrue h => exact hI.others h
    case isFalse => exact hI

theorem RtcSystem.inv_run (hparse : ParsesEvents parse) (hI : s.Inv parse) (calls : List RtcCall) : (s.run parse calls).Inv parse := by
  induction calls generalizing s with
  | nil => exact hI
  | cons c calls ih => exact ih (inv_step hparse hI c)

theorem RtcWorld.Starts.inv {w : RtcWorld} (h : w.Starts parse) : (RtcSystem.mk w none).Inv parse := by
  refine ⟨⟨h.unique, h.built, fun r earlier hnotes => ?_, fun later old new log r earlier hnotes => ?_⟩, by rintro _ ⟨⟩⟩
  · rw [h.notes] at hnotes
    cases hnotes
  · rw [h.notes] at hnotes
    exact absurd hnotes (by simp)

/-- In every run of corrections, flushes and boots, with power lost anywhere and any faults: a correction that is refused has
changed nothing; one that is accepted has committed a record with the time that it gives back, and as long as no change has
come that record stays committed; the first change to come clears it, while every content that the card may have holds its
event exactly once, and ever after the log holds it exactly once. -/
theorem rtcCorrection_audited (hparse : ParsesEvents parse) {w : RtcWorld} (hw : w.Starts parse) (calls : List RtcCall)
    (hs : (RtcSystem.mk w none).run parse calls = s) :
    (∀ ram requestedTime normalizedSize es r w', s.ram = some ram →
      rtcDevice.run (rtcCorrectionApply ram requestedTime normalizedSize) es s.world = .done r w' →
      (r.1 = .invalidArgs ∨ r.1 = .rangeError ∨ r.1 = .busy → w' = s.world) ∧
      (r.1 = .ok → ∃ record, w'.kept = some (some (.record record)) ∧ record.after = r.2.1)) ∧
    (∀ record earlier, s.world.notes = .accepted record :: earlier → s.world.kept = some (some (.record record))) ∧
    ∀ later old new log record earlier, s.world.notes = later ++ .changed old new log :: .accepted record :: earlier →
      old = some (some (.record record)) ∧ new = some none ∧ (∀ c ∈ log, eventCount parse record c = 1) ∧
        ∀ c ∈ s.world.log.contents, eventCount parse record c = 1 := by
  have hI := RtcSystem.inv_run hparse hw.inv calls
  rw [hs] at hI
  refine ⟨fun ram requestedTime normalizedSize es r w' hram hrun => ?_, fun record earlier h => (hI.world.owed record earlier h).1,
    hI.world.settled⟩
  have hreport := Device.run_sat _ es (wp_report ram requestedTime normalizedSize s.world) fun _ _ _ _ => trivial
  have happlied := Device.run_sat _ es (keepsRtc_apply hI.world (hI.ram ram hram) requestedTime normalizedSize) fun _ _ _ _ => trivial
  rw [hrun] at hreport happlied
  exact ⟨hreport.refused, fun hok => ⟨r.2.2.record, (happlied.accepted hok).2.1, hreport.accepted hok⟩⟩

section TornEvent

/-- A text in quotes, and what follows it. -/
def quotedText : Bytes → Option (Bytes × Bytes)
  | 0x22 :: rest => if quote ∈ rest then some (rest.takeWhile (· ≠ quote), (rest.dropWhile (· ≠ quote)).drop 1) else none
  | _ => none

/-- A reader of flat objects whose members are texts without escapes. -/
def readMembers : ℕ → Bytes → Option (List (Bytes × Option Bytes))
  | 0, _ => none
  | fuel + 1, s => do
    let (key, s) ← quotedText s
    guard (s.head? = some colon)
    let (value, s) ← quotedText (s.drop 1)
    if s.head? = some 0x2c then return (key, some value) :: (← readMembers fuel (s.drop 1))
    else if s = [0x7d, newline] then return [(key, some value)]
    else none

def readEvent (line : Bytes) : Option CJson :=
  if line.head? = some 0x7b then (readMembers 8 (line.drop 1)).map .object else none

theorem quotedText_quoted {word : Bytes} (hword : quote ∉ word) (rest : Bytes) :
    quotedText (quote :: (word ++ quote :: rest)) = some (word, rest) := by
  have htake : (word ++ quote :: rest).takeWhile (· ≠ quote) = word := by
    rw [List.takeWhile_append_of_pos fun c hc => by simpa using ne_of_mem_of_not_mem hc hword]
    simp
  have hdrop : (word ++ quote :: rest).dropWhile (· ≠ quote) = quote :: rest := by
    rw [List.dropWhile_append_of_pos fun c hc => by simpa using ne_of_mem_of_not_mem hc hword]
    simp
  show (if quote ∈ word ++ quote :: rest then some ((word ++ quote :: rest).takeWhile (· ≠ quote),
    ((word ++ quote :: rest).dropWhile (· ≠ quote)).drop 1) else none) = some (word, rest)
  rw [if_pos (by simp), htake, hdrop]
  rfl

/-- A member of an object, before `rest`. -/
def memberText (key value rest : Bytes) : Bytes := quote :: (key ++ quote :: colon :: quote :: (value ++ quote :: rest))

theorem readMembers_cons {key value : Bytes} (hkey : quote ∉ key) (hvalue : quote ∉ value) (fuel : ℕ) (rest : Bytes) :
    readMembers (fuel + 1) (memberText key value (0x2c :: rest)) = (readMembers fuel rest).map ((key, some value) :: ·) := by
  rw [readMembers, memberText, quotedText_quoted hkey]
  simp only [Option.bind_eq_bind, Option.bind_some, List.head?_cons, List.drop_succ_cons, List.drop_zero, quotedText_quoted hvalue]
  cases readMembers fuel rest <;> rfl

theorem readMembers_last {key value : Bytes} (hkey : quote ∉ key) (hvalue : quote ∉ value) (fuel : ℕ) :
    readMembers (fuel + 1) (memberText key value [0x7d, newline]) = some [(key, some value)] := by
  rw [readMembers, memberText, quotedText_quoted hkey]
  simp only [Option.bind_eq_bind, Option.bind_some, List.head?_cons, List.drop_succ_cons, List.drop_zero, quotedText_quoted hvalue]
  rfl

theorem eventText_members (r : RtcPendingRecord) : eventText r ++ [newline] = 0x7b :: memberText (lit "event")
    (lit "rtc_correction") (0x2c :: memberText (lit "correctionId") r.correctionId (0x2c :: memberText (lit "before") r.before
      (0x2c :: memberText (lit "after") r.after (0x2c :: memberText (lit "source") (lit "pc") [0x7d, newline])))) := by
  have hhead : lit "\x7b\"event\":\"rtc_correction\",\"correctionId\":\"" =
      0x7b :: memberText (lit "event") (lit "rtc_correction") (0x2c :: quote :: (lit "correctionId" ++ [quote, colon, quote])) := by
    with_unfolding_all decide
  have hbefore : lit "\",\"before\":\"" = quote :: 0x2c :: quote :: (lit "before" ++ [quote, colon, quote]) := by
    with_unfolding_all decide
  have hafter : lit "\",\"after\":\"" = quote :: 0x2c :: quote :: (lit "after" ++ [quote, colon, quote]) := by
    with_unfolding_all decide
  have hsource : lit "\",\"source\":\"pc\"\x7d" = quote :: 0x2c :: memberText (lit "source") (lit "pc") [0x7d] := by
    with_unfolding_all decide
  rw [eventText, hhead, hbefore, hafter, hsource]
  simp only [memberText, List.append_assoc, List.cons_append, List.nil_append]

theorem readEvent_parses : ParsesEvents readEvent := by
  intro r hr
  have hplain : ∀ b : Bytes, b.all plainAscii = true → quote ∉ b := fun b hb hm => by
    have := List.all_eq_true.mp hb _ hm
    exact absurd this (by decide)
  have hkeys : quote ∉ lit "event" ∧ quote ∉ lit "rtc_correction" ∧ quote ∉ lit "correctionId" ∧ quote ∉ lit "before" ∧
      quote ∉ lit "after" ∧ quote ∉ lit "source" ∧ quote ∉ lit "pc" := by
    with_unfolding_all decide
  obtain ⟨hevent, hname, hid, hbefore, hafter, hsource, hpc⟩ := hkeys
  rw [eventText_members, readEvent, List.head?_cons, if_pos rfl, List.drop_succ_cons, List.drop_zero,
    readMembers_cons hevent hname, readMembers_cons hid (hplain _ hr.correctionId), readMembers_cons hbefore (hplain _ hr.before),
    readMembers_cons hafter (hplain _ hr.after), readMembers_last hsource hpc]
  rfl

/-- A Device that has never been corrected. -/
def rtcNewDevice : RtcWorld := ⟨fun _ => 0, none, none, none, .settle none, []⟩

/-- An accepted correction; power is lost when 19 bytes of its event have come to the card, and the next flush brings it in. -/
def tornCalls : List RtcCall :=
  [.boot 0 [], .apply (some (lit "2026-03-01T12:00:00+09:00")) (some 32) [], .boot 0 [],
    .flush (some eventsPath) (List.replicate 10 (.act none) ++ [.cut 40]), .boot 0 [], .flush (some eventsPath) []]

def tornRecord : RtcPendingRecord :=
  ⟨rtcPendingMagic, rtcPendingVersion, lit "00000000-0000-4000-8000-000000000000", lit "1970-01-01T00:00:00+00:00",
    lit "2026-03-01T03:00:00+00:00", lit "pc"⟩

theorem tornCalls_notes : ((RtcSystem.mk rtcNewDevice none).run readEvent tornCalls).world.notes =
    [.changed (some (some (.record tornRecord))) (some none) [some (eventText tornRecord ++ [newline])], .accepted tornRecord,
      .changed none (some (some (.record tornRecord))) [none]] := by
  decide +kernel

theorem rtcNewDevice_starts : rtcNewDevice.Starts readEvent := by
  refine ⟨fun c hc id => ?_, fun r hr => ?_, rfl⟩
  · obtain rfl := List.mem_singleton.mp hc
    exact Nat.zero_le _
  · rcases hr with hr | hr <;> cases hr

theorem rtcCorrection_audited_torn : ∃ s : RtcSystem, (RtcSystem.mk rtcNewDevice none).run readEvent tornCalls = s ∧
    ∀ c ∈ s.world.log.contents, eventCount readEvent tornRecord c = 1 :=
  ⟨_, rfl, ((rtcCorrection_audited readEvent_parses rtcNewDevice_starts tornCalls rfl).2.2 [] _ _ _ _ _ tornCalls_notes).2.2.2⟩

end TornEvent

end Runs

end M5DayLog.Rtc
