import M5DayLog.Recorder.RtcRuns

/-! The recovery of one pending event on a log that is well formed but for its tail. Any attempt may fail or lose power at any
operation: the lines that were complete stay, what the attempt adds is a first part of the event, and the first attempt that
runs through leaves the event in the log once, on the card, before it asks for the pending record to be cleared. -/

namespace M5DayLog.Rtc

open Bytes Lines

section Contents

variable (parse : Bytes → Option CJson)

/-- A complete line of the log, which one read takes in with its newline. -/
structure EventLine (l : Bytes) : Prop where
  newline : newline ∉ l
  nul : 0 ∉ l
  short : l.length + 1 ≤ 511
  object : ∃ members, parse (l ++ [Lines.newline]) = some (.object members)

/-- What a write that was torn leaves after the last line. -/
structure Torn (t : Bytes) : Prop where
  newline : newline ∉ t
  nul : 0 ∉ t
  short : t.length < 511

/-- The lines of the log, with the event as one more where it was not among them. -/
def Grown (r : RtcPendingRecord) (ls ls' : List Bytes) : Prop :=
  ls' = ls ∨ (∀ l ∈ ls, isEventOf parse r l = false) ∧ ls' = ls ++ [eventText r]

/-- What the card may hold at any time of a recovery. -/
def MayHold (r : RtcPendingRecord) (ls : List Bytes) (c : Option Bytes) : Prop :=
  ∃ ls' t, Grown parse r ls ls' ∧ Torn t ∧ c = some (unlines ls' ++ t)

/-- The event is in the log once, and all of it is on the card. -/
def Durable (r : RtcPendingRecord) (ls : List Bytes) (w : RtcWorld) : Prop :=
  ∃ ls', Grown parse r ls ls' ∧ ls'.countP (isEventOf parse r) = 1 ∧ w.log = .settle (some (unlines ls'))

variable {parse} {r : RtcPendingRecord} {ls ls' : List Bytes} {t : Bytes}

theorem torn_nil : Torn [] := ⟨List.not_mem_nil, List.not_mem_nil, by decide⟩

theorem eventText_plain (hr : r.Built) {c : UInt8} (hc : plainAscii c = false)
    (hlits : c ∉ lit "\x7b\"event\":\"rtc_correction\",\"correctionId\":\"" ∧ c ∉ lit "\",\"before\":\"" ∧
      c ∉ lit "\",\"after\":\"" ∧ c ∉ lit "\",\"source\":\"pc\"\x7d") : c ∉ eventText r := by
  have hplain : ∀ b : Bytes, b.all plainAscii = true → c ∉ b := fun b hb hm => by
    have := List.all_eq_true.mp hb _ hm
    rw [hc] at this
    cases this
  simp only [eventText, List.mem_append, not_or]
  exact ⟨⟨⟨⟨⟨⟨hlits.1, hplain _ hr.correctionId⟩, hlits.2.1⟩, hplain _ hr.before⟩, hlits.2.2.1⟩, hplain _ hr.after⟩, hlits.2.2.2⟩

theorem eventText_length (hr : r.Built) : (eventText r).length = 167 := by
  have hvalid := hr.valid
  simp only [RtcPendingRecord.valid, Bool.and_eq_true, decide_eq_true_eq] at hvalid
  have hid := uuid_length hvalid.1.1.1.1.1.1.2
  have hlits : (lit "\x7b\"event\":\"rtc_correction\",\"correctionId\":\"").length = 42 ∧ (lit "\",\"before\":\"").length = 12 ∧
      (lit "\",\"after\":\"").length = 11 ∧ (lit "\",\"source\":\"pc\"\x7d").length = 16 := by with_unfolding_all decide
  simp only [eventText, List.length_append, hlits, hid, hvalid.1.2, hvalid.2]

theorem eventText_line (hparse : ParsesEvents parse) (hr : r.Built) : EventLine parse (eventText r) where
  newline := newline_not_mem_eventText hr
  nul := eventText_plain hr (by decide) (by with_unfolding_all decide)
  short := by rw [eventText_length hr]; decide
  object := ⟨_, hparse r hr⟩

theorem torn_take (hparse : ParsesEvents parse) (hr : r.Built) (k : ℕ) : Torn ((eventText r).take k) where
  newline hm := (eventText_line hparse hr).newline (List.mem_of_mem_take hm)
  nul hm := (eventText_line hparse hr).nul (List.mem_of_mem_take hm)
  short := by
    rw [List.length_take, eventText_length hr]
    omega

theorem Grown.line (hparse : ParsesEvents parse) (hr : r.Built) (hls : ∀ l ∈ ls, EventLine parse l) (h : Grown parse r ls ls') :
    ∀ l ∈ ls', EventLine parse l := by
  rcases h with rfl | ⟨_, rfl⟩
  · exact hls
  · intro l hl
    rcases List.mem_append.mp hl with hl | hl
    · exact hls l hl
    · rw [List.mem_singleton.mp hl]
      exact eventText_line hparse hr

/-- A log that does not have the event yet has not grown. -/
theorem Grown.eq (hparse : ParsesEvents parse) (hr : r.Built) (h : Grown parse r ls ls')
    (hnew : ls'.any (isEventOf parse r) = false) : ls' = ls := by
  rcases h with rfl | ⟨_, rfl⟩
  · rfl
  · rw [List.any_append, List.any_cons, isEventOf_eventText hparse hr, Bool.true_or, Bool.or_true] at hnew
    cases hnew

theorem Grown.clean (hparse : ParsesEvents parse) (hr : r.Built)
    (hclean : ∀ l ∈ ls, classifyCompleteEventLine parse (l ++ [newline]) r ≠ none) (h : Grown parse r ls ls') :
    ∀ l ∈ ls', classifyCompleteEventLine parse (l ++ [newline]) r ≠ none := by
  rcases h with rfl | ⟨_, rfl⟩
  · exact hclean
  · intro l hl
    rcases List.mem_append.mp hl with hl | hl
    · exact hclean l hl
    · rw [List.mem_singleton.mp hl, isEventOf_iff.mp (isEventOf_eventText hparse hr)]
      rintro ⟨⟩

theorem Grown.count (hparse : ParsesEvents parse) (hr : r.Built) (hone : ls.countP (isEventOf parse r) ≤ 1)
    (h : Grown parse r ls ls') (hfound : ls'.any (isEventOf parse r) = true) : ls'.countP (isEventOf parse r) = 1 := by
  rcases h with rfl | ⟨hnew, rfl⟩
  · have hpos : 0 < ls'.countP (isEventOf parse r) := List.countP_pos_iff.mpr (by simpa using hfound)
    omega
  · rw [List.countP_append, List.countP_eq_zero.mpr (by simpa using hnew),
      List.countP_cons_of_pos (isEventOf_eventText hparse hr), List.countP_nil]

/-- The event that has been written in part or in full, on top of a log without it. -/
theorem mayHold_extend (hparse : ParsesEvents parse) (hr : r.Built) (hnew : ls.any (isEventOf parse r) = false) (k : ℕ) :
    MayHold parse r ls (some (unlines ls ++ (eventText r ++ [newline]).take k)) := by
  by_cases hk : k ≤ (eventText r).length
  · rw [List.take_append_of_le_length hk]
    exact ⟨ls, _, Or.inl rfl, torn_take hparse hr k, rfl⟩
  · have hfull : (eventText r ++ [newline]).length ≤ k := by
      rw [List.length_append, List.length_singleton]
      omega
    refine ⟨ls ++ [eventText r], [], Or.inr ⟨by simpa using hnew, rfl⟩, torn_nil, ?_⟩
    rw [List.take_of_length_le hfull, unlines_append, unlines_singleton, List.append_nil]

end Contents

section Operations

variable {parse : Bytes → Option CJson} {r : RtcPendingRecord} {A : RtcFault → Prop} {P : Option Bytes → Prop}
variable {C : RtcWorld → Prop} {w : RtcWorld} {ls : List Bytes} {α : Type}

/-- Every content that the card may have is as `P` says. -/
def Holds (P : Option Bytes → Prop) (w : RtcWorld) : Prop := ∀ c ∈ w.log.contents, P c

theorem holds_settle {c : Option Bytes} (hc : P c) : Holds P (w.setLog (.settle c)) := by
  intro c' hc'
  rw [List.mem_singleton.mp hc']
  exact hc

theorem Holds.change (h : Holds P w) {c : Option Bytes} (hc : P c) : Holds P (w.setLog (w.log.change c)) := by
  intro c' hc'
  rcases List.mem_cons.mp hc' with rfl | hc'
  · exact hc
  · exact h c' hc'

theorem Holds.seen (h : Holds P w) : P w.log.seen := h _ List.mem_cons_self

theorem lose_log (w : RtcWorld) (n : ℕ) : (w.lose n).log = .settle (w.log.pick (n / 2)) := by
  unfold RtcWorld.lose
  dsimp only
  split
  · rw [(RtcWorld.note_nvs _ _).2]
  · rfl

theorem Holds.lose (h : Holds P w) (n : ℕ) : Holds P (w.lose n) := by
  intro c hc
  rw [lose_log] at hc
  rw [List.mem_singleton.mp hc]
  exact h _ (w.log.pick_mem _)

/-- An operation that is not up to the hardware acts as it should, or fails under a fault that is allowed. -/
theorem wp_op {o : RtcOp} {Q : o.Ans → RtcWorld → Prop} (ho : o.isHardware = false) (hcut : ∀ n, C ((w.calm o).2.lose n))
    (hcalm : Q (w.calm o).1 (w.calm o).2) (hfail : ∀ n, (∃ x, A x) → Q (w.failing n o).1 (w.failing n o).2) :
    rtcDevice.wp A C (.op o) Q w := by
  refine ⟨hcut, fun f hf => ?_⟩
  cases f with
  | none =>
    have heq : w.act o none = w.calm o := by cases o <;> rfl
    show Q (w.act o none).1 (w.act o none).2
    rw [heq]
    exact hcalm
  | some x =>
    show Q (w.act o (some x)).1 (w.act o (some x)).2
    rcases w.act_eq ho (some x) with heq | ⟨n, heq⟩
    · rw [heq]
      exact hcalm
    · rw [heq]
      exact hfail n ⟨x, hf x rfl⟩

/-- The operations that leave the whole state as it is. -/
theorem wp_still {o : RtcOp} {Q : o.Ans → RtcWorld → Prop} (ho : o.isHardware = false) (hcut : ∀ n, C (w.lose n))
    (hcalm : (w.calm o).2 = w) (hfailing : ∀ n, (w.failing n o).2 = w) (hok : Q (w.calm o).1 w)
    (hfail : ∀ n, (∃ x, A x) → Q (w.failing n o).1 w) : rtcDevice.wp A C (.op o) Q w := by
  refine wp_op ho (by rwa [hcalm]) (by rwa [hcalm]) fun n hx => ?_
  rw [hfailing n]
  exact hfail n hx

theorem wp_bind_of {β : Type} {p : RtcProg α} {f : α → RtcProg β} {R : α → RtcWorld → Prop} {Q : β → RtcWorld → Prop}
    (hp : rtcDevice.wp A C p R w) (hf : ∀ a w', R a w' → rtcDevice.wp A C (f a) Q w') : rtcDevice.wp A C (p >>= f) Q w :=
  (Device.wp_bind p f Q w).mpr (Device.wp_mono p hp hf)

theorem wp_fclose (h : Holds P w) : rtcDevice.wp A (Holds P) (.op .fclose)
    (fun b w' => Holds P w' ∧ (b = false → ∃ x, A x) ∧ (b = true → w'.log = .settle w.log.seen)) w := by
  refine wp_op rfl (holds_settle h.seen).lose ⟨holds_settle h.seen, by rintro ⟨⟩, fun _ => rfl⟩ fun n hx => ?_
  exact ⟨holds_settle (h _ (w.log.pick_mem n)), fun _ => hx, by rintro ⟨⟩⟩

theorem wp_failClosed (h : Holds P w) : rtcDevice.wp A (Holds P) (failClosed : RtcProg (Option α))
    (fun a w' => a = none ∧ Holds P w') w :=
  wp_bind_of (wp_fclose h) fun _ _ h' => ⟨rfl, h'.1⟩

end Operations

section Scan

variable {parse : Bytes → Option CJson} {r : RtcPendingRecord} {A : RtcFault → Prop} {P : Option Bytes → Prop}
variable {w : RtcWorld} {done todo : List Bytes} {l rest t : Bytes} {fuel : ℕ} {found : Bool}
variable {Q : Option Bool → RtcWorld → Prop}

theorem cstr_of_nul {b : Bytes} (h : 0 ∉ b) : cstr b = b :=
  List.takeWhile_eq_self_iff.mpr fun c hc => by simpa using ne_of_mem_of_not_mem hc h

/-- A read that has failed and has not given a whole line. -/
structure FailedRead (a : Fgets) : Prop where
  eof : a.eof = false
  error : a.error = true
  last : (cstr a.data).getLast? ≠ some newline

/-- The scan gives up after it. -/
theorem FailedRead.wp {a : Fgets} (h : FailedRead a) {n : ℕ} {next : RtcProg (Option Bool)}
    (hfail : rtcDevice.wp A (Holds P) (failClosed : RtcProg (Option Bool)) Q w) :
    rtcDevice.wp A (Holds P) (do
      if a.data = [] then if a.error then failClosed else return some found
      else if cstr a.data = [] then failClosed
      else if (cstr a.data).getLast? ≠ some newline then
        if !a.eof then failClosed
        else if !(← .op (RtcOp.ftruncate n)) then failClosed
        else if !(← .op RtcOp.fseek) then failClosed
        else if !(← .op RtcOp.fsync) then failClosed
        else return some found
      else next) Q w := by
  rw [h.error, h.eof, if_pos h.last]
  split
  · exact hfail
  · split
    · exact hfail
    · exact hfail

/-- A complete line: it is classified and the scan goes on behind it, unless a read or the line is at fault. -/
theorem wp_scan_line (hP : Holds P w) (hdone : ScannedTo parse r w done (l ++ newline :: rest)) (hl : EventLine parse l)
    (hfail : (∃ x, A x) ∨ classifyCompleteEventLine parse (l ++ [newline]) r = none →
      rtcDevice.wp A (Holds P) (failClosed : RtcProg (Option Bool)) Q w)
    (hnext : ∀ m, classifyCompleteEventLine parse (l ++ [newline]) r = some m →
      rtcDevice.wp A (Holds P) (scanEvents parse r fuel (unlines (done ++ [l])).length (found || m)) Q w) :
    rtcDevice.wp A (Holds P) (scanEvents parse r (fuel + 1) (unlines done).length found) Q w := by
  have hread : w.line (unlines done).length rtcEventLineMax = l ++ [newline] := by
    rw [RtcWorld.line, hdone.seen, Option.getD_some, List.drop_left]
    show piece 511 (l ++ newline :: rest) = _
    rw [piece_line hl.newline, List.take_of_length_le]
    rw [List.length_append, List.length_singleton]
    exact hl.short
  have hnul : cstr (l ++ [newline]) = l ++ [newline] := by
    refine cstr_of_nul ?_
    rw [List.mem_append, List.mem_singleton, not_or]
    exact ⟨hl.nul, by decide⟩
  have hlength : (unlines done).length + (l ++ [newline]).length = (unlines (done ++ [l])).length := by
    rw [unlines_append, unlines_singleton, ← List.length_append]
  rw [scanEvents]
  refine wp_bind_of (R := fun a w' => w' = w ∧ (a.data = l ++ [newline] ∨ ((∃ x, A x) ∧ FailedRead a)))
    (wp_still rfl hP.lose rfl (fun _ => rfl) ⟨rfl, Or.inl hread⟩ fun n hx => ⟨rfl, ?_⟩) fun a w' ha => ?_
  · have hspec := fgets_spec hdone (some (.fail n)) rfl
    by_cases hlast : (cstr (w.failing n (.fgets (unlines done).length rtcEventLineMax)).1.data).getLast? = some newline
    · obtain ⟨l', t, hl', heq, hdata, _⟩ := hspec.2.2 hlast
      have hlines := congrArg completeLines heq
      rw [completeLines_cons hl.newline, completeLines_cons hl'] at hlines
      rw [(List.cons.inj hlines).1]
      exact Or.inl hdata
    · exact Or.inr ⟨hx, rfl, rfl, hlast⟩
  · obtain ⟨rfl, hdata | ⟨hx, hread⟩⟩ := ha
    · rw [hdata, hnul, if_neg (by simp), if_neg (by simp), if_neg (by simp), hlength]
      cases hclass : classifyCompleteEventLine parse (l ++ [newline]) r with
      | none => exact hfail (Or.inr hclass)
      | some m =>
        refine wp_bind_of (R := fun b w'' => w'' = w' ∧ (b = false → ∃ x, A x))
          (wp_still rfl hP.lose rfl (fun _ => rfl) ⟨rfl, by rintro ⟨⟩⟩ fun n hx => ⟨rfl, fun _ => hx⟩) fun b w'' hb => ?_
        obtain ⟨rfl, hb⟩ := hb
        cases b with
        | false => exact hfail (Or.inl (hb rfl))
        | true => exact hnext m hclass
    · exact hread.wp (hfail (Or.inl hx))

/-- The end of the log: a torn tail is cut off. -/
theorem wp_scan_tail (hP : Holds P w) (hdone : ScannedTo parse r w done t) (ht : Torn t) (hcut : P (some (unlines done))) :
    rtcDevice.wp A (Holds P) (scanEvents parse r (fuel + 1) (unlines done).length found) (fun a w' => Holds P w' ∧
      (a = none → ∃ x, A x) ∧ ∀ found', a = some found' → found' = found ∧ w'.log.seen = some (unlines done)) w := by
  have hfailed : ∀ w', Holds P w' → (∃ x, A x) → rtcDevice.wp A (Holds P) (failClosed : RtcProg (Option Bool))
      (fun a w' => Holds P w' ∧ (a = none → ∃ x, A x) ∧
        ∀ found', a = some found' → found' = found ∧ w'.log.seen = some (unlines done)) w' := by
    intro w' hP' hx
    refine Device.wp_mono _ (wp_failClosed hP') fun a w'' h => ⟨h.2, fun _ => hx, ?_⟩
    rw [h.1]
    rintro _ ⟨⟩
  have hread : w.line (unlines done).length rtcEventLineMax = t := by
    rw [RtcWorld.line, hdone.seen, Option.getD_some, List.drop_left]
    show piece 511 t = t
    rw [piece_tail ht.newline, List.take_of_length_le ht.short.le]
  have heof : (w.calm (.fgets (unlines done).length rtcEventLineMax)).1.eof = true := by
    have hnl : t.contains newline = false := by simpa using ht.newline
    rw [RtcWorld.calm, hread]
    show (!t.contains newline && decide (t.length < 511)) = true
    rw [hnl, decide_eq_true ht.short]
    rfl
  have hnolast : ∀ b : Bytes, newline ∉ b → (cstr b).getLast? ≠ some newline := fun b hb hlast =>
    hb ((List.takeWhile_subset _) (List.mem_of_getLast? hlast))
  rw [scanEvents]
  refine wp_bind_of (R := fun a w' => w' = w ∧ ((a.data = t ∧ a.eof = true ∧ a.error = false) ∨ ((∃ x, A x) ∧ FailedRead a)))
    (wp_still rfl hP.lose rfl (fun _ => rfl) ⟨rfl, Or.inl ⟨hread, heof, rfl⟩⟩ fun n hx => ⟨rfl, Or.inr ⟨hx, rfl, rfl, ?_⟩⟩)
    fun a w' ha => ?_
  · refine hnolast _ fun hm => ht.newline ?_
    rw [RtcWorld.failing, hread] at hm
    exact List.mem_of_mem_take hm
  · obtain ⟨rfl, ⟨hdata, heof, herror⟩ | ⟨hx, hread⟩⟩ := ha
    · rw [hdata, heof, herror, cstr_of_nul ht.nul]
      have hseen := hdone.seen
      by_cases hnil : t = []
      · rw [if_pos hnil]
        rw [hnil, List.append_nil] at hseen
        refine ⟨hP, by rintro ⟨⟩, ?_⟩
        rintro _ ⟨⟩
        exact ⟨rfl, hseen⟩
      · have hlast : t.getLast? ≠ some newline := by
          have := hnolast t ht.newline
          rwa [cstr_of_nul ht.nul] at this
        rw [if_neg hnil, if_neg hnil, if_pos hlast]
        have hmap : w'.log.seen.map (fun b => b.take (unlines done).length) = some (unlines done) := by
          rw [hseen, Option.map_some, List.take_left]
        have hchange : Holds P (w'.calm (.ftruncate (unlines done).length)).2 := by
          refine hP.change ?_
          rwa [hmap]
        refine wp_bind_of (R := fun b w'' => Holds P w'' ∧ (b = false → ∃ x, A x) ∧
          (b = true → w''.log.seen = some (unlines done))) (wp_op rfl hchange.lose ⟨hchange, by rintro ⟨⟩, fun _ => hmap⟩ ?_)
          fun b w'' hb => ?_
        · intro n hx
          refine ⟨?_, fun _ => hx, by rintro ⟨⟩⟩
          rw [RtcWorld.failing]
          dsimp only
          split
          · exact hP
          · exact hchange
        · obtain ⟨hP'', hfalse, htrue⟩ := hb
          cases b with
          | false => exact hfailed _ hP'' (hfalse rfl)
          | true =>
            refine wp_bind_of (R := fun b w3 => w3 = w'' ∧ (b = false → ∃ x, A x))
              (wp_still rfl hP''.lose rfl (fun _ => rfl) ⟨rfl, by rintro ⟨⟩⟩ fun n hx => ⟨rfl, fun _ => hx⟩) fun b w3 hb => ?_
            obtain ⟨rfl, hfalse⟩ := hb
            cases b with
            | false => exact hfailed _ hP'' (hfalse rfl)
            | true =>
              refine wp_bind_of (R := fun b w4 => Holds P w4 ∧ w4.log.seen = w3.log.seen ∧ (b = false → ∃ x, A x))
                (wp_op rfl (holds_settle hP''.seen).lose ⟨holds_settle hP''.seen, rfl, by rintro ⟨⟩⟩ fun n hx => ⟨hP'', rfl, fun _ => hx⟩)
                fun b w4 hb => ?_
              obtain ⟨hP4, hseen4, hfalse⟩ := hb
              cases b with
              | false => exact hfailed _ hP4 (hfalse rfl)
              | true =>
                refine ⟨hP4, by rintro ⟨⟩, ?_⟩
                rintro _ ⟨⟩
                exact ⟨rfl, hseen4.trans (htrue rfl)⟩
    · exact hread.wp (hfailed _ hP hx)

theorem ScannedTo.snoc (hdone : ScannedTo parse r w done (l ++ newline :: rest)) (hl : newline ∉ l)
    (hclean : classifyCompleteEventLine parse (l ++ [newline]) r ≠ none) : ScannedTo parse r w (done ++ [l]) rest := by
  refine ⟨?_, fun l' hl' => ?_, fun l' hl' => ?_⟩
  · rw [hdone.seen, unlines_append, unlines_singleton, List.append_assoc, List.append_assoc]
    rfl
  · rcases List.mem_append.mp hl' with hl' | hl'
    · exact hdone.lines l' hl'
    · rwa [List.mem_singleton.mp hl']
  · rcases List.mem_append.mp hl' with hl' | hl'
    · exact hdone.clean l' hl'
    · rwa [List.mem_singleton.mp hl']

/-- The scan of a log of lines that are no error, and a torn tail. -/
theorem wp_scanEvents (hP : Holds P w) (hdone : ScannedTo parse r w done (unlines todo ++ t)) (ht : Torn t)
    (htodo : ∀ l ∈ todo, EventLine parse l ∧ classifyCompleteEventLine parse (l ++ [newline]) r ≠ none)
    (hcut : P (some (unlines (done ++ todo)))) (hfuel : todo.length < fuel) (hfound : found = done.any (isEventOf parse r)) :
    rtcDevice.wp A (Holds P) (scanEvents parse r fuel (unlines done).length found) (fun a w' => Holds P w' ∧
      (a = none → ∃ x, A x) ∧ ∀ found', a = some found' → found' = (done ++ todo).any (isEventOf parse r) ∧
        w'.log.seen = some (unlines (done ++ todo))) w := by
  induction todo generalizing done fuel found with
  | nil =>
    obtain ⟨fuel, rfl⟩ : ∃ n, fuel = n + 1 := Nat.exists_eq_add_one.mpr (by simpa using hfuel)
    rw [List.append_nil] at hcut ⊢
    rw [← hfound]
    exact wp_scan_tail hP hdone ht hcut
  | cons l todo ih =>
    obtain ⟨fuel, rfl⟩ : ∃ n, fuel = n + 1 := Nat.exists_eq_add_one.mpr (Nat.zero_lt_of_lt hfuel)
    obtain ⟨hl, hclean⟩ := htodo l List.mem_cons_self
    have hrest : unlines (l :: todo) ++ t = l ++ newline :: (unlines todo ++ t) := by simp [unlines]
    rw [hrest] at hdone
    refine wp_scan_line hP hdone hl (fun hx => ?_) fun m hm => ?_
    · have hx := hx.resolve_right hclean
      refine Device.wp_mono _ (wp_failClosed hP) fun a w' h => ⟨h.2, fun _ => hx, ?_⟩
      rw [h.1]
      rintro _ ⟨⟩
    · have hevent : isEventOf parse r l = m := by
        rw [isEventOf, hm]
        cases m <;> rfl
      have happend : done ++ l :: todo = done ++ [l] ++ todo := by simp
      rw [happend] at hcut ⊢
      refine ih (hdone.snoc hl.newline hclean) (fun l' hl' => htodo l' (List.mem_cons_of_mem _ hl')) hcut (Nat.lt_of_succ_lt_succ hfuel) ?_
      rw [List.any_append, hfound, List.any_cons, List.any_nil, Bool.or_false, hevent]

/-- The scan of a log with a line that is an error for the record: it ends there, before anything has been changed. -/
theorem wp_scan_conflict (hP : Holds P w) (hdone : ScannedTo parse r w done (unlines todo ++ t))
    (htodo : ∀ l ∈ todo, EventLine parse l) (hbad : ∃ l ∈ todo, classifyCompleteEventLine parse (l ++ [newline]) r = none) :
    rtcDevice.wp A (Holds P) (scanEvents parse r fuel (unlines done).length found) (fun a w' => a = none ∧ Holds P w') w := by
  induction todo generalizing done fuel found with
  | nil =>
    obtain ⟨l, hl, _⟩ := hbad
    cases hl
  | cons l todo ih =>
    have hrest : unlines (l :: todo) ++ t = l ++ newline :: (unlines todo ++ t) := by simp [unlines]
    rw [hrest] at hdone
    have hl := htodo l List.mem_cons_self
    cases fuel with
    | zero => exact wp_failClosed hP
    | succ fuel =>
      refine wp_scan_line hP hdone hl (fun _ => wp_failClosed hP) fun m hm => ?_
      refine ih (hdone.snoc hl.newline (by rw [hm]; rintro ⟨⟩)) (fun l' hl' => htodo l' (List.mem_cons_of_mem _ hl')) ?_
      obtain ⟨l', hl', hnone⟩ := hbad
      rcases List.mem_cons.mp hl' with rfl | hl'
      · rw [hm] at hnone
        cases hnone
      · exact ⟨l', hl', hnone⟩

end Scan

section Recover

variable {parse : Bytes → Option CJson} {r : RtcPendingRecord} {A : RtcFault → Prop} {P : Option Bytes → Prop}
variable {w : RtcWorld} {ls ls' : List Bytes} {t : Bytes} {fuel : ℕ}

theorem wp_openEvents (hP : Holds P w) {b : Bytes} (hseen : w.log.seen = some b) :
    rtcDevice.wp A (Holds P) openEvents (fun opened w' => w' = w ∧ (opened = false → ∃ x, A x)) w := by
  unfold openEvents
  refine wp_bind_of (R := fun (a : Except Fat.Errno Unit) w' => w' = w ∧ (a = .ok () ∨ (∃ x, A x) ∧ ∃ n, a = .error (.other n)))
    (wp_still rfl hP.lose rfl (fun _ => rfl) ⟨rfl, Or.inl ?_⟩ fun n hx => ⟨rfl, Or.inr ⟨hx, n, rfl⟩⟩) fun a w' ha => ?_
  · rw [RtcWorld.calm, hseen]
    rfl
  · obtain ⟨rfl, rfl | ⟨hx, n, rfl⟩⟩ := ha
    · exact ⟨rfl, by rintro ⟨⟩⟩
    · exact ⟨rfl, fun _ => hx⟩

/-- The event at the end of the log. -/
theorem wp_appendEvent (hr : r.Built) (hP : Holds P w) (hseen : w.log.seen = some (unlines ls))
    (hext : ∀ k, P (some (unlines ls ++ (eventText r ++ [newline]).take k))) :
    rtcDevice.wp A (Holds P) (appendEvent r) (fun b w' => Holds P w' ∧ (b = false → ∃ x, A x) ∧
      (b = true → w'.log.seen = some (unlines ls ++ (eventText r ++ [newline])))) w := by
  have hshort : ¬ (eventText r ++ [newline]).length ≥ rtcEventLineMax := by
    rw [List.length_append, eventText_length hr]
    decide
  have hwrite : ∀ n, Holds P (w.setLog (w.log.extend (eventText r ++ [newline]) n)) := by
    intro n c hc
    rw [RtcWorld.setLog, LogFile.extend, hseen, LogFile.contents] at hc
    rcases List.mem_cons.mp hc with rfl | hc
    · exact hext n
    · rcases List.mem_append.mp hc with hc | hc
      · obtain ⟨k, _, rfl⟩ := List.mem_map.mp hc
        exact hext k
      · exact hP c hc
  unfold appendEvent
  refine wp_bind_of (R := fun b w' => w' = w ∧ (b = false → ∃ x, A x))
    (wp_still rfl hP.lose rfl (fun _ => rfl) ⟨rfl, by rintro ⟨⟩⟩ fun n hx => ⟨rfl, fun _ => hx⟩) fun b w' hb => ?_
  obtain ⟨rfl, hfalse⟩ := hb
  cases b with
  | false => exact ⟨hP, fun _ => hfalse rfl, by rintro ⟨⟩⟩
  | true =>
    rw [Bool.not_true, if_neg Bool.false_ne_true, if_neg hshort]
    refine wp_bind_of (R := fun n w'' => Holds P w'' ∧ (n ≠ (eventText r ++ [newline]).length → ∃ x, A x) ∧
      (n = (eventText r ++ [newline]).length → w''.log.seen = some (unlines ls ++ (eventText r ++ [newline]))))
      (wp_op rfl (hwrite _).lose ⟨hwrite _, fun h => absurd rfl h, fun _ => ?_⟩ fun n hx => ⟨hwrite _, fun _ => hx, fun hfull => ?_⟩)
      fun n w'' hn => ?_
    · simp only [RtcWorld.calm, RtcWorld.setLog, LogFile.extend, hseen, List.take_length]
    · simp only [RtcWorld.failing, List.length_append, List.length_singleton] at hfull
      omega
    · obtain ⟨hP'', hpart, hfull⟩ := hn
      split
      case isTrue hne => exact ⟨hP'', fun _ => hpart hne, by rintro ⟨⟩⟩
      case isFalse heq =>
        have hseen := hfull (not_not.mp heq)
        refine wp_bind_of (R := fun b w3 => w3 = w'' ∧ (b = false → ∃ x, A x))
          (wp_still rfl hP''.lose rfl (fun _ => rfl) ⟨rfl, by rintro ⟨⟩⟩ fun n hx => ⟨rfl, fun _ => hx⟩) fun b w3 hb => ?_
        obtain ⟨rfl, hfalse⟩ := hb
        cases b with
        | false => exact ⟨hP'', fun _ => hfalse rfl, by rintro ⟨⟩⟩
        | true =>
          exact wp_op rfl (holds_settle hP''.seen).lose ⟨holds_settle hP''.seen, by rintro ⟨⟩, fun _ => hseen⟩
            fun n hx => ⟨hP'', fun _ => hx, by rintro ⟨⟩⟩

/-- `clear_pending` is the last thing a recovery does, and what it returns. -/
theorem rtcCorrectionRecoverEvent_eq (clearPending : RtcProg Bool) :
    rtcCorrectionRecoverEvent parse r clearPending fuel =
      rtcCorrectionRecoverEvent parse r (.ret true) fuel >>= fun called => if called then clearPending else .ret false := by
  unfold rtcCorrectionRecoverEvent
  split
  · rfl
  · rw [Prog.bind_assoc]
    congr 1
    funext opened
    cases opened with
    | false => rfl
    | true =>
      rw [Bool.not_true, if_neg Bool.false_ne_true, if_neg Bool.false_ne_true, Prog.bind_assoc]
      congr 1
      funext a
      cases a with
      | none => rfl
      | some found =>
        dsimp only
        rw [Prog.bind_assoc]
        congr 1
        funext appended
        cases appended with
        | false => rfl
        | true =>
          rw [Bool.not_true, if_neg Bool.false_ne_true, if_neg Bool.false_ne_true, Prog.bind_assoc]
          congr 1
          funext closed
          cases closed <;> rfl

/-- A recovery up to the call of `clear_pending`: it fails only under a fault, and comes to the call only with the event on the
card. -/
theorem wp_recover (hparse : ParsesEvents parse) (hr : r.Built) (hlines : ∀ l ∈ ls, EventLine parse l)
    (hclean : ∀ l ∈ ls, classifyCompleteEventLine parse (l ++ [newline]) r ≠ none)
    (hone : ls.countP (isEventOf parse r) ≤ 1) (hfuel : ls.length + 1 < fuel) (hP : Holds (MayHold parse r ls) w) :
    rtcDevice.wp A (Holds (MayHold parse r ls)) (rtcCorrectionRecoverEvent parse r (.ret true) fuel) (fun called w' =>
      Holds (MayHold parse r ls) w' ∧ (called = false → ∃ x, A x) ∧ (called = true → Durable parse r ls w')) w := by
  obtain ⟨ls', t, hgrown, ht, hseen⟩ := hP.seen
  unfold rtcCorrectionRecoverEvent
  rw [if_neg (not_not_intro hr.source)]
  refine wp_bind_of (wp_openEvents hP hseen) fun opened w' h => ?_
  obtain ⟨rfl, hopened⟩ := h
  cases opened with
  | false => exact ⟨hP, fun _ => hopened rfl, by rintro ⟨⟩⟩
  | true =>
    rw [Bool.not_true, if_neg Bool.false_ne_true]
    have hdone : ScannedTo parse r w' [] (unlines ls' ++ t) := ⟨hseen, by simp, by simp⟩
    have hlen : ls'.length < fuel := by
      rcases hgrown with rfl | ⟨_, rfl⟩
      · omega
      · rwa [List.length_append, List.length_singleton]
    refine wp_bind_of (wp_scanEvents hP hdone ht
      (fun l hl => ⟨hgrown.line hparse hr hlines l hl, hgrown.clean hparse hr hclean l hl⟩)
      ⟨ls', [], hgrown, torn_nil, by rw [List.nil_append, List.append_nil]⟩ hlen rfl) fun a w'' h => ?_
    obtain ⟨hP'', hnone, hsome⟩ := h
    cases a with
    | none => exact ⟨hP'', fun _ => hnone rfl, by rintro ⟨⟩⟩
    | some found =>
      obtain ⟨hfound, hseen''⟩ := hsome found rfl
      rw [List.nil_append] at hfound hseen''
      dsimp only
      -- the event stands in the log, or goes to the end of it
      refine wp_bind_of (R := fun b w3 => Holds (MayHold parse r ls) w3 ∧ (b = false → ∃ x, A x) ∧ (b = true →
        ∃ ls', Grown parse r ls ls' ∧ ls'.countP (isEventOf parse r) = 1 ∧ w3.log.seen = some (unlines ls'))) ?_ fun b w3 h => ?_
      · cases found with
        | true => exact ⟨hP'', by rintro ⟨⟩, fun _ => ⟨ls', hgrown, hgrown.count hparse hr hone hfound.symm, hseen''⟩⟩
        | false =>
          obtain rfl := hgrown.eq hparse hr hfound.symm
          have hnew : ∀ l ∈ ls', isEventOf parse r l = false := by simpa using hfound.symm
          refine Device.wp_mono _ (wp_appendEvent hr hP'' hseen'' (mayHold_extend hparse hr hfound.symm)) fun b w3 h => ?_
          refine ⟨h.1, h.2.1, fun hb => ⟨ls' ++ [eventText r], Or.inr ⟨hnew, rfl⟩, ?_, ?_⟩⟩
          · rw [List.countP_append, List.countP_eq_zero.mpr (by simpa using hnew),
              List.countP_cons_of_pos (isEventOf_eventText hparse hr), List.countP_nil]
          · rw [h.2.2 hb, unlines_append, unlines_singleton]
      · obtain ⟨hP3, hfalse, htrue⟩ := h
        cases b with
        | false =>
          refine wp_bind_of (wp_fclose hP3) fun _ w4 h => ⟨h.1, fun _ => hfalse rfl, by rintro ⟨⟩⟩
        | true =>
          rw [Bool.not_true, if_neg Bool.false_ne_true]
          refine wp_bind_of (wp_fclose hP3) fun closed w4 h => ?_
          obtain ⟨hP4, hopen, hclosed⟩ := h
          cases closed with
          | false => exact ⟨hP4, fun _ => hopen rfl, by rintro ⟨⟩⟩
          | true =>
            refine ⟨hP4, by rintro ⟨⟩, fun _ => ?_⟩
            obtain ⟨ls', hgrown, hcount, hseen⟩ := htrue rfl
            exact ⟨ls', hgrown, hcount, by rw [hclosed rfl, hseen]⟩

/-- A recovery of a record that a line of the log contradicts: it fails, and the log stays as it is. -/
theorem wp_recover_conflict (clearPending : RtcProg Bool) (hlines : ∀ l ∈ ls, EventLine parse l)
    (hbad : ∃ l ∈ ls, classifyCompleteEventLine parse (l ++ [newline]) r = none)
    (hP : Holds (· = some (unlines ls ++ t)) w) :
    rtcDevice.wp A (Holds (· = some (unlines ls ++ t))) (rtcCorrectionRecoverEvent parse r clearPending fuel)
      (fun b w' => b = false ∧ Holds (· = some (unlines ls ++ t)) w') w := by
  unfold rtcCorrectionRecoverEvent
  split
  · exact ⟨rfl, hP⟩
  · refine wp_bind_of (wp_openEvents hP hP.seen) fun opened w' h => ?_
    obtain ⟨rfl, _⟩ := h
    cases opened with
    | false => exact ⟨rfl, hP⟩
    | true =>
      have hdone : ScannedTo parse r w' [] (unlines ls ++ t) := ⟨hP.seen, by simp, by simp⟩
      refine wp_bind_of (wp_scan_conflict hP hdone hlines hbad) fun a w'' h => ?_
      obtain ⟨rfl, hP''⟩ := h
      exact ⟨rfl, hP''⟩

end Recover

section Reruns

variable {parse : Bytes → Option CJson} {r : RtcPendingRecord} {A : RtcFault → Prop} {P : Option Bytes → Prop}
variable {w : RtcWorld} {ls : List Bytes} {tail : Bytes} {fuel : ℕ} {clearPending : RtcProg Bool}

/-- The operations that change the log. -/
def RtcOp.isLog : RtcOp → Bool
  | .fopenCreate | .ftruncate _ | .fsync | .fwrite _ | .fclose => true
  | _ => false

theorem RtcWorld.log_calm {o : RtcOp} (ho : o.isLog = false) (w : RtcWorld) : (w.calm o).2.log = w.log := by
  cases o with
  | nvsOpen readwrite => cases readwrite <;> rfl
  | nvsCommit => exact (w.note_nvs _).2
  | transmit msg => exact (w.sameStores_write msg _).log
  | _ => first | rfl | cases ho

theorem RtcWorld.log_failing {o : RtcOp} (ho : o.isLog = false) (w : RtcWorld) (n : ℕ) : (w.failing n o).2.log = w.log := by
  cases o with
  | nvsOpen readwrite =>
    rw [failing]
    split
    · rfl
    · exact w.log_calm (o := .nvsOpen readwrite) rfl
  | nvsSetBlob record | nvsEraseKey =>
    rw [failing]
    split <;> rfl
  | nvsCommit =>
    rw [failing]
    split
    · rfl
    · exact w.log_calm (o := .nvsCommit) rfl
  | transmit msg => exact (w.sameStores_write msg _).log
  | _ => first | rfl | cases ho

theorem RtcWorld.log_act {o : RtcOp} (ho : o.isLog = false) (w : RtcWorld) (f : Option RtcFault) : (w.act o f).2.log = w.log := by
  by_cases hh : o.isHardware = true
  · rcases f with _ | n | data | t <;> cases o <;> first | rfl | cases hh
  · rcases w.act_eq (Bool.eq_false_iff.mpr hh) f with heq | ⟨n, heq⟩
    · rw [heq, w.log_calm ho]
    · rw [heq, w.log_failing ho]

/-- A program that leaves the log alone, wherever it ends. -/
theorem wp_logAlone {p : RtcProg Bool} (hp : Device.Only (fun o => o.isLog = false) p) (hP : Holds P w) :
    rtcDevice.wp A (Holds P) p (fun _ w' => w'.log = w.log) w := by
  have hwp : ∀ w', w'.log = w.log → rtcDevice.wp A (Holds P) p (fun _ w' => w'.log = w.log) w' := by
    induction hp with
    | ret a => exact fun w' h => h
    | call o k ho _ ih =>
      intro w' h
      have hholds : Holds P (w'.calm o).2 := by
        unfold Holds
        rw [w'.log_calm ho, h]
        exact hP
      exact ⟨hholds.lose, fun f _ => ih _ _ ((w'.log_act ho f).trans h)⟩
  exact hwp w rfl

theorem only_clearPending : Device.Only (fun o : RtcOp => o.isLog = false) rtcCorrectionClearPendingNvs := by
  have hop : ∀ o : RtcOp, o.isLog = false → Device.Only (fun o : RtcOp => o.isLog = false) (.op o : RtcProg o.Ans) :=
    fun o ho => .call _ _ ho fun _ => .ret _
  unfold rtcCorrectionClearPendingNvs
  refine (hop .nvsLock rfl).bind fun locked => ?_
  split
  · exact .ret _
  · refine (hop (.nvsOpen true) rfl).bind fun opened => ?_
    split
    · exact .ret _
    · refine (hop .nvsEraseKey rfl).bind fun erased => ?_
      split
      · exact .ret _
      · exact hop .nvsCommit rfl

/-- A line contradicts the record if it is a correction's event under the record's id and is not the record's. -/
theorem classify_none_iff {l : Bytes} (hl : EventLine parse l) : classifyCompleteEventLine parse (l ++ [newline]) r = none ↔
    eventId parse l = some r.correctionId ∧ isEventOf parse r l = false := by
  constructor
  · intro h
    refine ⟨?_, by rw [isEventOf, h]; rfl⟩
    obtain ⟨members, hobject⟩ := hl.object
    rw [classifyCompleteEventLine, hobject] at h
    rw [eventId, hobject]
    dsimp only at h ⊢
    split at h
    · next hid => rw [if_pos hid.2, hid.1]
    · cases h
  · rintro ⟨hid, hother⟩
    by_contra hne
    rw [isEventOf_of_eventId hid hne] at hother
    cases hother

/-- What a recovery leaves behind that ends in any way. -/
def attempt (parse : Bytes → Option CJson) (r : RtcPendingRecord) (clearPending : RtcProg Bool) (fuel : ℕ) (w : RtcWorld)
    (es : List (Event RtcFault)) : RtcWorld :=
  (rtcDevice.run (rtcCorrectionRecoverEvent parse r clearPending fuel) es w).state

theorem wp_recover_clear (hparse : ParsesEvents parse) (hr : r.Built) (hlines : ∀ l ∈ ls, EventLine parse l)
    (hclean : ∀ l ∈ ls, classifyCompleteEventLine parse (l ++ [newline]) r ≠ none)
    (hone : ls.countP (isEventOf parse r) ≤ 1) (hfuel : ls.length + 1 < fuel)
    (hclear : Device.Only (fun o => o.isLog = false) clearPending) (hP : Holds (MayHold parse r ls) w) :
    rtcDevice.wp A (Holds (MayHold parse r ls)) (rtcCorrectionRecoverEvent parse r clearPending fuel)
      (fun _ w' => Holds (MayHold parse r ls) w' ∧ ((∃ x, A x) ∨ Durable parse r ls w')) w := by
  rw [rtcCorrectionRecoverEvent_eq]
  refine wp_bind_of (wp_recover hparse hr hlines hclean hone hfuel hP) fun called w' h => ?_
  obtain ⟨hP', hfalse, htrue⟩ := h
  cases called with
  | false => exact ⟨hP', Or.inl (hfalse rfl)⟩
  | true =>
    rw [if_pos rfl]
    refine Device.wp_mono _ (wp_logAlone hclear hP') fun b w'' hlog => ⟨?_, Or.inr ?_⟩
    · unfold Holds
      rw [hlog]
      exact hP'
    · obtain ⟨ls', hgrown, hcount, hsettled⟩ := htrue rfl
      exact ⟨ls', hgrown, hcount, hlog.trans hsettled⟩

theorem holds_attempts (clearPending : RtcProg Bool) (fuel : ℕ) (P : Option Bytes → Prop) (hstep : ∀ w', Holds P w' →
      rtcDevice.wp (fun _ => True) (Holds P) (rtcCorrectionRecoverEvent parse r clearPending fuel) (fun _ => Holds P) w')
    (attempts : List (List (Event RtcFault))) (hP : Holds P w) :
    Holds P (attempts.foldl (attempt parse r clearPending fuel) w) := by
  induction attempts generalizing w with
  | nil => exact hP
  | cons es attempts ih => exact ih ((Outcome.sat_state _ _).mp (Device.run_sat _ es (hstep w hP) fun _ _ _ _ => trivial))

/-- Any attempts that fail or lose power leave the complete lines, and at most one line more, the event. The next recovery that
runs through without a fault leaves the event in the log once; `clear_pending` is called, and in no attempt earlier than that.
Where a line contradicts the record, no attempt succeeds, calls it, or changes the log. -/
theorem rtcCorrectionRecoverEvent_exactlyOnce (hparse : ParsesEvents parse) (hr : r.Built)
    (hlines : ∀ l ∈ ls, EventLine parse l) (htail : Torn tail)
    (hone : ls.countP (fun l => eventId parse l = some r.correctionId) ≤ 1)
    (hclear : Device.Only (fun o => o.isLog = false) clearPending) (hfuel : ls.length + 1 < fuel)
    (hw : w.log = .settle (some (unlines ls ++ tail))) (attempts : List (List (Event RtcFault))) {w₁ : RtcWorld}
    (hw₁ : attempts.foldl (attempt parse r clearPending fuel) w = w₁) :
    -- `clear_pending` is called where the recovery with success in its place returns success
    (rtcCorrectionRecoverEvent parse r clearPending fuel =
      rtcCorrectionRecoverEvent parse r (.ret true) fuel >>= fun called => if called then clearPending else .ret false) ∧
    ((∀ l ∈ ls, eventId parse l = some r.correctionId → isEventOf parse r l = true) →
      Holds (MayHold parse r ls) w₁ ∧
      (∀ es w', rtcDevice.run (rtcCorrectionRecoverEvent parse r (.ret true) fuel) es w₁ = .done true w' →
        Durable parse r ls w') ∧
      (rtcDevice.eval (rtcCorrectionRecoverEvent parse r (.ret true) fuel) w₁).1 = true ∧
      Durable parse r ls (rtcDevice.eval (rtcCorrectionRecoverEvent parse r clearPending fuel) w₁).2) ∧
    ((∃ l ∈ ls, eventId parse l = some r.correctionId ∧ isEventOf parse r l = false) →
      Holds (· = some (unlines ls ++ tail)) w₁ ∧
      ∀ es, Holds (· = some (unlines ls ++ tail)) (attempt parse r clearPending fuel w₁ es) ∧
        (∀ b w', rtcDevice.run (rtcCorrectionRecoverEvent parse r clearPending fuel) es w₁ = .done b w' → b = false) ∧
        ∀ b w', rtcDevice.run (rtcCorrectionRecoverEvent parse r (.ret true) fuel) es w₁ = .done b w' → b = false) := by
  subst hw₁
  have hcontents : Holds (· = some (unlines ls ++ tail)) w := by
    intro c hc
    rw [hw] at hc
    exact List.mem_singleton.mp hc
  refine ⟨rtcCorrectionRecoverEvent_eq clearPending, fun hmatch => ?_, fun hother => ?_⟩
  · have hclean : ∀ l ∈ ls, classifyCompleteEventLine parse (l ++ [newline]) r ≠ none := fun l hl hnone => by
      obtain ⟨hid, hnot⟩ := (classify_none_iff (hlines l hl)).mp hnone
      rw [hmatch l hl hid] at hnot
      cases hnot
    have hone' : ls.countP (isEventOf parse r) ≤ 1 := by
      refine (List.countP_mono_left fun l _ hl => ?_).trans hone
      simpa using eventId_of_isEventOf hl
    have hP : Holds (MayHold parse r ls) w := fun c hc => ⟨ls, tail, Or.inl rfl, htail, hcontents c hc⟩
    have hP₁ := holds_attempts clearPending fuel _ (fun w' hP' => Device.wp_mono _
      (wp_recover_clear hparse hr hlines hclean hone' hfuel hclear hP') fun _ _ h => h.1) attempts hP
    refine ⟨hP₁, fun es w' hrun => ?_, ?_, ?_⟩
    · have hsat := Device.run_sat _ es (wp_recover (A := fun _ => True) hparse hr hlines hclean hone' hfuel hP₁) fun _ _ _ _ => trivial
      rw [hrun] at hsat
      exact hsat.2.2 rfl
    · have hsat := Device.eval_sat _ (wp_recover (A := fun _ => False) hparse hr hlines hclean hone' hfuel hP₁)
      by_contra hne
      obtain ⟨x, hx⟩ := hsat.2.1 (Bool.eq_false_iff.mpr hne)
      exact hx
    · have hsat := Device.eval_sat _ (wp_recover_clear (A := fun _ => False) hparse hr hlines hclean hone' hfuel hclear hP₁)
      rcases hsat.2 with ⟨x, hx⟩ | hdurable
      · exact hx.elim
      · exact hdurable
  · have hbad : ∃ l ∈ ls, classifyCompleteEventLine parse (l ++ [newline]) r = none := by
      obtain ⟨l, hl, h⟩ := hother
      exact ⟨l, hl, (classify_none_iff (hlines l hl)).mpr h⟩
    have hP₁ := holds_attempts clearPending fuel _ (fun w' hP' => Device.wp_mono _
      (wp_recover_conflict clearPending hlines hbad hP') fun _ _ h => h.2) attempts hcontents
    refine ⟨hP₁, fun es => ⟨?_, fun b w' hrun => ?_, fun b w' hrun => ?_⟩⟩
    · exact holds_attempts clearPending fuel _ (fun w' hP' => Device.wp_mono _ (wp_recover_conflict clearPending hlines hbad hP') fun _ _ h => h.2)
        [es] hP₁
    · have hsat := Device.run_sat (rtcCorrectionRecoverEvent parse r clearPending fuel) es
        (wp_recover_conflict (A := fun _ => True) clearPending hlines hbad hP₁) fun _ _ _ _ => trivial
      rw [hrun] at hsat
      exact hsat.1
    · have hsat := Device.run_sat (rtcCorrectionRecoverEvent parse r (.ret true) fuel) es
        (wp_recover_conflict (A := fun _ => True) (.ret true) hlines hbad hP₁) fun _ _ _ _ => trivial
      rw [hrun] at hsat
      exact hsat.1

/-- A log of one line, with the first 30 bytes of an event after it. -/
def stateLine : Bytes := lit "\x7b\"event\":\"state\"\x7d"

def tornLog : RtcWorld :=
  { rtcNewDevice with log := .settle (some (unlines [stateLine] ++ (eventText tornRecord).take 30)) }

theorem tornRecord_built : tornRecord.Built := by
  refine ⟨?_, ?_, ?_, ?_⟩ <;> with_unfolding_all decide

theorem stateLine_line : EventLine readEvent stateLine where
  newline := by with_unfolding_all decide
  nul := by with_unfolding_all decide
  short := by with_unfolding_all decide
  object := ⟨[(lit "event", some (lit "state"))], by with_unfolding_all rfl⟩

/-- The recovery loses power when it has cut the tail off, and again when 8 bytes of the event have been written. -/
theorem rtcCorrectionRecoverEvent_torn : Durable readEvent tornRecord [stateLine]
    (rtcDevice.eval (rtcCorrectionRecoverEvent readEvent tornRecord rtcCorrectionClearPendingNvs 3)
      ([List.replicate 5 (.act none) ++ [.cut 0], List.replicate 4 (.act none) ++ [.cut 17]].foldl
        (attempt readEvent tornRecord rtcCorrectionClearPendingNvs 3) tornLog)).2 := by
  have hnone : ∀ l ∈ [stateLine], eventId readEvent l = none := by
    intro l hl
    rw [List.mem_singleton.mp hl]
    with_unfolding_all rfl
  have hlines : ∀ l ∈ [stateLine], EventLine readEvent l := by
    intro l hl
    rw [List.mem_singleton.mp hl]
    exact stateLine_line
  refine ((rtcCorrectionRecoverEvent_exactlyOnce readEvent_parses tornRecord_built hlines
    (torn_take readEvent_parses tornRecord_built 30) ?_ only_clearPending (by decide) rfl _ rfl).2.1 fun l hl hid => ?_).2.2.2
  · exact List.countP_le_length
  · rw [hnone l hl] at hid
    cases hid

end Reruns

end M5DayLog.Rtc
