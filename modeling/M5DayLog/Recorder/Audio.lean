import M5DayLog.Recorder.TapeSink

/-! No audio is lost, doubled or moved. The whole writer task, from the mount to its end, runs against the pipeline and the card: at
every moment the card has what the writer gave back and nothing that was not captured, and when the task ends without an error the
segments are finalized recordings and lack only what the slots still hold. -/

namespace M5DayLog

open Bytes Fat Device Writer

namespace Audio

section Rules

variable {P : Tape → Prop} {part wav path : Path} {sink : Sink} {whole : Bool} {data : Bytes} {deviceId : Bytes}

/-- The programs over the calls of the task. -/
def taskLayer : Layer WriterOp WriterOp.Ans TapeOp TapeOp.Ans Tape Moment where
  device := tape
  carry := carry
  crash := Tape.Sound
  excused s := s.clash = true
  excused_act := clash_tapeAct
  excused_cut := clash_cut

/-- The calls that only ask the other components. -/
def asks : WriterOp → Bool
  | .sinkOpen _ _ | .sinkWriteChunk _ _ | .sinkFlush _ | .sinkClose _ | .finalizePaths _ _ | .peekFull | .releaseFull | .noteSdError
  | .enterError _ | .stopRequested => false
  | _ => true

theorem ensures_writer {o : WriterOp} {Q : o.Ans → Tape → Prop} (hcarry : carry o = .op (TapeOp.writer o)) (hP : Stable P)
    (h : ∀ s m, P s → (s.actWriter m o).2.clash = true ∨ Q (s.actWriter m o).1 (s.actWriter m o).2) :
    taskLayer.Ensures (.op o) P Q := by
  apply Layer.ensures_op
  intro s hs
  show tape.wp _ _ (carry o) _ s
  rw [hcarry]
  exact ⟨fun _ => .inr (hP.sound s hs), fun m _ => h _ _ (hP.later _ _ hs (later_meanwhile _ s))⟩

theorem ensures_ask {o : WriterOp} (ho : asks o = true) (hP : Stable P) : taskLayer.Ensures (.op o) P fun _ => P := by
  cases o with
  | sinkOpen | sinkWriteChunk | sinkFlush | sinkClose | finalizePaths | peekFull | releaseFull | noteSdError | enterError
  | stopRequested => cases ho
  | _ => exact ensures_writer rfl hP fun s m hs => .inr hs

theorem ensures_peekFull : taskLayer.Ensures (op .peekFull) (Taping true part sink []) fun full s =>
    Taping true part sink [] s ∧ ∀ data ∈ full, Shown data s := by
  apply ensures_writer rfl stable_taping
  intro s m hs
  right
  refine ⟨hs, fun data hdata => ?_⟩
  obtain ⟨i, hpeek, hslot⟩ := Option.map_eq_some_iff.mp hdata
  exact ⟨i, hpeek, hslot⟩

theorem ensures_releaseFull : taskLayer.Ensures (op .releaseFull) (fun s => Taping true part sink data s ∧ Shown data s)
    fun _ => Taping true part sink [] :=
  ensures_writer rfl stable_shown fun _ _ hs => .inr (hs.1.released hs.2)

theorem failed_act (o : TapeOp) (m : Moment) (s : Tape) (h : s.failed = true) : (s.act m o).2.failed = true := by
  cases o with
  | card o =>
    simp only [Tape.act, Tape.actCard, Tape.note]
    split <;> exact h
  | writer o => cases o <;> first | exact h | rfl

/-- Unless the segment is whole an error has been entered, and none is taken back. -/
def Excuse (whole : Bool) (s : Tape) : Prop := whole = false → s.failed = true

theorem ensures_excuse {α : Type} {p : Writer α} {Q : α → Tape → Prop} (h : taskLayer.Ensures p P Q) :
    taskLayer.Ensures p (fun s => Excuse whole s ∧ P s) (fun a s => Excuse whole s ∧ Q a s) :=
  Layer.ensures_and (fun o _ s hs hw => failed_act o _ s (hs hw)) h

theorem stable_excuse (hP : Stable P) : Stable (fun s => Excuse whole s ∧ P s) where
  sound _ h := hP.sound _ h.2
  later s s' h hl := by
    refine ⟨?_, hP.later _ _ h.2 hl⟩
    intro hw
    rw [hl.failed]
    exact h.1 hw

/-- What neither the other tasks nor an error of this one break. -/
structure Durable (P : Tape → Prop) : Prop extends Stable P where
  noted : ∀ s, P s → P { s with pcm := s.pcm.step .noteSdError }
  failed : ∀ s, P s → P { s with failed := true }

theorem durable_sound : Durable Tape.Sound where
  toStable := stable_sound
  noted _ h := ⟨PcmRun.conserves_step h.conserves .noteSdError, h.names, h.released, h.accepted, h.filed⟩
  failed _ h := ⟨h.conserves, h.names, h.released, h.accepted, h.filed⟩

theorem durable_taping : Durable (Taping whole part sink []) where
  toStable := stable_taping
  noted s h := ⟨durable_sound.noted s h.sound, h.last, h.free, h.file, h.opened, h.level⟩
  failed s h := ⟨durable_sound.failed s h.sound, h.last, h.free, h.file, h.opened, h.level⟩

theorem durable_shelved : Durable Shelved where
  toStable := stable_shelved
  noted s h := ⟨durable_sound.noted s h.sound, h.filed, h.level⟩
  failed s h := ⟨durable_sound.failed s h.sound, h.filed, h.level⟩

theorem ensures_enterError {reason : RecorderReason} (hP : Durable P) :
    taskLayer.Ensures (op (.enterError reason)) P fun _ s => s.failed = true ∧ P s :=
  ensures_writer rfl hP.toStable fun s _ hs => .inr ⟨rfl, hP.failed s hs⟩

theorem ensures_noteSdError (hP : Durable P) : taskLayer.Ensures (op .noteSdError) P fun _ => P :=
  ensures_writer rfl hP.toStable fun s _ hs => .inr (hP.noted s hs)

/-- The error that ends a loop. -/
theorem ensures_noteAndEnterError {α : Type} {reason : RecorderReason} {a : α} {Q : α → Tape → Prop} (hP : Durable P)
    (h : ∀ s, P s → s.failed = true → Q a s) : taskLayer.Ensures (do
      op .noteSdError
      op (.enterError reason)
      return a) P Q := by
  apply Layer.ensures_bind (ensures_noteSdError hP)
  intro _
  apply Layer.ensures_bind (ensures_enterError hP)
  exact fun _ => Layer.ensures_ret fun s hs => h s hs.2 hs.1

/-- The stop bit is set once an error has been entered. -/
theorem ensures_stopRequested (hP : Stable P) :
    taskLayer.Ensures (op .stopRequested) P fun stop s => (stop = false → s.failed = false) ∧ P s := by
  apply ensures_writer rfl hP
  intro s m hs
  right
  refine ⟨fun hstop => ?_, hs⟩
  exact (Bool.or_eq_false_iff.mp hstop).1

end Rules

section Segments

variable {P : Tape → Prop} {seg : Segment} {whole : Bool} {deviceId : Bytes}

/-- The segment has not been finalized, and its state names its part, or nothing. -/
structure Live (seg : Segment) : Prop where
  called : seg.state.finalizeCalled = false
  names : seg.state.partPath = seg.part ∨ seg.state.partPath = []

/-- The variables of the segment in which the slots go. -/
structure Filling (seg : Segment) (s : Tape) : Prop where
  live : Live seg
  taping : Taping true seg.part seg.sink [] s

/-- The segment after a rotation that failed. -/
structure Over (seg : Segment) (s : Tape) : Prop where
  sound : s.Sound
  called : seg.state.finalizeCalled = true
  failed : s.failed = true

/-- The segment that the task comes to finish. -/
def Holding (seg : Segment) (s : Tape) : Prop :=
  (∃ whole, Live seg ∧ Excuse whole s ∧ Taping whole seg.part seg.sink [] s) ∨ Over seg s

theorem Live.stateInit (part wav recId started date : Bytes) (bytes tick : UInt32) (flush : ℕ) (sink : Sink) :
    Live ⟨part, wav, recId, started, date, bytes, tick, flush, sink, wavRotationStateInit part wav⟩ := by
  constructor
  · show (wavRotationStateInit part wav).finalizeCalled = false
    rw [wavRotationStateInit]
    split <;> rfl
  · show (wavRotationStateInit part wav).partPath = part ∨ (wavRotationStateInit part wav).partPath = []
    rw [wavRotationStateInit]
    split
    · exact .inr rfl
    · exact .inl rfl

theorem Filling.holding {s : Tape} (h : Filling seg s) : Holding seg s :=
  .inl ⟨true, h.live, by simp [Excuse], h.taping⟩

theorem stable_filling : Stable (Filling seg) :=
  ⟨fun _ h => h.taping.sound, fun _ _ h hl => ⟨h.live, h.taping.later hl⟩⟩

/-- Closing and renaming: what was written whole is then a finalized recording. -/
theorem ensures_finalizeSegment (hlive : Live seg) :
    taskLayer.Ensures (finalizeSegment seg) (Taping whole seg.part seg.sink []) fun r s =>
      r.2.state.finalizeCalled = true ∧ s.Sound ∧ (r.1 = true → whole = true → Shelved s) := by
  unfold finalizeSegment finalizeOnce
  apply Layer.ensures_bind
    (Q := fun r s => r.2.1.finalizeCalled = true ∧ s.Sound ∧ (r.1 = true → whole = true → Shelved s))
  · rw [hlive.called, if_neg (by decide)]
    dsimp only
    split
    · exact Layer.ensures_ret fun s hs => ⟨rfl, hs.sound, by simp⟩
    case isFalse hpaths =>
      have hpart : seg.state.partPath = seg.part := hlive.names.resolve_right fun hnil => hpaths (.inl hnil)
      rw [hpart]
      apply Layer.ensures_bind (Q := fun r s => s.Sound ∧ (r.1 = true → Closed whole seg.part s))
      · exact Layer.ensures_op fun s hs => ensures_sinkClose s hs
      · intro closed
        split
        · exact Layer.ensures_ret fun s hs => ⟨rfl, hs.1, by simp⟩
        case isFalse hclosed =>
          apply Layer.ensures_bind (Q := fun ok s => s.Sound ∧ (ok = true → whole = true → Shelved s))
          · exact Layer.ensures_op fun s hs => ensures_finalizePaths s (hs.2 (by simpa using hclosed))
          · exact fun renamed => Layer.ensures_ret fun s hs => ⟨rfl, hs⟩
  · exact fun r => Layer.ensures_ret fun s hs => hs

/-- A second finalize makes no call. -/
theorem finalizeSegment_again (hcalled : seg.state.finalizeCalled = true) :
    finalizeSegment seg = .ret (seg.state.finalizedOk, seg) := by
  unfold finalizeSegment finalizeOnce
  rw [if_pos hcalled]
  rfl

/-- The record step leaves the segments alone. -/
theorem ensures_recorderManifestRecordWav (hP : Stable P) (wav recId started state : Bytes) :
    taskLayer.Ensures (recorderManifestRecordWav deviceId wav recId started state) P fun _ => P := by
  unfold recorderManifestRecordWav
  split
  · exact Layer.ensures_ret fun s hs => hs
  · apply Layer.ensures_bind (ensures_ask rfl hP)
    intro w
    split
    · exact Layer.ensures_ret fun s hs => hs
    · apply Layer.ensures_bind (ensures_ask rfl hP)
      rintro (_ | ⟨sha, sizeBytes⟩)
      · exact Layer.ensures_ret fun s hs => hs
      · dsimp only
        split
        · exact Layer.ensures_ret fun s hs => hs
        · split
          · exact Layer.ensures_ret fun s hs => hs
          · apply Layer.ensures_bind (ensures_ask rfl hP)
            exact fun r => Layer.ensures_ret fun s hs => hs

/-- A new segment is opened behind the finalized ones, or none is. -/
theorem ensures_nextSegment : taskLayer.Ensures (nextSegment deviceId seg) Shelved fun r s =>
    s.Sound ∧ (r.1 = .ok () → Filling r.2 s) ∧ (∀ reason, r.1 = .error reason → r.2.state = seg.state) := by
  unfold nextSegment
  apply Layer.ensures_bind (ensures_ask rfl stable_shelved)
  intro w
  generalize recorderCurrentDateTime w = dt
  obtain ⟨date, time⟩ := dt
  dsimp only
  apply Layer.ensures_bind (ensures_ask rfl stable_shelved)
  intro rand16
  split
  · exact Layer.ensures_ret fun s hs => ⟨hs.sound, by simp, by simp⟩
  · split
    · exact Layer.ensures_ret fun s hs => ⟨hs.sound, by simp, by simp⟩
    · split
      · apply Layer.ensures_bind (ensures_ask rfl stable_shelved)
        intro made
        split
        · exact Layer.ensures_ret fun s hs => ⟨hs.sound, by simp, by simp⟩
        · apply Layer.ensures_bind (ensures_ask rfl stable_shelved)
          intro admitted
          split
          · exact Layer.ensures_ret fun s hs => ⟨hs.sound, by simp, by simp⟩
          case isFalse part wav _ _ _ _ =>
            apply Layer.ensures_bind (Q := fun r s => s.Sound ∧ (r.1 = true → Taping true part r.2 [] s))
            · exact Layer.ensures_op fun s hs => ensures_sinkOpen s hs
            · rintro ⟨opened, sink⟩
              dsimp only
              split
              · exact Layer.ensures_ret fun s hs => ⟨hs.1, by simp, by simp⟩
              case isFalse hopened =>
                apply Layer.ensures_bind (Q := fun _ => Taping true part sink [])
                · exact Layer.ensures_mono (ensures_ask rfl stable_taping) (fun s hs => hs.2 (by simpa using hopened)) fun _ s hs => hs
                · exact fun tick => Layer.ensures_ret fun s hs => ⟨hs.sound, fun _ => ⟨.stateInit .., hs⟩, by simp⟩
      · exact Layer.ensures_ret fun s hs => ⟨hs.sound, by simp, by simp⟩

theorem ensures_rotateSegment : taskLayer.Ensures (rotateSegment deviceId seg) (Filling seg) fun r s =>
    if r.1 then Filling r.2 s else Over r.2 s := by
  intro s hs
  have hlive := hs.live
  revert s
  unfold rotateSegment
  apply Layer.ensures_bind (Layer.ensures_mono (ensures_finalizeSegment hlive) (fun s hs => hs.taping) fun r s hs => hs)
  rintro ⟨finalized, seg1⟩
  dsimp only
  split
  · apply Layer.ensures_mono (R := fun s => seg1.state.finalizeCalled = true ∧ s.Sound) _ (fun s hs => ⟨hs.1, hs.2.1⟩) fun r s hs => hs
    intro s hs
    exact ensures_noteAndEnterError durable_sound (fun s' hs' hf => ⟨hs', hs.1, hf⟩) s hs.2
  case isFalse hfinalized =>
    intro s hs
    refine Layer.ensures_bind (ensures_recorderManifestRecordWav stable_shelved _ _ _ _) ?_ s (hs.2.2 (by simpa using hfinalized) rfl)
    intro recorded
    split
    · exact ensures_noteAndEnterError durable_shelved fun s' hs' hf => ⟨hs'.sound, hs.1, hf⟩
    · apply Layer.ensures_bind ensures_nextSegment
      rintro ⟨r, seg2⟩
      cases r with
      | ok u => exact Layer.ensures_ret fun s hs => hs.2.1 rfl
      | error reason =>
        intro s' hs'
        have hcalled : seg2.state.finalizeCalled = true := by rw [hs'.2.2 reason rfl, hs.1]
        refine Layer.ensures_bind (ensures_enterError durable_sound) ?_ s' hs'.1
        exact fun _ => Layer.ensures_ret fun s'' hs'' => ⟨hs''.2, hcalled, hs''.1⟩

end Segments

section Loop

variable {P : Tape → Prop} {seg : Segment} {deviceId : Bytes}

/-- What a drain leaves, and whether it came to its end. -/
structure Drained (whole : Bool) (seg : Segment) (s : Tape) : Prop where
  live : Live seg
  excuse : Excuse whole s
  taping : Taping whole seg.part seg.sink [] s

theorem Filling.drained {s : Tape} (h : Filling seg s) : Drained true seg s := ⟨h.live, by simp [Excuse], h.taping⟩

theorem Drained.holding {s : Tape} {whole : Bool} (h : Drained whole seg s) : Holding seg s :=
  .inl ⟨whole, h.live, h.excuse, h.taping⟩

theorem stable_drained {whole : Bool} : Stable (Drained whole seg) where
  sound _ h := h.taping.sound
  later s s' h hl := by
    refine ⟨h.live, fun hw => ?_, h.taping.later hl⟩
    rw [hl.failed]
    exact h.excuse hw

theorem stable_holding : Stable (Holding seg) where
  sound s h := h.elim (fun ⟨_, _, _, ht⟩ => ht.sound) Over.sound
  later s s' h hl := by
    rcases h with ⟨whole, hlive, hexcuse, ht⟩ | h
    · exact (stable_drained.later s s' ⟨hlive, hexcuse, ht⟩ hl).holding
    · right
      refine ⟨h.sound.later hl, h.called, ?_⟩
      rw [hl.failed]
      exact h.failed

/-- A slot is given back only once it is in the part, so that each goes in once; a slot that fails ends the loop. -/
theorem ensures_drainSlots (fuel : ℕ) : taskLayer.Ensures (drainSlots fuel seg) (Filling seg) fun r s =>
    match r with
    | none => s.Sound
    | some r => Drained r.1 r.2 s := by
  induction fuel generalizing seg with
  | zero => exact Layer.ensures_ret fun s hs => hs.taping.sound
  | succ fuel ih =>
    intro s hs
    have hlive := hs.live
    revert s
    unfold drainSlots
    apply Layer.ensures_bind (Layer.ensures_mono ensures_peekFull (fun s hs => hs.taping) fun r s hs => hs)
    rintro (_ | full)
    · exact Layer.ensures_ret fun s hs => (Filling.mk hlive hs.1).drained
    · apply Layer.ensures_bind (Q := fun r s =>
        if r.1 then Taping true seg.part r.2 full s ∧ Shown full s else Taping false seg.part r.2 [] s)
      · exact Layer.ensures_op fun s hs => ensures_sinkWriteChunk s ⟨hs.1, hs.2 full rfl⟩
      · rintro ⟨wrote, sink⟩
        cases wrote with
        | false => exact ensures_noteAndEnterError durable_taping fun s hs hf => ⟨⟨hlive.called, hlive.names⟩, fun _ => hf, hs⟩
        | true =>
          apply Layer.ensures_bind (Q := fun _ => Taping true seg.part sink [])
          · exact ensures_releaseFull
          · intro _
            dsimp only
            split
            · exact Layer.ensures_mono ih (fun s hs => ⟨⟨hlive.called, hlive.names⟩, hs⟩) fun r s hs => hs
            · apply Layer.ensures_bind (Q := fun _ => Taping true seg.part sink [])
              · exact Layer.ensures_op fun s hs => ensures_sinkFlush s hs
              · intro flushed
                split
                · exact ensures_noteAndEnterError durable_taping fun s hs hf =>
                    ⟨⟨hlive.called, hlive.names⟩, fun _ => hf, hs.failed⟩
                · exact Layer.ensures_mono ih (fun s hs => ⟨⟨hlive.called, hlive.names⟩, hs⟩) fun r s hs => hs

theorem ensures_checkRotation : taskLayer.Ensures (checkRotation deviceId seg) (Filling seg) fun r s =>
    if r.1 then Filling r.2 s else Holding r.2 s := by
  unfold checkRotation
  apply Layer.ensures_bind (ensures_ask rfl stable_filling)
  intro w
  apply Layer.ensures_bind (ensures_ask rfl stable_filling)
  intro tick
  have hrotate : taskLayer.Ensures (rotateSegment deviceId seg) (Filling seg) fun r s =>
      if r.1 then Filling r.2 s else Holding r.2 s := by
    apply Layer.ensures_mono ensures_rotateSegment (fun s hs => hs)
    intro r s hs
    split at hs
    case isTrue hr => rwa [if_pos hr]
    case isFalse hr =>
      rw [if_neg hr]
      exact .inr hs
  dsimp only
  split
  · exact Layer.ensures_ret fun s hs => hs.holding
  · exact Layer.ensures_ret fun s hs => hs.holding
  · exact Layer.ensures_ret fun s hs => hs.holding
  · exact hrotate
  · exact hrotate
  · exact Layer.ensures_ret fun s hs => hs

theorem ensures_writerLoop (fuel : ℕ) : taskLayer.Ensures (writerLoop deviceId fuel seg) (Filling seg) fun r s =>
    match r with
    | none => s.Sound
    | some seg => Holding seg s := by
  induction fuel generalizing seg with
  | zero => exact Layer.ensures_ret fun s hs => hs.taping.sound
  | succ fuel ih =>
    unfold writerLoop
    apply Layer.ensures_bind (ensures_ask rfl stable_filling)
    intro _
    apply Layer.ensures_bind (ensures_drainSlots _)
    rintro (_ | ⟨drained, seg1⟩)
    · exact Layer.ensures_ret fun s hs => hs
    · apply Layer.ensures_bind (ensures_stopRequested stable_drained)
      intro stop
      cases stop with
      | true => exact Layer.ensures_ret fun s hs => hs.2.holding
      | false =>
        -- a drain that failed has entered the error state, which stops the loop here
        have hfilling (s : Tape) (hs : (false = false → s.failed = false) ∧ Drained drained seg1 s) : Filling seg1 s := by
          cases drained with
          | true => exact ⟨hs.2.live, hs.2.taping⟩
          | false =>
            have hfailed := hs.2.excuse rfl
            rw [hs.1 rfl] at hfailed
            cases hfailed
        apply Layer.ensures_bind (Layer.ensures_mono ensures_checkRotation hfilling fun r s hs => hs)
        rintro ⟨goOn, seg2⟩
        cases goOn with
        | false => exact Layer.ensures_ret fun s hs => hs
        | true =>
          apply Layer.ensures_bind (ensures_stopRequested (P := Filling seg2) stable_filling)
          intro stop
          split
          · exact Layer.ensures_ret fun s hs => hs.2.holding
          · exact Layer.ensures_mono ih (fun s hs => hs.2) fun r s hs => hs

end Loop

section Task

variable {P : Tape → Prop} {seg : Segment} {deviceId : Bytes}

/-- The end of the task: without an error every segment is a finalized recording. -/
structure Ended (s : Tape) : Prop where
  sound : s.Sound
  shelved : s.failed = false → Shelved s

theorem durable_ended : Durable Ended where
  sound _ h := h.sound
  later s s' h hl := by
    refine ⟨h.sound.later hl, fun hf => ?_⟩
    rw [hl.failed] at hf
    exact (h.shelved hf).later hl
  noted s h := ⟨durable_sound.noted s h.sound, fun hf => durable_shelved.noted s (h.shelved hf)⟩
  failed s h := ⟨durable_sound.failed s h.sound, by simp⟩

theorem ended_of_failed {s : Tape} (hs : s.Sound) (hf : s.failed = true) : Ended s := ⟨hs, by simp [hf]⟩

theorem ensures_failed {reason : RecorderReason} (hP : Durable P) : taskLayer.Ensures (do
      op .noteSdError
      op (.enterError reason)) P fun _ => Ended := by
  apply Layer.ensures_bind (ensures_noteSdError hP)
  exact fun _ => Layer.ensures_mono (ensures_enterError hP) (fun s hs => hs) fun _ s hs => ended_of_failed (hP.sound s hs.2) hs.1

theorem ensures_finishSegment : taskLayer.Ensures (finishSegment deviceId seg) (Holding seg) fun _ => Ended := by
  have hrecord (finalized : Bool) (seg : Segment) : taskLayer.Ensures (if !finalized then do
        op .noteSdError
        op (.enterError .finalize)
      else do
        let recorded ← recorderManifestRecordWav deviceId seg.wav seg.recId seg.started stateFinalized
        if !recorded then
          op .noteSdError
          op (.enterError .manifest))
      (fun s => s.Sound ∧ (finalized = true → Ended s)) fun _ => Ended := by
    cases finalized with
    | false => exact Layer.ensures_mono (ensures_failed durable_sound) (fun s hs => hs.1) fun _ s hs => hs
    | true =>
      apply Layer.ensures_mono (R := Ended) _ (fun s hs => hs.2 rfl) fun _ s hs => hs
      apply Layer.ensures_bind (ensures_recorderManifestRecordWav durable_ended.toStable _ _ _ _)
      intro recorded
      split
      · exact ensures_failed durable_ended
      · exact Layer.ensures_ret fun s hs => hs
  unfold finishSegment
  rintro s (⟨whole, hlive, hexcuse, htaping⟩ | hover)
  · refine Layer.ensures_bind (ensures_excuse (ensures_finalizeSegment hlive)) ?_ s ⟨hexcuse, htaping⟩
    rintro ⟨finalized, seg1⟩
    apply Layer.ensures_mono (hrecord finalized seg1) _ fun _ s hs => hs
    rintro s ⟨hexcuse, -, hsound, hshelved⟩
    refine ⟨hsound, fun hok => ⟨hsound, fun hf => hshelved hok ?_⟩⟩
    by_contra hpart
    rw [hexcuse (by simpa using hpart)] at hf
    cases hf
  · rw [finalizeSegment_again hover.called]
    exact hrecord _ seg s ⟨hover.sound, fun _ => ended_of_failed hover.sound hover.failed⟩

theorem ensures_require {α : Type} {step : Writer Bool} {reason : RecorderReason} {rest : Writer (Except RecorderReason α)}
    {Q : Except RecorderReason α → Tape → Prop} (hstep : taskLayer.Ensures step P fun _ => P)
    (hfail : ∀ s, P s → Q (.error reason) s) (hrest : taskLayer.Ensures rest P Q) :
    taskLayer.Ensures (require step reason rest) P Q := by
  unfold require
  apply Layer.ensures_bind hstep
  intro ok
  split
  · exact Layer.ensures_ret hfail
  · exact hrest

theorem ensures_writerPrepare : taskLayer.Ensures writerPrepare Shelved fun r s =>
    s.Sound ∧ ∀ id seg, r = .ok (id, seg) → Filling seg s := by
  have hno (reason : RecorderReason) (s : Tape) (hs : Shelved s) : s.Sound ∧
      ∀ id seg, (.error reason : Except RecorderReason (Bytes × Segment)) = .ok (id, seg) → Filling seg s :=
    ⟨hs.sound, by simp⟩
  unfold writerPrepare
  apply ensures_require (ensures_ask rfl stable_shelved) (hno _)
  apply Layer.ensures_bind (ensures_ask rfl stable_shelved)
  rintro (_ | deviceId)
  · exact Layer.ensures_ret (hno _)
  · apply ensures_require (ensures_ask rfl stable_shelved) (hno _)
    apply ensures_require _ (hno _)
    apply ensures_require (ensures_ask rfl stable_shelved) (hno _)
    apply ensures_require (ensures_ask rfl stable_shelved) (hno _)
    apply ensures_require _ (hno _)
    · apply Layer.ensures_bind ensures_nextSegment
      rintro ⟨r, seg⟩
      cases r with
      | ok u =>
        apply Layer.ensures_ret
        intro s hs
        refine ⟨hs.1, fun id seg' heq => ?_⟩
        obtain ⟨-, rfl⟩ := Prod.mk.inj (Except.ok.inj heq)
        exact hs.2.1 rfl
      | error reason => exact Layer.ensures_ret fun s hs => ⟨hs.1, by simp⟩
    · unfold recorderSyncManifest
      apply Layer.ensures_bind (ensures_ask rfl stable_shelved)
      intro w
      split
      · exact Layer.ensures_ret fun s hs => hs
      · exact ensures_ask rfl stable_shelved
    · unfold recorderEnsureManifestExists
      apply Layer.ensures_bind (ensures_ask rfl stable_shelved)
      intro w
      split
      · exact Layer.ensures_ret fun s hs => hs
      · exact ensures_ask rfl stable_shelved

theorem ensures_recorderWriterTask (fuel : ℕ) : taskLayer.Ensures (recorderWriterTask fuel) Shelved fun status s =>
    match status with
    | .running => s.Sound
    | .deleted => Ended s := by
  unfold recorderWriterTask
  apply Layer.ensures_bind (ensures_ask rfl stable_shelved)
  intro mounted
  split
  · apply Layer.ensures_bind (ensures_enterError durable_shelved)
    exact fun _ => Layer.ensures_ret fun s hs => ended_of_failed hs.2.sound hs.1
  · apply Layer.ensures_bind (ensures_ask rfl stable_shelved)
    intro _
    apply Layer.ensures_bind ensures_writerPrepare
    rintro (reason | ⟨deviceId, seg⟩)
    · dsimp only
      apply Layer.ensures_bind (Layer.ensures_mono (ensures_enterError durable_sound) (fun s hs => hs.1) fun _ s hs =>
        ended_of_failed hs.2 hs.1)
      intro _
      apply Layer.ensures_bind (ensures_ask rfl durable_ended.toStable)
      intro _
      apply Layer.ensures_bind (ensures_ask rfl durable_ended.toStable)
      exact fun _ => Layer.ensures_ret fun s hs => hs
    · dsimp only
      apply Layer.ensures_bind (Layer.ensures_mono (ensures_ask rfl stable_filling) (fun s hs => hs.2 deviceId seg rfl) fun _ s hs => hs)
      intro _
      apply Layer.ensures_bind (ensures_writerLoop fuel)
      rintro (_ | seg1)
      · exact Layer.ensures_ret fun s hs => hs
      · dsimp only
        apply Layer.ensures_bind ensures_finishSegment
        intro _
        apply Layer.ensures_bind (ensures_ask rfl durable_ended.toStable)
        intro _
        apply Layer.ensures_bind (ensures_ask rfl durable_ended.toStable)
        exact fun _ => Layer.ensures_ret fun s hs => hs

end Task

section Runs

theorem shelved_boot (card : Card) (backing : Fin 2 → PcmSlot) : Shelved (.boot card backing) where
  sound := {
    conserves := PcmRun.conserves_after backing []
    names := List.nodup_nil
    released := List.nil_prefix
    accepted := List.nil_prefix
    filed := by simp [Tape.boot] }
  filed := by simp [Tape.boot]
  level := rfl

/-- The stop bit is found set. -/
def Moment.stopping : Moment := ⟨[], none, none, 0, Choice.stopping.ans⟩

def dateCard : Card := ⟨List.toAList [⟨join recordingsDir (lit "2026-07-14"), .dir⟩], false⟩

theorem blank_length : (List.replicate bufferBytes (0 : UInt8)).length = bufferBytes := List.length_replicate

def blankSlots : Fin 2 → PcmSlot := fun _ => ⟨List.replicate bufferBytes 0, blank_length⟩

def stopMoments : List (Event Moment) := List.replicate 60 (.act (some .stopping))

/-- The task has ended without an error, and has left one segment. -/
def leftOne : Outcome TaskStatus Tape → Bool
  | .done .deleted s => !s.failed && s.parts.length == 1
  | _ => false

theorem eq_done_of_leftOne {r : Outcome TaskStatus Tape} (h : leftOne r = true) :
    ∃ s, r = .done .deleted s ∧ s.failed = false ∧ s.parts.length = 1 := by
  cases r with
  | cut s => cases h
  | done status s =>
    cases status with
    | deleted =>
      change (!s.failed && s.parts.length == 1) = true at h
      rw [Bool.and_eq_true, Bool.not_eq_true', beq_iff_eq] at h
      exact ⟨s, rfl, h⟩
    | running => cases h

end Runs

end Audio

end M5DayLog
