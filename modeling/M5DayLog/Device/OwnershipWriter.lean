import M5DayLog.Device.Ownership

/-! The recorder's tasks under the invariant of the storage's passage. The writer ends with every part that it has opened
finalized and committed, or in the error state, and says so only after it has closed the events and left the card. -/

namespace M5DayLog

open Threads Bytes Fat Device DeviceProg DeviceTask

variable {s s' : Capsule} {h h' : OwnRecord} {G : DeviceTask → OwnMark} {t : DeviceTask} {g g' : OwnMark}

section Others

theorem aloof_of_does {o : DeviceOp} (ho : capture.does o = true) : o.aloof = true := by
  cases o with
  | store => cases ho
  | setBits bits =>
    simp only [does, List.all_eq_true] at ho
    simp only [DeviceOp.aloof, decide_eq_true_eq]
    exact fun hb => absurd (ho _ hb) (by decide)
  | transition next reason => cases next <;> first | rfl | cases ho
  | sd o => cases ho
  | card o => cases ho
  | _ => first | rfl | cases ho

theorem aloof_of_runs {α : Type} {p : DeviceProg α} (hp : capture.Runs p) : Aloof p := hp.mono fun _ => aloof_of_does

theorem aloof_op {o : DeviceOp} (ho : o.aloof = true) : Aloof (.op o) := .call o _ ho .ret

theorem aloof_ite {α : Type} {b : Prop} [Decidable b] {p q : DeviceProg α} (hp : Aloof p) (hq : Aloof q) :
    Aloof (if b then p else q) := by
  split
  · exact hp
  · exact hq

theorem aloof_anyOf {ps : List (DeviceProg Bool)} (h : ∀ p ∈ ps, Aloof p) : Aloof (anyOf ps) := by
  induction ps with
  | nil => exact .ret _
  | cons p ps ih =>
    rw [List.forall_mem_cons] at h
    exact h.1.bind fun _ => aloof_ite (.ret _) (ih h.2)

theorem aloof_allOf {ps : List (DeviceProg Bool)} (h : ∀ p ∈ ps, Aloof p) : Aloof (allOf ps) := by
  induction ps with
  | nil => exact .ret _
  | cons p ps ih =>
    rw [List.forall_mem_cons] at h
    exact h.1.bind fun _ => aloof_ite (ih h.2) (.ret _)

theorem aloof_load (f : DeviceFlag) : Aloof (load f) := aloof_op rfl

theorem aloof_isClear (f : DeviceFlag) : Aloof (isClear f) := (aloof_load f).bind fun _ => .ret _

theorem aloof_platform (p : PlatformStep) : Aloof (platform p) := aloof_op rfl

theorem aloof_perform (p : PlatformStep) : Aloof (perform p) := (aloof_platform p).bind fun _ => .ret _

theorem aloof_enterError (reason : RecorderReason) : Aloof (recorderEnterError reason) := aloof_of_runs (runs_enterError _)

theorem aloof_transitionState {next : RecorderState} (hn : next ≠ .remount) (reason : RecorderReason) :
    Aloof (recorderTransitionState next reason) := by
  refine (aloof_load _).bind fun _ => aloof_ite (.ret _) ((aloof_op (o := .transition next reason) ?_).bind fun r => ?_)
  · simpa [DeviceOp.aloof] using hn
  · cases r with
    | done => exact .ret _
    | refused => exact .ret _
    | appendFailed => exact (aloof_of_runs runs_requestStop).bind fun _ => .ret _

/-- The battery task and the CDC worker have no part in the passage. -/
theorem aloof_of_other {o : DeviceOp} (ht : t = battery ∨ t = cdc) (ho : t.does o = true) : o.aloof = true := by
  rcases ht with rfl | rfl <;> cases o with
  | store f b => cases f <;> first | rfl | cases ho
  | setBits bits =>
    simp only [does, List.all_eq_true] at ho
    simp only [DeviceOp.aloof, decide_eq_true_eq]
    exact fun hb => absurd (ho _ hb) (by decide)
  | transition next reason => cases next <;> first | rfl | cases ho
  | sd o => cases ho
  | card o => cases ho
  | _ => first | rfl | cases ho

end Others

section Base

theorem keeps_spawnTasks {ts : List DeviceTask} (h : ∀ u ∈ ts, base.spawns u = true) :
    KeepsOwn base (spawnTasks ts) (fun _ _ => True) .based := by
  induction ts with
  | nil => trivial
  | cons u ts ih =>
    rw [List.forall_mem_cons] at h
    refine keeps_then (R := fun _ g' => g' = .based) (keeps_own_op fun s h' G hI hG c r s' ha => ⟨.based, ?_, rfl⟩) ?_
    · have hlock : s.flag .stateLock = true := by
        have hfits := hI.fits base
        rwa [hG] at hfits
      have hacted : h'.acted base (.spawn u) r = h' := by
        cases u <;> first | rfl | exact absurd h.1 (by decide)
      have husb : u ∈ [DeviceTask.usb, tinyusb, cdc] → h'.opened = true := by
        intro hu
        cases u <;> first | exact absurd hu (by decide) | exact absurd h.1 (by decide)
      rw [hacted, ← hG, Function.update_eq_self]
      obtain rfl := Option.some.inj (Capsule.act_snd ha)
      dsimp only
      split
      · exact hI.spawn (hI.begun hG rfl) (fun _ => hlock) husb
      · exact hI
    · rintro ok _ rfl
      cases ok with
      | false => exact keeps_aloof (aloof_enterError _) rfl fun _ => trivial
      | true => exact ih h.2

/-- The first task of the recorder makes the machine and its lock, and then spawns the others. -/
theorem keeps_baseAppMain : KeepsOwn base recorderBaseAppMain (fun _ _ => True) .starting := by
  have hdone {p : DeviceProg Unit} (hp : Aloof p) : KeepsOwn base p (fun _ _ => True) .based :=
    keeps_aloof hp rfl fun _ => trivial
  refine keeps_then (R := fun _ g' => g' = .starting) (keeps_aloof (aloof_platform _) rfl fun _ => rfl) ?_
  rintro hold _ rfl
  refine keeps_then (R := fun _ g' => g' = .starting) (keeps_own_op fun s h G hI hG c r s' ha => ?_) ?_
  · obtain rfl := Option.some.inj (Capsule.act_snd ha)
    exact ⟨.starting, hI.initialize hG, rfl⟩
  rintro _ _ rfl
  refine keeps_then (R := fun _ g' => g' = .starting) (keeps_aloof (aloof_platform _) rfl fun _ => rfl) ?_
  rintro lock _ rfl
  cases lock with
  | false => trivial
  | true =>
    refine keeps_then (R := fun _ g' => g' = .based) (keeps_stores fun s h G hI hG => ?_) ?_
    · exact ⟨.based, ⟨rfl, rfl⟩, rfl, fun _ _ => rfl, by rintro ⟨⟩, by simp [OwnMark.Fits, Capsule.flag_set], rfl⟩
    rintro _ _ rfl
    refine keeps_then (R := fun _ g' => g' = .based) (keeps_aloof (aloof_platform _) rfl fun _ => rfl) ?_
    rintro events _ rfl
    cases events with
    | false => exact hdone ((aloof_transitionState (by decide) _).bind fun _ => .ret _)
    | true =>
      refine keeps_then (R := fun _ g' => g' = .based) (keeps_aloof (aloof_op rfl) rfl fun _ => rfl) ?_
      rintro _ _ rfl
      cases hold with
      | false => exact hdone (aloof_enterError _)
      | true =>
        refine keeps_then (R := fun _ g' => g' = .based)
          (keeps_aloof (aloof_allOf (by simp [aloof_platform])) rfl fun _ => rfl) ?_
        rintro ready _ rfl
        cases ready with
        | false => exact hdone (aloof_enterError _)
        | true => exact keeps_spawnTasks (by decide)

end Base

section Card

theorem error_entered {reason : RecorderReason} {appended : Bool} :
    (s.transition .error reason appended).2.machine.state = .error := by
  by_cases he : s.machine.state = .error
  · rwa [error_transition he]
  · have hm : recorderStateTransition s.machine .error reason = some ⟨.error, reason, s.machine.transitionCount + 1⟩ := by
      have hallowed : recorderStateTransitionAllowed s.machine.state .error = true := by
        cases hs : s.machine.state <;> first | rfl | exact absurd hs he
      simp [recorderStateTransition, hallowed, he]
    have hw : recorderStateTransition s.machine .error .sdWrite = some ⟨.error, .sdWrite, s.machine.transitionCount + 1⟩ := by
      have hallowed : recorderStateTransitionAllowed s.machine.state .error = true := by
        cases hs : s.machine.state <;> first | rfl | exact absurd hs he
      simp [recorderStateTransition, hallowed, he]
    simp only [Capsule.transition, hm, hw]
    split <;> rfl

/-- After an error the lifecycle is in its error state, which nothing leaves. -/
theorem keeps_entersError {reason : RecorderReason} (hown : g'.Of writer) (hg : g.later = true) (hg' : g'.later = true)
    (hfits : ∀ s h, g.Fits writer s h → s.machine.state = .error → g'.Fits writer s h) :
    KeepsOwn writer (recorderEnterError reason) (fun _ k => k = g') g := by
  have hactive : g.active = true := by cases g <;> first | rfl | cases hg
  have hmove {s h G} (hI : OwnInv s h G) (hG : G writer = g) (he : s.machine.state = .error) :
      OwnInv s h (Function.update G writer g') := by
    refine hI.mark hG ⟨hown, fun _ _ => hactive, fun ht => by cases ht⟩ (hfits s h ?_ he)
    exact hG ▸ hI.fits writer
  refine keeps_then (R := fun _ k => k = g') ?_ ?_
  · refine keeps_then (R := fun lock k => k = g ∧ lock = true) (keeps_flag fun s h G hI hG => ⟨g, ?_⟩) ?_
    · have hlock := hI.lock writer (by decide) (by decide) (.inr (hG ▸ hactive))
      exact ⟨⟨hG ▸ hI.own writer, fun _ => id, fun _ => id⟩, hG ▸ hI.fits writer, rfl, hlock⟩
    rintro _ _ ⟨rfl, rfl⟩
    refine keeps_then (R := fun _ k => k = g') (keeps_own_op fun s h G hI hG c r s' ha => ⟨g', ?_, rfl⟩) ?_
    · have hkept := aloof_act hI (t := writer) rfl (.inl (hI.begun hG hg)) ha
      have hpair : s.transition .error reason c.ok = (r, s') := Option.some.inj ha
      refine hmove hkept hG ?_
      obtain rfl : _ = s' := congrArg Prod.snd hpair
      exact error_entered
    · rintro r k rfl
      cases r with
      | done => rfl
      | refused => rfl
      | appendFailed =>
        refine keeps_then (R := fun _ k' => k' = k) (keeps_aloof (aloof_of_runs runs_requestStop) hg' fun _ => rfl) ?_
        rintro _ _ rfl
        rfl
  · rintro _ _ rfl
    exact keeps_aloof (aloof_of_runs runs_requestStop) hg' fun _ => rfl

section Calls

theorem keeps_writerCall {o : WriterOp} {Q : o.Ans → OwnMark → Prop} (hp : KeepsOwn writer (writerCall o) Q g) :
    KeepsOwn writer ((Writer.op o).interp writerCall) Q g := keeps_then hp fun _ _ hQ => hQ

/-- Calls that keep the writer's mark. -/
theorem keeps_interp {α : Type} {P : WriterOp → Prop} {p : Writer α} (hp : Only P p)
    (hcall : ∀ o, P o → KeepsOwn writer (writerCall o) (fun _ k => k = g) g) :
    KeepsOwn writer (p.interp writerCall) (fun _ k => k = g) g := by
  induction hp with
  | ret a => exact rfl
  | call o k ho _ ih =>
    refine keeps_then (hcall o ho) ?_
    rintro r _ rfl
    exact ih r

theorem aloof_usable : Aloof sdMountUsable := (aloof_anyOf (by simp [aloof_isClear, aloof_load])).bind fun _ => .ret _

/-- The calls that neither write the card's files nor prepare or leave the card. -/
def WriterOp.plain : WriterOp → Bool
  | .sinkOpen .. | .finalizePaths .. | .upsertFile .. | .unmount | .enterError _ => false
  | o => !o.prepares

theorem aloof_writerCall {o : WriterOp} (ho : o.plain = true) : Aloof (writerCall o) := by
  cases o with
  | ensureQuarantineDir => exact aloof_usable.bind fun _ => aloof_ite (.ret _) (aloof_platform _)
  | ensureDateDir date =>
    exact (aloof_op rfl).bind fun _ => aloof_usable.bind fun _ => aloof_ite (.ret _) (aloof_platform _)
  | waitSlotFull => exact (aloof_op rfl).bind fun _ => .ret _
  | stopRequested => exact aloof_of_runs runs_stopRequested
  | _ => first | exact aloof_op rfl | cases ho

theorem keeps_plainCall {o : WriterOp} {Q : o.Ans → OwnMark → Prop} (ho : o.plain = true) (hg : g.later = true)
    (hQ : ∀ a, Q a g) : KeepsOwn writer ((Writer.op o).interp writerCall) Q g :=
  keeps_writerCall (keeps_aloof (aloof_writerCall ho) hg hQ)

end Calls

section Leave

/-- The writer leaves the card: to the host, where only the release is noted, or for good. -/
theorem keeps_unmount (hg : g = .closing ∨ g = .failed ∨ ∃ past, g = .mounting past) :
    KeepsOwn writer sdMountUnmount (fun _ k => k = g) g := by
  have hlater : g.later = true := by rcases hg with rfl | rfl | ⟨past, rfl⟩ <;> rfl
  have hof : g.Of writer := by rcases hg with rfl | rfl | ⟨past, rfl⟩ <;> exact rfl
  have hsection {o : SdOp} (ho : o = .beginUnmount ∨ o = .setUnmounted) :
      KeepsOwn writer (DeviceProg.sd o) (fun _ k => k = g) g := by
    refine keeps_own_op fun s h G hI hG c r s' ha => ⟨g, ?_, rfl⟩
    have hfits := hI.fits writer
    rw [hG] at hfits
    have hdone : h.writerDone = false := by
      rcases hg with rfl | rfl | ⟨past, rfl⟩
      · exact hfits.1
      · exact hfits.1
      · exact hfits.1.writerDone
    have hmay : MayEnter writer h o := by rcases ho with rfl | rfl <;> exact ⟨rfl, hdone⟩
    have hacted : h.acted writer (.sd o) r = h := by rcases ho with rfl | rfl <;> rfl
    have hpair : s.sd o = (r, s') := Option.some.inj ha
    have hmoved := hI.sd hG hmay (hI.begun hG hlater) ⟨hof, fun _ => id, fun ht => by cases ht⟩ (m := g) ?_
    · rwa [hpair] at hmoved
    · rw [hpair]
      dsimp only
      rw [hacted]
      have hevents : s'.flag .stateEventsReady = s.flag .stateEventsReady :=
        (Capsule.act_leaves ha).flag _ (by rcases ho with rfl | rfl <;> rfl)
      have hmachine : s'.machine = s.machine := (Capsule.act_leaves ha).machine rfl
      rcases hg with rfl | rfl | ⟨past, rfl⟩
      · exact ⟨hdone, hevents.trans hfits.2.1, by rw [hmachine]; exact hfits.2.2⟩
      · exact ⟨hdone, by rw [hmachine]; exact hfits.2⟩
      · exact ⟨⟨hdone, hevents.trans hfits.1.events, hfits.1.complete⟩, hfits.2⟩
  have haloof {α : Type} {p : DeviceProg α} (hp : Aloof p) : KeepsOwn writer p (fun _ k => k = g) g :=
    keeps_aloof hp hlater fun _ => rfl
  have hdelete : Aloof sdMountDeleteStorage :=
    (aloof_platform _).bind fun _ => (aloof_ite (aloof_op rfl) (.ret _)).bind fun _ => (aloof_platform _).bind fun _ =>
      (aloof_ite (aloof_op rfl) (.ret _)).bind fun _ => .ret _
  have huninstall : Aloof sdMountUninstallMscDriver :=
    (aloof_platform _).bind fun _ => (aloof_ite (aloof_op rfl) (.ret _)).bind fun _ => .ret _
  refine keeps_then (hsection (.inl rfl)) ?_
  rintro release _ rfl
  cases release with
  | true => exact rfl
  | false =>
    refine keeps_then (haloof (aloof_load _)) ?_
    rintro storage _ rfl
    refine keeps_then (haloof (aloof_ite hdelete (.ret _))) ?_
    rintro deleted _ rfl
    cases deleted with
    | false => exact rfl
    | true =>
      refine keeps_then (haloof (aloof_load _)) ?_
      rintro installed _ rfl
      refine keeps_then (haloof (aloof_ite huninstall (.ret _))) ?_
      rintro uninstalled _ rfl
      cases uninstalled with
      | false => exact rfl
      | true => exact keeps_then (hsection (.inr rfl)) fun _ _ hk => hk

end Leave

section Mount

theorem keeps_mounts : KeepsOwn writer sdMountRecordings (fun _ k => ∃ past, k = .mounting past) (.mounting false) := by
  have haloof {α : Type} {p : DeviceProg α} (hp : Aloof p) {past : Bool} :
      KeepsOwn writer p (fun _ k => k = .mounting past) (.mounting past) := keeps_aloof hp rfl fun _ => rfl
  have hdirs : Aloof ensureRecordingDirs := aloof_allOf (by simp [aloof_platform])
  have hinstall : Aloof sdMountInstallMscDriver :=
    (aloof_load _).bind fun _ => aloof_ite (.ret _) <| (aloof_platform _).bind fun _ =>
      aloof_ite ((aloof_op rfl).bind fun _ => .ret _) (.ret _)
  have hcreate : Aloof sdMountCreateStorage :=
    (aloof_anyOf (by simp [aloof_isClear, aloof_load])).bind fun _ => aloof_ite (.ret _) <| (aloof_platform _).bind fun _ =>
      (aloof_op rfl).bind fun _ => .ret _
  refine keeps_then (haloof (aloof_load _)) ?_
  rintro mounted _ rfl
  cases mounted with
  | true => exact keeps_mono (haloof hdirs) fun _ _ hk => ⟨false, hk⟩
  | false =>
    refine keeps_then (haloof (aloof_load _)) ?_
    rintro storage _ rfl
    cases storage with
    | true => exact ⟨false, rfl⟩
    | false =>
      refine keeps_then (haloof (aloof_allOf (by simp [aloof_platform, hinstall]))) ?_
      rintro card _ rfl
      cases card with
      | false => exact ⟨false, rfl⟩
      | true =>
        refine keeps_then (haloof hcreate) ?_
        rintro created _ rfl
        cases created with
        | false =>
          refine keeps_mono (haloof ((aloof_perform _).bind fun _ => (aloof_op rfl).bind fun _ => .ret _)) fun _ _ hk => ?_
          exact ⟨false, hk⟩
        | true =>
          refine keeps_then (R := fun _ k => k = .mounting true) (keeps_own_op fun s h G hI hG c r s' ha => ?_) ?_
          · have hfits := hI.fits writer
            rw [hG] at hfits
            obtain ⟨hunmounted, hmounted⟩ := hfits
            have hreleased : h.released = false := by
              by_contra hr
              simpa [hmounted rfl] using (hI.facts.released (by simpa using hr)).2
            have hmoved := hI.sd hG (o := .setMounted) ⟨rfl, hunmounted.writerDone, hreleased⟩ (hI.begun hG rfl)
              ⟨rfl, fun _ _ => rfl, fun ht => by cases ht⟩ (m := .mounting true) ?_
            · obtain ⟨rfl, rfl⟩ := Prod.mk.inj (Option.some.inj ha)
              exact ⟨_, hmoved, rfl⟩
            · refine ⟨⟨hunmounted.writerDone, ?_, hunmounted.complete⟩, fun hp => by cases hp⟩
              exact (Capsule.flag_sd rfl).trans hunmounted.events
          rintro _ _ rfl
          refine keeps_then (haloof hdirs) ?_
          rintro dirs _ rfl
          cases dirs with
          | true => exact ⟨true, rfl⟩
          | false =>
            refine keeps_then (keeps_unmount (.inr (.inr ⟨true, rfl⟩))) ?_
            rintro _ _ rfl
            exact ⟨true, rfl⟩

end Mount

section Segments

variable {a b : Bool}

/-- The writer's call on the card's files, which is noted. -/
theorem keeps_files {o : WriterOp} {Q : o.Ans → OwnMark → Prop} (ho : (DeviceOp.card o).writes = true)
    (hdo : writerCall o = .op (DeviceOp.card o))
    (hfits : ∀ (s : Capsule) (h : OwnRecord) r, g.Fits writer s h → h.writerDone = false ∧
      ∃ k : OwnMark, k.Of writer ∧ k.Fits writer s (h.acted writer (.card o) r) ∧ Q r k) (hg : g.active = true) :
    KeepsOwn writer ((Writer.op o).interp writerCall) Q g := by
  refine keeps_writerCall ?_
  rw [hdo]
  refine keeps_own_op fun s h G hI hG c r s' ha => ?_
  obtain ⟨rfl, rfl⟩ := Prod.mk.inj (Option.some.inj ha)
  obtain ⟨hdone, k, hown, hk, hQ⟩ := hfits _ h (c.card o) (hG ▸ hI.fits writer)
  exact ⟨k, hI.card hG ho hdone ⟨hown, fun _ _ => hg, fun ht => by cases ht⟩ hk, hQ⟩

theorem keeps_sinkOpen (sink : Sink) (part : Path) : KeepsOwn writer ((Writer.op (.sinkOpen sink part)).interp writerCall)
    (fun r k => k = if r.1 then .writing true true else .writing a b) (.writing a b) := by
  refine keeps_files rfl rfl (fun s h r hm => ⟨hm.1, _, ?_, ?_, rfl⟩) rfl
  · split <;> exact rfl
  · simp only [OwnRecord.acted]
    split
    · exact ⟨hm.1, fun _ => rfl, fun _ => rfl⟩
    · exact hm

theorem keeps_finalizePaths (part wav : Path) :
    KeepsOwn writer ((Writer.op (.finalizePaths part wav)).interp writerCall) (fun ok k => k = .writing (a && !ok) b)
      (.writing a b) := by
  refine keeps_files rfl rfl (fun s h r hm => ⟨hm.1, .writing (a && !r) b, rfl, ⟨hm.1, fun hu => ?_, hm.2.2⟩, rfl⟩) rfl
  change (h.unfinished && !r) = true at hu
  rw [Bool.and_eq_true] at hu ⊢
  exact ⟨hm.2.1 hu.1, hu.2⟩

theorem keeps_upsertFile (deviceId now entry : Bytes) :
    KeepsOwn writer ((Writer.op (.upsertFile deviceId now entry)).interp writerCall) (fun r k => k = .writing a (b && r ≠ .ok))
      (.writing a b) := by
  refine keeps_files rfl rfl (fun s h r hm => ⟨hm.1, .writing a (b && r ≠ .ok), rfl, ⟨hm.1, hm.2.1, fun hu => ?_⟩, rfl⟩) rfl
  change (h.uncommitted && decide (r ≠ .ok)) = true at hu
  rw [Bool.and_eq_true] at hu ⊢
  exact ⟨hm.2.2 hu.1, hu.2⟩

/-- Before its end a segment has not been finalized, unless the writer has failed. -/
def Going (seg : Segment) (k : OwnMark) : Prop := k = .failed ∨ k = .writing true true ∧ seg.state.finalizeCalled = false

theorem Going.later {seg : Segment} {k : OwnMark} (hk : Going seg k) : k.later = true := by
  rcases hk with rfl | ⟨rfl, -⟩ <;> rfl

/-- Nothing leads out of a failure. -/
theorem keeps_failedCall {o : WriterOp} (ho : o.prepares = false) :
    KeepsOwn writer (writerCall o) (fun _ k => k = .failed) .failed := by
  have hcard {o : WriterOp} (hw : (DeviceOp.card o).writes = true) (hdo : writerCall o = .op (DeviceOp.card o)) :
      KeepsOwn writer (writerCall o) (fun _ k => k = .failed) .failed := by
    rw [hdo]
    refine keeps_own_op fun s h G hI hG c r s' ha => ⟨.failed, ?_, rfl⟩
    obtain ⟨rfl, rfl⟩ := Prod.mk.inj (Option.some.inj ha)
    have hfits := hI.fits writer
    rw [hG] at hfits
    refine hI.card hG hw hfits.1 ⟨rfl, fun _ _ => rfl, fun ht => by cases ht⟩ ⟨?_, hfits.2⟩
    cases o with
    | sinkOpen sink part =>
      simp only [OwnRecord.acted]
      split <;> exact hfits.1
    | finalizePaths part wav => exact hfits.1
    | upsertFile deviceId now entry => exact hfits.1
    | _ => cases hw
  cases o with
  | sinkOpen | finalizePaths | upsertFile => exact hcard rfl rfl
  | unmount => exact keeps_unmount (.inr (.inl rfl))
  | enterError reason => exact keeps_aloof (aloof_enterError reason) rfl fun _ => rfl
  | mountRecordings | setEventsReady | transitionState | scanRecordings | syncWavDir | signalReady => cases ho
  | _ => exact keeps_aloof (aloof_writerCall rfl) rfl fun _ => rfl

theorem keeps_failed {α : Type} {p : Writer α} (hp : RecordsOnly p) :
    KeepsOwn writer (p.interp writerCall) (fun _ k => k = .failed) .failed := keeps_interp hp fun _ => keeps_failedCall

theorem keeps_fails (reason : RecorderReason) (hg : ∃ a b, g = .writing a b) :
    KeepsOwn writer (recorderEnterError reason) (fun _ k => k = .failed) g := by
  obtain ⟨a, b, rfl⟩ := hg
  exact keeps_entersError rfl rfl rfl fun s h hm he => ⟨hm.1, he⟩

theorem keeps_finalizeSegment {seg : Segment} (hseg : seg.state.finalizeCalled = false) :
    KeepsOwn writer ((finalizeSegment seg).interp writerCall) (fun r k => k = .writing (!r.1) true) (.writing true true) := by
  rw [finalizeSegment, Prog.interp_bind]
  refine keeps_then (R := fun r k => k = .writing (!r.1) true) ?_ (fun r k hk => by exact hk)
  unfold finalizeOnce
  rw [if_neg (by simp [hseg])]
  dsimp only
  split
  · exact rfl
  · rw [Prog.interp_bind]
    refine keeps_then (R := fun _ k => k = .writing true true) (keeps_plainCall rfl rfl fun _ => rfl) ?_
    rintro closed _ rfl
    split
    · exact rfl
    · rw [Prog.interp_bind]
      refine keeps_then (keeps_finalizePaths _ _) ?_
      rintro renamed _ rfl
      exact rfl

theorem keeps_manifestRecordWav (deviceId wav recId started state : Bytes) :
    KeepsOwn writer ((recorderManifestRecordWav deviceId wav recId started state).interp writerCall)
      (fun ok k => k = .writing false (!ok)) (.writing false true) := by
  unfold recorderManifestRecordWav
  split
  · exact rfl
  · dsimp only
    rw [Prog.interp_bind]
    refine keeps_then (R := fun _ k => k = .writing false true) (keeps_plainCall rfl rfl fun _ => rfl) ?_
    rintro w _ rfl
    cases recorderCurrentIso8601 w with
    | none => exact rfl
    | some now =>
      dsimp only
      rw [Prog.interp_bind]
      refine keeps_then (R := fun _ k => k = .writing false true) (keeps_plainCall rfl rfl fun _ => rfl) ?_
      rintro hashed _ rfl
      cases hashed with
      | none => exact rfl
      | some hashed =>
        dsimp only
        split
        · exact rfl
        · split
          · exact rfl
          · rw [Prog.interp_bind]
            refine keeps_then (keeps_upsertFile _ _ _) ?_
            rintro r _ rfl
            cases r <;> exact rfl

theorem stateInit_finalizeCalled (part wav : Path) : (wavRotationStateInit part wav).finalizeCalled = false := by
  unfold wavRotationStateInit
  split <;> rfl

theorem keeps_nextSegment (deviceId : Bytes) (seg : Segment) :
    KeepsOwn writer ((nextSegment deviceId seg).interp writerCall) (fun r k => match r.1 with
      | .ok _ => Going r.2 k
      | .error _ => ∃ a b, k = .writing a b) (.writing a b) := by
  have hplain {o : WriterOp} (ho : o.plain = true) :
      KeepsOwn writer ((Writer.op o).interp writerCall) (fun _ k => k = .writing a b) (.writing a b) :=
    keeps_plainCall ho rfl fun _ => rfl
  rw [nextSegment, Prog.interp_bind]
  refine keeps_then (hplain rfl) ?_
  rintro w _ rfl
  dsimp only
  rw [Prog.interp_bind]
  refine keeps_then (hplain rfl) ?_
  rintro rand16 _ rfl
  split
  · exact ⟨a, b, rfl⟩
  · split
    · exact ⟨a, b, rfl⟩
    · split
      · rw [Prog.interp_bind]
        refine keeps_then (hplain rfl) ?_
        rintro made _ rfl
        split
        · exact ⟨a, b, rfl⟩
        · rw [Prog.interp_bind]
          refine keeps_then (hplain rfl) ?_
          rintro admitted _ rfl
          split
          · exact ⟨a, b, rfl⟩
          · rw [Prog.interp_bind]
            refine keeps_then (keeps_sinkOpen _ _) ?_
            rintro ⟨opened, sink⟩ _ rfl
            dsimp only
            cases opened with
            | false => exact ⟨a, b, rfl⟩
            | true =>
              rw [if_neg (by simp), Prog.interp_bind]
              refine keeps_then (R := fun _ k => k = .writing true true) (keeps_plainCall rfl rfl fun _ => rfl) ?_
              rintro tick _ rfl
              exact .inr ⟨rfl, stateInit_finalizeCalled _ _⟩
      · exact ⟨a, b, rfl⟩

/-- The writer fails on the card's files, and its error is entered. -/
theorem keeps_sdError {α : Type} (reason : RecorderReason) (v : α) (hg : ∃ a b, g = .writing a b) :
    KeepsOwn writer ((do Writer.op .noteSdError; Writer.op (.enterError reason); return v : Writer α).interp writerCall)
      (fun r k => r = v ∧ k = .failed) g := by
  rw [Prog.interp_bind]
  obtain ⟨a, b, rfl⟩ := hg
  refine keeps_then (R := fun _ k => k = .writing a b) (keeps_plainCall rfl rfl fun _ => rfl) ?_
  rintro _ _ rfl
  rw [Prog.interp_bind]
  refine keeps_then (keeps_writerCall (keeps_fails reason ⟨a, b, rfl⟩)) ?_
  rintro _ _ rfl
  exact ⟨rfl, rfl⟩

theorem keeps_rotateSegment (deviceId : Bytes) {seg : Segment} (hg : Going seg g) :
    KeepsOwn writer ((rotateSegment deviceId seg).interp writerCall) (fun r k => Going r.2 k) g := by
  rcases hg with rfl | ⟨rfl, hseg⟩
  · exact keeps_mono (keeps_failed (records_rotateSegment deviceId seg)) fun _ _ hk => .inl hk
  rw [rotateSegment, Prog.interp_bind]
  refine keeps_then (keeps_finalizeSegment hseg) ?_
  rintro ⟨finalized, seg⟩ _ rfl
  dsimp only
  cases finalized with
  | false =>
    refine keeps_mono (keeps_sdError .finalize (false, seg) ⟨_, _, rfl⟩) ?_
    exact fun _ _ hk => .inl hk.2
  | true =>
    rw [if_neg (by simp), Prog.interp_bind]
    refine keeps_then (keeps_manifestRecordWav ..) ?_
    rintro recorded _ rfl
    cases recorded with
    | false =>
      refine keeps_mono (keeps_sdError .manifest (false, seg) ⟨_, _, rfl⟩) ?_
      exact fun _ _ hk => .inl hk.2
    | true =>
      rw [if_neg (by simp), Prog.interp_bind]
      refine keeps_then (keeps_nextSegment deviceId seg) fun r k hk => ?_
      obtain ⟨r, seg⟩ := r
      cases r with
      | ok v => exact hk
      | error reason =>
        dsimp only
        rw [Prog.interp_bind]
        exact keeps_then (keeps_writerCall (keeps_fails reason hk)) fun _ _ hk => .inl hk

theorem keeps_drainSlots (fuel : ℕ) {seg : Segment} (hg : Going seg g) :
    KeepsOwn writer ((drainSlots fuel seg).interp writerCall)
      (fun r k => k.later = true ∧ ∀ v, r = some v → Going v.2 k) g := by
  rcases hg with rfl | ⟨rfl, hseg⟩
  · refine keeps_mono (keeps_failed (records_drainSlots fuel seg)) ?_
    rintro r _ rfl
    exact ⟨rfl, fun _ _ => .inl rfl⟩
  induction fuel generalizing seg with
  | zero => exact ⟨rfl, fun _ hv => by cases hv⟩
  | succ fuel ih =>
    have hplain {o : WriterOp} (ho : o.plain = true) :
        KeepsOwn writer ((Writer.op o).interp writerCall) (fun _ k => k = .writing true true) (.writing true true) :=
      keeps_plainCall ho rfl fun _ => rfl
    have hfails {reason : RecorderReason} {seg : Segment} : KeepsOwn writer ((do
        Writer.op .noteSdError; Writer.op (.enterError reason); return some (false, seg) :
          Writer (Option (Bool × Segment))).interp writerCall)
        (fun r k => k.later = true ∧ ∀ v, r = some v → Going v.2 k) (.writing true true) := by
      refine keeps_mono (keeps_sdError reason (some (false, seg)) ⟨_, _, rfl⟩) ?_
      rintro r _ ⟨-, rfl⟩
      exact ⟨rfl, fun _ _ => .inl rfl⟩
    rw [drainSlots, Prog.interp_bind]
    refine keeps_then (hplain rfl) ?_
    rintro full _ rfl
    cases full with
    | none => exact ⟨rfl, fun v hv => Option.some.inj hv ▸ .inr ⟨rfl, hseg⟩⟩
    | some full =>
      dsimp only
      rw [Prog.interp_bind]
      refine keeps_then (hplain rfl) ?_
      rintro ⟨wrote, sink⟩ _ rfl
      cases wrote with
      | false => exact hfails
      | true =>
        dsimp only
        rw [if_neg (by simp), Prog.interp_bind]
        refine keeps_then (hplain rfl) ?_
        rintro _ _ rfl
        split
        · exact ih hseg
        · rw [Prog.interp_bind]
          refine keeps_then (hplain rfl) ?_
          rintro flushed _ rfl
          cases flushed with
          | false => exact hfails
          | true => exact ih hseg

theorem keeps_checkRotation (deviceId : Bytes) {seg : Segment} (hg : Going seg g) :
    KeepsOwn writer ((checkRotation deviceId seg).interp writerCall) (fun r k => Going r.2 k) g := by
  rw [checkRotation, Prog.interp_bind]
  refine keeps_then (R := fun _ k => k = g) (keeps_plainCall rfl hg.later fun _ => rfl) ?_
  rintro w _ rfl
  rw [Prog.interp_bind]
  refine keeps_then (R := fun _ k => Going seg k) (keeps_plainCall rfl hg.later fun _ => hg) fun tick k hk => ?_
  dsimp only
  split <;> first | exact keeps_rotateSegment deviceId hk | exact hk

theorem keeps_writerLoop (deviceId : Bytes) (fuel : ℕ) {seg : Segment} (hg : Going seg g) :
    KeepsOwn writer ((writerLoop deviceId fuel seg).interp writerCall)
      (fun r k => k.later = true ∧ ∀ seg', r = some seg' → Going seg' k) g := by
  induction fuel generalizing seg g with
  | zero => exact ⟨hg.later, fun _ hv => by cases hv⟩
  | succ fuel ih =>
    have hstop {seg : Segment} {g : OwnMark} (hg : Going seg g) :
        KeepsOwn writer ((Writer.op .stopRequested).interp writerCall) (fun _ k => Going seg k) g :=
      keeps_plainCall rfl hg.later fun _ => hg
    rw [writerLoop, Prog.interp_bind]
    refine keeps_then (R := fun _ k => Going seg k) (keeps_plainCall rfl hg.later fun _ => hg) fun _ k hk => ?_
    rw [Prog.interp_bind]
    refine keeps_then (keeps_drainSlots (fuel + 1) hk) fun r k hk => ?_
    cases r with
    | none => exact ⟨hk.1, fun _ hv => by cases hv⟩
    | some r =>
      obtain ⟨drained, seg⟩ := r
      have hgoing : Going seg k := hk.2 _ rfl
      dsimp only
      rw [Prog.interp_bind]
      refine keeps_then (hstop hgoing) fun stop k hk => ?_
      cases stop with
      | true => exact ⟨hk.later, fun _ hv => Option.some.inj hv ▸ hk⟩
      | false =>
        rw [if_neg (by simp), Prog.interp_bind]
        refine keeps_then (keeps_checkRotation deviceId hk) fun r k hk => ?_
        obtain ⟨goOn, seg⟩ := r
        dsimp only
        cases goOn with
        | false => exact ⟨hk.later, fun _ hv => Option.some.inj hv ▸ hk⟩
        | true =>
          rw [if_neg (by simp), Prog.interp_bind]
          refine keeps_then (hstop hk) fun stop k hk => ?_
          split
          · exact ⟨hk.later, fun _ hv => Option.some.inj hv ▸ hk⟩
          · exact ih hk

/-- The last segment is finalized and committed, or the writer has failed. -/
theorem keeps_finishSegment (deviceId : Bytes) {seg : Segment} (hg : Going seg g) :
    KeepsOwn writer ((finishSegment deviceId seg).interp writerCall) (fun _ k => k = .failed ∨ k = .writing false false) g := by
  rcases hg with rfl | ⟨rfl, hseg⟩
  · exact keeps_mono (keeps_failed (records_finishSegment deviceId seg)) fun _ _ hk => .inl hk
  have hfails {reason : RecorderReason} {a b : Bool} : KeepsOwn writer ((do
      Writer.op .noteSdError; Writer.op (.enterError reason) : Writer Unit).interp writerCall)
      (fun _ k => k = .failed ∨ k = .writing false false) (.writing a b) := by
    rw [Prog.interp_bind]
    refine keeps_then (R := fun _ k => k = .writing a b) (keeps_plainCall rfl rfl fun _ => rfl) ?_
    rintro _ _ rfl
    exact keeps_mono (keeps_writerCall (keeps_fails reason ⟨a, b, rfl⟩)) fun _ _ hk => .inl hk
  rw [finishSegment, Prog.interp_bind]
  refine keeps_then (keeps_finalizeSegment hseg) ?_
  rintro ⟨finalized, seg⟩ _ rfl
  dsimp only
  cases finalized with
  | false => exact hfails
  | true =>
    rw [if_neg (by simp), Prog.interp_bind]
    refine keeps_then (keeps_manifestRecordWav ..) ?_
    rintro recorded _ rfl
    cases recorded with
    | false => exact hfails
    | true => exact .inr rfl

end Segments

section Prepare

variable {a b : Bool}

/-- The recovery of the Device, which may mark that a wake recovery is pending. -/
abbrev Prepares {α : Type} (p : DeviceProg α) : Prop :=
  Only (fun o => o.aloof = true ∨ o = .nvsWrite .wakeRecoveryPending) p

theorem prepares_of_aloof {α : Type} {p : DeviceProg α} (hp : Aloof p) : Prepares p := hp.mono fun _ => .inl

theorem prepares_manifestSync (deviceId now : Bytes) : Prepares (recorderTask87ManifestSyncWavDir deviceId now) := by
  have hflush : Aloof rtcCorrectionFlushPendingEvent :=
    (aloof_load _).bind fun _ => aloof_ite (.ret _) <| (aloof_perform _).bind fun _ => (aloof_load _).bind fun _ =>
      aloof_ite (.ret _) <| (aloof_platform _).bind fun _ => aloof_ite (.ret _) <| (aloof_op rfl).bind fun _ =>
        aloof_ite ((aloof_op rfl).bind fun _ => .ret _) (.ret _)
  have hmark : Prepares shutdownArmedMarkWakeRecoveryPending := by
    refine (prepares_of_aloof (aloof_op rfl)).bind fun state => ?_
    cases state with
    | none => exact .ret _
    | some l => cases l <;> first | exact .ret _ | exact .call _ _ (.inr rfl) .ret
  have hdone : Prepares (allOf [rtcCorrectionFlushPendingEvent, shutdownArmedMarkWakeRecoveryPending]) := by
    refine (prepares_of_aloof hflush).bind fun flushed => ?_
    cases flushed with
    | false => exact .ret _
    | true =>
      refine hmark.bind fun marked => ?_
      cases marked <;> exact .ret _
  refine (prepares_of_aloof (aloof_op rfl)).bind fun ok => ?_
  cases ok with
  | false => exact .ret _
  | true =>
    refine (prepares_of_aloof (aloof_load _)).bind fun pending => ?_
    cases pending with
    | false => exact .ret _
    | true =>
      refine (prepares_of_aloof (aloof_anyOf (by simp [aloof_isClear, aloof_load]))).bind fun refused => ?_
      cases refused with
      | true => exact .ret _
      | false =>
        refine hdone.bind fun done => ?_
        cases done with
        | false => exact .ret _
        | true => exact prepares_of_aloof ((aloof_op rfl).bind fun _ => .ret _)

theorem keeps_prepares {α : Type} {p : DeviceProg α} (hp : Prepares p) :
    KeepsOwn writer p (fun _ k => k = .writing a b) (.writing a b) := by
  refine keeps_of_only hp trivial (fun o ho m h G hI _ hG choice r m' ha _ => ?_) fun _ => rfl
  simp only [Code.remember, deviceCode, Option.map_eq_some_iff] at ha
  obtain ⟨⟨r', s'⟩, ha, hpair⟩ := ha
  obtain ⟨rfl, rfl⟩ := Prod.mk.inj hpair
  have ha := Capsule.act_of_actAwake ha
  rcases ho with ho | rfl
  · exact aloof_act hI ho (.inl (hI.begun hG rfl)) ha
  · have hfits := hI.fits writer
    rw [hG] at hfits
    have htransfer : m.1.flag .transferAuthorized = false := by
      by_contra ht
      have hdone := (hI.transfer (by simpa using ht)).2.1.writerDone
      rw [hfits.1] at hdone
      cases hdone
    have hwritten := hI.write hG (l := .wakeRecoveryPending) (m := .writing a b) ⟨rfl, hfits.1, hI.begun hG rfl⟩
      (Option.some.inj ha) ⟨rfl, fun _ _ => rfl, fun ht => by cases ht⟩ htransfer ⟨hfits.1, hfits.2.1, hfits.2.2⟩
    rwa [← hG, Function.update_eq_self] at hwritten

theorem keeps_requires {α : Type} {step : Writer Bool} {reason : RecorderReason} {rest : Writer (Except RecorderReason α)}
    {Q : Except RecorderReason α → OwnMark → Prop}
    (hstep : KeepsOwn writer (step.interp writerCall) (fun _ k => k = .writing a b) (.writing a b))
    (hQ : Q (.error reason) (.writing a b)) (hrest : KeepsOwn writer (rest.interp writerCall) Q (.writing a b)) :
    KeepsOwn writer ((require step reason rest).interp writerCall) Q (.writing a b) := by
  rw [require, Prog.interp_bind]
  refine keeps_then hstep ?_
  rintro ok _ rfl
  cases ok with
  | false => exact hQ
  | true => exact hrest

theorem keeps_prepare : KeepsOwn writer (writerPrepare.interp writerCall) (fun r k => match r with
    | .ok prepared => Going prepared.2 k
    | .error _ => ∃ a b, k = .writing a b) (.writing a b) := by
  have hcall {o : WriterOp} (hp : Prepares (writerCall o)) :
      KeepsOwn writer ((Writer.op o).interp writerCall) (fun _ k => k = .writing a b) (.writing a b) :=
    keeps_writerCall (keeps_prepares hp)
  have hmanifest (deviceId : Bytes) : KeepsOwn writer ((recorderEnsureManifestExists deviceId).interp writerCall)
      (fun _ k => k = .writing a b) (.writing a b) := by
    rw [recorderEnsureManifestExists, Prog.interp_bind]
    refine keeps_then (hcall (prepares_of_aloof (aloof_op rfl))) ?_
    rintro w _ rfl
    cases recorderCurrentIso8601 w with
    | none => exact rfl
    | some now => exact hcall (prepares_of_aloof (aloof_op rfl))
  have hsync (deviceId : Bytes) : KeepsOwn writer ((recorderSyncManifest deviceId).interp writerCall)
      (fun _ k => k = .writing a b) (.writing a b) := by
    rw [recorderSyncManifest, Prog.interp_bind]
    refine keeps_then (hcall (prepares_of_aloof (aloof_op rfl))) ?_
    rintro w _ rfl
    cases recorderCurrentIso8601 w with
    | none => exact rfl
    | some now => exact hcall (prepares_manifestSync deviceId now)
  refine keeps_requires (hcall (prepares_of_aloof (aloof_transitionState (by decide) _))) ⟨a, b, rfl⟩ ?_
  rw [Prog.interp_bind]
  refine keeps_then (hcall (prepares_of_aloof (aloof_op rfl))) ?_
  rintro (_ | deviceId) _ rfl
  · exact ⟨a, b, rfl⟩
  refine keeps_requires (hcall (prepares_of_aloof (aloof_op rfl))) ⟨a, b, rfl⟩ ?_
  refine keeps_requires (hmanifest deviceId) ⟨a, b, rfl⟩ ?_
  refine keeps_requires (hcall (prepares_of_aloof ?_)) ⟨a, b, rfl⟩ ?_
  · exact aloof_usable.bind fun _ => aloof_ite (.ret _) (aloof_platform _)
  refine keeps_requires (hcall (prepares_of_aloof (aloof_op rfl))) ⟨a, b, rfl⟩ ?_
  refine keeps_requires (hsync deviceId) ⟨a, b, rfl⟩ ?_
  rw [Prog.interp_bind]
  refine keeps_then (keeps_nextSegment deviceId .blank) fun r k hk => ?_
  obtain ⟨r, seg⟩ := r
  cases r with
  | ok v => exact hk
  | error reason => exact hk

theorem sealed_of_writing (hm : OwnMark.Fits writer s h (.writing false false)) : h.Sealed := by
  obtain ⟨-, hunfinished, huncommitted⟩ := hm
  constructor
  · by_contra hu
    cases hunfinished (by simpa using hu)
  · by_contra hu
    cases huncommitted (by simpa using hu)

/-- The events are closed, and with them the part of the writer. -/
theorem keeps_closesEvents (hg : g = .failed ∨ g = .writing false false) :
    KeepsOwn writer (recorderSetEventsReady false) (fun _ k => k = .closing) g := by
  have hlater : g.later = true := by rcases hg with rfl | rfl <;> rfl
  have hactive : g.active = true := by rcases hg with rfl | rfl <;> rfl
  refine keeps_then (R := fun lock k => k = g ∧ lock = true) (keeps_flag fun s h G hI hG => ⟨g, ?_⟩) ?_
  · have hlock := hI.lock writer (by decide) (by decide) (.inr (hG ▸ hactive))
    exact ⟨⟨hG ▸ hI.own writer, fun _ => id, fun _ => id⟩, hG ▸ hI.fits writer, rfl, hlock⟩
  rintro _ _ ⟨rfl, rfl⟩
  refine keeps_stores fun s h G hI hG => ⟨.closing, ?_, rfl, fun _ _ => hactive, (fun ht => by cases ht), ?_, rfl⟩
  · have hfits := hI.fits writer
    rw [hG] at hfits
    rcases hg with rfl | rfl <;> exact ⟨rfl, hfits.1⟩
  · have hfits := hI.fits writer
    rw [hG] at hfits
    rcases hg with rfl | rfl
    · exact ⟨hfits.1, by simp [Capsule.flag_set], .inl hfits.2⟩
    · exact ⟨hfits.1, by simp [Capsule.flag_set], .inr (sealed_of_writing hfits)⟩

theorem keeps_ownWriter (fuel : ℕ) : KeepsOwn writer (deviceWriterTask fuel) (fun _ _ => True) (.mounting false) := by
  have hleave {g : OwnMark} (hg : g = .failed ∨ g = .writing false false) : KeepsOwn writer
      (Prog.interp writerCall (do Writer.op (.setEventsReady false); Writer.op .unmount; return TaskStatus.deleted))
      (fun status k => k.later = true ∧ (status = .deleted → k = .closing)) g := by
    rw [Prog.interp_bind]
    refine keeps_then (keeps_writerCall (keeps_closesEvents hg)) ?_
    rintro _ _ rfl
    rw [Prog.interp_bind]
    refine keeps_then (keeps_writerCall (keeps_unmount (.inl rfl))) ?_
    rintro _ _ rfl
    exact ⟨rfl, fun _ => rfl⟩
  refine keeps_then (R := fun status k => k.later = true ∧ (status = .deleted → k = .closing)) ?_ ?_
  · rw [recorderWriterTask, Prog.interp_bind]
    refine keeps_then (keeps_writerCall keeps_mounts) ?_
    rintro mounted _ ⟨past, rfl⟩
    cases mounted with
    | false =>
      rw [if_pos (by decide), Prog.interp_bind]
      refine keeps_then (R := fun _ k => k = .closing) (keeps_writerCall ?_) ?_
      · exact keeps_entersError rfl rfl rfl fun s h hm he => ⟨hm.1.writerDone, hm.1.events, .inl he⟩
      rintro _ _ rfl
      exact ⟨rfl, fun _ => rfl⟩
    | true =>
      rw [if_neg (by decide), Prog.interp_bind]
      refine keeps_then (R := fun _ k => k = .writing false false) (keeps_writerCall ?_) ?_
      · refine keeps_then (R := fun _ k => k = .writing false false) (keeps_flag fun s h G hI hG => ?_) ?_
        · have hfits := hI.fits writer
          rw [hG] at hfits
          refine ⟨.writing false false, ⟨rfl, fun _ _ => rfl, fun ht => by cases ht⟩, ⟨hfits.1.writerDone, ?_, ?_⟩, rfl⟩
          · simp [hfits.1.complete.1]
          · simp [hfits.1.complete.2]
        rintro lock _ rfl
        cases lock with
        | false => exact rfl
        | true =>
          refine keeps_stores fun s h G hI hG => ⟨.writing false false, ?_, rfl, fun _ _ => rfl, (fun ht => by cases ht), ?_, rfl⟩
          · have hfits := hI.fits writer
            rw [hG] at hfits
            exact ⟨rfl, hfits.1⟩
          · have hfits := hI.fits writer
            rw [hG] at hfits
            exact hfits
      rintro _ _ rfl
      rw [Prog.interp_bind]
      refine keeps_then keeps_prepare fun prepared k hk => ?_
      cases prepared with
      | error reason =>
        dsimp only
        rw [Prog.interp_bind]
        refine keeps_then (keeps_writerCall (keeps_fails reason hk)) ?_
        rintro _ _ rfl
        exact hleave (.inl rfl)
      | ok prepared =>
        have hgoing : Going prepared.2 k := hk
        dsimp only
        rw [Prog.interp_bind]
        refine keeps_then (R := fun _ k' => k' = k) (keeps_writerCall ?_) ?_
        · exact keeps_aloof (aloof_op rfl) hgoing.later fun _ => rfl
        rintro _ _ rfl
        rw [Prog.interp_bind]
        refine keeps_then (keeps_writerLoop prepared.1 fuel hgoing) fun r k hk => ?_
        cases r with
        | none => exact ⟨hk.1, fun hs => by cases hs⟩
        | some seg =>
          dsimp only
          rw [Prog.interp_bind]
          exact keeps_then (keeps_finishSegment _ (hk.2 seg rfl)) fun _ k hk => hleave hk
  · rintro status k ⟨hlater, hclosing⟩
    cases status with
    | running => exact keeps_aloof (.call _ _ rfl fun r => by cases r) hlater fun _ => trivial
    | deleted =>
      obtain rfl := hclosing rfl
      refine keeps_then (R := fun _ k => k = .closing) (keeps_aloof (aloof_load _) rfl fun _ => rfl) ?_
      rintro events _ rfl
      cases events with
      | false => trivial
      | true =>
        refine keeps_own_op fun s h G hI hG c r s' ha => ⟨.inside, ?_, trivial⟩
        obtain ⟨rfl, rfl⟩ := Prod.mk.inj (Option.some.inj ha)
        exact hI.finish hG (by decide)

end Prepare

end Card

end M5DayLog
