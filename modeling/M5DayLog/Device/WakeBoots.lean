import M5DayLog.Device.WakeRecovery

/-! The calls of the Device under the invariant of a wake recovery: the writer brings the card through its recovery and
completes that of the Device, `app_main` decides the boot and completes the lifecycle, and USB comes after both. -/

namespace M5DayLog

open Threads Device DeviceProg DeviceTask

variable {s s' : Capsule} {h h' : BootRecord} {G : DeviceTask → WakeMark} {t : DeviceTask} {g : WakeMark}

section Others

theorem idle_of_does {o : DeviceOp} (ht : t = capture ∨ t = battery) (ho : t.does o = true) :
    o.idle = true ∧ o.holds = true := by
  rcases ht with rfl | rfl <;> cases o with
  | sd o => cases ho
  | card o => exact ⟨rfl, rfl⟩
  | _ => first | exact ⟨rfl, rfl⟩ | cases ho

theorem does_usb {o : DeviceOp} (ht : t = main ∨ t = usb ∨ t = tinyusb ∨ t = cdc) (ho : t.does o = true) :
    o.idle = true ∧ o.holds = true ∨ o.runs = true := by
  rcases ht with rfl | rfl | rfl | rfl <;> cases o with
  | store f b => cases f <;> first | exact .inl ⟨rfl, rfl⟩ | exact .inr rfl | cases ho
  | sd o => cases o <;> first | exact .inl ⟨rfl, rfl⟩ | cases ho
  | nvsWrite l => cases l <;> first | exact .inr rfl | cases ho
  | spawn u => cases u <;> first | exact .inr rfl | cases ho
  | deleteTask u => cases u <;> first | exact .inr rfl | cases ho
  | _ => first | exact .inl ⟨rfl, rfl⟩ | exact .inr rfl | cases ho

theorem keeps_usb {α : Type} {p : DeviceProg α} {Q : α → WakeMark → Prop}
    (ht : t = main ∨ t = usb ∨ t = tinyusb ∨ t = cdc) (hp : t.Runs p) (hQ : ∀ a, Q a .opened) : KeepsWake t p Q .opened :=
  keeps_opened (hp.mono fun _ => does_usb ht) hQ

/-- The recorder's first task only spawns others. -/
theorem keeps_base {α : Type} {p : DeviceProg α} {Q : α → WakeMark → Prop} (hp : base.Runs p) (hQ : ∀ a, Q a .inside) :
    KeepsWake base p Q .inside := by
  refine keeps_of_only hp trivial (fun o ho m h G hI _ hG choice r m' ha _ => ?_) hQ
  simp only [Code.remember, deviceCode, Option.map_eq_some_iff] at ha
  obtain ⟨⟨r', s'⟩, ha, hpair⟩ := ha
  obtain ⟨rfl, rfl⟩ := Prod.mk.inj hpair
  have ha := Capsule.act_of_actAwake ha
  cases o with
  | spawn u =>
    have hbase : m.1.spawned base = true := hI.1.up base (by rintro ⟨⟩) (.inr (by rw [hG]; rfl))
    obtain rfl := Option.some.inj (Capsule.act_snd ha)
    dsimp only
    split
    · exact ⟨hI.1.spawn hbase ho, Or.inl⟩
    · exact ⟨hI.1, Or.inl⟩
  | store f b => cases f <;> first | exact idle_act hI.1 rfl (.inl rfl) ha | cases ho
  | _ => first | exact idle_act hI.1 rfl (.inl rfl) ha | cases ho

end Others

section Writer

theorem does_writer {o : DeviceOp} (ho : writer.does o = true) : o.idle = true := by
  cases o with
  | store f b => cases f <;> first | rfl | cases ho
  | sd o => rfl
  | _ => first | rfl | cases ho

theorem follows_inside (hg : g.active = true) : WakeFollows t g .inside := ⟨nofun, trivial, fun _ _ => hg⟩

theorem WakeInv.inside (hI : WakeInv s h G) (hG : G t = g) (hg : g.active = true) :
    WakeInv s h (Function.update G t .inside) := hI.mark hG (follows_inside hg) trivial

/-- A part of the writer that has no part in the recovery. -/
theorem keeps_writer {α : Type} {p : DeviceProg α} (hp : writer.Runs p) (hg : g.active = true) :
    KeepsWake writer p (fun _ g' => g'.active = true) g := by
  induction hp generalizing g with
  | ret a => exact hg
  | call o k ho _ ih =>
    refine (keeps_bind (Prog.op o) k _).mpr (keeps_wake_op fun s h G hI hG c r s' ha => ⟨.inside, ?_⟩)
    have hmark := hI.inside hG hg
    obtain ⟨hI', hrestores⟩ := idle_act hmark (does_writer ho) (.inr (by simp)) ha
    exact ⟨hI', hrestores, ih r rfl⟩

theorem idle_op {o : DeviceOp} (ho : o.idle = true ∧ o.holds = true) : Idle (.op o) := .call o _ ho .ret

theorem idle_of_runs {α : Type} {p : DeviceProg α} (hp : capture.Runs p) : Idle p := hp.mono fun _ => idle_of_does (.inl rfl)

/-- A look at the memory, after which the task goes on to another mark. -/
theorem keeps_look {o : DeviceOp} {Q : o.Ans → WakeMark → Prop}
    (hread : ∀ s h G, WakeInv s h G → G t = g → ∀ c r s', Capsule.act o c s = some (r, s') →
      s' = s ∧ h.acted o r = h ∧ ∃ g', WakeFollows t g g' ∧ g'.Fits s h ∧ Q r g') : KeepsWake t (.op o) Q g := by
  refine keeps_wake_op fun s h G hI hG c r s' ha => ?_
  obtain ⟨rfl, hacted, g', hfollows, hfits, hQ⟩ := hread s h G hI hG c r s' ha
  rw [hacted]
  exact ⟨g', hI.mark hG hfollows hfits, Or.inl, hQ⟩

theorem keeps_load {f : DeviceFlag} {Q : Bool → WakeMark → Prop}
    (hlook : ∀ s h G, WakeInv s h G → G t = g → ∃ g', WakeFollows t g g' ∧ g'.Fits s h ∧ Q (s.flag f) g') :
    KeepsWake t (load f) Q g := by
  refine keeps_look fun s h G hI hG c r s' ha => ?_
  obtain ⟨rfl, rfl⟩ := Prod.mk.inj (Option.some.inj ha)
  exact ⟨rfl, rfl, hlook _ h G hI hG⟩

theorem keeps_ensureRecordingDirs {Q : Bool → WakeMark → Prop} (hQ : ∀ a, Q a g) : KeepsWake t ensureRecordingDirs Q g :=
  keeps_idle (idle_of_runs runs_ensureRecordingDirs) hQ

theorem idle_transitionState (next : RecorderState) (reason : RecorderReason) : Idle (recorderTransitionState next reason) := by
  refine (idle_of_runs (runs_load _)).bind fun lock => ?_
  split
  · exact .ret _
  · refine (idle_op ⟨rfl, rfl⟩).bind fun r => ?_
    cases r with
    | done => exact .ret _
    | refused => exact .ret _
    | appendFailed => exact (idle_of_runs runs_requestStop).bind fun _ => .ret _

theorem keeps_mountRecordings : KeepsWake writer sdMountRecordings
    (fun ok g' => g'.active = true ∧ (ok = true → g' = .mounted)) .inside := by
  have hfailed {p : DeviceProg Unit} {g : WakeMark} (hp : writer.Runs p) (hg : g.active = true) :
      KeepsWake writer (do p; return false) (fun ok g' => g'.active = true ∧ (ok = true → g' = .mounted)) g :=
    keeps_then (keeps_writer hp hg) fun _ g' hg' => ⟨hg', (by rintro ⟨⟩)⟩
  have hdirs {β : Type} {f : Bool → DeviceProg β} {Q : β → WakeMark → Prop}
      (hf : ∀ ok, KeepsWake writer (f ok) Q .mounted) : KeepsWake writer (ensureRecordingDirs >>= f) Q .mounted :=
    keeps_then (keeps_ensureRecordingDirs (Q := fun _ g' => g' = .mounted) fun _ => rfl) fun ok _ hg => hg ▸ hf ok
  refine keeps_then (R := fun b g' => g' = if b then .mounted else .inside) (keeps_load fun s h G hI hG => ?_) ?_
  · cases hm : s.flag .mounted with
    | false => exact ⟨.inside, follows_inside rfl, trivial, rfl⟩
    | true => exact ⟨.mounted, ⟨(by rintro ⟨⟩), rfl, fun _ _ => rfl⟩, hI.recorded.mounted hm, rfl⟩
  rintro mounted _ rfl
  cases mounted with
  | true => exact keeps_ensureRecordingDirs fun _ => ⟨rfl, fun _ => rfl⟩
  | false =>
    refine keeps_then (keeps_writer (runs_load _) rfl) fun storage g hg => ?_
    cases storage with
    | true => exact ⟨hg, (by rintro ⟨⟩)⟩
    | false =>
      refine keeps_then (keeps_writer (runs_allOf (by simp [runs_platform, runs_installMscDriver])) hg) fun card g hg => ?_
      cases card with
      | false => exact ⟨hg, (by rintro ⟨⟩)⟩
      | true =>
        refine keeps_then (keeps_writer runs_createStorage hg) fun created g hg => ?_
        cases created with
        | false => exact keeps_then (keeps_writer (runs_perform _) hg) fun _ g hg => hfailed (runs_op rfl) hg
        | true =>
          refine keeps_then (R := fun _ g' => g' = .mounted) (keeps_wake_op fun s h G hI hG c r s' ha => ?_) ?_
          · obtain ⟨hI', hrestores⟩ := idle_act (hI.inside hG hg) rfl (.inl rfl) ha
            have hmark := hI'.mark (G := Function.update G writer .inside) (t := writer) (k := .mounted) rfl
              ⟨(by rintro ⟨⟩), rfl, fun _ _ => rfl⟩ rfl
            exact ⟨.mounted, by simpa using hmark, hrestores, rfl⟩
          rintro _ _ rfl
          refine hdirs fun dirs => ?_
          cases dirs with
          | true => exact ⟨rfl, fun _ => rfl⟩
          | false => exact hfailed runs_unmount rfl

/-- While it completes the recovery of the Device, the writer may change what is durable but must leave it recoverable. -/
theorem WakeInv.recover (hI : WakeInv s h G) (hG : G writer = g) (hg : g.active = true) (hrec : Recovering s h)
    (hrecorded : Recorded s' h) (hspawned : s'.spawned = s.spawned)
    (hflag : ∀ f ∈ [DeviceFlag.manualResumePending, .driver, .starting, .started], s'.flag f = s.flag f)
    (hdurable : s.nvs.lifecycle.isArmed = true → s'.nvs.lifecycle.isArmed = true)
    (hcomplete : s'.flag .deviceRecoveryComplete = true → s'.nvs.lifecycle = .wakeRecoveryPending ∧ s'.nvs.rtcPending = false)
    (hwritten : s.nvs.rtcPending = true → s'.nvs.rtcPending = true ∨ h.eventWritten = true)
    (hloaded : s'.nvs.rtcPending = true → s'.flag .rtcPending = true) {g' : WakeMark} (hown : g'.Of writer)
    (hfits : g'.Fits s' h) : WakeInv s' h (Function.update G writer g') := by
  have hbase : s.spawned base = true := hI.up writer nofun (.inr (by rw [hG]; exact hg))
  have hearly : ¬ Early s h := fun he => he.not_base hbase
  have hpending : s'.flag .manualResumePending = s.flag .manualResumePending := hflag _ (by decide)
  have hclosed : ¬ usbUp s := fun hup => by simpa [(hI.opened hup).pending] using hrec.pending
  have hother : ∀ t, t ≠ writer → (G t).Fits s' h := by
    intro t ht
    have hm := hI.fits t
    have hmine := hI.own t
    revert hm hmine
    cases G t with
    | fresh | outside | inside => exact fun _ _ => trivial
    | booting | asked | staging | staged | loading | loaded => exact fun hm => absurd hm.1 hearly
    | waiting resume recording id =>
      exact fun hm _ => ⟨by rw [hspawned]; exact hm.1, hpending.trans hm.2.1, hm.2.2⟩
    | proving | wrote => exact fun hm => absurd hm.2.2.1 (by simp [hrec.incomplete])
    | opened => exact fun hm => absurd hrec.pending (by simp [hm.pending])
    | _ => exact fun _ hmine => absurd hmine ht
  have hstart : Function.update G writer g' main = G main := Function.update_of_ne (by decide) ..
  refine ⟨hrecorded, fun t => ?_, fun t => ?_, fun hm => ?_, fun t _ _ => by rw [hspawned]; exact hbase, fun hup => ?_, ?_,
    fun hb => (hI.durable hb).imp_left hdurable, hI.completed, fun _ => ⟨hrec.scanned, hrec.synced, by rw [hspawned]; exact hbase⟩,
    fun hc _ _ => hcomplete hc, fun hb => ?_, fun _ _ => hloaded⟩
  · by_cases ht : t = writer
    · subst ht
      rwa [Function.update_self]
    · rw [Function.update_of_ne ht]
      exact hother t ht
  · by_cases ht : t = writer
    · subst ht
      rwa [Function.update_self]
    · rw [Function.update_of_ne ht]
      exact hI.own t
  · rw [hstart] at hm
    exact absurd (hI.start hm).1 hearly
  · rw [usbUp, hspawned, hflag .driver (by decide), hflag .starting (by decide), hflag .started (by decide)] at hup
    exact absurd hup hclosed
  · rw [hpending]
    exact hI.pending
  · rcases hI.written hb with hpend | hwrote
    · exact hwritten hpend
    · exact Or.inr hwrote

/-- The stored RTC correction is written to the card before its record is cleared. -/
theorem keeps_flushPendingEvent : KeepsWake writer rtcCorrectionFlushPendingEvent
    (fun ok g' => g'.active = true ∧ (ok = true → g' = .flushed)) .recovering := by
  refine keeps_then (R := fun _ g' => g' = .recovering) (keeps_idle (idle_of_runs (runs_load _)) fun _ => rfl) ?_
  rintro lock _ rfl
  cases lock with
  | false => exact ⟨rfl, (by rintro ⟨⟩)⟩
  | true =>
    refine keeps_then (R := fun _ g' => g' = .recovering) (keeps_idle (idle_of_runs (runs_perform _)) fun _ => rfl) ?_
    rintro _ _ rfl
    refine keeps_then (R := fun b g' => g' = if b then .recovering else .flushed) (keeps_load fun s h G hI hG => ?_) ?_
    · have hfits := hI.fits writer
      rw [hG] at hfits
      have hbase : s.spawned base = true := hI.up writer (by rintro ⟨⟩) (.inr (by rw [hG]; rfl))
      cases hm : s.flag .rtcPending with
      | true => exact ⟨.recovering, ⟨(by rintro ⟨⟩), rfl, fun _ _ => rfl⟩, hfits, rfl⟩
      | false =>
        refine ⟨.flushed, ⟨(by rintro ⟨⟩), rfl, fun _ _ => rfl⟩, ⟨hfits, ?_⟩, rfl⟩
        by_contra hnvs
        rw [hI.loaded hbase hfits.pending (by simpa using hnvs)] at hm
        cases hm
    rintro pending _ rfl
    cases pending with
    | false => exact ⟨rfl, fun _ => rfl⟩
    | true =>
      refine keeps_then (R := fun b g' => g' = if b then .written else .recovering)
        (keeps_wake_op fun s h G hI hG c r s' ha => ?_) ?_
      · obtain ⟨hI', hrestores⟩ := idle_act hI rfl (.inl rfl) ha
        have hfits := hI'.fits writer
        rw [hG] at hfits
        cases r with
        | false => exact ⟨.recovering, hI'.mark hG ⟨(by rintro ⟨⟩), rfl, fun _ _ => rfl⟩ hfits, hrestores, rfl⟩
        | true =>
          exact ⟨.written, hI'.mark hG ⟨(by rintro ⟨⟩), rfl, fun _ _ => rfl⟩ ⟨hfits, by simp [BootRecord.acted]⟩, hrestores, rfl⟩
      rintro recovered _ rfl
      cases recovered with
      | false => exact ⟨rfl, (by rintro ⟨⟩)⟩
      | true =>
        refine keeps_then (R := fun b g' => g' = if b then .flushed else .inside)
          (keeps_wake_op fun s h G hI hG c r s' ha => ?_) ?_
        · have hfits := hI.fits writer
          rw [hG] at hfits
          obtain ⟨hrec, hwrote⟩ := hfits
          have hrecorded : Recorded s' h := recorded_act hI.recorded ha (by rintro _ ⟨⟩)
          obtain rfl | ⟨rfl, rfl⟩ := Capsule.write_eq (Option.some.inj ha)
          · refine ⟨if r then .flushed else .inside, hI.recover hG rfl hrec hrecorded rfl (fun _ _ => rfl) id (fun hc => ?_)
              (fun _ => Or.inr hwrote) (by rintro ⟨⟩) ?_ ?_, Or.inl, rfl⟩
            · exact absurd hc (by simp [hrec.incomplete])
            · cases r <;> trivial
            · cases r with
              | true => exact ⟨⟨hrec.scanned, hrec.synced, hrec.pending, hrec.incomplete⟩, rfl⟩
              | false => trivial
          · exact ⟨.inside, hI.inside hG rfl, Or.inl, rfl⟩
        rintro cleared _ rfl
        cases cleared with
        | false => exact ⟨rfl, (by rintro ⟨⟩)⟩
        | true =>
          refine keeps_then (R := fun _ g' => g' = .flushed) (keeps_wake_op fun s h G hI hG c r s' ha => ?_) ?_
          · have hfits := hI.fits writer
            rw [hG] at hfits
            obtain ⟨hrec, hcleared⟩ := hfits
            have hrecorded : Recorded s' h := recorded_act hI.recorded ha (by rintro _ ⟨⟩)
            obtain ⟨rfl, rfl⟩ := Prod.mk.inj (Option.some.inj ha)
            have hflag : ∀ f, f ≠ .rtcPending → (s.set .rtcPending false).flag f = s.flag f := fun f hf => by
              rw [Capsule.flag_set, if_neg hf]
            refine ⟨.flushed, hI.recover hG rfl hrec hrecorded rfl (fun f hf => hflag f ?_) id (fun hc => ?_) Or.inl
              (fun hn => ?_) rfl ?_, Or.inl, rfl⟩
            · rintro rfl
              exact absurd hf (by decide)
            · rw [hflag .deviceRecoveryComplete (by rintro ⟨⟩), hrec.incomplete] at hc
              cases hc
            · exact absurd hn (by simpa using hcleared)
            · exact ⟨⟨hrec.scanned, hrec.synced, (hflag .manualResumePending (by rintro ⟨⟩)).trans hrec.pending,
                (hflag .deviceRecoveryComplete (by rintro ⟨⟩)).trans hrec.incomplete⟩, hcleared⟩
          · rintro _ _ rfl
            exact ⟨rfl, fun _ => rfl⟩

theorem keeps_markWakeRecoveryPending : KeepsWake writer shutdownArmedMarkWakeRecoveryPending
    (fun ok g' => g'.active = true ∧ (ok = true → g' = .marked)) .flushed := by
  refine keeps_then (R := fun l g' => g' = if l = some .wakeRecoveryPending then .marked else .flushed)
    (keeps_look fun s h G hI hG c r s' ha => ?_) ?_
  · have hfits := hI.fits writer
    rw [hG] at hfits
    obtain ⟨rfl, rfl⟩ := Prod.mk.inj (Option.some.inj ha)
    refine ⟨rfl, rfl, ?_⟩
    by_cases hpending : (if c.ok then some s.nvs.lifecycle else none) = some .wakeRecoveryPending
    · refine ⟨.marked, ⟨(by rintro ⟨⟩), rfl, fun _ _ => rfl⟩, ⟨hfits.1, hfits.2, ?_⟩, (if_pos hpending).symm⟩
      exact Option.some.inj (Option.ite_none_right_eq_some.mp hpending).2
    · exact ⟨.flushed, ⟨(by rintro ⟨⟩), rfl, fun _ _ => rfl⟩, hfits, (if_neg hpending).symm⟩
  rintro (_ | l) _ rfl
  · exact ⟨rfl, (by rintro ⟨⟩)⟩
  cases l with
  | normal | hostUnresolved => exact ⟨rfl, (by rintro ⟨⟩)⟩
  | wakeRecoveryPending => exact ⟨rfl, fun _ => rfl⟩
  | armed =>
    refine keeps_wake_op fun s h G hI hG c r s' ha => ?_
    have hfits := hI.fits writer
    rw [hG] at hfits
    obtain ⟨hrec, hcleared⟩ := hfits
    have hbase : s.spawned base = true := hI.up writer (by rintro ⟨⟩) (.inr (by rw [hG]; rfl))
    have hacted : h.acted (.nvsWrite .wakeRecoveryPending) r = h := by simp [BootRecord.acted]
    have hrecorded := recorded_act hI.recorded ha (by rintro _ ⟨⟩)
    rw [hacted] at hrecorded ⊢
    obtain rfl | ⟨rfl, rfl⟩ := Capsule.write_eq (Option.some.inj ha)
    · refine ⟨if r then .marked else .inside, hI.recover hG rfl hrec hrecorded rfl (fun _ _ => rfl) (fun _ => rfl) (fun hc => ?_)
        Or.inl (fun hn => ?_) ?_ ?_, (by rintro ⟨⟩), ?_, fun hr => if_pos hr⟩
      · exact absurd hc (by simp [hrec.incomplete])
      · exact absurd hn (by simp [hcleared])
      · cases r <;> trivial
      · cases r with
        | true => exact ⟨⟨hrec.scanned, hrec.synced, hrec.pending, hrec.incomplete⟩, hcleared, rfl⟩
        | false => trivial
      · cases r <;> rfl
    · exact ⟨.inside, hI.inside hG rfl, Or.inl, rfl, (by rintro ⟨⟩)⟩

theorem keeps_completeDeviceRecovery : KeepsWake writer task87WakeRecoveryCompleteDeviceRecovery
    (fun _ g' => g'.active = true) .resuming := by
  refine keeps_then (R := fun refused g' => g' = if refused then .resuming else .recovering) ?_ ?_
  · refine keeps_then (R := fun _ g' => g' = .resuming) (keeps_idle (idle_of_runs (runs_isClear _)) fun _ => rfl) ?_
    rintro clear _ rfl
    cases clear with
    | true => exact rfl
    | false =>
      refine keeps_then (R := fun done g' => g' = if done then .resuming else .recovering) (keeps_load fun s h G hI hG => ?_) ?_
      · have hfits := hI.fits writer
        rw [hG] at hfits
        cases hm : s.flag .deviceRecoveryComplete with
        | true => exact ⟨.resuming, ⟨(by rintro ⟨⟩), rfl, fun _ _ => rfl⟩, hfits, rfl⟩
        | false =>
          refine ⟨.recovering, ⟨(by rintro ⟨⟩), rfl, fun _ _ => rfl⟩, ⟨hfits.1, hfits.2.1, hfits.2.2.resolve_right ?_, hm⟩, rfl⟩
          simp [hm]
      · rintro done _ rfl
        cases done <;> exact rfl
  rintro refused _ rfl
  cases refused with
  | true => exact rfl
  | false =>
    refine keeps_then (R := fun done g' => g'.active = true ∧ (done = true → g' = .marked)) ?_ ?_
    · refine keeps_then keeps_flushPendingEvent fun flushed g hg => ?_
      cases flushed with
      | false => exact ⟨hg.1, (by rintro ⟨⟩)⟩
      | true =>
        rw [hg.2 rfl]
        refine keeps_then keeps_markWakeRecoveryPending fun done g hg => ?_
        cases done with
        | false => exact ⟨hg.1, (by rintro ⟨⟩)⟩
        | true => exact hg
    rintro done g ⟨hg, hmarked⟩
    cases done with
    | false => exact hg
    | true =>
      obtain rfl := hmarked rfl
      refine keeps_then (R := fun _ g' => g' = .inside) (keeps_wake_op fun s h G hI hG c r s' ha => ?_) ?_
      · have hfits := hI.fits writer
        rw [hG] at hfits
        obtain ⟨hrec, hcleared, hpending⟩ := hfits
        have hrecorded : Recorded s' h := recorded_act hI.recorded ha (by rintro _ ⟨⟩)
        obtain ⟨rfl, rfl⟩ := Prod.mk.inj (Option.some.inj ha)
        refine ⟨.inside, hI.recover hG rfl hrec hrecorded rfl (fun f hf => ?_) id (fun _ => ⟨hpending, hcleared⟩) Or.inl
          (fun hn => ?_) trivial trivial, Or.inl, rfl⟩
        · rw [Capsule.flag_set, if_neg (by rintro rfl; exact absurd hf (by decide))]
        · exact absurd hn (by simp [hcleared])
      · rintro _ _ rfl
        exact rfl

theorem keeps_manifestSync (deviceId now : Bytes) : KeepsWake writer (recorderTask87ManifestSyncWavDir deviceId now)
    (fun _ g' => g'.active = true) .scanned := by
  refine keeps_then (R := fun ok g' => g' = if ok then .synced else .scanned)
    (keeps_wake_op fun s h G hI hG c r s' ha => ?_) ?_
  · obtain ⟨hI', hrestores⟩ := idle_act hI rfl (.inl rfl) ha
    have hfits := hI'.fits writer
    rw [hG] at hfits
    cases r with
    | false => exact ⟨.scanned, hI'.mark hG ⟨(by rintro ⟨⟩), rfl, fun _ _ => rfl⟩ hfits, hrestores, rfl⟩
    | true =>
      have hscanned : h.scanned = true := hfits
      exact ⟨.synced, hI'.mark hG ⟨(by rintro ⟨⟩), rfl, fun _ _ => rfl⟩ ⟨hfits, by simp [BootRecord.acted, hscanned]⟩, hrestores, rfl⟩
  rintro ok _ rfl
  cases ok with
  | false => exact rfl
  | true =>
    refine keeps_then (R := fun pending g' => g' = if pending then .resuming else .synced) (keeps_load fun s h G hI hG => ?_) ?_
    · have hfits := hI.fits writer
      rw [hG] at hfits
      cases hm : s.flag .manualResumePending with
      | true => exact ⟨.resuming, ⟨(by rintro ⟨⟩), rfl, fun _ _ => rfl⟩, ⟨hfits.1, hfits.2, .inl hm⟩, rfl⟩
      | false => exact ⟨.synced, ⟨(by rintro ⟨⟩), rfl, fun _ _ => rfl⟩, hfits, rfl⟩
    rintro pending _ rfl
    cases pending with
    | false => exact rfl
    | true => exact keeps_completeDeviceRecovery

theorem keeps_writerOp {o : WriterOp} {Q : o.Ans → WakeMark → Prop} (hp : KeepsWake writer (writerCall o) Q g) :
    KeepsWake writer ((Writer.op o).interp writerCall) Q g := keeps_then hp fun _ _ hQ => hQ

theorem keeps_require {α : Type} {step : Writer Bool} {reason : RecorderReason} {rest : Writer (Except RecorderReason α)}
    {m : WakeMark} {Q : Except RecorderReason α → WakeMark → Prop}
    (hstep : KeepsWake writer (step.interp writerCall) (fun ok g' => g'.active = true ∧ (ok = true → g' = m)) g)
    (hQ : ∀ g', g'.active = true → Q (.error reason) g') (hrest : KeepsWake writer (rest.interp writerCall) Q m) :
    KeepsWake writer ((require step reason rest).interp writerCall) Q g := by
  rw [require, Prog.interp_bind]
  refine keeps_then hstep fun ok g' hg' => ?_
  cases ok with
  | false => exact hQ g' hg'.1
  | true =>
    obtain rfl := hg'.2 rfl
    exact hrest

theorem keeps_writerPrepare : KeepsWake writer (writerPrepare.interp writerCall) (fun _ g' => g'.active = true) .mounted := by
  have hcard {o : WriterOp} {Q : o.Ans → WakeMark → Prop} (hidle : Idle (writerCall o)) (hQ : ∀ a, Q a .mounted) :
      KeepsWake writer ((Writer.op o).interp writerCall) Q .mounted := keeps_writerOp (keeps_idle hidle hQ)
  refine keeps_require (m := .mounted) (hcard (idle_transitionState ..) fun _ => ⟨rfl, fun _ => rfl⟩) (fun _ => id) ?_
  rw [Prog.interp_bind]
  refine keeps_then (R := fun _ g' => g' = .mounted) (hcard (idle_op ⟨rfl, rfl⟩) fun _ => rfl) ?_
  rintro (_ | deviceId) _ rfl
  · exact rfl
  refine keeps_require (m := .mounted) (hcard (idle_op ⟨rfl, rfl⟩) fun _ => ⟨rfl, fun _ => rfl⟩) (fun _ => id) ?_
  refine keeps_require (m := .mounted) ?_ (fun _ => id) ?_
  · rw [recorderEnsureManifestExists, Prog.interp_bind]
    refine keeps_then (R := fun _ g' => g' = .mounted) (hcard (idle_op ⟨rfl, rfl⟩) fun _ => rfl) ?_
    rintro w _ rfl
    cases recorderCurrentIso8601 w with
    | none => exact ⟨rfl, fun _ => rfl⟩
    | some now => exact hcard (idle_op ⟨rfl, rfl⟩) fun _ => ⟨rfl, fun _ => rfl⟩
  refine keeps_require (m := .mounted) (hcard ?_ fun _ => ⟨rfl, fun _ => rfl⟩) (fun _ => id) ?_
  · exact idle_of_runs (runs_usable.bind fun _ => runs_ite (.ret _) (runs_platform _))
  refine keeps_require (m := .scanned) (keeps_writerOp (keeps_wake_op fun s h G hI hG c r s' ha => ?_)) (fun _ => id) ?_
  · obtain ⟨hI', hrestores⟩ := idle_act hI rfl (.inl rfl) ha
    have hmounted := hI.fits writer
    rw [hG] at hmounted
    change h.mounted = true at hmounted
    cases r with
    | false => exact ⟨.inside, hI'.inside hG rfl, hrestores, rfl, (by rintro ⟨⟩)⟩
    | true =>
      refine ⟨.scanned, hI'.mark hG ⟨(by rintro ⟨⟩), rfl, fun _ _ => rfl⟩ ?_, hrestores, rfl, fun _ => rfl⟩
      simp [WakeMark.Fits, BootRecord.acted, hmounted]
  rw [require, Prog.interp_bind]
  refine keeps_then (R := fun _ g' => g'.active = true) ?_ fun ok g hg => ?_
  · rw [recorderSyncManifest, Prog.interp_bind]
    refine keeps_then (R := fun _ g' => g' = .scanned) (keeps_writerOp (keeps_idle (idle_op ⟨rfl, rfl⟩) fun _ => rfl)) ?_
    rintro w _ rfl
    cases recorderCurrentIso8601 w with
    | none => exact rfl
    | some now => exact keeps_writerOp (keeps_manifestSync deviceId now)
  cases ok with
  | false => exact hg
  | true =>
    refine keeps_writer (Only.interp (P := fun o => o.prepares = false) ?_ runs_recordingCall) hg
    refine (records_nextSegment deviceId .blank).bind fun next => ?_
    obtain ⟨r, seg⟩ := next
    cases r <;> exact .ret _

theorem keeps_writerTask (fuel : ℕ) : KeepsWake writer (deviceWriterTask fuel) (fun _ g' => g'.active = true) .inside := by
  have hends {α : Type} {p : Writer α} {g : WakeMark} (hp : Only (fun o => writer.Runs (writerCall o)) p)
      (hg : g.active = true) : KeepsWake writer (p.interp writerCall) (fun _ g' => g'.active = true) g :=
    keeps_writer (hp.interp fun _ ho => ho) hg
  have hcall {o : WriterOp} (ho : writer.Runs (writerCall o)) : Only (fun o => writer.Runs (writerCall o)) (Writer.op o) :=
    .call o _ ho .ret
  have hevents (ready : Bool) : writer.Runs (writerCall (.setEventsReady ready)) :=
    (runs_load _).bind fun _ => runs_onlyIf (runs_op rfl)
  have hleave : Only (fun o => writer.Runs (writerCall o))
      (do Writer.op (.setEventsReady false); Writer.op .unmount; return TaskStatus.deleted) :=
    (hcall (hevents false)).bind fun _ => (hcall (o := .unmount) runs_unmount).bind fun _ => .ret _
  refine keeps_then (R := fun _ g' => g'.active = true) ?_ fun status g hg => ?_
  · rw [recorderWriterTask, Prog.interp_bind]
    refine keeps_then (keeps_writerOp keeps_mountRecordings) fun mounted g hg => ?_
    cases mounted with
    | false => exact hends ((hcall (runs_enterError _)).bind fun _ => .ret _) hg.1
    | true =>
      rw [hg.2 rfl, if_neg (by decide), Prog.interp_bind]
      refine keeps_then (R := fun _ g' => g' = .mounted) (keeps_writerOp (keeps_idle ?_ fun _ => rfl)) ?_
      · refine (idle_of_runs (runs_load _)).bind fun lock => ?_
        cases lock with
        | false => exact .ret _
        | true => exact idle_op ⟨rfl, rfl⟩
      rintro _ _ rfl
      rw [Prog.interp_bind]
      refine keeps_then keeps_writerPrepare fun prepared g hg => ?_
      cases prepared with
      | error reason => exact hends ((hcall (runs_enterError _)).bind fun _ => hleave) hg
      | ok prepared =>
        refine hends ((hcall (runs_op rfl)).bind fun _ => ?_) hg
        refine ((records_writerLoop prepared.1 fuel prepared.2).mono runs_recordingCall).bind fun r => ?_
        cases r with
        | none => exact .ret _
        | some seg => exact ((records_finishSegment _ seg).mono runs_recordingCall).bind fun _ => hleave
  · cases status with
    | running => exact keeps_writer runs_halt hg
    | deleted => exact keeps_writer (runs_task49Delete rfl) hg

end Writer

section Main

/-- While nothing else runs, `app_main` prepares the boot. -/
theorem WakeInv.early (hI : WakeInv s h G) (he : Early s h) (hrecorded : Recorded s' h') (hbegan : s'.nvs = h'.began)
    (hcompleted : h'.completed = false)
    (hspawned : ∀ u, u ≠ base → s'.spawned u = s.spawned u)
    (hflag : ∀ f ∈ [DeviceFlag.driver, .starting, .started], s'.flag f = s.flag f)
    (hcomplete : s'.flag .deviceRecoveryComplete = true → s.flag .deviceRecoveryComplete = true)
    (hpending : s'.flag .manualResumePending = true → h'.manualWake = true ∧ h'.began.lifecycle.isArmed = true)
    (hloaded : s'.spawned base = true → s'.flag .manualResumePending = true → s'.nvs.rtcPending = true →
      s'.flag .rtcPending = true) {g' : WakeMark} (hstarted : g' ≠ .fresh) (hown : g'.Of main) (hfits : g'.Fits s' h') :
    WakeInv s' h' (Function.update G main g') := by
  have hclosed : ¬ usbUp s := fun hup => he.not_base (hI.opened hup).base
  have hother : ∀ t, t ≠ main → (G t).active = false := fun t ht => by
    by_contra hactive
    exact he.not_base (hI.up t ht (.inr (by simpa using hactive)))
  have hincomplete : s'.flag .deviceRecoveryComplete ≠ true := fun hc => he.not_base (hI.complete (hcomplete hc)).2.2
  refine ⟨hrecorded, fun t => ?_, fun t => ?_, fun hm => ?_, fun t ht hor => ?_, fun hup => ?_, hpending, fun hb => ?_,
    fun hc => ?_, fun hc => absurd hc hincomplete, fun hc => absurd hc hincomplete, fun hb => ?_, hloaded⟩
  · by_cases ht : t = main
    · subst ht
      rwa [Function.update_self]
    · rw [Function.update_of_ne ht]
      have hactive := hother t ht
      revert hactive
      cases G t <;> first | exact fun _ => trivial | rintro ⟨⟩
  · by_cases ht : t = main
    · subst ht
      rwa [Function.update_self]
    · rw [Function.update_of_ne ht]
      exact hI.own t
  · rw [Function.update_self] at hm
    exact absurd hm hstarted
  · rw [Function.update_of_ne ht, hother t ht] at hor
    by_cases hb : t = base
    · subst hb
      exact hor.resolve_right (by rintro ⟨⟩)
    · rw [hspawned t hb] at hor
      exact absurd (hI.up t ht (hor.imp_right (by rintro ⟨⟩))) he.not_base
  · rw [usbUp, hspawned usb (by rintro ⟨⟩), hspawned cdc (by rintro ⟨⟩), hflag .driver (by decide), hflag .starting (by decide),
      hflag .started (by decide)] at hup
    exact absurd hup hclosed
  · rw [hbegan]
    exact Or.inl hb
  · rw [hcompleted] at hc
    cases hc
  · rw [hbegan]
    exact Or.inl hb

theorem keeps_manualWake : KeepsWake main (.op .manualWake) (fun r g' => g' = (r.map WakeMark.asked).getD .booting) .booting := by
  refine keeps_wake_op fun s h G hI hG c r s' ha => ?_
  have hfits := hI.fits main
  rw [hG] at hfits
  obtain ⟨he, hpending⟩ := hfits
  have hrecorded := recorded_act hI.recorded ha fun _ => nofun
  obtain ⟨-, rfl⟩ := Prod.mk.inj (Option.some.inj ha)
  cases r with
  | none => exact ⟨.booting, hI.mark hG ⟨nofun, rfl, fun _ _ => rfl⟩ ⟨he, hpending⟩, Or.inl, rfl⟩
  | some b =>
    refine ⟨.asked b, hI.early he hrecorded he.nvs he.completed (fun _ _ => rfl) (fun _ _ => rfl) id (fun hp => ?_)
      (fun hb => absurd hb he.not_base) nofun rfl ⟨⟨he.base, he.nvs, he.attempted, he.completed⟩, hpending, rfl⟩, Or.inl, rfl⟩
    rw [hpending] at hp
    cases hp

theorem keeps_bootAction (b : Bool) : KeepsWake main (shutdownArmedBootAction b)
    (fun action g' => ∀ a, action = some a → a ≠ .staysShutdown → g' = .staging a) (.asked b) := by
  refine keeps_then (R := fun l g' => ∀ a, l.map (Lifecycle.bootAction b) = some a → a ≠ .staysShutdown → g' = .staging a)
    (keeps_look fun s h G hI hG c r s' ha => ?_) ?_
  case refine_2 => exact fun l g hg => hg
  have hfits := hI.fits main
  rw [hG] at hfits
  obtain ⟨he, hpending, hwake⟩ := hfits
  obtain ⟨hr, rfl⟩ := Prod.mk.inj (Option.some.inj ha)
  refine ⟨rfl, rfl, ?_⟩
  by_cases hstays : r.map (Lifecycle.bootAction b) = none ∨ r.map (Lifecycle.bootAction b) = some .staysShutdown
  · refine ⟨.asked b, ⟨nofun, rfl, fun _ _ => rfl⟩, ⟨he, hpending, hwake⟩, fun a haction hne => ?_⟩
    rw [haction] at hstays
    simp [hne] at hstays
  · have hstate : r = some h.began.lifecycle := by
      rw [← he.nvs, ← hr]
      cases hok : c.ok with
      | true => rfl
      | false => exact absurd (Or.inl (by rw [← hr, hok]; rfl)) hstays
    rw [hstate, Option.map_some] at hstays ⊢
    refine ⟨.staging (h.began.lifecycle.bootAction b), ⟨nofun, rfl, fun _ _ => rfl⟩, ⟨he, hpending, ⟨fun haction => ?_, fun hne => ?_⟩⟩,
      fun a haction _ => by rw [Option.some.inj haction]⟩
    · rw [hwake]
      revert haction
      cases h.began.lifecycle <;> cases b <;> decide
    · simp only [reduceCtorEq, Option.some.injEq, false_or] at hstays
      revert hne hstays
      cases h.began.lifecycle <;> cases b <;> decide

theorem keeps_wakeRecoveryInit (action : BootAction) : KeepsWake main (task87WakeRecoveryInit (action = .manualResume))
    (fun _ g' => g' = .staged action) (.staging action) := by
  refine keeps_then (R := fun _ g' => g' = .staged action) (keeps_wake_op fun s h G hI hG c r s' ha => ?_) ?_
  · have hfits := hI.fits main
    rw [hG] at hfits
    obtain ⟨he, hpending, hdecided⟩ := hfits
    have hrecorded := recorded_act hI.recorded ha fun _ => nofun
    obtain ⟨-, rfl⟩ := Prod.mk.inj (Option.some.inj ha)
    refine ⟨.staged action, hI.early he hrecorded he.nvs he.completed (fun _ _ => rfl) (fun f hf => ?_) ?_ (fun hp => ?_)
      (fun hb => absurd hb he.not_base) nofun rfl ⟨⟨he.base, he.nvs, he.attempted, he.completed⟩, ?_, hdecided⟩, Or.inl, rfl⟩
    · rw [Capsule.flag_set, if_neg (by rintro rfl; exact absurd hf (by decide))]
    · rw [Capsule.flag_set, if_neg nofun]
      exact id
    · rw [Capsule.flag_set, if_pos rfl] at hp
      exact hdecided.resume (by simpa using hp)
    · rw [Capsule.flag_set, if_pos rfl]
  rintro _ _ rfl
  refine keeps_then (R := fun _ g' => g' = .staged action) (keeps_wake_op fun s h G hI hG c r s' ha => ?_) ?_
  · have hfits := hI.fits main
    rw [hG] at hfits
    obtain ⟨he, hpending, hdecided⟩ := hfits
    have hrecorded := recorded_act hI.recorded ha fun _ => nofun
    obtain ⟨-, rfl⟩ := Prod.mk.inj (Option.some.inj ha)
    refine ⟨.staged action, hI.early he hrecorded he.nvs he.completed (fun _ _ => rfl) (fun f hf => ?_) (fun hc => ?_) ?_
      (fun hb => absurd hb he.not_base) nofun rfl ⟨⟨he.base, he.nvs, he.attempted, he.completed⟩, ?_, hdecided⟩, Or.inl, rfl⟩
    · rw [Capsule.flag_set, if_neg (by rintro rfl; exact absurd hf (by decide))]
    · rw [Capsule.flag_set, if_pos rfl] at hc
      cases hc
    · rw [Capsule.flag_set, if_neg nofun]
      exact hI.pending
    · rw [Capsule.flag_set, if_neg nofun]
      exact hpending
  rintro _ _ rfl
  exact keeps_idle (idle_op ⟨rfl, rfl⟩) fun _ => rfl

/-- The stored record of an RTC correction is in memory before the recorder starts. -/
theorem keeps_rtcCorrectionInit : KeepsWake main rtcCorrectionInit (fun ok g' => ok = true → g' = .loaded)
    (.staged .manualResume) := by
  have hidle {β : Type} {p : DeviceProg Bool} {f : Bool → DeviceProg β} {Q : β → WakeMark → Prop} (hp : Idle p)
      (hf : ∀ b, KeepsWake main (f b) Q (.staged .manualResume)) : KeepsWake main (p >>= f) Q (.staged .manualResume) :=
    keeps_then (keeps_idle (Q := fun _ g' => g' = .staged .manualResume) hp fun _ => rfl) fun b _ hg => hg ▸ hf b
  refine hidle (idle_of_runs (runs_platform _)) fun ready => ?_
  cases ready with
  | false => rintro ⟨⟩
  | true =>
    refine hidle (idle_of_runs (runs_load _)) fun lock => hidle ?_ fun made => ?_
    · exact idle_of_runs (runs_ite (.ret _) (runs_platform _))
    cases made with
    | false => rintro ⟨⟩
    | true =>
      refine keeps_then (R := fun _ g' => g' = .staged .manualResume) (keeps_idle (idle_op ⟨rfl, rfl⟩) fun _ => rfl) ?_
      rintro _ _ rfl
      refine keeps_then (R := fun r g' => ∀ b, r = some b → g' = .loading b) (keeps_look fun s h G hI hG c r s' ha => ?_) ?_
      · have hfits := hI.fits main
        rw [hG] at hfits
        obtain ⟨he, hpending, hdecided⟩ := hfits
        obtain ⟨rfl, rfl⟩ := Prod.mk.inj (Option.some.inj ha)
        refine ⟨rfl, rfl, .loading s.nvs.rtcPending, ⟨(by rintro ⟨⟩), rfl, fun _ _ => rfl⟩, ⟨he, hpending, hdecided, rfl⟩, fun b hb => ?_⟩
        rw [Option.some.inj (Option.ite_none_right_eq_some.mp hb).2]
      rintro (_ | pending) g hg
      · rintro ⟨⟩
      · obtain rfl := hg pending rfl
        refine keeps_then (R := fun _ g' => g' = .loaded) (keeps_wake_op fun s h G hI hG c r s' ha => ?_) fun _ _ hg _ => hg
        have hfits := hI.fits main
        rw [hG] at hfits
        obtain ⟨he, hpending, hdecided, hloading⟩ := hfits
        have hrecorded := recorded_act hI.recorded ha (by rintro _ ⟨⟩)
        obtain ⟨-, rfl⟩ := Prod.mk.inj (Option.some.inj ha)
        refine ⟨.loaded, hI.early he hrecorded he.nvs he.completed (fun _ _ => rfl) (fun f hf => ?_) ?_ ?_
          (fun hb => absurd hb he.not_base) (by rintro ⟨⟩) rfl
          ⟨⟨he.base, he.nvs, he.attempted, he.completed⟩, ?_, hdecided, fun hn => ?_⟩, Or.inl, rfl⟩
        · rw [Capsule.flag_set, if_neg (by rintro rfl; exact absurd hf (by decide))]
        · rw [Capsule.flag_set, if_neg (by rintro ⟨⟩)]
          exact id
        · rw [Capsule.flag_set, if_neg (by rintro ⟨⟩)]
          exact hI.pending
        · rw [Capsule.flag_set, if_neg (by rintro ⟨⟩)]
          exact hpending
        · rw [Capsule.flag_set, if_pos rfl, ← hloading]
          exact hn

/-- The first task of the recorder is spawned once the record of the wake recovery is in place. -/
theorem keeps_spawnBase {action : BootAction}
    (hg : g = .staged action ∧ action ≠ .manualResume ∨ g = .loaded ∧ action = .manualResume) :
    KeepsWake main (spawn .base) (fun ok g' => ok = true → g' = .waiting (decide (action = .manualResume)) false false) g := by
  refine keeps_wake_op fun s h G hI hG c r s' ha => ?_
  have hfits := hI.fits main
  rw [hG] at hfits
  have hrecorded := recorded_act hI.recorded ha (by rintro _ ⟨⟩)
  obtain ⟨rfl, rfl⟩ := Prod.mk.inj (Option.some.inj ha)
  cases hok : c.ok with
  | false => exact ⟨g, by rw [← hG, Function.update_eq_self]; exact hI, Or.inl, (by rintro ⟨⟩)⟩
  | true =>
    rw [hok] at hrecorded
    rw [if_pos rfl] at hrecorded ⊢
    obtain ⟨he, hpending, hdecided, hloaded⟩ : Early s h ∧ s.flag .manualResumePending = decide (action = .manualResume) ∧
        Decided h action ∧ (s.flag .manualResumePending = true → s.nvs.rtcPending = true → s.flag .rtcPending = true) := by
      rcases hg with ⟨rfl, hnormal⟩ | ⟨rfl, rfl⟩
      · refine ⟨hfits.1, hfits.2.1, hfits.2.2, fun hp => ?_⟩
        rw [hfits.2.1] at hp
        exact absurd (by simpa using hp) hnormal
      · exact ⟨hfits.1, hfits.2.1, hfits.2.2.1, fun _ => hfits.2.2.2⟩
    have hbase : Function.update s.spawned base true base = true := Function.update_self ..
    refine ⟨.waiting (decide (action = .manualResume)) false false, hI.early he hrecorded he.nvs he.completed
      (fun u hu => Function.update_of_ne hu ..) (fun _ _ => rfl) id hI.pending (fun _ => hloaded) (by rintro ⟨⟩) rfl
      ⟨hbase, hpending, fun hnormal => ?_, he.attempted, (by rintro ⟨⟩), (by rintro ⟨⟩)⟩, Or.inl, fun _ => rfl⟩
    exact hdecided.normal (by simpa using hnormal)

theorem keeps_currentState {resume recording id : Bool} : KeepsWake main recorderCurrentState
    (fun state g' => ∃ recording', (state = .recording → recording' = true) ∧ g' = .waiting resume recording' id)
    (.waiting resume recording id) := by
  refine keeps_then (R := fun _ g' => g' = .waiting resume recording id) (keeps_idle (idle_of_runs (runs_load _)) fun _ => rfl) ?_
  rintro lock _ rfl
  cases lock with
  | false => exact ⟨recording, nofun, rfl⟩
  | true =>
    refine keeps_look fun s h G hI hG c r s' ha => ?_
    have hfits := hI.fits main
    rw [hG] at hfits
    obtain ⟨hbase, hresume, hnormal, hattempted, -, hfresh⟩ := hfits
    obtain ⟨rfl, rfl⟩ := Prod.mk.inj (Option.some.inj ha)
    refine ⟨rfl, rfl, .waiting resume (decide (s.machine.state = .recording)) id, ⟨nofun, rfl, fun _ _ => rfl⟩,
      ⟨hbase, hresume, hnormal, hattempted, fun hr => hI.recorded.recording (by simpa using hr), hfresh⟩, _,
      fun hr => by simpa using hr, rfl⟩

/-- After the recovery of the Device, `app_main` completes the lifecycle. -/
theorem WakeInv.restore (hI : WakeInv s h G) (hbase : s.spawned base = true) (hpending : s.flag .manualResumePending = true)
    (hcomplete : s.flag .deviceRecoveryComplete = true) (hrecorded : Recorded s' h') (hrecovered : h'.Recovered)
    (hgrows : h.Grows h') (hwake : h'.manualWake = h.manualWake) (hmounted : h.mounted = true → h'.mounted = true)
    (hspawned : s'.spawned = s.spawned) (hrtc : s'.nvs.rtcPending = s.nvs.rtcPending)
    (hflag : ∀ f ∈ [DeviceFlag.deviceRecoveryComplete, .rtcPending, .driver, .starting, .started], s'.flag f = s.flag f)
    (hready : s'.flag .manualResumePending = true → h'.attempted = true) {g' : WakeMark} (hstarted : g' ≠ .fresh)
    (hown : g'.Of main) (hfits : g'.Fits s' h') : WakeInv s' h' (Function.update G main g') := by
  have hearly : ¬ Early s h := fun he => he.not_base hbase
  have hbase' : s'.spawned base = true := by rw [hspawned]; exact hbase
  have hcomplete' : s'.flag .deviceRecoveryComplete = true := (hflag _ (by decide)).trans hcomplete
  have hclosed : ¬ usbUp s := fun hup => by simp [(hI.opened hup).pending] at hpending
  have hother : ∀ t, t ≠ main → (G t).Fits s' h' := by
    intro t ht
    have hm := hI.fits t
    have hmine := hI.own t
    revert hm hmine
    cases G t with
    | fresh | outside | inside => exact fun _ _ => trivial
    | opened => exact fun hm => absurd hpending (by simp [hm.pending])
    | mounted => exact fun hm _ => hmounted hm
    | scanned => exact fun hm _ => hgrows.scanned hm
    | synced => exact fun hm _ => ⟨hgrows.scanned hm.1, hgrows.synced hm.2⟩
    | resuming => exact fun hm _ => ⟨hgrows.scanned hm.1, hgrows.synced hm.2.1, .inr hcomplete'⟩
    | recovering => exact fun hm => absurd hcomplete (by simp [hm.incomplete])
    | written | flushed | marked => exact fun hm => absurd hcomplete (by simp [hm.1.incomplete])
    | _ => exact fun _ hmine => absurd hmine ht
  refine ⟨hrecorded, fun t => ?_, fun t => ?_, fun hm => ?_, fun _ _ _ => hbase', fun hup => ?_, fun _ => ?_,
    fun _ => Or.inr hrecovered, fun _ => hrecovered, fun _ => ?_, fun _ hp hattempted => ?_,
    fun hb => Or.inr (hrecovered.flushed hb), fun _ _ hn => ?_⟩
  · by_cases ht : t = main
    · subst ht
      rwa [Function.update_self]
    · rw [Function.update_of_ne ht]
      exact hother t ht
  · by_cases ht : t = main
    · subst ht
      rwa [Function.update_self]
    · rw [Function.update_of_ne ht]
      exact hI.own t
  · rw [Function.update_self] at hm
    exact absurd hm hstarted
  · rw [usbUp, hspawned, hflag .driver (by decide), hflag .starting (by decide), hflag .started (by decide)] at hup
    exact absurd hup hclosed
  · rw [hwake, hgrows.began]
    exact hI.pending hpending
  · exact ⟨hgrows.scanned (hI.complete hcomplete).1, hgrows.synced (hI.complete hcomplete).2.1, hbase'⟩
  · rw [hready hp] at hattempted
    cases hattempted
  · rw [hrtc] at hn
    exact (hflag _ (by decide)).trans (hI.loaded hbase hpending hn)

theorem keeps_completeWakeRecovery : KeepsWake main shutdownArmedCompleteWakeRecovery
    (fun ok g' => ok = true → g' = .wrote true) (.proving true) := by
  refine keeps_then (R := fun _ g' => g' = .proving true) (keeps_idle (idle_of_runs (runs_op rfl)) fun _ => rfl) ?_
  rintro (_ | l) _ rfl
  · rintro ⟨⟩
  cases l with
  | normal | hostUnresolved | armed => rintro ⟨⟩
  | wakeRecoveryPending =>
    refine keeps_wake_op fun s h G hI hG c r s' ha => ?_
    have hfits := hI.fits main
    rw [hG] at hfits
    obtain ⟨hbase, hpending, hcomplete, hattempted, hrecording, hfresh⟩ := hfits
    obtain ⟨hlifecycle, hcleared⟩ := hI.ready hcomplete hpending hattempted
    have hgrows := h.grows_acted (.nvsWrite .normal) r
    have hflushed : h.began.rtcPending = true → h.eventWritten = true := fun hb =>
      (hI.written hb).resolve_left (by simp [hcleared])
    have hrecovered : (h.acted (.nvsWrite .normal) r).Recovered :=
      BootRecord.Recovered.mono ⟨(hI.pending hpending).1, (hI.complete hcomplete).1, (hI.complete hcomplete).2.1, hflushed,
        hfresh rfl, hrecording⟩ hgrows (BootRecord.acted_manualWake r (by rintro ⟨⟩))
    have hrecorded := recorded_act hI.recorded ha (by rintro _ ⟨⟩)
    have hwrite := Capsule.write_eq (Option.some.inj ha)
    have hframe : s'.spawned = s.spawned ∧ s'.nvs.rtcPending = s.nvs.rtcPending ∧ s'.flag = s.flag := by
      obtain rfl | ⟨-, rfl⟩ := hwrite <;> exact ⟨rfl, rfl, rfl⟩
    refine ⟨.wrote r, hI.restore hbase hpending hcomplete hrecorded hrecovered hgrows
      (BootRecord.acted_manualWake r (by rintro ⟨⟩)) (BootRecord.acted_mono_mounted r (by rintro ⟨⟩)) hframe.1 hframe.2.1
      (fun f _ => by rw [hframe.2.2]) (fun _ => by simp [BootRecord.acted]) (by rintro ⟨⟩) rfl ⟨?_, ?_, ?_, ?_⟩,
      fun _ => Or.inr ⟨hlifecycle, hcleared, hrecovered⟩, fun hr => by rw [hr]⟩
    · rw [hframe.1]
      exact hbase
    · rw [hframe.2.2]
      exact hpending
    · rw [hframe.2.2]
      exact hcomplete
    · simp only [BootRecord.acted, Bool.or_eq_true, Bool.and_eq_true]
      exact fun hr => .inr ⟨rfl, hr⟩

theorem keeps_noteRecordingStarted {resume id : Bool} : KeepsWake main (task87WakeRecoveryNoteRecordingStarted id)
    (fun ok g' => ok = true → g' = .opened) (.waiting resume true id) := by
  refine keeps_then (R := fun pending g' => g' = if pending then .waiting true true id else .opened)
    (keeps_load fun s h G hI hG => ?_) ?_
  · have hfits := hI.fits main
    rw [hG] at hfits
    obtain ⟨hbase, hresume, hnormal, hattempted, hrecording, hfresh⟩ := hfits
    cases resume with
    | true => exact ⟨.waiting true true id, ⟨(by rintro ⟨⟩), rfl, fun _ _ => rfl⟩, ⟨hbase, hresume, hnormal, hattempted, hrecording, hfresh⟩,
        by rw [hresume]; rfl⟩
    | false =>
      refine ⟨.opened, ⟨(by rintro ⟨⟩), trivial, fun _ _ => rfl⟩, ⟨hbase, hresume, fun harmed => ?_⟩, by rw [hresume]; rfl⟩
      rw [hnormal rfl] at harmed
      cases harmed
  rintro pending _ rfl
  cases pending with
  | false => exact fun _ => rfl
  | true =>
    refine keeps_then (R := fun refused g' => refused = false → g' = .proving id ∧ id = true) ?_ ?_
    · refine keeps_then (R := fun clear g' => clear = false → g' = .proving id) ?_ ?_
      · refine keeps_then (R := fun done g' => done = true → g' = .proving id) (keeps_load fun s h G hI hG => ?_) ?_
        · have hfits := hI.fits main
          rw [hG] at hfits
          obtain ⟨hbase, hresume, hnormal, hattempted, hrecording, hfresh⟩ := hfits
          cases hm : s.flag .deviceRecoveryComplete with
          | true =>
            exact ⟨.proving id, ⟨(by rintro ⟨⟩), rfl, fun _ _ => rfl⟩, ⟨hbase, hresume, hm, hattempted, hrecording rfl, hfresh⟩, fun _ => rfl⟩
          | false =>
            exact ⟨.waiting true true id, ⟨(by rintro ⟨⟩), rfl, fun _ _ => rfl⟩, ⟨hbase, hresume, hnormal, hattempted, hrecording, hfresh⟩, (by rintro ⟨⟩)⟩
        · exact fun done g hg hclear => hg (by simpa using hclear)
      · intro clear g hg
        cases clear with
        | true => rintro ⟨⟩
        | false =>
          cases id with
          | false => rintro ⟨⟩
          | true => exact fun _ => ⟨hg rfl, rfl⟩
    · intro refused g hg
      cases refused with
      | true => rintro ⟨⟩
      | false =>
        obtain ⟨rfl, rfl⟩ := hg rfl
        refine keeps_then keeps_completeWakeRecovery fun completed g hg => ?_
        cases completed with
        | false => rintro ⟨⟩
        | true =>
          rw [hg rfl]
          refine keeps_then (R := fun _ g' => g' = .wrote true) (keeps_idle (idle_op ⟨rfl, rfl⟩) fun _ => rfl) ?_
          rintro _ _ rfl
          refine keeps_then (R := fun _ g' => g' = .opened) (keeps_wake_op fun s h G hI hG c r s' ha => ?_) fun _ _ hg _ => hg
          have hfits := hI.fits main
          rw [hG] at hfits
          obtain ⟨hbase, hpending, hcomplete, hcompleted⟩ := hfits
          have hrecorded : Recorded s' h := recorded_act hI.recorded ha (by rintro _ ⟨⟩)
          obtain ⟨-, rfl⟩ := Prod.mk.inj (Option.some.inj ha)
          have hclear : (s.set .manualResumePending false).flag .manualResumePending = false := by
            rw [Capsule.flag_set, if_pos rfl]
          refine ⟨.opened, hI.restore hbase hpending hcomplete hrecorded (hI.completed (hcompleted rfl)) ?_ rfl id rfl rfl
            (fun f hf => ?_) (fun hp => ?_) (by rintro ⟨⟩) trivial ⟨hbase, hclear, fun _ => hcompleted rfl⟩, Or.inl, rfl⟩
          · exact ⟨rfl, id, id, id, id, id, id⟩
          · rw [Capsule.flag_set, if_neg (by rintro rfl; exact absurd hf (by decide))]
          · rw [hclear] at hp
            cases hp

theorem idle_enterError (reason : RecorderReason) : Idle (recorderEnterError reason) := idle_of_runs (runs_enterError reason)

theorem idle_shutdownArmedNow : Idle recorderShutdownArmedNow := by
  refine Only.bind ((idle_of_runs (runs_allOf (by simp [runs_platform]))).bind fun ready => ?_) fun _ => .ret _
  cases ready with
  | false => exact .ret _
  | true => exact (idle_op ⟨rfl, rfl⟩).bind fun _ => .ret _

theorem keeps_waitInitialRecording (fuel : ℕ) {resume recording id : Bool} :
    KeepsWake main (recorderWaitInitialRecording fuel) (fun ok g' => ok = true → g' = .opened) (.waiting resume recording id) := by
  induction fuel generalizing recording id with
  | zero => exact ⟨trivial, (by rintro _ _ _ _ _ _ _ ⟨⟩)⟩
  | succ fuel ih =>
    refine keeps_then (R := fun _ g' => g' = .waiting resume recording id)
      (keeps_idle (idle_of_runs (runs_allOf (by simp [runs_load]))) fun _ => rfl) ?_
    rintro ready _ rfl
    cases ready with
    | false => exact ih
    | true =>
      refine keeps_then keeps_currentState ?_
      rintro state _ ⟨recording, hstate, rfl⟩
      cases state with
      | error | lowBatteryStop => rintro ⟨⟩
      | recording =>
        rw [hstate rfl]
        refine keeps_then (R := fun b g' => g' = .waiting resume true b) (keeps_load fun s h G hI hG => ?_) ?_
        · have hfits := hI.fits main
          rw [hG] at hfits
          obtain ⟨hbase, hresume, hnormal, hattempted, hrecording, -⟩ := hfits
          exact ⟨.waiting resume true (s.flag .segRecId), ⟨(by rintro ⟨⟩), rfl, fun _ _ => rfl⟩,
            ⟨hbase, hresume, hnormal, hattempted, hrecording, hI.recorded.fresh⟩, rfl⟩
        rintro fresh _ rfl
        refine keeps_then keeps_noteRecordingStarted fun ok g hg => ?_
        cases ok with
        | true => exact hg
        | false => exact keeps_then (keeps_idle (Q := fun _ _ => True) (idle_enterError _) fun _ => trivial) (by rintro _ _ _ ⟨⟩)
      | _ => exact ih

theorem keeps_appMainRun (action : BootAction) (fuel : ℕ) :
    KeepsWake main (appMainRun action fuel) (fun _ _ => True) (.staging action) := by
  have hidle {p : DeviceProg Unit} {g : WakeMark} (hp : Idle p) : KeepsWake main p (fun _ _ => True) g :=
    keeps_idle hp fun _ => trivial
  have hrequired : Idle shutdownIfRequired := by
    refine (idle_of_runs (runs_load _)).bind fun required => ?_
    cases required with
    | false => exact .ret _
    | true => exact idle_shutdownArmedNow
  refine keeps_then (keeps_wakeRecoveryInit action) ?_
  rintro _ _ rfl
  refine keeps_then (R := fun ok g => ok = true → g = .staged action ∧ action ≠ .manualResume ∨ g = .loaded ∧ action = .manualResume) ?_ ?_
  · split
    case isTrue hresume =>
      subst hresume
      exact keeps_mono keeps_rtcCorrectionInit fun ok g hg hok => .inr ⟨hg hok, rfl⟩
    case isFalse hnormal => exact fun _ => .inl ⟨rfl, hnormal⟩
  intro rtcReady g hg
  cases rtcReady with
  | false => exact hidle idle_shutdownArmedNow
  | true =>
    refine keeps_then (keeps_spawnBase (hg rfl)) fun base g hg => ?_
    cases base with
    | false => exact hidle hrequired
    | true =>
      rw [hg rfl]
      refine keeps_then (keeps_waitInitialRecording fuel) fun recording g hg => ?_
      cases recording with
      | false => exact hidle hrequired
      | true =>
        rw [hg rfl]
        refine keeps_usb (.inl rfl) ?_ fun _ => trivial
        refine (runs_ite runs_rtcCorrectionInit (.ret _)).bind fun rtcReady => runs_ite (runs_enterError _) ?_
        exact (runs_isClear _).bind fun allowed => runs_ite runs_startUsb
          ((runs_enterError _).bind fun _ => runs_shutdownArmedNow)

theorem keeps_appMain (fuel : ℕ) : KeepsWake main (appMain fuel) (fun _ _ => True) .booting := by
  have hidle {p : DeviceProg Unit} {g : WakeMark} (hp : Idle p) : KeepsWake main p (fun _ _ => True) g :=
    keeps_idle hp fun _ => trivial
  refine keeps_then (R := fun _ g' => g' = .booting) (keeps_idle (idle_of_runs (runs_platform _)) fun _ => rfl) ?_
  rintro hold _ rfl
  cases hold with
  | false => trivial
  | true =>
    refine keeps_then (R := fun _ g' => g' = .booting) (keeps_idle (idle_of_runs (runs_platform _)) fun _ => rfl) ?_
    rintro nvs _ rfl
    cases nvs with
    | false => exact hidle idle_shutdownArmedNow
    | true =>
      refine keeps_then keeps_manualWake ?_
      rintro (_ | wake) _ rfl
      · exact hidle idle_shutdownArmedNow
      refine keeps_then (keeps_bootAction wake) fun action g hg => ?_
      cases action with
      | none => exact hidle idle_shutdownArmedNow
      | some action =>
        cases action with
        | staysShutdown => exact hidle idle_shutdownArmedNow
        | normal =>
          rw [hg .normal rfl nofun]
          exact keeps_appMainRun .normal fuel
        | manualResume =>
          rw [hg .manualResume rfl nofun]
          exact keeps_appMainRun .manualResume fuel

end Main

section Runs

theorem returns_wake {c : DeviceCall} {ran : Bool} (v : c.Ret) :
    Returns deviceCode.remember BootRecord.note (fun m h G => WakeInv m.1 h G ∧ Restores m.2 m.1 h) WakeMark.rest t ran c v g := by
  intro m h G hI hG
  exact ⟨hI.1.mark hG ⟨nofun, trivial, fun _ => nofun⟩ trivial, hI.2⟩

theorem wake_calls : KeepsCalls deviceCode.remember BootRecord.note
    (fun m h G => WakeInv m.1 h G ∧ Restores m.2 m.1 h) (fun _ _ _ _ _ => True) (fun _ => True) WakeMark.rest := by
  intro t c ran m h G ⟨hI, hrestores⟩ _ hG hmay
  change mayDevice t m.1 ran c = true at hmay
  have hreturns {Q : c.Ret → WakeMark → Prop} {g : WakeMark} (hp : ∀ fuel, KeepsWake t (deviceBody c fuel) Q g) (fuel : ℕ) :
      KeepsWake t (deviceBody c fuel) (Returns deviceCode.remember BootRecord.note
        (fun m h G => WakeInv m.1 h G ∧ Restores m.2 m.1 h) WakeMark.rest t ran c) g :=
    keeps_mono (hp fuel) fun v _ _ => returns_wake v
  have hinside (ht : t ≠ main) (hspawned : m.1.spawned t = true) : WakeInv m.1 h (Function.update G t .inside) :=
    hI.goes (by rintro ⟨⟩) trivial (fun _ _ => hI.up t ht (.inl hspawned)) trivial
  have husb (ht : t = usb ∨ t = tinyusb ∨ t = cdc) (hup : usbUp m.1) : ∃ g', (WakeInv m.1 h (Function.update G t g') ∧
      Restores m.2 m.1 h) ∧ ∀ fuel, KeepsWake t (deviceBody c fuel) (Returns deviceCode.remember BootRecord.note
        (fun m h G => WakeInv m.1 h G ∧ Restores m.2 m.1 h) WakeMark.rest t ran c) g' := by
    have hopened := hI.opened hup
    refine ⟨.opened, ⟨hI.goes (by rintro ⟨⟩) trivial (fun _ _ => hopened.base) hopened, hrestores⟩, hreturns (Q := fun _ _ => True) fun fuel => ?_⟩
    exact keeps_usb (.inr ht) (runs_deviceBody hmay (by rintro rfl; simp at ht) (by rintro rfl; simp at ht) fuel) fun _ => trivial
  cases c with
  | task u =>
    have hruns := hmay
    simp only [mayDevice, Bool.and_eq_true, decide_eq_true_eq] at hmay
    obtain ⟨⟨⟨rfl, hspawned⟩, hran⟩, -⟩ := hmay
    obtain rfl : ran = false := by simpa using hran
    cases t with
    | main =>
      exact ⟨.booting, ⟨hI.goes (by rintro ⟨⟩) rfl (fun ht => absurd rfl ht) (hI.start hG), hrestores⟩, hreturns keeps_appMain⟩
    | base =>
      refine ⟨.inside, ⟨hinside (by rintro ⟨⟩) hspawned, hrestores⟩, hreturns (Q := fun _ _ => True) fun fuel => ?_⟩
      exact keeps_base (runs_deviceBody hruns (by rintro ⟨⟩) (by rintro ⟨⟩) fuel) fun _ => trivial
    | writer => exact ⟨.inside, ⟨hinside (by rintro ⟨⟩) hspawned, hrestores⟩, hreturns keeps_writerTask⟩
    | capture =>
      refine ⟨.inside, ⟨hinside (by rintro ⟨⟩) hspawned, hrestores⟩, hreturns (Q := fun _ _ => True) fun fuel => ?_⟩
      exact keeps_idle ((runs_deviceBody hruns (by rintro ⟨⟩) (by rintro ⟨⟩) fuel).mono fun _ => idle_of_does (.inl rfl)) fun _ => trivial
    | battery =>
      refine ⟨.inside, ⟨hinside (by rintro ⟨⟩) hspawned, hrestores⟩, hreturns (Q := fun _ _ => True) fun fuel => ?_⟩
      exact keeps_idle ((runs_deviceBody hruns (by rintro ⟨⟩) (by rintro ⟨⟩) fuel).mono fun _ => idle_of_does (.inr rfl)) fun _ => trivial
    | usb => exact husb (.inl rfl) (.inl hspawned)
    | tinyusb => exact ⟨.inside, ⟨hinside (by rintro ⟨⟩) hspawned, hrestores⟩, hreturns (Q := fun _ _ => True) fun _ => trivial⟩
    | cdc => exact ⟨.inside, ⟨hinside (by rintro ⟨⟩) hspawned, hrestores⟩, hreturns (Q := fun _ _ => True) fun _ => trivial⟩
  | releaseAccept | releaseResponseComplete | setTime =>
    have hcdc := hmay
    simp only [mayDevice, Bool.and_eq_true, decide_eq_true_eq] at hcdc
    exact husb (.inr (.inr hcdc.1.1)) (.inr (.inl hcdc.1.2))
  | _ =>
    have htinyusb := hmay
    simp only [mayDevice, Bool.and_eq_true, decide_eq_true_eq] at htinyusb
    exact husb (.inr (.inl htinyusb.1.1)) (.inr (.inr (.inl htinyusb.1.2)))

theorem wake_boot (nvs : Nvs) (h : BootRecord) :
    WakeInv (.boot nvs) (.start nvs h) (fun _ => .fresh) ∧ Restores (.boot nvs) (.boot nvs) (.start nvs h) := by
  refine ⟨⟨⟨nofun, nofun, nofun⟩, fun _ => trivial, fun _ => trivial, fun _ => ⟨⟨rfl, rfl, rfl, rfl⟩, rfl⟩, fun t ht hor => ?_,
    fun hup => ?_, nofun, Or.inl, nofun, nofun, nofun, Or.inl, nofun⟩, Or.inl⟩
  · exact absurd (hor.resolve_right nofun) (by simpa [Capsule.boot] using ht)
  · simp [usbUp, Capsule.boot] at hup

variable {h₀ : BootRecord} {P P' : DevicePool BootRecord}

/-- An armed shutdown is left only through a wake recovery, and USB waits for it. The last part is about the step by which
the durable state becomes normal. -/
theorem boots_wake (h : Boots BootRecord.note BootRecord.start h₀ P) :
    (P.seen.began.lifecycle.isArmed = true → P.mem.nvs.lifecycle.isArmed = true ∨ P.seen.Recovered) ∧
      (usbUp P.mem → P.mem.flag .manualResumePending = false ∧ (P.seen.began.lifecycle.isArmed = true → P.seen.Recovered)) ∧
      ∀ e P', Threads.step deviceCode BootRecord.note P e = some P' → P'.mem.nvs.lifecycle = .normal →
        P.mem.nvs.lifecycle = .normal ∨
          P.mem.nvs.lifecycle = .wakeRecoveryPending ∧ P.mem.nvs.rtcPending = false ∧ P'.seen.Recovered := by
  have hpower : ∀ nvs, WakeInv (.boot nvs) (.start nvs h₀) (fun _ => .fresh) ∧ Restores (.boot nvs) (.boot nvs) (.start nvs h₀) :=
    fun nvs => wake_boot nvs h₀
  obtain ⟨before, G, ⟨hI, -⟩, -⟩ := boots_good wake_calls hpower (fun s h _ _ => wake_boot s.1.nvs h) h
  refine ⟨hI.durable, fun hup => ⟨(hI.opened hup).pending, fun hb => hI.completed ((hI.opened hup).completed hb)⟩, ?_⟩
  intro e P' hs hn
  rcases boots_step wake_calls hpower (fun s h _ _ => wake_boot s.1.nvs h) h hs with hsame | ⟨G', hI', hrestores⟩
  · rw [hsame] at hn
    exact Or.inl hn
  · exact hrestores hn

/-- A boot with the WAKE button held, up to the durable write of `NORMAL`. -/
def resumeRun : List (Option DeviceEvent) :=
  begins main 14 ++ begins base 11 ++ begins writer 53 ++ begins capture 6 ++ acts main 8

/-- An armed shutdown with a stored RTC correction that is left through a whole wake recovery. -/
theorem boots_wake_resume : ∃ P e P', Boots BootRecord.note BootRecord.start ⟨⟨.normal, false⟩, false, false, false, false,
      false, false, false, false, false⟩ P ∧ Threads.step deviceCode BootRecord.note P e = some P' ∧
    P.seen.began = ⟨.armed, true⟩ ∧ P'.mem.nvs = ⟨.normal, false⟩ ∧ P'.seen.Recovered := by
  have hrun : ((runBoots BootRecord.note BootRecord.start resumeRun (bootPool BootRecord.start ⟨.armed, true⟩
      ⟨⟨.normal, false⟩, false, false, false, false, false, false, false, false, false⟩)).bind fun P =>
        (Threads.step deviceCode BootRecord.note P (.act main goodChoice)).map fun P' =>
          (P.seen.began, P.mem.nvs.lifecycle, P'.mem.nvs)) =
      some (⟨.armed, true⟩, .wakeRecoveryPending, ⟨.normal, false⟩) := by
    decide +kernel
  obtain ⟨P, hP, hstep⟩ := Option.bind_eq_some_iff.mp hrun
  obtain ⟨P', hs, hpair⟩ := Option.map_eq_some_iff.mp hstep
  simp only [Prod.mk.injEq] at hpair
  have hboots := boots_run resumeRun (.power ⟨.armed, true⟩) hP
  have hnormal : P'.mem.nvs.lifecycle = .normal := by rw [hpair.2.2]
  rcases (boots_wake hboots).2.2 _ P' hs hnormal with hstayed | hleft
  · rw [hpair.2.1] at hstayed
    cases hstayed
  · exact ⟨P, _, P', hboots, hs, hpair.1, hpair.2.2, hleft.2.2⟩

end Runs

end M5DayLog
