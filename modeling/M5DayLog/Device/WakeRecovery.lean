import M5DayLog.Device.Boots

/-! An armed shutdown is left only through a wake recovery: the durable state returns to `NORMAL` on a boot with the WAKE
button held, after the mounted card has passed recovery and manifest sync, the stored RTC correction has been flushed and a
fresh recording has started; and USB starts only after that. -/

namespace M5DayLog

open Threads Device DeviceProg DeviceTask

section Record

/-- What has happened on a boot. -/
structure BootRecord where
  began : Nvs
  manualWake : Bool := false
  mounted : Bool := false
  scanned : Bool := false
  synced : Bool := false
  eventWritten : Bool := false
  fresh : Bool := false
  recording : Bool := false
  attempted : Bool := false
  completed : Bool := false
  deriving DecidableEq

namespace BootRecord

/-- The card has passed a step of its recovery only where it was mounted. `attempted` is a durable write of `NORMAL`, and
`completed` one that has reported success. -/
def acted (h : BootRecord) : (o : DeviceOp) → o.Ans → BootRecord
  | .manualWake, some b => { h with manualWake := b }
  | .sd .setMounted, _ => { h with mounted := true }
  | .sd .setUnmounted, _ => { h with mounted := false }
  | .card .scanRecordings, ok => { h with scanned := h.scanned || (h.mounted && ok) }
  | .card (.syncWavDir ..), ok => { h with synced := h.synced || (h.scanned && ok) }
  | .platform .rtcRecoverEvent, ok => { h with eventWritten := h.eventWritten || ok }
  | .store .segRecId b, _ => { h with fresh := h.fresh || b }
  | .transition next _, r => { h with recording := h.recording || (next = .recording && r = .done) }
  | .nvsWrite l, ok =>
    { h with attempted := h.attempted || l = .normal, completed := h.completed || (l = .normal && ok) }
  | _, _ => h

def note : DeviceNote → BootRecord → BootRecord
  | .acted _ o r, h => h.acted o r
  | _, h => h

def start (nvs : Nvs) (_ : BootRecord) : BootRecord := { began := nvs }

/-- Everything that an armed shutdown asks for before the recorder is back to normal. -/
structure Recovered (h : BootRecord) : Prop where
  manualWake : h.manualWake = true
  scanned : h.scanned = true
  synced : h.synced = true
  flushed : h.began.rtcPending = true → h.eventWritten = true
  fresh : h.fresh = true
  recording : h.recording = true

end BootRecord

end Record

section Invariant

/-- Where `app_main`, the writer or another task stands. -/
inductive WakeMark
  | fresh
  | outside
  | booting
  | asked (manualWake : Bool)
  | staging (action : BootAction)
  | staged (action : BootAction)
  | loading (pending : Bool)
  | loaded
  | waiting (resume recording id : Bool)
  | proving (id : Bool)
  | wrote (ok : Bool)
  | opened
  | inside
  | mounted
  | scanned
  | synced
  | resuming
  | recovering
  | written
  | flushed
  | marked
  deriving DecidableEq

namespace WakeMark

def rest (ran : Bool) : WakeMark := if ran then outside else fresh

def active : WakeMark → Bool
  | fresh | outside => false
  | _ => true

/-- Some marks are of `app_main` or of the writer only. -/
def Of (t : DeviceTask) : WakeMark → Prop
  | fresh | outside | opened | inside => True
  | mounted | scanned | synced | resuming | recovering | written | flushed | marked => t = .writer
  | _ => t = .main

end WakeMark

/-- Nothing runs but `app_main`. -/
structure Early (s : Capsule) (h : BootRecord) : Prop where
  base : s.spawned .base = false
  nvs : s.nvs = h.began
  attempted : h.attempted = false
  completed : h.completed = false

theorem Early.not_base {s : Capsule} {h : BootRecord} (he : Early s h) : s.spawned .base ≠ true := by simp [he.base]

/-- What the boot action says of the boot. -/
structure Decided (h : BootRecord) (action : BootAction) : Prop where
  resume : action = .manualResume → h.manualWake = true ∧ h.began.lifecycle.isArmed = true
  normal : action ≠ .manualResume → h.began.lifecycle.isArmed = false

/-- No recovery is pending any more. -/
structure Opened (s : Capsule) (h : BootRecord) : Prop where
  base : s.spawned .base = true
  pending : s.flag .manualResumePending = false
  completed : h.began.lifecycle.isArmed = true → h.completed = true

/-- The writer is completing the recovery of the Device. -/
structure Recovering (s : Capsule) (h : BootRecord) : Prop where
  scanned : h.scanned = true
  synced : h.synced = true
  pending : s.flag .manualResumePending = true
  incomplete : s.flag .deviceRecoveryComplete = false

def WakeMark.Fits (s : Capsule) (h : BootRecord) : WakeMark → Prop
  | fresh | outside | inside => True
  | booting => Early s h ∧ s.flag .manualResumePending = false
  | asked b => Early s h ∧ s.flag .manualResumePending = false ∧ h.manualWake = b
  | staging action => Early s h ∧ s.flag .manualResumePending = false ∧ Decided h action
  | staged action => Early s h ∧ s.flag .manualResumePending = decide (action = .manualResume) ∧ Decided h action
  | loading b =>
    Early s h ∧ s.flag .manualResumePending = true ∧ Decided h .manualResume ∧ s.nvs.rtcPending = b
  | loaded =>
    Early s h ∧ s.flag .manualResumePending = true ∧ Decided h .manualResume ∧
      (s.nvs.rtcPending = true → s.flag .rtcPending = true)
  | waiting resume recording id =>
    s.spawned .base = true ∧ s.flag .manualResumePending = resume ∧ (resume = false → h.began.lifecycle.isArmed = false) ∧
      h.attempted = false ∧ (recording = true → h.recording = true) ∧ (id = true → h.fresh = true)
  | proving id =>
    s.spawned .base = true ∧ s.flag .manualResumePending = true ∧ s.flag .deviceRecoveryComplete = true ∧
      h.attempted = false ∧ h.recording = true ∧ (id = true → h.fresh = true)
  | wrote ok =>
    s.spawned .base = true ∧ s.flag .manualResumePending = true ∧ s.flag .deviceRecoveryComplete = true ∧
      (ok = true → h.completed = true)
  | opened => Opened s h
  | mounted => h.mounted = true
  | scanned => h.scanned = true
  | synced => h.scanned = true ∧ h.synced = true
  | resuming =>
    h.scanned = true ∧ h.synced = true ∧ (s.flag .manualResumePending = true ∨ s.flag .deviceRecoveryComplete = true)
  | recovering => Recovering s h
  | written => Recovering s h ∧ h.eventWritten = true
  | flushed => Recovering s h ∧ s.nvs.rtcPending = false
  | marked => Recovering s h ∧ s.nvs.rtcPending = false ∧ s.nvs.lifecycle = .wakeRecoveryPending

/-- What the memory shows has been recorded. -/
structure Recorded (s : Capsule) (h : BootRecord) : Prop where
  mounted : s.flag .mounted = true → h.mounted = true
  recording : s.machine.state = .recording → h.recording = true
  fresh : s.flag .segRecId = true → h.fresh = true

/-- USB has been started, or is being started. -/
def usbUp (s : Capsule) : Prop :=
  s.spawned .usb = true ∨ s.spawned .cdc = true ∨ s.flag .driver = true ∨ s.flag .starting = true ∨ s.flag .started = true

structure WakeInv (s : Capsule) (h : BootRecord) (G : DeviceTask → WakeMark) : Prop where
  recorded : Recorded s h
  fits : ∀ t, (G t).Fits s h
  own : ∀ t, (G t).Of t
  start : G main = .fresh → Early s h ∧ s.flag .manualResumePending = false
  up : ∀ t, t ≠ main → s.spawned t = true ∨ (G t).active = true → s.spawned .base = true
  opened : usbUp s → Opened s h
  pending : s.flag .manualResumePending = true → h.manualWake = true ∧ h.began.lifecycle.isArmed = true
  durable : h.began.lifecycle.isArmed = true → s.nvs.lifecycle.isArmed = true ∨ h.Recovered
  completed : h.completed = true → h.Recovered
  complete : s.flag .deviceRecoveryComplete = true → h.scanned = true ∧ h.synced = true ∧ s.spawned .base = true
  ready : s.flag .deviceRecoveryComplete = true → s.flag .manualResumePending = true → h.attempted = false →
    s.nvs.lifecycle = .wakeRecoveryPending ∧ s.nvs.rtcPending = false
  written : h.began.rtcPending = true → s.nvs.rtcPending = true ∨ h.eventWritten = true
  loaded : s.spawned .base = true → s.flag .manualResumePending = true → s.nvs.rtcPending = true →
    s.flag .rtcPending = true

/-- A step to `NORMAL` ends a wake recovery. -/
def Restores (s₀ s : Capsule) (h : BootRecord) : Prop :=
  s.nvs.lifecycle = .normal → s₀.nvs.lifecycle = .normal ∨
    s₀.nvs.lifecycle = .wakeRecoveryPending ∧ s₀.nvs.rtcPending = false ∧ h.Recovered

abbrev KeepsWake {α : Type} (t : DeviceTask) (p : DeviceProg α) (Q : α → WakeMark → Prop) (g : WakeMark) : Prop :=
  KeepsDevice BootRecord.note (fun m h G => WakeInv m.1 h G ∧ Restores m.2 m.1 h) t p Q g

end Invariant

section Frame

variable {s s' : Capsule} {h h' : BootRecord} {G : DeviceTask → WakeMark} {t : DeviceTask} {g : WakeMark} {c : DeviceChoice}

/-- The record only grows, but for the answer of the WAKE button and the mount. -/
structure BootRecord.Grows (h h' : BootRecord) : Prop where
  began : h'.began = h.began
  scanned : h.scanned = true → h'.scanned = true
  synced : h.synced = true → h'.synced = true
  eventWritten : h.eventWritten = true → h'.eventWritten = true
  fresh : h.fresh = true → h'.fresh = true
  recording : h.recording = true → h'.recording = true
  completed : h.completed = true → h'.completed = true

theorem BootRecord.grows_acted (h : BootRecord) (o : DeviceOp) (r : o.Ans) : h.Grows (h.acted o r) := by
  cases o with
  | sd o => cases o <;> exact ⟨rfl, id, id, id, id, id, id⟩
  | card o =>
    cases o with
    | scanRecordings => exact ⟨rfl, by simp_all [acted], id, id, id, id, id⟩
    | syncWavDir => exact ⟨rfl, id, by simp_all [acted], id, id, id, id⟩
    | _ => exact ⟨rfl, id, id, id, id, id, id⟩
  | platform p =>
    cases p with
    | rtcRecoverEvent => exact ⟨rfl, id, id, by simp_all [acted], id, id, id⟩
    | _ => exact ⟨rfl, id, id, id, id, id, id⟩
  | store f b =>
    cases f with
    | segRecId => exact ⟨rfl, id, id, id, by simp_all [acted], id, id⟩
    | _ => exact ⟨rfl, id, id, id, id, id, id⟩
  | transition next reason => exact ⟨rfl, id, id, id, id, by simp_all [acted], id⟩
  | nvsWrite l => exact ⟨rfl, id, id, id, id, id, by simp_all [acted]⟩
  | manualWake => cases r <;> exact ⟨rfl, id, id, id, id, id, id⟩
  | _ => exact ⟨rfl, id, id, id, id, id, id⟩

theorem BootRecord.acted_manualWake {o : DeviceOp} (r : o.Ans) (ho : o ≠ .manualWake) :
    (h.acted o r).manualWake = h.manualWake := by
  cases o with
  | sd o => cases o <;> rfl
  | card o => cases o <;> rfl
  | platform p => cases p <;> rfl
  | store f b => cases f <;> rfl
  | manualWake => exact absurd rfl ho
  | _ => rfl

theorem BootRecord.acted_mounted {o : DeviceOp} (r : o.Ans) (hset : o ≠ .sd .setMounted) (hunset : o ≠ .sd .setUnmounted) :
    (h.acted o r).mounted = h.mounted := by
  cases o with
  | sd o => cases o <;> first | rfl | exact absurd rfl hset | exact absurd rfl hunset
  | card o => cases o <;> rfl
  | platform p => cases p <;> rfl
  | store f b => cases f <;> rfl
  | manualWake => cases r <;> rfl
  | _ => rfl

theorem BootRecord.acted_mono_mounted {o : DeviceOp} (r : o.Ans) (ho : o ≠ .sd .setUnmounted) (hm : h.mounted = true) :
    (h.acted o r).mounted = true := by
  by_cases hset : o = .sd .setMounted
  · subst hset
    rfl
  · rwa [acted_mounted r hset ho]

theorem BootRecord.acted_completed {o : DeviceOp} (r : o.Ans) (ho : o ≠ .nvsWrite .normal) :
    (h.acted o r).attempted = h.attempted ∧ (h.acted o r).completed = h.completed := by
  cases o with
  | sd o => cases o <;> exact ⟨rfl, rfl⟩
  | card o => cases o <;> exact ⟨rfl, rfl⟩
  | platform p => cases p <;> exact ⟨rfl, rfl⟩
  | store f b => cases f <;> exact ⟨rfl, rfl⟩
  | manualWake => cases r <;> exact ⟨rfl, rfl⟩
  | nvsWrite l => cases l <;> first | exact absurd rfl ho | simp [acted]
  | _ => exact ⟨rfl, rfl⟩

theorem BootRecord.Recovered.mono (hr : h.Recovered) (hg : h.Grows h') (hwake : h'.manualWake = h.manualWake) :
    h'.Recovered := by
  refine ⟨hwake.trans hr.manualWake, hg.scanned hr.scanned, hg.synced hr.synced, ?_, hg.fresh hr.fresh,
    hg.recording hr.recording⟩
  rw [hg.began]
  exact fun hb => hg.eventWritten (hr.flushed hb)

theorem recorded_act {o : DeviceOp} {r : o.Ans} (hI : Recorded s h)
    (ha : Capsule.act o c s = some (r, s')) (ho : ∀ b, o ≠ .store .mounted b) : Recorded s' (h.acted o r) := by
  have hleaves := Capsule.act_leaves ha
  have hgrows := h.grows_acted o r
  have hsnd := Capsule.act_snd ha
  refine ⟨?_, ?_, ?_⟩
  · by_cases htouch : o.touches .mounted = false
    · rw [hleaves.flag _ htouch, BootRecord.acted_mounted r (fun hf => by rw [hf] at htouch; cases htouch)
        (fun hf => by rw [hf] at htouch; cases htouch)]
      exact hI.mounted
    · cases o with
      | store f b => exact absurd (by simpa [DeviceOp.touches] using htouch) fun hf => ho b (by rw [hf])
      | sd o =>
        obtain rfl := Option.some.inj hsnd
        cases o with
        | setMounted => exact fun _ => rfl
        | setUnmounted => simp [Capsule.sd, Capsule.flag_set]
        | noteUsbOwned =>
          simp only [Capsule.sd]
          split
          · simp [Capsule.flag_set]
          · exact hI.mounted
        | _ => exact absurd rfl htouch
      | _ => exact absurd rfl htouch
  · cases o with
    | transition next reason =>
      have hpair : s.transition next reason c.ok = (r, s') := Option.some.inj ha
      intro hstate
      have hcases : s.machine.state = .recording ∨ RecorderState.recording = .error ∨ next = .recording ∧
          (s.transition next reason c.ok).1 = .done := Capsule.transition_state (by rw [hpair]; exact hstate)
      rw [hpair] at hcases
      rcases hcases with hold | herror | ⟨hnext, hdone⟩
      · exact hgrows.recording (hI.recording hold)
      · cases herror
      · subst hnext
        change r = .done at hdone
        simp [BootRecord.acted, hdone]
    | machineInit =>
      obtain rfl := Option.some.inj hsnd
      rintro ⟨⟩
    | _ =>
      rw [hleaves.machine rfl]
      exact fun hstate => hgrows.recording (hI.recording hstate)
  · cases o with
    | store f b =>
      obtain rfl := Option.some.inj hsnd
      by_cases hf : f = .segRecId
      · subst hf
        intro hb
        simp only [Capsule.flag_set, if_true] at hb
        simp [BootRecord.acted, hb]
      · simp only [Capsule.flag_set, if_neg (Ne.symm hf)]
        exact fun hfresh => hgrows.fresh (hI.fresh hfresh)
    | sd o =>
      rw [hleaves.flag _ (by cases o <;> rfl)]
      exact fun hfresh => hgrows.fresh (hI.fresh hfresh)
    | _ =>
      rw [hleaves.flag _ rfl]
      exact fun hfresh => hgrows.fresh (hI.fresh hfresh)

/-- The flags that the invariant speaks of. -/
def wakeFlags : List DeviceFlag := [.manualResumePending, .deviceRecoveryComplete, .rtcPending, .driver, .starting, .started]

/-- An operation that has no part in a wake recovery. -/
def DeviceOp.idle : DeviceOp → Bool
  | .store f _ => f ∉ wakeFlags && f ≠ .mounted
  | .nvsWrite _ | .rtcSet | .rtcClear | .spawn _ | .deleteTask _ | .manualWake => false
  | _ => true

/-- The card stays mounted. -/
def DeviceOp.holds : DeviceOp → Bool
  | .sd .setUnmounted => false
  | _ => true

/-- The invariant sees no difference. -/
structure Same (s s' : Capsule) (h h' : BootRecord) : Prop where
  nvs : s'.nvs = s.nvs
  flag : ∀ f ∈ wakeFlags, s'.flag f = s.flag f
  spawned : s'.spawned = s.spawned
  grows : h.Grows h'
  manualWake : h'.manualWake = h.manualWake
  completed : h'.attempted = h.attempted ∧ h'.completed = h.completed

theorem same_act {o : DeviceOp} {r : o.Ans} (ho : o.idle = true) (ha : Capsule.act o c s = some (r, s')) :
    Same s s' h (h.acted o r) := by
  have hleaves := Capsule.act_leaves ha
  refine ⟨hleaves.nvs ?_, fun f hf => hleaves.flag f ?_, hleaves.spawned ?_, h.grows_acted o r,
    BootRecord.acted_manualWake r ?_, BootRecord.acted_completed r ?_⟩
  · cases o <;> first | rfl | cases ho
  · cases o with
    | store g b =>
      simp only [DeviceOp.idle, Bool.and_eq_true, decide_eq_true_eq] at ho
      simp only [DeviceOp.touches, decide_eq_false_iff_not]
      exact fun hfg => ho.1 (hfg ▸ hf)
    | sd o =>
      simp only [wakeFlags, List.mem_cons, List.not_mem_nil, or_false] at hf
      rcases hf with rfl | rfl | rfl | rfl | rfl | rfl <;> cases o <;> rfl
    | casReleasePending =>
      simp only [wakeFlags, List.mem_cons, List.not_mem_nil, or_false] at hf
      rcases hf with rfl | rfl | rfl | rfl | rfl | rfl <;> rfl
    | _ => rfl
  · cases o <;> first | rfl | cases ho
  all_goals
    intro hf
    rw [hf] at ho
    cases ho

theorem Early.same (he : Early s h) (hs : Same s s' h h') : Early s' h' :=
  ⟨by rw [hs.spawned]; exact he.base, by rw [hs.nvs, hs.grows.began]; exact he.nvs, hs.completed.1.trans he.attempted,
    hs.completed.2.trans he.completed⟩

theorem Decided.same {action : BootAction} (hd : Decided h action) (hs : Same s s' h h') : Decided h' action :=
  ⟨by rw [hs.manualWake, hs.grows.began]; exact hd.resume, by rw [hs.grows.began]; exact hd.normal⟩

theorem Opened.same (ho : Opened s h) (hs : Same s s' h h') : Opened s' h' :=
  ⟨by rw [hs.spawned]; exact ho.base, by rw [hs.flag _ (by decide)]; exact ho.pending,
    by rw [hs.grows.began, hs.completed.2]; exact ho.completed⟩

theorem Recovering.same (hr : Recovering s h) (hs : Same s s' h h') : Recovering s' h' :=
  ⟨hs.grows.scanned hr.scanned, hs.grows.synced hr.synced, (hs.flag _ (by decide)).trans hr.pending,
    (hs.flag _ (by decide)).trans hr.incomplete⟩

theorem WakeMark.Fits.same {m : WakeMark} (hm : m.Fits s h) (hs : Same s s' h h')
    (hmounted : m = .mounted → h.mounted = true → h'.mounted = true) : m.Fits s' h' := by
  have hpending : s'.flag .manualResumePending = s.flag .manualResumePending := hs.flag _ (by decide)
  have hcomplete : s'.flag .deviceRecoveryComplete = s.flag .deviceRecoveryComplete := hs.flag _ (by decide)
  have hrtc : s'.flag .rtcPending = s.flag .rtcPending := hs.flag _ (by decide)
  cases m with
  | fresh | outside | inside => trivial
  | booting => exact ⟨hm.1.same hs, hpending.trans hm.2⟩
  | asked b => exact ⟨hm.1.same hs, hpending.trans hm.2.1, hs.manualWake.trans hm.2.2⟩
  | staging action => exact ⟨hm.1.same hs, hpending.trans hm.2.1, hm.2.2.same hs⟩
  | staged action => exact ⟨hm.1.same hs, hpending.trans hm.2.1, hm.2.2.same hs⟩
  | loading b => exact ⟨hm.1.same hs, hpending.trans hm.2.1, hm.2.2.1.same hs, by rw [hs.nvs]; exact hm.2.2.2⟩
  | loaded => exact ⟨hm.1.same hs, hpending.trans hm.2.1, hm.2.2.1.same hs, by rw [hs.nvs, hrtc]; exact hm.2.2.2⟩
  | waiting resume recording id =>
    obtain ⟨hbase, hresume, hnormal, hattempted, hrecording, hfresh⟩ := hm
    exact ⟨by rw [hs.spawned]; exact hbase, hpending.trans hresume, by rw [hs.grows.began]; exact hnormal,
      hs.completed.1.trans hattempted, fun hr => hs.grows.recording (hrecording hr), fun hf => hs.grows.fresh (hfresh hf)⟩
  | proving id =>
    obtain ⟨hbase, hresume, hdone, hattempted, hrecording, hfresh⟩ := hm
    exact ⟨by rw [hs.spawned]; exact hbase, hpending.trans hresume, hcomplete.trans hdone, hs.completed.1.trans hattempted,
      hs.grows.recording hrecording, fun hf => hs.grows.fresh (hfresh hf)⟩
  | wrote ok =>
    exact ⟨by rw [hs.spawned]; exact hm.1, hpending.trans hm.2.1, hcomplete.trans hm.2.2.1,
      fun hok => hs.grows.completed (hm.2.2.2 hok)⟩
  | opened => exact Opened.same hm hs
  | mounted => exact hmounted rfl hm
  | scanned => exact hs.grows.scanned hm
  | synced => exact ⟨hs.grows.scanned hm.1, hs.grows.synced hm.2⟩
  | resuming => exact ⟨hs.grows.scanned hm.1, hs.grows.synced hm.2.1, by rw [hpending, hcomplete]; exact hm.2.2⟩
  | recovering => exact Recovering.same hm hs
  | written => exact ⟨hm.1.same hs, hs.grows.eventWritten hm.2⟩
  | flushed => exact ⟨hm.1.same hs, by rw [hs.nvs]; exact hm.2⟩
  | marked => exact ⟨hm.1.same hs, by rw [hs.nvs]; exact hm.2⟩

theorem WakeInv.same (hI : WakeInv s h G) (hs : Same s s' h h') (hr : Recorded s' h')
    (hmounted : ∀ t, G t = .mounted → h.mounted = true → h'.mounted = true) : WakeInv s' h' G := by
  have hpending : s'.flag .manualResumePending = s.flag .manualResumePending := hs.flag _ (by decide)
  have hcomplete : s'.flag .deviceRecoveryComplete = s.flag .deviceRecoveryComplete := hs.flag _ (by decide)
  have hrtc : s'.flag .rtcPending = s.flag .rtcPending := hs.flag _ (by decide)
  refine ⟨hr, fun t => (hI.fits t).same hs (hmounted t), hI.own, fun hm => ?_, ?_, fun hup => ?_, ?_, fun hb => ?_, fun hc => ?_, ?_,
    ?_, ?_, ?_⟩
  · exact ⟨(hI.start hm).1.same hs, hpending.trans (hI.start hm).2⟩
  · rw [hs.spawned]
    exact hI.up
  · refine (hI.opened ?_).same hs
    rw [usbUp, hs.spawned, hs.flag .driver (by decide), hs.flag .starting (by decide), hs.flag .started (by decide)] at hup
    exact hup
  · rw [hpending, hs.manualWake, hs.grows.began]
    exact hI.pending
  · rw [hs.grows.began] at hb
    rw [hs.nvs]
    exact (hI.durable hb).imp_right fun hrec => hrec.mono hs.grows hs.manualWake
  · rw [hs.completed.2] at hc
    exact (hI.completed hc).mono hs.grows hs.manualWake
  · rw [hcomplete, hs.spawned]
    exact fun hc => ⟨hs.grows.scanned (hI.complete hc).1, hs.grows.synced (hI.complete hc).2.1, (hI.complete hc).2.2⟩
  · rw [hcomplete, hpending, hs.nvs, hs.completed.1]
    exact hI.ready
  · rw [hs.grows.began, hs.nvs]
    exact fun hb => (hI.written hb).imp_right hs.grows.eventWritten
  · rw [hs.spawned, hpending, hs.nvs, hrtc]
    exact hI.loaded

/-- A task goes on to another mark. -/
structure WakeFollows (t : DeviceTask) (g g' : WakeMark) : Prop where
  started : g' ≠ .fresh
  own : g'.Of t
  up : t ≠ main → g'.active = true → g.active = true

theorem WakeInv.goes (hI : WakeInv s h G) {g' : WakeMark} (hstarted : g' ≠ .fresh) (hown : g'.Of t)
    (hup : t ≠ main → g'.active = true → s.spawned base = true) (hfits : g'.Fits s h) :
    WakeInv s h (Function.update G t g') := by
  refine ⟨hI.recorded, fun u => ?_, fun u => ?_, fun hm => ?_, fun u hu hor => ?_, hI.opened, hI.pending, hI.durable,
    hI.completed, hI.complete, hI.ready, hI.written, hI.loaded⟩
  · by_cases hut : u = t
    · subst hut
      rwa [Function.update_self]
    · rw [Function.update_of_ne hut]
      exact hI.fits u
  · by_cases hut : u = t
    · subst hut
      rwa [Function.update_self]
    · rw [Function.update_of_ne hut]
      exact hI.own u
  · by_cases hut : main = t
    · subst hut
      rw [Function.update_self] at hm
      exact absurd hm hstarted
    · rw [Function.update_of_ne hut] at hm
      exact hI.start hm
  · by_cases hut : u = t
    · subst hut
      rw [Function.update_self] at hor
      exact hor.elim (fun hspawned => hI.up u hu (.inl hspawned)) (hup hu)
    · rw [Function.update_of_ne hut] at hor
      exact hI.up u hu hor

theorem WakeInv.mark (hI : WakeInv s h G) {k : WakeMark} (hG : G t = g) (hfollows : WakeFollows t g k) (hfits : k.Fits s h) :
    WakeInv s h (Function.update G t k) :=
  hI.goes hfollows.started hfollows.own (fun ht hactive => hI.up t ht (.inr (hG ▸ hfollows.up ht hactive))) hfits

/-- One operation, with the memory before it at hand. -/
theorem keeps_wake_op {o : DeviceOp} {Q : o.Ans → WakeMark → Prop}
    (hact : ∀ s h G, WakeInv s h G → G t = g → ∀ c r s', Capsule.act o c s = some (r, s') →
      ∃ g', WakeInv s' (h.acted o r) (Function.update G t g') ∧ Restores s s' (h.acted o r) ∧ Q r g') :
    KeepsWake t (.op o) Q g := by
  refine keeps_op trivial fun m h G hI _ hG choice r m' ha _ => ?_
  simp only [Code.remember, deviceCode, Option.map_eq_some_iff] at ha
  obtain ⟨⟨r', s'⟩, ha, hpair⟩ := ha
  obtain ⟨rfl, rfl⟩ := Prod.mk.inj hpair
  obtain ⟨g', hI', hrestores, hQ⟩ := hact m.1 h G hI.1 hG choice r' s' (Capsule.act_of_actAwake ha)
  exact ⟨g', ⟨hI', hrestores⟩, hQ⟩

/-- A program that has no part in a wake recovery. -/
abbrev Idle {α : Type} (p : DeviceProg α) : Prop := Only (fun o => o.idle = true ∧ o.holds = true) p

theorem restores_same (hs : Same s s' h h') : Restores s s' h' := fun hn => Or.inl (hs.nvs ▸ hn)

/-- An operation that has no part in a wake recovery, under an unchanged mark. -/
theorem idle_act {o : DeviceOp} {r : o.Ans} (hI : WakeInv s h G) (ho : o.idle = true)
    (hholds : o.holds = true ∨ G writer ≠ .mounted) (ha : Capsule.act o c s = some (r, s')) :
    WakeInv s' (h.acted o r) G ∧ Restores s s' (h.acted o r) := by
  have hsame := same_act (h := h) ho ha
  refine ⟨hI.same hsame (recorded_act hI.recorded ha fun b hf => ?_) fun t ht hm => ?_, restores_same hsame⟩
  · rw [hf] at ho
    cases b <;> cases ho
  · refine BootRecord.acted_mono_mounted r (fun hf => ?_) hm
    rcases hholds with hholds | hwriter
    · rw [hf] at hholds
      cases hholds
    · have hown := hI.own t
      rw [ht] at hown
      exact hwriter (hown ▸ ht)

theorem keeps_idle {α : Type} {p : DeviceProg α} {Q : α → WakeMark → Prop} (hp : Idle p) (hQ : ∀ a, Q a g) :
    KeepsWake t p Q g := by
  refine keeps_of_only hp trivial (fun o ho m h G hI _ hG choice r m' ha _ => ?_) hQ
  simp only [Code.remember, deviceCode, Option.map_eq_some_iff] at ha
  obtain ⟨⟨r', s'⟩, ha, hpair⟩ := ha
  obtain ⟨rfl, rfl⟩ := Prod.mk.inj hpair
  exact idle_act hI.1 ho.1 (.inl ho.2) (Capsule.act_of_actAwake ha)

end Frame

section Running

variable {s s' : Capsule} {h : BootRecord} {G : DeviceTask → WakeMark} {t : DeviceTask} {g : WakeMark} {c : DeviceChoice}

theorem WakeMark.Fits.of_opened {m : WakeMark} (hm : m.Fits s h) (ho : Opened s h) (ho' : Opened s' h)
    (hcomplete : s'.flag .deviceRecoveryComplete = s.flag .deviceRecoveryComplete) : m.Fits s' h := by
  have hearly : ¬ Early s h := fun he => he.not_base ho.base
  have hpending : s.flag .manualResumePending ≠ true := by simp [ho.pending]
  cases m with
  | fresh | outside | inside => trivial
  | booting | asked | staging | staged | loading | loaded => exact absurd hm.1 hearly
  | waiting resume => exact ⟨ho'.base, by rw [ho'.pending, ← hm.2.1, ho.pending], hm.2.2⟩
  | proving | wrote => exact absurd hm.2.1 hpending
  | opened => exact ho'
  | mounted | scanned | synced => exact hm
  | resuming => exact ⟨hm.1, hm.2.1, hm.2.2.imp (fun hp => absurd hp hpending) fun hc => hcomplete.trans hc⟩
  | recovering => exact absurd hm.pending hpending
  | written | flushed | marked => exact absurd hm.1.pending hpending

/-- Where no recovery is pending any more, the tasks may do what they like with the durable state but make it normal. -/
theorem WakeInv.of_opened (hI : WakeInv s h G) (ho : Opened s h) (ho' : Opened s' h) (hr : Recorded s' h)
    (hcomplete : s'.flag .deviceRecoveryComplete = s.flag .deviceRecoveryComplete)
    (hrtc : s.nvs.rtcPending = true → s'.nvs.rtcPending = true) : WakeInv s' h G := by
  have hpending : s'.flag .manualResumePending ≠ true := by simp [ho'.pending]
  refine ⟨hr, fun t => (hI.fits t).of_opened ho ho' hcomplete, hI.own, fun hm => ?_, fun _ _ _ => ho'.base, fun _ => ho',
    fun hp => absurd hp hpending, fun hb => Or.inr (hI.completed (ho.completed hb)), hI.completed, fun hc => ?_,
    fun _ hp => absurd hp hpending, fun hb => (hI.written hb).imp_left hrtc, fun _ hp => absurd hp hpending⟩
  · exact absurd ho.base (hI.start hm).1.not_base
  · rw [hcomplete] at hc
    exact ⟨(hI.complete hc).1, (hI.complete hc).2.1, ho'.base⟩

/-- The operations of USB, which come after the recovery. -/
def DeviceOp.runs : DeviceOp → Bool
  | .nvsWrite l => l ≠ .normal
  | .rtcSet => true
  | .store f _ => f ∈ [.rtcPending, .driver, .starting, .started]
  | .spawn u | .deleteTask u => u ∈ [usb, cdc]
  | _ => false

theorem running_act {o : DeviceOp} {r : o.Ans} (hI : WakeInv s h G) (ho : Opened s h) (hop : o.runs = true)
    (ha : Capsule.act o c s = some (r, s')) : WakeInv s' (h.acted o r) G ∧ Restores s s' (h.acted o r) := by
  have hrecorded := recorded_act hI.recorded ha fun b hf => by rw [hf] at hop; cases b <;> cases hop
  have hleaves := Capsule.act_leaves ha
  have hcomplete : s'.flag .deviceRecoveryComplete = s.flag .deviceRecoveryComplete := by
    refine hleaves.flag _ ?_
    cases o with
    | store f b => cases f <;> first | rfl | cases hop
    | _ => first | rfl | cases hop
  have hpending : s'.flag .manualResumePending = s.flag .manualResumePending := by
    refine hleaves.flag _ ?_
    cases o with
    | store f b => cases f <;> first | rfl | cases hop
    | _ => first | rfl | cases hop
  have hsame : h.acted o r = h := by
    cases o with
    | store f b => cases f <;> first | rfl | cases hop
    | nvsWrite l =>
      have hl : l ≠ .normal := by simpa [DeviceOp.runs] using hop
      simp [BootRecord.acted, hl]
    | _ => first | rfl | cases hop
  rw [hsame] at hrecorded ⊢
  have hsnd := Capsule.act_snd ha
  have hbase : s'.spawned .base = true := by
    cases o with
    | spawn u =>
      obtain rfl := Option.some.inj hsnd
      dsimp only
      split
      · cases u <;> first | exact ho.base | rfl
      · exact ho.base
    | deleteTask u =>
      obtain rfl := Option.some.inj hsnd
      cases u <;> first | exact ho.base | cases hop
    | _ =>
      rw [hleaves.spawned rfl]
      exact ho.base
  have ho' : Opened s' h := ⟨hbase, hpending.trans ho.pending, ho.completed⟩
  cases o with
  | nvsWrite l =>
    have hl : l ≠ .normal := by simpa [DeviceOp.runs] using hop
    obtain rfl := Option.some.inj hsnd
    rcases Capsule.write_cases s c { s.nvs with lifecycle := l } with heq | ⟨-, heq⟩
    · dsimp only at hrecorded hcomplete ho' ⊢
      rw [heq] at hrecorded hcomplete ho' ⊢
      exact ⟨hI.of_opened ho ho' hrecorded hcomplete id, fun hn => absurd hn hl⟩
    · dsimp only at hrecorded hcomplete ho' ⊢
      rw [heq] at hrecorded hcomplete ho' ⊢
      exact ⟨hI.of_opened ho ho' hrecorded hcomplete id, Or.inl⟩
  | rtcSet =>
    obtain rfl := Option.some.inj hsnd
    rcases Capsule.write_cases s c { s.nvs with rtcPending := true } with heq | ⟨-, heq⟩
    · dsimp only at hrecorded hcomplete ho' ⊢
      rw [heq] at hrecorded hcomplete ho' ⊢
      exact ⟨hI.of_opened ho ho' hrecorded hcomplete fun _ => rfl, Or.inl⟩
    · dsimp only at hrecorded hcomplete ho' ⊢
      rw [heq] at hrecorded hcomplete ho' ⊢
      exact ⟨hI.of_opened ho ho' hrecorded hcomplete id, Or.inl⟩
  | rtcClear => cases hop
  | _ =>
    have hnvs := hleaves.nvs rfl
    exact ⟨hI.of_opened ho ho' hrecorded hcomplete (by rw [hnvs]; exact id), fun hn => Or.inl (hnvs ▸ hn)⟩

/-- A program with the operations of USB, where no recovery is pending any more. -/
theorem keeps_opened {α : Type} {p : DeviceProg α} {Q : α → WakeMark → Prop}
    (hp : Only (fun o => o.idle = true ∧ o.holds = true ∨ o.runs = true) p) (hQ : ∀ a, Q a .opened) : KeepsWake t p Q .opened := by
  refine keeps_of_only hp trivial (fun o ho m h G hI _ hG choice r m' ha _ => ?_) hQ
  simp only [Code.remember, deviceCode, Option.map_eq_some_iff] at ha
  obtain ⟨⟨r', s'⟩, ha, hpair⟩ := ha
  obtain ⟨rfl, rfl⟩ := Prod.mk.inj hpair
  have ha := Capsule.act_of_actAwake ha
  rcases ho with hidle | hruns
  · exact idle_act hI.1 hidle.1 (.inl hidle.2) ha
  · have hopened : Opened m.1 h := by
      have hfits := hI.1.fits t
      rwa [hG] at hfits
    exact running_act hI.1 hopened hruns ha

/-- The first tasks of the recorder are spawned. -/
theorem WakeInv.spawn (hI : WakeInv s h G) (hbase : s.spawned .base = true) {u : DeviceTask} (hu : base.spawns u = true) :
    WakeInv { s with spawned := Function.update s.spawned u true } h G := by
  have hearly : ¬ Early s h := fun he => he.not_base hbase
  have hother : ∀ v, u ≠ v → Function.update s.spawned u true v = s.spawned v := fun v hv => Function.update_of_ne hv.symm ..
  have hb : u ≠ base := by rintro rfl; cases hu
  have hbase' : Function.update s.spawned u true base = true := (hother _ hb).trans hbase
  refine ⟨⟨hI.recorded.mounted, hI.recorded.recording, hI.recorded.fresh⟩, fun t => ?_, hI.own, fun hm => absurd (hI.start hm).1 hearly,
    fun _ _ _ => hbase', fun hup => ?_, hI.pending, hI.durable, hI.completed,
    fun hc => ⟨(hI.complete hc).1, (hI.complete hc).2.1, hbase'⟩, hI.ready, hI.written, fun _ => hI.loaded hbase⟩
  · have hfits := hI.fits t
    cases hm : G t with
    | fresh | outside | inside => trivial
    | booting | asked | staging | staged | loading | loaded =>
      rw [hm] at hfits
      exact absurd hfits.1 hearly
    | waiting | proving | wrote =>
      rw [hm] at hfits
      exact ⟨hbase', hfits.2⟩
    | opened =>
      rw [hm] at hfits
      exact ⟨hbase', hfits.pending, hfits.completed⟩
    | recovering =>
      rw [hm] at hfits
      exact ⟨hfits.scanned, hfits.synced, hfits.pending, hfits.incomplete⟩
    | written | flushed | marked =>
      rw [hm] at hfits
      exact ⟨⟨hfits.1.scanned, hfits.1.synced, hfits.1.pending, hfits.1.incomplete⟩, hfits.2⟩
    | _ =>
      rw [hm] at hfits
      exact hfits
  · have husb : u ≠ usb := by rintro rfl; cases hu
    have hcdc : u ≠ cdc := by rintro rfl; cases hu
    simp only [usbUp, hother _ husb, hother _ hcdc] at hup
    have hopened := hI.opened hup
    exact ⟨hbase', hopened.pending, hopened.completed⟩

end Running

end M5DayLog
