import M5DayLog.Device.Boots

/-! The card belongs to the Device or to the host, never to both. The storage passes to the host only when the writer has
finished with the card and the passage is durable, and it comes back only through a shutdown that has been committed, on a
boot with the WAKE button held. -/

namespace M5DayLog

open Threads Device DeviceProg DeviceTask

section Record

/-- What has happened to the storage. `owned` and `quiesced` outlive a boot: the storage has become the host's and no boot
has resumed since, and the commit of a shutdown has been attempted after the storage was torn down. -/
structure OwnRecord where
  owned : Bool := false
  quiesced : Bool := false
  wake : Bool := false
  begun : Bool := false
  opened : Bool := false
  live : Bool := false
  mounted : Bool := false
  released : Bool := false
  unfinished : Bool := false
  uncommitted : Bool := false
  writerDone : Bool := false
  torn : Bool := false
  dropped : Bool := false
  deriving DecidableEq

namespace OwnRecord

/-- A boot that reads `ARMED` with the WAKE button held, before it has spawned a task, resumes. `torn` is the end of the
driver that the coordinator has brought about, and `dropped` the end of the storage after it. -/
def acted (h : OwnRecord) (t : DeviceTask) : (o : DeviceOp) → o.Ans → OwnRecord
  | .manualWake, some b => { h with wake := b }
  | .nvsRead, some .armed => if h.wake && !h.begun then { h with owned := false, quiesced := false } else h
  | .spawn .base, ok => { h with begun := h.begun || ok }
  | .spawn .usb, ok => { h with opened := h.opened || ok }
  | .store .started true, _ => { h with live := true }
  | .store .storageUsbOwned true, _ => { h with owned := true }
  | .store .driver false, _ => if t = usb then { h with torn := true } else h
  | .sd .setMounted, _ => { h with mounted := true }
  | .sd .releaseForUsb, ok => { h with released := h.released || ok }
  | .card (.sinkOpen ..), r => if r.1 then { h with unfinished := true, uncommitted := true } else h
  | .card (.finalizePaths ..), ok => { h with unfinished := h.unfinished && !ok }
  | .card (.upsertFile ..), r => { h with uncommitted := h.uncommitted && r ≠ .ok }
  | .setBits bits, _ => { h with writerDone := h.writerDone || .writerFinalized ∈ bits }
  | .platform .mscDeleteStorage, ok => { h with dropped := h.dropped || (h.torn && ok) }
  | .nvsWrite .armed, _ => { h with quiesced := h.quiesced || (h.torn && h.dropped) }
  | _, _ => h

def note : DeviceNote → OwnRecord → OwnRecord
  | .acted t o r, h => h.acted t o r
  | _, h => h

def start (_ : Nvs) (h : OwnRecord) : OwnRecord := { owned := h.owned, quiesced := h.quiesced }

/-- Every part that was opened has been finalized and its manifest entry committed. -/
def Sealed (h : OwnRecord) : Prop := h.unfinished = false ∧ h.uncommitted = false

end OwnRecord

end Record

section Invariant

/-- Where a task stands. -/
inductive OwnMark
  | fresh
  | outside
  | inside
  | booting
  | asked (wake : Bool)
  | staged
  | waiting
  | opening
  | installing
  | running
  | starting
  | based
  | mounting (past : Bool)
  | writing (unfinished uncommitted : Bool)
  | failed
  | closing
  | freed
  | waited
  | settled
  | ready
  | handing
  | transferring
  | expecting
  | noted
  | live
  | leaving
  | torn
  | dropped
  | attaching
  deriving DecidableEq

namespace OwnMark

def rest (ran : Bool) : OwnMark := if ran then outside else fresh

def active : OwnMark → Bool
  | fresh | outside => false
  | _ => true

/-- The boot has begun with its tasks. -/
def later : OwnMark → Bool
  | fresh | outside | booting | asked _ | staged => false
  | _ => true

/-- The coordinator stands where it has authorized the transfer. -/
def transfers : OwnMark → Bool
  | transferring | expecting | noted => true
  | _ => false

/-- The marks of one task only. -/
def Of (t : DeviceTask) : OwnMark → Prop
  | fresh | outside => True
  | inside => t ≠ main
  | expecting | noted => t = usb ∨ t = tinyusb
  | booting | asked _ | staged | waiting | opening | installing | running => t = main
  | starting | based => t = base
  | mounting _ | writing .. | failed | closing => t = writer
  | attaching => t = tinyusb
  | _ => t = usb

end OwnMark

/-- The host's claim on the storage is durable. -/
def Locked (s : Capsule) (h : OwnRecord) : Prop :=
  s.nvs.lifecycle = .hostUnresolved ∨ h.quiesced = true ∧ s.nvs.lifecycle = .armed

/-- The lifecycle is past recording. -/
def Parked (s : Capsule) : Prop :=
  s.machine.state = .usbPrepare ∨ s.machine.state = .usbSync ∨ s.machine.state = .error

/-- The writer has finished with the card, which the coordinator has asked it to release. -/
structure CardSettled (s : Capsule) (h : OwnRecord) : Prop where
  opened : h.opened = true
  writerDone : h.writerDone = true
  released : h.released = true
  parked : Parked s
  complete : h.Sealed

/-- Nothing keeps the storage from the host. -/
structure CardHanded (s : Capsule) (h : OwnRecord) : Prop extends CardSettled s h where
  freed : s.flag .deviceFsReleased = true
  locked : Locked s h

/-- The Device cannot come back to the card on this boot. -/
structure CardAway (s : Capsule) (h : OwnRecord) : Prop extends CardHanded s h where
  unmounted : s.flag .mounted = false

/-- The writer has not yet begun with the card. -/
structure Unmounted (s : Capsule) (h : OwnRecord) : Prop where
  writerDone : h.writerDone = false
  events : s.flag .stateEventsReady = false
  complete : h.Sealed

def OwnMark.Fits (t : DeviceTask) (s : Capsule) (h : OwnRecord) : OwnMark → Prop
  | fresh =>
    match t with
    | .main => h.begun = false
    | .base => s.flag .stateLock = false
    | .writer => Unmounted s h ∧ h.mounted = false
    | _ => True
  | outside | inside => True
  | booting => h.begun = false
  | asked b => h.begun = false ∧ h.wake = b
  | staged => h.begun = false ∧ h.owned = false
  | waiting => h.begun = true ∧ h.opened = false
  | opening => h.begun = true ∧ h.opened = false ∧ s.flag .stateLock = true
  | installing => h.opened = true ∧ h.live = false
  | running => h.opened = true
  | starting => s.flag .stateLock = false
  | based => s.flag .stateLock = true
  | mounting past => Unmounted s h ∧ (past = false → h.mounted = false)
  | writing a b => h.writerDone = false ∧ (h.unfinished = true → a = true) ∧ (h.uncommitted = true → b = true)
  | failed => h.writerDone = false ∧ s.machine.state = .error
  | closing => h.writerDone = false ∧ s.flag .stateEventsReady = false ∧ (s.machine.state = .error ∨ h.Sealed)
  | freed => h.released = true
  | waited => h.released = true ∧ h.writerDone = true
  | settled => CardSettled s h
  | ready => CardSettled s h ∧ s.flag .deviceFsReleased = true
  | handing => CardHanded s h ∧ s.nvs.lifecycle = .hostUnresolved
  | transferring | expecting => CardHanded s h
  | noted => CardAway s h
  | live => h.live = true
  | leaving => CardAway s h ∧ h.live = true
  | torn => CardAway s h ∧ h.torn = true
  | dropped => CardAway s h ∧ h.torn = true ∧ h.dropped = true
  | attaching => s.flag .storageUsbOwned = true ∨ h.torn = true

/-- What holds of the memory at every step. -/
structure OwnFacts (s : Capsule) (h : OwnRecord) : Prop where
  early : h.begun = false → s.flag .mounted = false ∧ s.machine.state = .boot
  closed : h.opened = false → s.flag .storageUsbOwned = false ∧ s.flag .hostOwned = false ∧
    s.flag .transferAuthorized = false ∧ h.live = false
  opened : h.opened = true → h.begun = true ∧ s.flag .stateLock = true
  bit : s.bit .writerFinalized = true → h.writerDone = true
  mounted : s.flag .mounted = true → h.mounted = true
  released : h.released = true → s.flag .usbReleaseRequested = true ∧ h.mounted = true
  done : h.writerDone = true → s.flag .stateLock = true ∧ s.flag .stateEventsReady = false ∧
    (s.machine.state = .error ∨ h.Sealed)
  usbOwned : s.flag .storageUsbOwned = true → CardAway s h
  owned : h.owned = true → Locked s h ∧ (h.begun = false ∨ CardAway s h)
  host : s.flag .hostOwned = true → s.flag .storageUsbOwned = true ∨ h.torn = true
  live : s.flag .started = true → h.live = true
  torn : h.torn = true → s.flag .driver = false ∧ h.live = true

/-- USB runs, or may begin to. -/
def usbRuns (s : Capsule) (G : DeviceTask → OwnMark) : Prop :=
  s.flag .driver = true ∨ ∃ t ∈ [usb, tinyusb, cdc], s.spawned t = true ∨ (G t).active = true

structure OwnInv (s : Capsule) (h : OwnRecord) (G : DeviceTask → OwnMark) : Prop where
  facts : OwnFacts s h
  fits : ∀ t, (G t).Fits t s h
  own : ∀ t, (G t).Of t
  up : ∀ t, t ≠ main → s.spawned t = true ∨ (G t).active = true → h.begun = true
  lock : ∀ t, t ≠ main → t ≠ base → s.spawned t = true ∨ (G t).active = true → s.flag .stateLock = true
  running : usbRuns s G → h.opened = true
  transfer : s.flag .transferAuthorized = true → s.nvs.lifecycle = .hostUnresolved ∧ CardHanded s h ∧ (G usb).transfers = true

abbrev KeepsOwn {α : Type} (t : DeviceTask) (p : DeviceProg α) (Q : α → OwnMark → Prop) (g : OwnMark) : Prop :=
  KeepsDevice OwnRecord.note (fun m h G => OwnInv m.1 h G) t p Q g

end Invariant

section Frame

variable {s s' : Capsule} {h h' : OwnRecord} {G : DeviceTask → OwnMark} {t : DeviceTask} {g m : OwnMark} {c : DeviceChoice}

/-- What a step of task `t` leaves to the others. -/
structure Rely (t : DeviceTask) (s s' : Capsule) (h h' : OwnRecord) : Prop where
  boot : t ≠ main → h'.begun = h.begun ∧ h'.opened = h.opened ∧ h'.live = h.live ∧ h'.wake = h.wake
  owned : h.begun = false → h.owned = false → h'.owned = false
  lock : t ≠ base → s'.flag .stateLock = s.flag .stateLock
  writer : t ≠ writer → h'.writerDone = h.writerDone ∧ h'.mounted = h.mounted ∧ h'.unfinished = h.unfinished ∧
    h'.uncommitted = h.uncommitted ∧ s'.flag .stateEventsReady = s.flag .stateEventsReady
  error : s.flag .stateLock = true → s.machine.state = .error → s'.machine.state = .error
  raised : s.flag .stateLock = true → s'.flag .stateLock = true
  live : h.live = true → h'.live = true
  begun : h.begun = true → h'.begun = true
  opened : h.opened = true → h'.opened = true
  released : h.released = true → h'.released = true
  done : h.writerDone = true → h'.writerDone = true
  torn : h.torn = true → h'.torn = true
  dropped : h.dropped = true → h'.dropped = true
  settled : CardSettled s h → CardSettled s' h'
  freed : CardSettled s h → s.flag .deviceFsReleased = true → s'.flag .deviceFsReleased = true
  locked : CardHanded s h → Locked s' h'
  unmounted : CardSettled s h → s.flag .mounted = false → s'.flag .mounted = false
  lifecycle : t ≠ DeviceTask.usb → CardSettled s h → s'.nvs.lifecycle = s.nvs.lifecycle
  usbOwned : s.flag .storageUsbOwned = true ∨ h.torn = true → s'.flag .storageUsbOwned = true ∨ h'.torn = true

theorem Rely.handed (hr : Rely t s s' h h') (hh : CardHanded s h) : CardHanded s' h' :=
  ⟨hr.settled hh.toCardSettled, hr.freed hh.toCardSettled hh.freed, hr.locked hh⟩

theorem Rely.away (hr : Rely t s s' h h') (ha : CardAway s h) : CardAway s' h' :=
  ⟨hr.handed ha.toCardHanded, hr.unmounted ha.toCardSettled ha.unmounted⟩

theorem Unmounted.rely (hm : Unmounted s h) (hr : Rely t s s' h h') (ht : t ≠ writer) : Unmounted s' h' := by
  obtain ⟨hdone, -, hunfinished, huncommitted, hevents⟩ := hr.writer ht
  exact ⟨hdone.trans hm.writerDone, hevents.trans hm.events, hunfinished.trans hm.complete.1, huncommitted.trans hm.complete.2⟩

/-- A task's own mark still fits after the step of another. -/
theorem OwnMark.Fits.rely {u : DeviceTask} {m : OwnMark} (hm : m.Fits u s h) (hr : Rely t s s' h h') (hut : u ≠ t)
    (hown : m.Of u) (hlock : u ≠ main → u ≠ base → m.active = true → s.flag .stateLock = true) : m.Fits u s' h' := by
  cases m with
  | fresh =>
    cases u with
    | main => exact (hr.boot hut.symm).1.trans hm
    | base => exact (hr.lock hut.symm).trans hm
    | writer => exact ⟨hm.1.rely hr hut.symm, (hr.writer hut.symm).2.1.trans hm.2⟩
    | _ => trivial
  | outside | inside => trivial
  | booting =>
    obtain rfl := hown
    exact (hr.boot hut.symm).1.trans hm
  | asked b =>
    obtain rfl := hown
    exact ⟨(hr.boot hut.symm).1.trans hm.1, (hr.boot hut.symm).2.2.2.trans hm.2⟩
  | staged =>
    obtain rfl := hown
    exact ⟨(hr.boot hut.symm).1.trans hm.1, hr.owned hm.1 hm.2⟩
  | waiting =>
    obtain rfl := hown
    exact ⟨(hr.boot hut.symm).1.trans hm.1, (hr.boot hut.symm).2.1.trans hm.2⟩
  | opening =>
    obtain rfl := hown
    exact ⟨(hr.boot hut.symm).1.trans hm.1, (hr.boot hut.symm).2.1.trans hm.2.1, hr.raised hm.2.2⟩
  | installing =>
    obtain rfl := hown
    exact ⟨(hr.boot hut.symm).2.1.trans hm.1, (hr.boot hut.symm).2.2.1.trans hm.2⟩
  | running =>
    obtain rfl := hown
    exact (hr.boot hut.symm).2.1.trans hm
  | starting | based =>
    obtain rfl := hown
    exact (hr.lock hut.symm).trans hm
  | mounting past =>
    obtain rfl := hown
    exact ⟨hm.1.rely hr hut.symm, fun hp => (hr.writer hut.symm).2.1.trans (hm.2 hp)⟩
  | writing a b =>
    obtain rfl := hown
    obtain ⟨hdone, -, hunfinished, huncommitted, -⟩ := hr.writer hut.symm
    exact ⟨hdone.trans hm.1, by rw [hunfinished]; exact hm.2.1, by rw [huncommitted]; exact hm.2.2⟩
  | failed =>
    obtain rfl := hown
    exact ⟨(hr.writer hut.symm).1.trans hm.1, hr.error (hlock (by decide) (by decide) rfl) hm.2⟩
  | closing =>
    obtain rfl := hown
    obtain ⟨hdone, -, hunfinished, huncommitted, hevents⟩ := hr.writer hut.symm
    refine ⟨hdone.trans hm.1, hevents.trans hm.2.1, hm.2.2.imp (hr.error (hlock (by decide) (by decide) rfl)) fun hc => ?_⟩
    exact ⟨hunfinished.trans hc.1, huncommitted.trans hc.2⟩
  | freed => exact hr.released hm
  | waited => exact ⟨hr.released hm.1, hr.done hm.2⟩
  | settled => exact hr.settled hm
  | ready => exact ⟨hr.settled hm.1, hr.freed hm.1 hm.2⟩
  | handing =>
    obtain rfl := hown
    exact ⟨hr.handed hm.1, (hr.lifecycle hut.symm hm.1.toCardSettled).trans hm.2⟩
  | transferring | expecting => exact hr.handed hm
  | noted => exact hr.away hm
  | live => exact hr.live hm
  | leaving => exact ⟨hr.away hm.1, hr.live hm.2⟩
  | torn => exact ⟨hr.away hm.1, hr.torn hm.2⟩
  | dropped => exact ⟨hr.away hm.1, hr.torn hm.2.1, hr.dropped hm.2.2⟩
  | attaching => exact hr.usbOwned hm

/-- A task goes on to another mark of its own. -/
structure OwnFollows (t : DeviceTask) (g m : OwnMark) : Prop where
  own : m.Of t
  up : t ≠ main → m.active = true → g.active = true
  transfers : t = DeviceTask.usb → g.transfers = true → m.transfers = true

/-- What a step leaves of the invariant, with what it says of the storage's passage. -/
theorem OwnInv.next (hI : OwnInv s h G) (hG : G t = g) (hown : m.Of t) (hup : t ≠ main → m.active = true → g.active = true)
    (hr : Rely t s s' h h') (hfacts : OwnFacts s' h') (hfits : m.Fits t s' h')
    (hspawned : ∀ u, s'.spawned u = true → s.spawned u = true) (hdriver : s'.flag .driver = true → h'.opened = true)
    (htransfer : s'.flag .transferAuthorized = true → s'.nvs.lifecycle = .hostUnresolved ∧ CardHanded s' h' ∧
      (Function.update G t m DeviceTask.usb).transfers = true) : OwnInv s' h' (Function.update G t m) := by
  have hrest : ∀ u, u ≠ main → s'.spawned u = true ∨ (Function.update G t m u).active = true →
      s.spawned u = true ∨ (G u).active = true := by
    intro u hu hor
    refine hor.imp (hspawned u) fun hactive => ?_
    by_cases hut : u = t
    · subst hut
      rw [Function.update_self] at hactive
      exact hG ▸ hup hu hactive
    · rwa [Function.update_of_ne hut] at hactive
  refine ⟨hfacts, fun u => ?_, fun u => ?_, fun u hu hor => hr.begun (hI.up u hu (hrest u hu hor)),
    fun u hu hb hor => hr.raised (hI.lock u hu hb (hrest u hu hor)), ?_, htransfer⟩
  · by_cases hut : u = t
    · subst hut
      rwa [Function.update_self]
    · rw [Function.update_of_ne hut]
      exact (hI.fits u).rely hr hut (hI.own u) fun hu hb hactive => hI.lock u hu hb (.inr hactive)
  · by_cases hut : u = t
    · subst hut
      rwa [Function.update_self]
    · rw [Function.update_of_ne hut]
      exact hI.own u
  · rintro (hd | ⟨u, hu, hor⟩)
    · exact hdriver hd
    · have hne : u ≠ main := by rintro rfl; simp at hu
      exact hr.opened (hI.running (.inr ⟨u, hu, hrest u hne hor⟩))

theorem Rely.refl : Rely t s s h h :=
  ⟨fun _ => ⟨rfl, rfl, rfl, rfl⟩, fun _ => id, fun _ => rfl, fun _ => ⟨rfl, rfl, rfl, rfl, rfl⟩, fun _ => id, id, id, id, id,
    id, id, id, id, id, fun _ => id, fun hh => hh.locked, fun _ => id, fun _ _ => rfl, id⟩

/-- A step that neither spawns a task nor touches the driver or the authorization. -/
theorem OwnInv.turn (hI : OwnInv s h G) (hG : G t = g) (hf : OwnFollows t g m) (hr : Rely t s s' h h') (hfacts : OwnFacts s' h')
    (hfits : m.Fits t s' h') (hspawned : s'.spawned = s.spawned) (hdriver : s'.flag .driver = s.flag .driver)
    (htransfer : s'.flag .transferAuthorized = s.flag .transferAuthorized)
    (hlifecycle : s.flag .transferAuthorized = true → s'.nvs.lifecycle = s.nvs.lifecycle) :
    OwnInv s' h' (Function.update G t m) := by
  refine hI.next hG hf.own hf.up hr hfacts hfits (fun u => by rw [hspawned]; exact id) (fun hd => ?_) fun ha => ?_
  · exact hr.opened (hI.running (.inl (hdriver ▸ hd)))
  · rw [htransfer] at ha
    obtain ⟨hunresolved, hhanded, htransfers⟩ := hI.transfer ha
    refine ⟨(hlifecycle ha).trans hunresolved, hr.handed hhanded, ?_⟩
    by_cases ht : t = DeviceTask.usb
    · subst ht
      rw [Function.update_self]
      exact hf.transfers rfl (hG ▸ htransfers)
    · rwa [Function.update_of_ne (Ne.symm ht)]

/-- The task goes on to another mark. -/
theorem OwnInv.mark (hI : OwnInv s h G) (hG : G t = g) (hf : OwnFollows t g m) (hfits : m.Fits t s h) :
    OwnInv s h (Function.update G t m) := hI.turn hG hf .refl hI.facts hfits rfl rfl rfl fun _ => rfl

end Frame

section Aloof

variable {s s' : Capsule} {h h' : OwnRecord} {G : DeviceTask → OwnMark} {t : DeviceTask} {g m : OwnMark} {c : DeviceChoice}
variable {o : DeviceOp} {r : o.Ans}

/-- The flags that the invariant speaks of. -/
def ownFlags : List DeviceFlag := [.stateLock, .stateEventsReady, .mounted, .usbReleaseRequested, .deviceFsReleased,
  .storageUsbOwned, .hostOwned, .transferAuthorized, .started, .driver]

/-- An operation that has no part in the passage of the storage. -/
def DeviceOp.aloof : DeviceOp → Bool
  | .store f _ => f ∉ ownFlags
  | .nvsWrite _ | .machineInit | .spawn _ | .manualWake => false
  | .transition next _ => next ≠ .remount
  | .setBits bits => .writerFinalized ∉ bits
  | .sd o => o ∈ [.transferReady, .releaseReady]
  | .card (.sinkOpen ..) | .card (.finalizePaths ..) | .card (.upsertFile ..) => false
  | _ => true

/-- Neither a transition nor the decision of the boot. -/
def DeviceOp.still : DeviceOp → Bool
  | .transition .. | .nvsRead => false
  | _ => true

theorem OwnRecord.acted_aloof (ho : o.aloof = true) (hs : h.begun = true ∨ o.still = true) (r : o.Ans) :
    h.acted t o r = h ∨ h.acted t o r = { h with dropped := true } := by
  cases o with
  | store f b => cases f <;> first | exact .inl rfl | cases ho
  | setBits bits =>
    have hbits : DeviceBit.writerFinalized ∉ bits := by simpa [DeviceOp.aloof] using ho
    simp [acted, hbits]
  | sd o => cases o <;> first | exact .inl rfl | cases ho
  | card o => cases o <;> first | exact .inl rfl | cases ho
  | platform p =>
    cases p with
    | mscDeleteStorage =>
      rw [acted]
      cases h.torn && r with
      | true => exact .inr (by rw [Bool.or_true])
      | false => exact .inl (by rw [Bool.or_false])
    | _ => exact .inl rfl
  | nvsWrite l => cases ho
  | spawn u => cases ho
  | manualWake => cases ho
  | nvsRead =>
    have hbegun : h.begun = true := hs.resolve_right (by rintro ⟨⟩)
    rcases r with _ | l
    · exact .inl rfl
    · cases l <;> simp [acted, hbegun]
  | _ => exact .inl rfl

/-- The invariant sees no difference in the memory, but for a transition. -/
structure Alike (s s' : Capsule) : Prop where
  lifecycle : s'.nvs.lifecycle = s.nvs.lifecycle
  flag : ∀ f ∈ ownFlags, s'.flag f = s.flag f
  bit : s'.bit .writerFinalized = true → s.bit .writerFinalized = true
  parked : Parked s → Parked s'
  error : s.machine.state = .error → s'.machine.state = .error

theorem parked_transition {next : RecorderState} {reason : RecorderReason} {appended : Bool} (hn : next ≠ .remount)
    (hp : Parked s) : Parked (s.transition next reason appended).2 := by
  unfold Capsule.transition
  cases hm : recorderStateTransition s.machine next reason with
  | none => exact hp
  | some candidate =>
    have hstate := recorderStateTransition_state hm
    have hallowed : recorderStateTransitionAllowed s.machine.state next = true := by
      by_contra hnot
      simp [recorderStateTransition, hnot] at hm
    dsimp only
    split
    · cases he : recorderStateTransition s.machine .error .sdWrite with
      | none => exact hp
      | some m => exact .inr (.inr (recorderStateTransition_state he))
    · simp only [Parked, hstate]
      rcases hp with hp | hp | hp <;> rw [hp] at hallowed <;> revert hallowed hn <;> cases next <;> decide

theorem error_transition {next : RecorderState} {reason : RecorderReason} {appended : Bool}
    (he : s.machine.state = .error) : (s.transition next reason appended).2 = s := by
  simp [Capsule.transition, recorderStateTransition_error _ _ he]

theorem alike_act (ho : o.aloof = true) (ha : Capsule.act o c s = some (r, s')) : Alike s s' := by
  have hleaves := Capsule.act_leaves ha
  have hsnd := Capsule.act_snd ha
  refine ⟨?_, fun f hf => hleaves.flag f ?_, ?_, ?_, ?_⟩
  · cases o with
    | rtcSet | rtcClear =>
      obtain rfl := Option.some.inj hsnd
      simp only [Capsule.write]
      split <;> rfl
    | nvsWrite => cases ho
    | _ => rw [hleaves.nvs rfl]
  · cases o with
    | store k b =>
      simp only [DeviceOp.aloof, decide_eq_true_eq] at ho
      simp only [DeviceOp.touches, decide_eq_false_iff_not]
      rintro rfl
      exact ho hf
    | sd o => cases o <;> first | rfl | cases ho
    | casReleasePending =>
      simp only [DeviceOp.touches, decide_eq_false_iff_not]
      rintro rfl
      exact absurd hf (by decide)
    | _ => rfl
  · cases o with
    | setBits bits =>
      obtain rfl := Option.some.inj hsnd
      have hbits : DeviceBit.writerFinalized ∉ bits := by simpa [DeviceOp.aloof] using ho
      simp [Capsule.setBitsTo, hbits]
    | clearBits bits =>
      obtain rfl := Option.some.inj hsnd
      simp [Capsule.setBitsTo]
    | waitBits bits clear all timed =>
      rcases Capsule.waitBits_act ha with rfl | ⟨-, rfl⟩
      · exact id
      · simp [Capsule.setBitsTo]
    | _ =>
      rw [hleaves.bit rfl]
      exact id
  · cases o with
    | transition next reason =>
      obtain rfl := Option.some.inj hsnd
      exact parked_transition (by simpa [DeviceOp.aloof] using ho)
    | machineInit => cases ho
    | _ =>
      intro hp
      rwa [Parked, hleaves.machine rfl]
  · cases o with
    | transition next reason =>
      obtain rfl := Option.some.inj hsnd
      intro he
      rwa [error_transition he]
    | machineInit => cases ho
    | _ =>
      rw [hleaves.machine rfl]
      exact id

theorem spawned_aloof (ho : o.aloof = true) (ha : Capsule.act o c s = some (r, s')) (u : DeviceTask)
    (hu : s'.spawned u = true) : s.spawned u = true := by
  have hleaves := Capsule.act_leaves ha
  cases o with
  | spawn => cases ho
  | deleteTask v =>
    obtain rfl := Option.some.inj (Capsule.act_snd ha)
    by_cases huv : u = v
    · simp [huv] at hu
    · simpa [Function.update_of_ne huv] using hu
  | _ => rwa [← hleaves.spawned rfl]

theorem CardSettled.alike (hs : CardSettled s h) (ha : Alike s s') : CardSettled s' h :=
  ⟨hs.opened, hs.writerDone, hs.released, ha.parked hs.parked, hs.complete⟩

theorem Locked.alike (hl : Locked s h) (ha : Alike s s') : Locked s' h := by rwa [Locked, ha.lifecycle]

theorem CardHanded.alike (hh : CardHanded s h) (ha : Alike s s') : CardHanded s' h :=
  ⟨hh.toCardSettled.alike ha, (ha.flag _ (by decide)).trans hh.freed, hh.locked.alike ha⟩

theorem CardAway.alike (hw : CardAway s h) (ha : Alike s s') : CardAway s' h :=
  ⟨hw.toCardHanded.alike ha, (ha.flag _ (by decide)).trans hw.unmounted⟩

theorem Rely.alike (ha : Alike s s') : Rely t s s' h h := by
  have hflag : ∀ f ∈ ownFlags, s'.flag f = s.flag f := ha.flag
  refine ⟨fun _ => ⟨rfl, rfl, rfl, rfl⟩, fun _ => id, fun _ => hflag _ (by decide),
    fun _ => ⟨rfl, rfl, rfl, rfl, hflag _ (by decide)⟩, fun _ => ha.error, ?_, id, id, id, id, id, id, id,
    fun hs => hs.alike ha, fun _ => ?_, fun hh => hh.locked.alike ha, fun _ => ?_, fun _ _ => ha.lifecycle, ?_⟩
  · rw [hflag .stateLock (by decide)]
    exact id
  · rw [hflag .deviceFsReleased (by decide)]
    exact id
  · rw [hflag .mounted (by decide)]
    exact id
  · rw [hflag .storageUsbOwned (by decide)]
    exact id

theorem OwnFacts.alike (hf : OwnFacts s h) (ha : Alike s s') (hmoves : h.begun = true ∨ s'.machine = s.machine) :
    OwnFacts s' h := by
  obtain ⟨early, closed, opened, bit, mounted, released, done, usbOwned, owned, host, live, torn⟩ := hf
  have hflag : ∀ f ∈ ownFlags, s'.flag f = s.flag f := ha.flag
  refine ⟨fun hb => ?_, ?_, ?_, fun hb => bit (ha.bit hb), ?_, ?_, fun hd => ?_, ?_, fun ho => ?_, ?_, ?_, ?_⟩
  · rw [hflag _ (by decide), hmoves.resolve_left (by simp [hb])]
    exact early hb
  · rwa [hflag .storageUsbOwned (by decide), hflag .hostOwned (by decide), hflag .transferAuthorized (by decide)]
  · rwa [hflag .stateLock (by decide)]
  · rwa [hflag .mounted (by decide)]
  · rwa [hflag .usbReleaseRequested (by decide)]
  · rw [hflag .stateLock (by decide), hflag .stateEventsReady (by decide)]
    exact ⟨(done hd).1, (done hd).2.1, (done hd).2.2.imp_left ha.error⟩
  · rw [hflag .storageUsbOwned (by decide)]
    exact fun hu => (usbOwned hu).alike ha
  · exact ⟨(owned ho).1.alike ha, (owned ho).2.imp_right fun hw => hw.alike ha⟩
  · rwa [hflag .storageUsbOwned (by decide), hflag .hostOwned (by decide)]
  · rwa [hflag .started (by decide)]
  · rwa [hflag .driver (by decide)]

theorem OwnInv.fits_alike (hI : OwnInv s h G) (ha : Alike s s') (u : DeviceTask) : (G u).Fits u s' h := by
  obtain ⟨v, hv⟩ : ∃ v, u ≠ v := by cases u <;> first | exact ⟨main, by decide⟩ | exact ⟨base, by decide⟩
  exact (hI.fits u).rely (t := v) (.alike ha) hv (hI.own u) fun hu hb hactive => hI.lock u hu hb (.inr hactive)

/-- That the storage is gone is noted, and nothing else. -/
theorem OwnInv.drop (hI : OwnInv s h G) : OwnInv s { h with dropped := true } G := by
  have hsettled : CardSettled s h → CardSettled s { h with dropped := true } :=
    fun hs => ⟨hs.opened, hs.writerDone, hs.released, hs.parked, hs.complete⟩
  have haway : CardAway s h → CardAway s { h with dropped := true } :=
    fun hw => ⟨⟨hsettled hw.toCardSettled, hw.freed, hw.locked⟩, hw.unmounted⟩
  have hrely : ∀ t, Rely t s s h { h with dropped := true } := fun t =>
    ⟨fun _ => ⟨rfl, rfl, rfl, rfl⟩, fun _ => id, fun _ => rfl, fun _ => ⟨rfl, rfl, rfl, rfl, rfl⟩, fun _ => id, id, id, id, id,
      id, id, id, fun _ => rfl, hsettled, fun _ => id, fun hh => hh.locked, fun _ => id, fun _ _ => rfl, id⟩
  obtain ⟨early, closed, opened, bit, mounted, released, done, usbOwned, owned, host, live, torn⟩ := hI.facts
  have hfacts : OwnFacts s { h with dropped := true } := ⟨early, closed, opened, bit, mounted, released, done,
    fun hu => haway (usbOwned hu), fun ho => ⟨(owned ho).1, (owned ho).2.imp_right haway⟩, host, live, torn⟩
  have hmarks := hI.fits main
  rw [← Function.update_eq_self main G]
  refine hI.turn rfl ⟨hI.own main, fun _ => id, fun _ => id⟩ (hrely main) hfacts ?_ rfl rfl rfl fun _ => rfl
  exact hmarks.rely (hrely base) (by decide) (hI.own main) fun hm => absurd rfl hm

/-- An operation that has no part in the passage, under an unchanged mark. -/
theorem aloof_act (hI : OwnInv s h G) (ho : o.aloof = true) (hs : h.begun = true ∨ o.still = true)
    (ha : Capsule.act o c s = some (r, s')) : OwnInv s' (h.acted t o r) G := by
  have halike := alike_act ho ha
  have hsame : OwnInv s' h G := by
    rw [← Function.update_eq_self t G]
    refine hI.next rfl (hI.own t) (fun _ => id) (.alike halike) (hI.facts.alike halike ?_) (hI.fits_alike halike t)
      (spawned_aloof ho ha) (fun hd => hI.running (.inl ?_)) fun ht => ?_
    · refine hs.imp_right fun hstill => (Capsule.act_leaves ha).machine ?_
      cases o <;> first | rfl | cases ho | cases hstill
    · rwa [halike.flag _ (by decide)] at hd
    · rw [halike.flag _ (by decide)] at ht
      obtain ⟨hlifecycle, hhanded, htransfers⟩ := hI.transfer ht
      refine ⟨halike.lifecycle.trans hlifecycle, hhanded.alike halike, ?_⟩
      rwa [Function.update_eq_self]
  rcases OwnRecord.acted_aloof (h := h) (t := t) ho hs r with hacted | hacted <;> rw [hacted]
  · exact hsame
  · exact hsame.drop

theorem OwnInv.begun (hI : OwnInv s h G) (hG : G t = g) (hg : g.later = true) : h.begun = true := by
  by_cases ht : t = main
  · subst ht
    have hfits := hI.fits main
    have hown := hI.own main
    rw [hG] at hfits hown
    cases g with
    | fresh | outside | booting | asked | staged => cases hg
    | waiting => exact hfits.1
    | opening => exact hfits.1
    | installing => exact (hI.facts.opened hfits.1).1
    | running => exact (hI.facts.opened hfits).1
    | inside => exact absurd rfl hown
    | expecting | noted => rcases hown with hown | hown <;> cases hown
    | _ => cases hown
  · exact hI.up t ht (.inr (by rw [hG]; cases g <;> first | rfl | cases hg))

/-- One operation. -/
theorem keeps_own_op {Q : o.Ans → OwnMark → Prop}
    (hact : ∀ s h G, OwnInv s h G → G t = g → ∀ c r s', Capsule.act o c s = some (r, s') →
      ∃ m, OwnInv s' (h.acted t o r) (Function.update G t m) ∧ Q r m) : KeepsOwn t (.op o) Q g := by
  refine keeps_op trivial fun m h G hI _ hG choice r m' ha _ => ?_
  simp only [Code.remember, deviceCode, Option.map_eq_some_iff] at ha
  obtain ⟨⟨r', s'⟩, ha, hpair⟩ := ha
  obtain ⟨rfl, rfl⟩ := Prod.mk.inj hpair
  exact hact m.1 h G hI hG choice r' s' (Capsule.act_of_actAwake ha)

/-- A program that has no part in the passage of the storage. -/
abbrev Aloof {α : Type} (p : DeviceProg α) : Prop := Only (fun o => o.aloof = true) p

theorem keeps_aloof {α : Type} {p : DeviceProg α} {Q : α → OwnMark → Prop} (hp : Aloof p) (hg : g.later = true)
    (hQ : ∀ a, Q a g) : KeepsOwn t p Q g := by
  refine keeps_of_only hp trivial (fun o ho m h G hI _ hG choice r m' ha _ => ?_) hQ
  simp only [Code.remember, deviceCode, Option.map_eq_some_iff] at ha
  obtain ⟨⟨r', s'⟩, ha, hpair⟩ := ha
  obtain ⟨rfl, rfl⟩ := Prod.mk.inj hpair
  exact aloof_act hI ho (.inl (hI.begun hG hg)) (Capsule.act_of_actAwake ha)

/-- The same for a boot that has not yet begun with its tasks. -/
theorem keeps_still {α : Type} {p : DeviceProg α} {Q : α → OwnMark → Prop}
    (hp : Only (fun o => o.aloof = true ∧ o.still = true) p) (hQ : ∀ a, Q a g) : KeepsOwn t p Q g := by
  refine keeps_of_only hp trivial (fun o ho m h G hI _ hG choice r m' ha _ => ?_) hQ
  simp only [Code.remember, deviceCode, Option.map_eq_some_iff] at ha
  obtain ⟨⟨r', s'⟩, ha, hpair⟩ := ha
  obtain ⟨rfl, rfl⟩ := Prod.mk.inj hpair
  exact aloof_act hI ho.1 (.inr ho.2) (Capsule.act_of_actAwake ha)

/-- A look at the memory, after which the task goes on to another mark. -/
theorem keeps_sight {Q : o.Ans → OwnMark → Prop} (hacted : ∀ (h : OwnRecord) r, h.acted t o r = h)
    (hread : ∀ s h G, OwnInv s h G → G t = g → ∀ c r s', Capsule.act o c s = some (r, s') →
      s' = s ∧ ∃ m, OwnFollows t g m ∧ m.Fits t s h ∧ Q r m) : KeepsOwn t (.op o) Q g := by
  refine keeps_own_op fun s h G hI hG c r s' ha => ?_
  obtain ⟨rfl, m, hf, hfits, hQ⟩ := hread s h G hI hG c r s' ha
  rw [hacted]
  exact ⟨m, hI.mark hG hf hfits, hQ⟩

theorem keeps_flag {f : DeviceFlag} {Q : Bool → OwnMark → Prop}
    (hlook : ∀ s h G, OwnInv s h G → G t = g → ∃ m, OwnFollows t g m ∧ m.Fits t s h ∧ Q (s.flag f) m) :
    KeepsOwn t (load f) Q g := by
  refine keeps_sight (fun _ _ => rfl) fun s h G hI hG c r s' ha => ?_
  obtain ⟨rfl, rfl⟩ := Prod.mk.inj (Option.some.inj ha)
  exact ⟨rfl, hlook _ h G hI hG⟩

end Aloof

section Stores

variable {s s' : Capsule} {h h' : OwnRecord} {G : DeviceTask → OwnMark} {t : DeviceTask} {g m : OwnMark} {c : DeviceChoice}

/-- Who may store what in the flags of the passage, and when. -/
def MayStore (t : DeviceTask) (m : OwnMark) (s : Capsule) (h : OwnRecord) : DeviceFlag → Bool → Prop
  | .stateLock, b => t = base ∧ b = true
  | .stateEventsReady, _ => t = writer ∧ h.writerDone = false
  | .storageUsbOwned, true => CardAway s h
  | .storageUsbOwned, false => h.torn = true ∨ s.flag .storageUsbOwned = false
  | .hostOwned, b => b = true → h.opened = true ∧ (s.flag .storageUsbOwned = true ∨ h.torn = true)
  | .transferAuthorized, b => b = true → t = DeviceTask.usb ∧ m.transfers = true ∧ CardHanded s h ∧
    s.nvs.lifecycle = .hostUnresolved
  | .started, b => b = true → t = main ∧ h.opened = true
  | .driver, true => h.opened = true ∧ h.torn = false
  | .driver, false => t = DeviceTask.usb → h.live = true
  | _, _ => False

/-- What a permitted store notes. -/
theorem MayStore.acted {f : DeviceFlag} {b : Bool} (hm : MayStore t m s h f b) : ∃ live owned torn,
    h.acted t (.store f b) () = { h with live := live, owned := owned, torn := torn } ∧
      ((h.live = true → live = true) ∧ (live = true → h.live = true ∨ t = main ∧ h.opened = true) ∧
        (f = .started → b = true → live = true)) ∧
      (owned = true → h.owned = true ∨ CardAway s h) ∧
      ((h.torn = true → torn = true) ∧ (torn = true → h.torn = true ∨ f = .driver ∧ b = false ∧ h.live = true)) := by
  have hsame (hn : ¬ (f = .started ∧ b = true)) : ∃ live owned torn, h = { h with live := live, owned := owned, torn := torn } ∧
      ((h.live = true → live = true) ∧ (live = true → h.live = true ∨ t = main ∧ h.opened = true) ∧
        (f = .started → b = true → live = true)) ∧
      (owned = true → h.owned = true ∨ CardAway s h) ∧
      ((h.torn = true → torn = true) ∧ (torn = true → h.torn = true ∨ f = .driver ∧ b = false ∧ h.live = true)) :=
    ⟨h.live, h.owned, h.torn, rfl, ⟨id, .inl, fun hf hb => absurd ⟨hf, hb⟩ hn⟩, .inl, id, .inl⟩
  cases f with
  | started =>
    cases b with
    | true => exact ⟨true, h.owned, h.torn, rfl, ⟨fun _ => rfl, fun _ => .inr (hm rfl), fun _ _ => rfl⟩, .inl, id, .inl⟩
    | false => exact hsame (by simp)
  | storageUsbOwned =>
    cases b with
    | true => exact ⟨h.live, true, h.torn, rfl, ⟨id, .inl, by simp⟩, fun _ => .inr hm, id, .inl⟩
    | false => exact hsame (by simp)
  | driver =>
    cases b with
    | true => exact hsame (by simp)
    | false =>
      by_cases ht : t = DeviceTask.usb
      · exact ⟨h.live, h.owned, true, if_pos ht, ⟨id, .inl, by simp⟩, .inl, fun _ => rfl, fun _ => .inr ⟨rfl, rfl, hm ht⟩⟩
      · rw [show h.acted t (.store .driver false) () = h from if_neg ht]
        exact hsame (by simp)
  | _ => exact hsame (by simp)

theorem Rely.store {f : DeviceFlag} {b : Bool} (hf : OwnFacts s h) (hm : MayStore t m s h f b) :
    Rely t s (s.set f b) h (h.acted t (.store f b) ()) := by
  obtain ⟨live, owned, torn, hacted, hlive, howned, htorn⟩ := hm.acted
  rw [hacted]
  have hkeeps (k : DeviceFlag) (hk : k ≠ f) : (s.set f b).flag k = s.flag k := by rw [Capsule.flag_set, if_neg hk]
  have hstays (k : DeviceFlag) (hk : f = k → b = true) (hs : s.flag k = true) : (s.set f b).flag k = true := by
    rw [Capsule.flag_set]
    split
    case isTrue he => exact hk he.symm
    case isFalse => exact hs
  have hsettled (hs : CardSettled s h) : CardSettled (s.set f b) { h with live := live, owned := owned, torn := torn } :=
    ⟨hs.opened, hs.writerDone, hs.released, hs.parked, hs.complete⟩
  refine ⟨fun ht => ⟨rfl, rfl, ?_, rfl⟩, fun hb ho => ?_, fun ht => hkeeps _ ?_, fun ht => ⟨rfl, rfl, rfl, rfl, hkeeps _ ?_⟩,
    fun _ => id, hstays _ ?_, hlive.1, id, id, id, id, htorn.1, id, hsettled, fun _ hfreed => (hkeeps _ ?_).trans hfreed,
    fun hh => hh.locked, fun _ hmounted => (hkeeps _ ?_).trans hmounted, fun _ _ => rfl, ?_⟩
  · cases hold : h.live with
    | true => exact hlive.1 hold
    | false =>
      by_contra hn
      rcases hlive.2.1 (by simpa using hn) with hl | ⟨hmain, -⟩
      · simp [hold] at hl
      · exact ht hmain
  · by_contra hn
    rcases howned (by simpa using hn) with hown | haway
    · simp [ho] at hown
    · simp [(hf.opened haway.opened).1] at hb
  · rintro rfl
    exact ht hm.1
  · rintro rfl
    exact ht hm.1
  · rintro rfl
    exact hm.2
  · rintro rfl
    exact hm
  · rintro rfl
    exact hm
  · intro hor
    rcases hor with hu | ht
    · by_cases hfu : f = .storageUsbOwned
      · subst hfu
        cases b with
        | true => exact .inl (hstays _ (fun _ => rfl) hu)
        | false =>
          rcases hm with ht | hoff
          · exact .inr (htorn.1 ht)
          · simp [hoff] at hu
      · exact .inl ((hkeeps _ (Ne.symm hfu)).trans hu)
    · exact .inr (htorn.1 ht)

theorem OwnFacts.store {f : DeviceFlag} {b : Bool} (hf : OwnFacts s h) (hm : MayStore t m s h f b) :
    OwnFacts (s.set f b) (h.acted t (.store f b) ()) := by
  have hrely := Rely.store hf hm
  obtain ⟨live, owned, torn, hacted, hlive, howned, htorn⟩ := hm.acted
  rw [hacted] at hrely ⊢
  have hkeeps (k : DeviceFlag) (hk : k ≠ f) : (s.set f b).flag k = s.flag k := by rw [Capsule.flag_set, if_neg hk]
  have hstores (k : DeviceFlag) (hk : f = k) : (s.set f b).flag k = b := by rw [Capsule.flag_set, if_pos hk.symm]
  have hoff (k : DeviceFlag) (hs : s.flag k = false) (hk : f = k → b = false) : (s.set f b).flag k = false := by
    by_cases hfk : f = k
    · exact (hstores k hfk).trans (hk hfk)
    · exact (hkeeps k (Ne.symm hfk)).trans hs
  have hraised (k : DeviceFlag) (hs : (s.set f b).flag k = true) : f = k ∧ b = true ∨ s.flag k = true := by
    by_cases hfk : f = k
    · exact .inl ⟨hfk, (hstores k hfk).symm.trans hs⟩
    · exact .inr ((hkeeps k (Ne.symm hfk)).symm.trans hs)
  have hmount (k : DeviceFlag) (hk : k = .mounted ∨ k = .usbReleaseRequested) : (s.set f b).flag k = s.flag k := by
    refine hkeeps k ?_
    rintro rfl
    rcases hk with rfl | rfl <;> exact hm
  have hclears (ho : h.opened = false) (k : DeviceFlag) (hk : f = k)
      (hl : k = .storageUsbOwned ∨ k = .hostOwned ∨ k = .transferAuthorized) : b = false := by
    cases b with
    | false => rfl
    | true =>
      have hopened : h.opened = true := by
        subst hk
        rcases hl with rfl | rfl | rfl
        · have haway : CardAway s h := hm
          exact haway.opened
        · exact (hm rfl).1
        · exact (hm rfl).2.2.1.opened
      simp [hopened] at ho
  obtain ⟨early, closed, opened, bit, mounted, released, done, usbOwned, owns, host, started, tears⟩ := hf
  refine ⟨fun hb => ⟨(hmount _ (.inl rfl)).trans (early hb).1, (early hb).2⟩, fun ho => ⟨?_, ?_, ?_, ?_⟩,
    fun ho => ⟨(opened ho).1, hrely.raised (opened ho).2⟩, bit, fun hs => mounted ((hmount _ (.inl rfl)).symm.trans hs),
    fun hs => ⟨(hmount _ (.inr rfl)).trans (released hs).1, (released hs).2⟩,
    fun hd => ⟨hrely.raised (done hd).1, hoff _ (done hd).2.1 ?_, (done hd).2.2⟩, fun hu => hrely.away ?_, fun ho => ?_, fun hh => ?_,
    fun hs => ?_, fun ht => ?_⟩
  · exact hoff _ (closed ho).1 fun hk => hclears ho _ hk (.inl rfl)
  · exact hoff _ (closed ho).2.1 fun hk => hclears ho _ hk (.inr (.inl rfl))
  · exact hoff _ (closed ho).2.2.1 fun hk => hclears ho _ hk (.inr (.inr rfl))
  · by_contra hn
    have ho : h.opened = false := ho
    rcases hlive.2.1 (by simpa using hn) with hl | ⟨-, hl⟩
    · simp [(closed ho).2.2.2] at hl
    · simp [ho] at hl
  · rintro rfl
    have hdone : h.writerDone = true := hd
    simp [hm.2] at hdone
  · rcases hraised _ hu with ⟨rfl, rfl⟩ | hu
    · exact hm
    · exact usbOwned hu
  · rcases howned ho with ho | haway
    · exact ⟨(owns ho).1, (owns ho).2.imp_right hrely.away⟩
    · exact ⟨haway.locked, .inr (hrely.away haway)⟩
  · rcases hraised _ hh with ⟨rfl, rfl⟩ | hh
    · exact hrely.usbOwned (hm rfl).2
    · exact hrely.usbOwned (host hh)
  · rcases hraised _ hs with ⟨hk, hb⟩ | hs
    · exact hlive.2.2 hk hb
    · exact hlive.1 (started hs)
  · rcases htorn.2 ht with ht | ⟨rfl, rfl, hl⟩
    · refine ⟨hoff _ (tears ht).1 ?_, hlive.1 (tears ht).2⟩
      rintro rfl
      cases b with
      | false => rfl
      | true => exact absurd ht (by simp [hm.2])
    · exact ⟨hstores _ rfl, hlive.1 hl⟩

/-- A permitted store. -/
theorem OwnInv.store {f : DeviceFlag} {b : Bool} (hI : OwnInv s h G) (hG : G t = g) (hm : MayStore t m s h f b)
    (hown : m.Of t) (hup : t ≠ main → m.active = true → g.active = true)
    (htransfers : t = DeviceTask.usb → f ≠ .transferAuthorized → g.transfers = true → m.transfers = true)
    (hfits : m.Fits t (s.set f b) (h.acted t (.store f b) ())) :
    OwnInv (s.set f b) (h.acted t (.store f b) ()) (Function.update G t m) := by
  have hrely := Rely.store hI.facts hm
  refine hI.next hG hown hup hrely (hI.facts.store hm) hfits (fun _ => id) (fun hd => ?_) fun ha => ?_
  · by_cases hf : f = .driver
    · subst hf
      cases b with
      | true => exact hm.1
      | false => rw [Capsule.flag_set, if_pos rfl] at hd; cases hd
    · rw [Capsule.flag_set, if_neg (Ne.symm hf)] at hd
      exact hrely.opened (hI.running (.inl hd))
  · by_cases hf : f = .transferAuthorized
    · subst hf
      rw [Capsule.flag_set, if_pos rfl] at ha
      obtain ⟨rfl, hmark, hhanded, hlifecycle⟩ := hm ha
      exact ⟨hlifecycle, hrely.handed hhanded, by rwa [Function.update_self]⟩
    · rw [Capsule.flag_set, if_neg (Ne.symm hf)] at ha
      obtain ⟨hlifecycle, hhanded, hmark⟩ := hI.transfer ha
      refine ⟨hlifecycle, hrely.handed hhanded, ?_⟩
      by_cases ht : t = DeviceTask.usb
      · subst ht
        rw [Function.update_self]
        exact htransfers rfl hf (hG ▸ hmark)
      · rwa [Function.update_of_ne (Ne.symm ht)]

theorem keeps_stores {f : DeviceFlag} {b : Bool} {Q : Unit → OwnMark → Prop}
    (hstore : ∀ s h G, OwnInv s h G → G t = g → ∃ m, MayStore t m s h f b ∧ m.Of t ∧
      (t ≠ main → m.active = true → g.active = true) ∧
      (t = DeviceTask.usb → f ≠ .transferAuthorized → g.transfers = true → m.transfers = true) ∧
      m.Fits t (s.set f b) (h.acted t (.store f b) ()) ∧ Q () m) : KeepsOwn t (store f b) Q g := by
  refine keeps_own_op fun s h G hI hG c r s' ha => ?_
  obtain ⟨rfl, rfl⟩ := Prod.mk.inj (Option.some.inj ha)
  obtain ⟨m, hm, hown, hup, htransfers, hfits, hQ⟩ := hstore s h G hI hG
  exact ⟨m, hI.store hG hm hown hup htransfers hfits, hQ⟩

end Stores

section Steps

variable {s s' : Capsule} {h h' : OwnRecord} {G : DeviceTask → OwnMark} {t : DeviceTask} {g m : OwnMark} {c : DeviceChoice}

/-- Who may enter which critical section of the mount, and when. -/
def MayEnter (t : DeviceTask) (h : OwnRecord) : SdOp → Prop
  | .setMounted => t = writer ∧ h.writerDone = false ∧ h.released = false
  | .setUnmounted | .beginUnmount => t = writer ∧ h.writerDone = false
  | .releaseForUsb => t = DeviceTask.usb
  | _ => True

/-- A critical section of the mount moves the flags of the mount only. -/
structure Mounts (t : DeviceTask) (s s' : Capsule) (h h' : OwnRecord) : Prop where
  record : ∃ mounted released, h' = { h with mounted := mounted, released := released }
  nvs : s'.nvs = s.nvs
  machine : s'.machine = s.machine
  bit : s'.bit = s.bit
  flag : ∀ f ∉ [DeviceFlag.mounted, .usbReleaseRequested, .deviceFsReleased], s'.flag f = s.flag f
  writer : t ≠ DeviceTask.writer → h'.mounted = h.mounted
  released : h.released = true → h'.released = true
  freed : CardSettled s h → s.flag .deviceFsReleased = true → s'.flag .deviceFsReleased = true
  unmounted : CardSettled s h → s.flag .mounted = false → s'.flag .mounted = false
  mounted : s'.flag .mounted = true → h'.mounted = true
  requested : h'.released = true → s'.flag .usbReleaseRequested = true ∧ h'.mounted = true

theorem Mounts.rely (hm : Mounts t s s' h h') : Rely t s s' h h' := by
  obtain ⟨⟨mounted, released, rfl⟩, hnvs, hmachine, -, hflag, hwriter, hreleased, hfreed, hunmounted, -, -⟩ := hm
  have hsettled (hs : CardSettled s h) : CardSettled s' { h with mounted := mounted, released := released } :=
    ⟨hs.opened, hs.writerDone, hreleased hs.released, by simpa only [Parked, hmachine] using hs.parked, hs.complete⟩
  have hkeeps {k : DeviceFlag} (hk : k ∉ [DeviceFlag.mounted, .usbReleaseRequested, .deviceFsReleased]) {b : Bool}
      (hs : s.flag k = b) : s'.flag k = b := (hflag k hk).trans hs
  refine ⟨fun _ => ⟨rfl, rfl, rfl, rfl⟩, fun _ => id, fun _ => hflag _ (by decide),
    fun ht => ⟨rfl, hwriter ht, rfl, rfl, hflag _ (by decide)⟩, fun _ he => by rw [hmachine, he], hkeeps (by decide), id, id, id,
    hreleased, id, id, id, hsettled, hfreed, fun hh => ?_, hunmounted, fun _ _ => by rw [hnvs],
    Or.imp_left (hkeeps (by decide))⟩
  have hlocked := hh.locked
  rwa [Locked, hnvs]

theorem Mounts.facts (hm : Mounts t s s' h h') (hf : OwnFacts s h) (hb : h.begun = true) : OwnFacts s' h' := by
  have hrely := hm.rely
  obtain ⟨⟨mounted, released, rfl⟩, hnvs, hmachine, hbit, hflag, -, -, -, -, hmounted, hrequested⟩ := hm
  obtain ⟨-, closed, opened, bit, -, -, done, usbOwned, owned, host, live, torn⟩ := hf
  have hkeeps {k : DeviceFlag} (hk : k ∉ [DeviceFlag.mounted, .usbReleaseRequested, .deviceFsReleased]) {b : Bool}
      (hs : s'.flag k = b) : s.flag k = b := (hflag k hk).symm.trans hs
  refine ⟨fun hn => absurd hb (by simpa using hn), ?_, fun ho => ⟨hb, hrely.raised (opened ho).2⟩, ?_, hmounted, hrequested,
    fun hd => ⟨hrely.raised (done hd).1, ?_, ?_⟩, fun hu => hrely.away (usbOwned (hkeeps (by decide) hu)), fun ho => ?_,
    fun hh => hrely.usbOwned (host (hkeeps (by decide) hh)), fun hs => live (hkeeps (by decide) hs), fun ht => ?_⟩
  · rwa [hflag .storageUsbOwned (by decide), hflag .hostOwned (by decide), hflag .transferAuthorized (by decide)]
  · rwa [hbit]
  · rw [hflag _ (by decide)]
    exact (done hd).2.1
  · rw [hmachine]
    exact (done hd).2.2
  · refine ⟨?_, (owned ho).2.imp_right hrely.away⟩
    rw [Locked, hnvs]
    exact (owned ho).1
  · rw [hflag _ (by decide)]
    exact torn ht

theorem mounts_sd {o : SdOp} (hf : OwnFacts s h) (hm : MayEnter t h o) :
    Mounts t s (s.sd o).2 h (h.acted t (.sd o) (s.sd o).1) := by
  have hset (s : Capsule) (f : DeviceFlag) (b : Bool) (k : DeviceFlag) : (s.set f b).flag k = if k = f then b else s.flag k :=
    s.flag_set f k b
  have hsame : Mounts t s s h h := ⟨⟨_, _, rfl⟩, rfl, rfl, rfl, fun _ _ => rfl, fun _ => rfl, id, fun _ => id, fun _ => id,
    hf.mounted, hf.released⟩
  -- the writer is in a section of the mount only while it is not done, and the card settles after that
  have hopen (hd : h.writerDone = false) (hs : CardSettled s h) : False := by
    have := hs.writerDone
    simp [hd] at this
  have hother {k : DeviceFlag} (hk : k ∉ [DeviceFlag.mounted, .usbReleaseRequested, .deviceFsReleased]) :
      k ≠ .mounted ∧ k ≠ .usbReleaseRequested ∧ k ≠ .deviceFsReleased := by simpa using hk
  cases o with
  | transferReady | releaseReady => exact hsame
  | setMounted =>
    obtain ⟨rfl, hd, hr⟩ := hm
    refine ⟨⟨true, h.released, rfl⟩, rfl, rfl, rfl, fun k hk => ?_, fun ht => absurd rfl ht, id, fun hs => (hopen hd hs).elim,
      fun hs => (hopen hd hs).elim, fun _ => rfl, fun hs => ?_⟩
    · obtain ⟨hk, hk', hk''⟩ := hother hk
      simp only [Capsule.sd, hset, if_neg hk, if_neg hk', if_neg hk'']
    · have hs : h.released = true := hs
      simp [hr] at hs
  | setUnmounted =>
    obtain ⟨rfl, hd⟩ := hm
    refine ⟨⟨_, _, rfl⟩, rfl, rfl, rfl, fun k hk => ?_, fun _ => rfl, id, fun hs => (hopen hd hs).elim,
      fun hs => (hopen hd hs).elim, ?_, hf.released⟩
    · obtain ⟨hk, -, hk''⟩ := hother hk
      simp only [Capsule.sd, hset, if_neg hk, if_neg hk'']
    · simp [Capsule.sd, hset]
  | beginUnmount =>
    obtain ⟨rfl, hd⟩ := hm
    simp only [Capsule.sd, OwnRecord.acted]
    split
    · refine ⟨⟨_, _, rfl⟩, rfl, rfl, rfl, fun k hk => ?_, fun _ => rfl, id, fun hs => (hopen hd hs).elim,
        fun hs => (hopen hd hs).elim, ?_, ?_⟩
      · rw [hset, if_neg (hother hk).2.2]
      · simpa [hset] using hf.mounted
      · simpa [hset] using hf.released
    · exact hsame
  | releaseForUsb =>
    simp only [Capsule.sd]
    by_cases hrefused : ((!s.flag .mounted) = true ∨ (!s.flag .storage) = true) ∨ s.flag .usbReleaseRequested = true
    · rw [if_pos (by simpa [or_assoc] using hrefused)]
      simpa [OwnRecord.acted] using hsame
    · rw [if_neg (by simpa [or_assoc] using hrefused)]
      simp only [not_or, Bool.not_eq_true', Bool.not_eq_false, Bool.not_eq_true] at hrefused
      obtain ⟨⟨hmounted, -⟩, hrequested⟩ := hrefused
      have hfresh (hs : CardSettled s h) : False := by
        have := (hf.released hs.released).1
        simp [hrequested] at this
      refine ⟨⟨h.mounted, h.released || true, rfl⟩, rfl, rfl, rfl, fun k hk => ?_, fun _ => rfl, by simp [OwnRecord.acted],
        fun hs => (hfresh hs).elim, fun hs => (hfresh hs).elim, ?_, fun _ => ⟨by simp [hset], hf.mounted hmounted⟩⟩
      · obtain ⟨-, hk', hk''⟩ := hother hk
        rw [hset, if_neg hk'', hset, if_neg hk']
      · simpa [hset, OwnRecord.acted] using hf.mounted
  | noteUsbOwned =>
    simp only [Capsule.sd, OwnRecord.acted]
    split
    · refine ⟨⟨_, _, rfl⟩, rfl, rfl, rfl, fun k hk => ?_, fun _ => rfl, id, fun _ hfreed => ?_, ?_, ?_, ?_⟩
      · rw [hset, if_neg (hother hk).1]
      · simpa [hset] using hfreed
      · simp [hset]
      · simp [hset]
      · simpa [hset] using hf.released
    · exact hsame

theorem Rely.sd {o : SdOp} (hf : OwnFacts s h) (hm : MayEnter t h o) :
    Rely t s (s.sd o).2 h (h.acted t (.sd o) (s.sd o).1) := (mounts_sd hf hm).rely

theorem OwnFacts.sd {o : SdOp} (hf : OwnFacts s h) (hm : MayEnter t h o) (hb : h.begun = true) :
    OwnFacts (s.sd o).2 (h.acted t (.sd o) (s.sd o).1) := (mounts_sd hf hm).facts hf hb

/-- Who may write which shutdown state, and when. -/
def MayWrite (t : DeviceTask) (s : Capsule) (h : OwnRecord) : Lifecycle → Prop
  | .hostUnresolved => t = DeviceTask.usb
  | .armed => t = DeviceTask.usb ∧ h.torn = true ∧ h.dropped = true ∧ s.flag .transferAuthorized = false
  | .normal => t = main ∧ h.opened = false ∧ h.owned = false
  | .wakeRecoveryPending => t = writer ∧ h.writerDone = false ∧ h.begun = true

/-- What is noted of a durable write. -/
theorem MayWrite.acted {l : Lifecycle} (hm : MayWrite t s h l) (ok : Bool) : ∃ quiesced,
    h.acted t (.nvsWrite l) ok = { h with quiesced := quiesced } ∧ (h.quiesced = true → quiesced = true) ∧
      (l = .armed → quiesced = true) := by
  cases l with
  | armed =>
    refine ⟨_, rfl, fun hq => ?_, fun _ => ?_⟩
    · rw [hq, Bool.true_or]
    · rw [hm.2.1, hm.2.2.1, Bool.true_and, Bool.or_true]
  | _ => exact ⟨h.quiesced, rfl, id, by rintro ⟨⟩⟩

/-- A write that may be made keeps the host's claim durable, but for one of a boot on which the host has none. -/
theorem Locked.write {l : Lifecycle} {quiesced : Bool} (hl : Locked s h) (hm : MayWrite t s h l)
    (hs : s' = { s with nvs := { s.nvs with lifecycle := l } } ∨ s' = s) (hq : h.quiesced = true → quiesced = true)
    (harmed : l = .armed → quiesced = true) (howned : h.opened = true ∨ h.owned = true)
    (hdone : h.writerDone = true ∨ h.begun = false) : Locked s' { h with quiesced := quiesced } := by
  rcases hs with rfl | rfl
  · cases l with
    | hostUnresolved => exact .inl rfl
    | armed => exact .inr ⟨harmed rfl, rfl⟩
    | normal =>
      obtain ⟨-, hopened, hunowned⟩ := hm
      simp [hopened, hunowned] at howned
    | wakeRecoveryPending =>
      obtain ⟨-, hundone, hbegun⟩ := hm
      simp [hundone, hbegun] at hdone
  · exact hl.imp_right fun hl => ⟨hq hl.1, hl.2⟩

theorem Rely.write {l : Lifecycle} (hm : MayWrite t s h l) (ok : Bool)
    (hs : s' = { s with nvs := { s.nvs with lifecycle := l } } ∨ s' = s) : Rely t s s' h (h.acted t (.nvsWrite l) ok) := by
  obtain ⟨quiesced, hacted, hq, harmed⟩ := hm.acted ok
  rw [hacted]
  have hflag : s'.flag = s.flag := by rcases hs with rfl | rfl <;> rfl
  have hmachine : s'.machine = s.machine := by rcases hs with rfl | rfl <;> rfl
  have hsettled (hs : CardSettled s h) : CardSettled s' { h with quiesced := quiesced } :=
    ⟨hs.opened, hs.writerDone, hs.released, by simpa only [Parked, hmachine] using hs.parked, hs.complete⟩
  refine ⟨fun _ => ⟨rfl, rfl, rfl, rfl⟩, fun _ => id, fun _ => by rw [hflag], fun _ => ⟨rfl, rfl, rfl, rfl, by rw [hflag]⟩,
    fun _ he => by rw [hmachine, he], fun hl => by rw [hflag, hl], id, id, id, id, id, id, id, hsettled,
    fun _ hf => by rw [hflag, hf], fun hh => ?_, fun _ hf => by rw [hflag, hf], fun ht hc => ?_, fun hu => by rwa [hflag]⟩
  · exact hh.locked.write hm hs hq harmed (.inl hh.opened) (.inl hh.writerDone)
  · rcases hs with rfl | rfl
    · cases l with
      | hostUnresolved => exact absurd hm ht
      | armed => exact absurd hm.1 ht
      | normal => exact absurd hc.opened (by simp [hm.2.1])
      | wakeRecoveryPending => exact absurd hc.writerDone (by simp [hm.2.1])
    · rfl

theorem OwnFacts.write {l : Lifecycle} (hf : OwnFacts s h) (hm : MayWrite t s h l) (ok : Bool)
    (hs : s' = { s with nvs := { s.nvs with lifecycle := l } } ∨ s' = s) : OwnFacts s' (h.acted t (.nvsWrite l) ok) := by
  have hrely := Rely.write hm ok hs
  obtain ⟨quiesced, hacted, hq, harmed⟩ := hm.acted ok
  rw [hacted] at hrely ⊢
  have hflag : s'.flag = s.flag := by rcases hs with rfl | rfl <;> rfl
  have hmachine : s'.machine = s.machine := by rcases hs with rfl | rfl <;> rfl
  have hbit : s'.bit = s.bit := by rcases hs with rfl | rfl <;> rfl
  obtain ⟨early, closed, opened, bit, mounted, released, done, usbOwned, owned, host, live, torn⟩ := hf
  refine ⟨by rwa [hflag, hmachine], by rwa [hflag], by rwa [hflag], by rwa [hbit], by rwa [hflag], by rwa [hflag],
    by rw [hflag, hmachine]; exact done, fun hu => hrely.away (usbOwned (by rwa [hflag] at hu)), fun ho => ?_, by rwa [hflag],
    by rwa [hflag], by rwa [hflag]⟩
  obtain ⟨hlocked, hwhen⟩ := owned ho
  refine ⟨hlocked.write hm hs hq harmed (.inr ho) ?_, hwhen.imp_right hrely.away⟩
  exact hwhen.symm.imp_left fun haway => haway.writerDone

theorem OwnInv.write {l : Lifecycle} (hI : OwnInv s h G) (hG : G t = g) (hm : MayWrite t s h l) {ok : Bool}
    (hs : s.write c { s.nvs with lifecycle := l } = (ok, s')) (hf : OwnFollows t g m)
    (htransfer : s.flag .transferAuthorized = false) (hfits : m.Fits t s' (h.acted t (.nvsWrite l) ok)) :
    OwnInv s' (h.acted t (.nvsWrite l) ok) (Function.update G t m) := by
  have hcases : s' = { s with nvs := { s.nvs with lifecycle := l } } ∨ s' = s := (Capsule.write_eq hs).imp_right fun hs => hs.2
  refine hI.turn hG hf (.write hm ok hcases) (hI.facts.write hm ok hcases) hfits ?_ ?_ ?_ fun ha => ?_
  · rcases hcases with rfl | rfl <;> rfl
  · rcases hcases with rfl | rfl <;> rfl
  · rcases hcases with rfl | rfl <;> rfl
  · rw [htransfer] at ha
    cases ha

theorem OwnInv.sd {o : SdOp} (hI : OwnInv s h G) (hG : G t = g) (hm : MayEnter t h o) (hb : h.begun = true)
    (hf : OwnFollows t g m) (hfits : m.Fits t (s.sd o).2 (h.acted t (.sd o) (s.sd o).1)) :
    OwnInv (s.sd o).2 (h.acted t (.sd o) (s.sd o).1) (Function.update G t m) := by
  refine hI.turn hG hf (.sd hI.facts hm) (hI.facts.sd hm hb) hfits ?_ (Capsule.flag_sd ?_) (Capsule.flag_sd ?_) fun _ => ?_
  · cases o <;> simp only [Capsule.sd] <;> (try split) <;> rfl
  · cases o <;> rfl
  · cases o <;> rfl
  · cases o <;> simp only [Capsule.sd] <;> (try split) <;> rfl

/-- The writer opens a part, finalizes it and commits it. -/
def DeviceOp.writes : DeviceOp → Bool
  | .card (.sinkOpen ..) | .card (.finalizePaths ..) | .card (.upsertFile ..) => true
  | _ => false

theorem OwnInv.card {o : DeviceOp} {r : o.Ans} (hI : OwnInv s h G) (hG : G writer = g) (ho : o.writes = true)
    (hdone : h.writerDone = false) (hf : OwnFollows writer g m) (hfits : m.Fits writer s (h.acted writer o r)) :
    OwnInv s (h.acted writer o r) (Function.update G writer m) := by
  obtain ⟨unfinished, uncommitted, hacted⟩ : ∃ unfinished uncommitted,
      h.acted writer o r = { h with unfinished := unfinished, uncommitted := uncommitted } := by
    cases o with
    | card o =>
      cases o with
      | sinkOpen sink path =>
        by_cases hr : r.1 = true
        · exact ⟨true, true, if_pos hr⟩
        · exact ⟨_, _, if_neg hr⟩
      | finalizePaths part wav => exact ⟨_, _, rfl⟩
      | upsertFile deviceId now entry => exact ⟨_, _, rfl⟩
      | _ => cases ho
    | _ => cases ho
  rw [hacted] at hfits ⊢
  have hsettled : ¬ CardSettled s h := fun hs => absurd hs.writerDone (by simp [hdone])
  obtain ⟨early, closed, opened, bit, mounted, released, done, usbOwned, owned, host, live, torn⟩ := hI.facts
  refine hI.turn hG hf ?_ ?_ hfits rfl rfl rfl fun _ => rfl
  · exact ⟨fun _ => ⟨rfl, rfl, rfl, rfl⟩, fun _ => id, fun _ => rfl, fun ht => absurd rfl ht, fun _ => id, id, id, id, id, id,
      id, id, id, fun hs => absurd hs hsettled, fun hs => absurd hs hsettled, fun hh => absurd hh.toCardSettled hsettled,
      fun hs => absurd hs hsettled, fun _ _ => rfl, id⟩
  · refine ⟨early, closed, opened, bit, mounted, released, fun hd => ?_, fun hu => absurd (usbOwned hu).toCardSettled hsettled,
      fun ho => ⟨(owned ho).1, (owned ho).2.imp_right fun hw => absurd hw.toCardSettled hsettled⟩, host, live, torn⟩
    exact absurd hd (by simp [hdone])

/-- The writer says that it has finished. -/
theorem OwnInv.finish {bits : List DeviceBit} (hI : OwnInv s h G) (hG : G writer = .closing)
    (hb : DeviceBit.writerFinalized ∈ bits) : OwnInv (s.setBitsTo bits true) (h.acted writer (.setBits bits) ())
      (Function.update G writer .inside) := by
  have hfits := hI.fits writer
  rw [hG] at hfits
  obtain ⟨hdone, hevents, hcomplete⟩ := hfits
  have hlock := hI.lock writer (by decide) (by decide) (.inr (by rw [hG]; rfl))
  have hacted : h.acted writer (.setBits bits) () = { h with writerDone := true } := by simp [OwnRecord.acted, hb]
  have hsettled : ¬ CardSettled s h := fun hs => absurd hs.writerDone (by simp [hdone])
  obtain ⟨early, closed, opened, bit, mounted, released, done, usbOwned, owned, host, live, torn⟩ := hI.facts
  rw [hacted]
  refine hI.turn hG ⟨(by decide : writer ≠ main), fun _ _ => rfl, fun ht => by cases ht⟩ ?_ ?_ trivial rfl rfl rfl fun _ => rfl
  · exact ⟨fun _ => ⟨rfl, rfl, rfl, rfl⟩, fun _ => id, fun _ => rfl, fun ht => absurd rfl ht, fun _ => id, id, id, id, id, id,
      fun _ => rfl, id, id, fun hs => absurd hs hsettled, fun hs => absurd hs hsettled,
      fun hh => absurd hh.toCardSettled hsettled, fun hs => absurd hs hsettled, fun _ _ => rfl, id⟩
  · exact ⟨early, closed, opened, fun _ => rfl, mounted, released, fun _ => ⟨hlock, hevents, hcomplete⟩,
      fun hu => absurd (usbOwned hu).toCardSettled hsettled,
      fun ho => ⟨(owned ho).1, (owned ho).2.imp_right fun hw => absurd hw.toCardSettled hsettled⟩, host, live, torn⟩

/-- The machine of the lifecycle is made before its lock, and so before anyone could have moved it. -/
theorem OwnInv.initialize (hI : OwnInv s h G) (hG : G base = .starting) :
    OwnInv { s with machine := .init } h (Function.update G base .starting) := by
  have hunlocked : s.flag .stateLock ≠ true := by
    have hfits := hI.fits base
    rw [hG] at hfits
    simpa [OwnMark.Fits] using hfits
  have hb : h.begun = true := hI.begun hG rfl
  have hsettled : ¬ CardSettled s h := fun hs => hunlocked (hI.facts.opened hs.opened).2
  have hfits := hI.fits base
  rw [hG] at hfits
  obtain ⟨early, closed, opened, bit, mounted, released, done, usbOwned, owned, host, live, torn⟩ := hI.facts
  refine hI.turn hG ⟨rfl, fun _ _ => rfl, fun ht => by cases ht⟩ ?_ ?_ hfits rfl rfl rfl fun _ => rfl
  · exact ⟨fun _ => ⟨rfl, rfl, rfl, rfl⟩, fun _ => id, fun _ => rfl, fun _ => ⟨rfl, rfl, rfl, rfl, rfl⟩,
      fun hl => absurd hl hunlocked, id, id, id, id, id, id, id, id, fun hs => absurd hs hsettled,
      fun hs => absurd hs hsettled, fun hh => absurd hh.toCardSettled hsettled, fun hs => absurd hs hsettled, fun _ _ => rfl, id⟩
  · exact ⟨fun hn => absurd hn (by simp [hb]), closed, opened, bit, mounted, released, fun hd => absurd (done hd).1 hunlocked,
      fun hu => absurd (usbOwned hu).toCardSettled hsettled,
      fun ho => ⟨(owned ho).1, (owned ho).2.imp_right fun hw => absurd hw.toCardSettled hsettled⟩, host, live, torn⟩

/-- A task is spawned. -/
theorem OwnInv.spawn {u : DeviceTask} (hI : OwnInv s h G) (hb : h.begun = true) (hlock : u ≠ base → s.flag .stateLock = true)
    (husb : u ∈ [DeviceTask.usb, tinyusb, cdc] → h.opened = true) :
    OwnInv { s with spawned := Function.update s.spawned u true } h G := by
  have halike : Alike s { s with spawned := Function.update s.spawned u true } := ⟨rfl, fun _ _ => rfl, id, id, id⟩
  refine ⟨hI.facts.alike halike (.inr rfl), hI.fits_alike halike, hI.own, fun _ _ _ => hb, fun v hm hv hor => ?_, ?_,
    fun ha => ⟨(hI.transfer ha).1, (hI.transfer ha).2.1.alike halike, (hI.transfer ha).2.2⟩⟩
  · by_cases hu : v = u
    · exact hlock (hu ▸ hv)
    · exact hI.lock v hm hv (hor.imp_left fun hs => by simpa [Function.update_of_ne hu] using hs)
  rintro (hd | ⟨v, hv, hs | hactive⟩)
  · exact hI.running (.inl hd)
  · by_cases huv : v = u
    · exact husb (huv ▸ hv)
    · exact hI.running (.inr ⟨v, hv, .inl (by simpa [Function.update_of_ne huv] using hs)⟩)
  · exact hI.running (.inr ⟨v, hv, .inr hactive⟩)

/-- What `app_main` notes before the card can have been passed on: the WAKE button, that the boot resumes, that the tasks
have begun, and that the coordinator may run. -/
theorem OwnInv.notes (hI : OwnInv s h G) (wake owned quiesced begun opened : Bool) (hG : G main = g) (hg : m.Of main)
    (hclosed : h.opened = false) (hbegun : h.begun = true → begun = true)
    (howned : owned = true → h.owned = true ∧ quiesced = h.quiesced ∧ begun = false)
    (hopened : opened = true → begun = true ∧ s.flag .stateLock = true)
    (hfits : m.Fits main s { h with wake := wake, owned := owned, quiesced := quiesced, begun := begun, opened := opened }) :
    OwnInv s { h with wake := wake, owned := owned, quiesced := quiesced, begun := begun, opened := opened }
      (Function.update G main m) := by
  have hsettled : ¬ CardSettled s h := fun hs => absurd hs.opened (by simp [hclosed])
  obtain ⟨early, closed, -, bit, mounted, released, done, usbOwned, owns, host, live, torn⟩ := hI.facts
  refine hI.next hG hg (fun hm => absurd rfl hm) ?_ ?_ hfits (fun _ => id) (fun hd => ?_) fun ha => ?_
  · exact ⟨fun hm => absurd rfl hm, fun _ ho => by by_contra hn; simp [(howned (by simpa using hn)).1] at ho, fun _ => rfl,
      fun _ => ⟨rfl, rfl, rfl, rfl, rfl⟩, fun _ => id, id, id, hbegun, fun ho => absurd ho (by simp [hclosed]), id, id, id, id,
      fun hs => absurd hs hsettled, fun hs => absurd hs hsettled, fun hh => absurd hh.toCardSettled hsettled,
      fun hs => absurd hs hsettled, fun _ _ => rfl, id⟩
  · refine ⟨fun hb => early ?_, fun _ => closed hclosed, hopened, bit, mounted, released, done,
      fun hu => absurd (usbOwned hu).toCardSettled hsettled, fun ho => ?_, host, live, torn⟩
    · by_contra hn
      simp [hbegun (by simpa using hn)] at hb
    · obtain ⟨hown, rfl, hb⟩ := howned ho
      exact ⟨(owns hown).1, .inl hb⟩
  · exact absurd (hI.running (.inl hd)) (by simp [hclosed])
  · rw [(closed hclosed).2.2.1] at ha
    cases ha

end Steps

end M5DayLog
