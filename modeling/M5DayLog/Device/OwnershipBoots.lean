import M5DayLog.Device.OwnershipWriter

/-! The coordinator, the callbacks and `app_main` under the invariant of the storage's passage, and what follows for every run
of boots: the card has one owner, and the host's claim outlives the power. -/

namespace M5DayLog

open Threads Bytes Fat Device DeviceProg DeviceTask

variable {s s' : Capsule} {h h' : OwnRecord} {G : DeviceTask → OwnMark} {t : DeviceTask} {g g' : OwnMark}

section Callbacks

theorem aloof_usbFail : Aloof usbFail := (aloof_load _).bind fun _ => aloof_ite (aloof_op rfl) (.ret _)

theorem aloof_notStarted : Aloof notStarted := (aloof_load _).bind fun _ => aloof_ite (.ret _) (aloof_isClear _)

/-- What the driver says of the storage is believed only while the coordinator has authorized the transfer. -/
theorem keeps_ownStorageEventCb (ht : t = tinyusb ∧ g = .inside ∨ t = usb ∧ g = .transferring) (event : StorageEvent) :
    KeepsOwn t (usbStorageEventCb event) (fun _ k => k = g) g := by
  have hlater : g.later = true := by rcases ht with ⟨-, rfl⟩ | ⟨-, rfl⟩ <;> rfl
  have htask : t = usb ∨ t = tinyusb := ht.elim (fun h => .inr h.1) fun h => .inl h.1
  have haloof {α : Type} {p : DeviceProg α} (hp : Aloof p) : KeepsOwn t p (fun _ k => k = g) g :=
    keeps_aloof hp hlater fun _ => rfl
  refine keeps_then (haloof (aloof_load _)) ?_
  rintro registered g rfl
  refine keeps_then (haloof (aloof_load _)) ?_
  rintro events g rfl
  split
  · exact rfl
  · cases event with
    | mountStart mountPoint =>
      refine keeps_then (haloof (aloof_anyOf (by simp [aloof_isClear, aloof_load, Only.ret]))) ?_
      rintro unexpected g rfl
      exact haloof (aloof_ite aloof_usbFail (.ret _))
    | mountComplete mountPoint =>
      refine keeps_then (R := fun b k => k = if b then .expecting else g) ?_ ?_
      · split
        · refine keeps_flag fun s h G hI hG => ?_
          cases hm : s.flag .transferAuthorized with
          | false => exact ⟨g, ⟨hG ▸ hI.own t, fun _ => id, fun _ => id⟩, hG ▸ hI.fits t, rfl⟩
          | true =>
            refine ⟨.expecting, ⟨htask, fun _ _ => ?_, fun _ _ => rfl⟩, (hI.transfer hm).2.1, rfl⟩
            cases g <;> first | rfl | cases hlater
        · exact rfl
      rintro expected _ rfl
      cases expected with
      | false => exact haloof aloof_usbFail
      | true =>
        refine keeps_then (R := fun _ k => k = .noted) (keeps_own_op fun s h G hI hG c r s' ha => ⟨.noted, ?_, rfl⟩) ?_
        · have hhanded : CardHanded s h := by
            have hfits := hI.fits t
            rwa [hG] at hfits
          have hmoved := hI.sd hG (o := .noteUsbOwned) (m := .noted) trivial (hI.begun hG rfl)
            ⟨htask, fun _ _ => rfl, fun _ _ => rfl⟩ ?_
          · obtain ⟨rfl, rfl⟩ := Prod.mk.inj (Option.some.inj ha)
            exact hmoved
          · refine ⟨(Rely.sd (t := t) hI.facts (o := .noteUsbOwned) trivial).handed hhanded, ?_⟩
            simp [Capsule.sd, (hI.facts.released hhanded.released).1, hhanded.freed, Capsule.flag_set]
        rintro _ _ rfl
        refine keeps_stores fun s h G hI hG => ?_
        have haway : CardAway s h := by
          have hfits := hI.fits t
          rwa [hG] at hfits
        have hrely := Rely.store (t := t) (m := g) (f := .storageUsbOwned) (b := true) hI.facts haway
        have hafter := hrely.handed haway.toCardHanded
        refine ⟨g, haway, ?_, fun _ _ => rfl, ?_, ?_, rfl⟩
        · rcases ht with ⟨rfl, rfl⟩ | ⟨rfl, rfl⟩
          · exact (by decide : tinyusb ≠ main)
          · exact rfl
        · rintro rfl - -
          rcases ht with ⟨ht, -⟩ | ⟨-, rfl⟩
          · cases ht
          · rfl
        · rcases ht with ⟨rfl, rfl⟩ | ⟨rfl, rfl⟩
          · trivial
          · exact hafter
    | mountFailed => exact haloof aloof_usbFail
    | formatRequired => exact haloof aloof_usbFail
    | formatFailed => exact haloof aloof_usbFail

theorem keeps_ownDeviceEventCb (event : TinyusbEvent) : KeepsOwn tinyusb (usbDeviceEventCb event) (fun _ _ => True) .inside := by
  have haloof {α : Type} {p : DeviceProg α} (hp : Aloof p) {g : OwnMark} (hg : g.later = true) :
      KeepsOwn tinyusb p (fun _ k => k = g) g := keeps_aloof hp hg fun _ => rfl
  have hends {p : DeviceProg Unit} (hp : Aloof p) {g : OwnMark} (hg : g.later = true) :
      KeepsOwn tinyusb p (fun _ _ => True) g := keeps_aloof hp hg fun _ => trivial
  have hfails : Aloof (do perform .tudDisconnect; usbFail) := (aloof_perform _).bind fun _ => aloof_usbFail
  refine keeps_then (haloof (aloof_load _) rfl) ?_
  rintro events _ rfl
  cases events with
  | false => trivial
  | true =>
    cases event with
    | attached =>
      refine keeps_then (R := fun b k => k = if b then .attaching else .inside) (keeps_flag fun s h G hI hG => ?_) ?_
      · cases hm : s.flag .storageUsbOwned with
        | false => exact ⟨.inside, ⟨(by decide : tinyusb ≠ main), fun _ _ => rfl, fun ht => by cases ht⟩, trivial, rfl⟩
        | true => exact ⟨.attaching, ⟨rfl, fun _ _ => rfl, fun ht => by cases ht⟩, .inl hm, rfl⟩
      rintro usbOwned _ rfl
      cases usbOwned with
      | false =>
        refine hends ?_ rfl
        exact (aloof_anyOf (by simp [aloof_isClear, aloof_load, aloof_notStarted])).bind fun _ =>
          aloof_ite aloof_usbFail (aloof_op rfl)
      | true =>
        refine keeps_then (haloof (aloof_load _) rfl) ?_
        rintro hostOwned _ rfl
        cases hostOwned with
        | true =>
          refine hends ?_ rfl
          exact (aloof_anyOf (by simp [aloof_load])).bind fun _ => aloof_ite hfails (.ret _)
        | false =>
          refine keeps_then (haloof (aloof_anyOf (by simp [aloof_isClear, aloof_load, aloof_notStarted])) rfl) ?_
          rintro mismatch _ rfl
          cases mismatch with
          | true => exact hends hfails rfl
          | false =>
            refine keeps_then (R := fun _ k => k = .inside) (keeps_stores fun s h G hI hG => ?_) ?_
            · have hfits := hI.fits tinyusb
              rw [hG] at hfits
              have hopened : h.opened = true := hI.running (.inr ⟨tinyusb, by simp, .inr (by rw [hG]; rfl)⟩)
              exact ⟨.inside, fun _ => ⟨hopened, hfits⟩, (by decide : tinyusb ≠ main), fun _ _ => rfl, (fun ht => by cases ht),
                trivial, rfl⟩
            rintro _ _ rfl
            exact hends ((aloof_op rfl).bind fun _ => (aloof_op rfl).bind fun _ => aloof_op rfl) rfl
    | detached =>
      refine hends ?_ rfl
      refine (aloof_anyOf (by simp [aloof_isClear, aloof_load])).bind fun _ => aloof_ite (aloof_op rfl) ?_
      exact (aloof_load _).bind fun _ => aloof_ite ((aloof_op rfl).bind fun _ => (aloof_load _).bind fun _ =>
        aloof_ite (aloof_perform _) (.ret _)) (.ret _)
    | suspended => trivial

theorem aloof_scsiCompleteCb (opcode : UInt8) : Aloof (tudMscScsiCompleteCb opcode) := by
  refine (aloof_anyOf (by simp [aloof_isClear, aloof_load])).bind fun _ => aloof_ite (aloof_ite ?_ (.ret _)) ?_
  · exact (aloof_anyOf (by simp [aloof_isClear, aloof_load, aloof_notStarted])).bind fun _ => aloof_ite (.ret _) <|
      (aloof_op rfl).bind fun _ => aloof_op rfl
  · exact (aloof_anyOf (by simp [aloof_isClear, aloof_load])).bind fun _ => aloof_ite (.ret _) <|
      (aloof_op rfl).bind fun _ => aloof_op rfl

end Callbacks

section Coordinator

/-- The coordinator is between two steps of the passage. -/
structure Resting (k : OwnMark) : Prop where
  later : k.later = true
  own : k.Of usb
  transfers : k.transfers = false

theorem resting_inside : Resting .inside := ⟨rfl, (by decide : usb ≠ main), rfl⟩

theorem Resting.active {k : OwnMark} (hk : Resting k) : k.active = true := by
  have hlater := hk.later
  cases k <;> first | rfl | cases hlater

theorem Resting.follows {k : OwnMark} (hk : Resting k) (hg : g.active = true) (ht : g.transfers = false) :
    OwnFollows usb g k := ⟨hk.own, fun _ _ => hg, fun _ hf => by rw [ht] at hf; cases hf⟩

theorem Resting.unauthorized {k : OwnMark} (hk : Resting k) (hI : OwnInv s h G) (hG : G usb = k) :
    s.flag .transferAuthorized = false := by
  by_contra ha
  have htransfers := (hI.transfer (by simpa using ha)).2.2
  rw [hG, hk.transfers] at htransfers
  cases htransfers

theorem keeps_usbAloof {α : Type} {p : DeviceProg α} (hp : Aloof p) (hg : Resting g) :
    KeepsOwn usb p (fun _ k => Resting k) g := keeps_aloof hp hg.later fun _ => hg

/-- The last steps of a handler have no part in the passage. -/
theorem keeps_usbEnds {α : Type} {p : DeviceProg Bool} {f : Bool → DeviceProg α} {m : OwnMark}
    (hp : KeepsOwn usb p (fun ok k => Resting k ∧ (ok = true → k = m)) g) (hfalse : Aloof (f false))
    (htrue : KeepsOwn usb (f true) (fun _ k => Resting k) m) : KeepsOwn usb (p >>= f) (fun _ k => Resting k) g := by
  refine keeps_then hp fun ok k hk => ?_
  cases ok with
  | false => exact keeps_usbAloof hfalse hk.1
  | true => exact hk.2 rfl ▸ htrue

/-- The file system is asked for. -/
theorem keeps_releaseForUsb : KeepsOwn usb sdMountReleaseForUsb (fun ok k => Resting k ∧ (ok = true → k = .freed)) .inside := by
  refine keeps_own_op fun s h G hI hG c r s' ha => ⟨if r then .freed else .inside, ?_, ?_⟩
  · have hpair : s.sd .releaseForUsb = (r, s') := Option.some.inj ha
    have hmoved := hI.sd hG (o := .releaseForUsb) (m := if r then .freed else .inside) rfl (hI.begun hG rfl) ?_ ?_
    · rwa [hpair] at hmoved
    · cases r
      · exact resting_inside.follows rfl rfl
      · exact ⟨rfl, fun _ _ => rfl, fun _ hf => by cases hf⟩
    · rw [hpair]
      cases r
      · trivial
      · exact Bool.or_true _
  · cases r
    · exact ⟨resting_inside, fun hr => by cases hr⟩
    · exact ⟨⟨rfl, rfl, rfl⟩, fun _ => rfl⟩

theorem waitBits_answer {bits : List DeviceBit} {clear all timed : Bool} {c : DeviceChoice} {r : DeviceBit → Bool}
    (ha : Capsule.act (.waitBits bits clear all timed) c s = some (r, s')) : r = s.bit := by
  simp only [Capsule.act] at ha
  by_cases hready : (if all then bits.all s.bit else bits.any s.bit) = true
  · rw [if_pos hready] at ha
    exact (congrArg Prod.fst (Option.some.inj ha)).symm
  · rw [if_neg hready, Option.ite_none_right_eq_some] at ha
    exact (congrArg Prod.fst (Option.some.inj ha.2)).symm

/-- The writer has said that it has finished. -/
theorem keeps_waitDone : KeepsOwn usb (waitBits recTaskDoneMask false true false)
    (fun done k => Resting k ∧ (recTaskDoneMask.all done = true → k = .waited)) .freed := by
  refine keeps_sight (fun _ _ => rfl) fun s h G hI hG c r s' ha => ?_
  have hfits := hI.fits usb
  rw [hG] at hfits
  obtain rfl : s' = s := by
    rcases Capsule.waitBits_act ha with hs | ⟨hclear, -⟩
    · exact hs
    · cases hclear
  have hbits : r = s'.bit := waitBits_answer ha
  refine ⟨rfl, ?_⟩
  by_cases hdone : recTaskDoneMask.all r = true
  · refine ⟨.waited, ⟨rfl, fun _ _ => rfl, fun _ hf => by cases hf⟩, ⟨hfits, hI.facts.bit ?_⟩, ⟨rfl, rfl, rfl⟩, fun _ => rfl⟩
    rw [hbits, List.all_eq_true] at hdone
    exact hdone _ (by decide)
  · exact ⟨.freed, ⟨rfl, fun _ _ => rfl, fun _ hf => by cases hf⟩, hfits, ⟨rfl, rfl, rfl⟩, fun hd => absurd hd hdone⟩

/-- Where the lifecycle still prepares for USB the writer has not failed, and so it has sealed the card. -/
theorem keeps_stillPreparing : KeepsOwn usb recorderCurrentState
    (fun state k => Resting k ∧ (state = .usbPrepare → k = .settled)) .waited := by
  refine keeps_then (R := fun _ k => k = .waited) (keeps_aloof (aloof_load _) rfl fun _ => rfl) ?_
  rintro lock _ rfl
  cases lock with
  | false => exact ⟨⟨rfl, rfl, rfl⟩, fun hs => by cases hs⟩
  | true =>
    refine keeps_sight (fun _ _ => rfl) fun s h G hI hG c r s' ha => ?_
    obtain ⟨rfl, rfl⟩ := Prod.mk.inj (Option.some.inj ha)
    have hfits := hI.fits usb
    rw [hG] at hfits
    refine ⟨rfl, ?_⟩
    by_cases hstate : s.machine.state = .usbPrepare
    · have hopened : h.opened = true := hI.running (.inr ⟨usb, by simp, .inr (by rw [hG]; rfl)⟩)
      have hsealed : h.Sealed := (hI.facts.done hfits.2).2.2.resolve_left (by rw [hstate]; rintro ⟨⟩)
      exact ⟨.settled, ⟨rfl, fun _ _ => rfl, fun _ hf => by cases hf⟩, ⟨hopened, hfits.2, hfits.1, .inl hstate, hsealed⟩,
        ⟨rfl, rfl, rfl⟩, fun _ => rfl⟩
    · exact ⟨.waited, ⟨rfl, fun _ _ => rfl, fun _ hf => by cases hf⟩, hfits, ⟨rfl, rfl, rfl⟩, fun hs => absurd hs hstate⟩

theorem keeps_fsReleased : KeepsOwn usb sdMountDeviceFsReleased (fun ok k => Resting k ∧ (ok = true → k = .ready)) .settled := by
  refine keeps_flag fun s h G hI hG => ?_
  have hfits := hI.fits usb
  rw [hG] at hfits
  cases hm : s.flag .deviceFsReleased with
  | false => exact ⟨.settled, ⟨rfl, fun _ _ => rfl, fun _ hf => by cases hf⟩, hfits, ⟨rfl, rfl, rfl⟩, fun hr => by cases hr⟩
  | true => exact ⟨.ready, ⟨rfl, fun _ _ => rfl, fun _ hf => by cases hf⟩, ⟨hfits, hm⟩, ⟨rfl, rfl, rfl⟩, fun _ => rfl⟩

/-- That the host's claim is unresolved is durable before the transfer begins. -/
theorem keeps_markHostUnresolved : KeepsOwn usb shutdownArmedMarkHostUnresolved
    (fun ok k => Resting k ∧ (ok = true → k = .handing)) .ready := by
  have hready : Resting .ready := ⟨rfl, rfl, rfl⟩
  refine keeps_own_op fun s h G hI hG c r s' ha => ?_
  have hfits := hI.fits usb
  rw [hG] at hfits
  have hwrite : s.write c { s.nvs with lifecycle := .hostUnresolved } = (r, s') := Option.some.inj ha
  have hfacts : CardSettled s' h ∧ s'.flag .deviceFsReleased = true := by
    obtain rfl | ⟨-, rfl⟩ := Capsule.write_eq hwrite
    · exact ⟨⟨hfits.1.opened, hfits.1.writerDone, hfits.1.released, hfits.1.parked, hfits.1.complete⟩, hfits.2⟩
    · exact hfits
  have hmoved (k : OwnMark) (hf : OwnFollows usb .ready k) (hk : k.Fits usb s' h) :
      OwnInv s' h (Function.update G usb k) :=
    hI.write hG (l := .hostUnresolved) rfl hwrite hf (hready.unauthorized hI hG) hk
  cases r with
  | false => exact ⟨.ready, hmoved .ready (hready.follows rfl rfl) hfacts, hready, fun hr => by cases hr⟩
  | true =>
    have hunresolved : s'.nvs.lifecycle = .hostUnresolved := by
      obtain rfl | ⟨hr, -⟩ := Capsule.write_eq hwrite
      · rfl
      · cases hr
    refine ⟨.handing, hmoved .handing ⟨rfl, fun _ _ => rfl, fun _ hf => by cases hf⟩ ⟨⟨hfacts.1, hfacts.2, .inl hunresolved⟩,
      hunresolved⟩, ⟨rfl, rfl, rfl⟩, fun _ => rfl⟩

theorem aloof_transferReady : Aloof (DeviceProg.sd .transferReady) := aloof_op rfl

theorem aloof_releaseReady : Aloof (DeviceProg.sd .releaseReady) := aloof_op rfl

theorem keeps_deliver (events : List StorageEvent) :
    KeepsOwn usb (deliver events) (fun _ k => k = .transferring) .transferring := by
  induction events with
  | nil => exact rfl
  | cons event events ih =>
    refine keeps_then (keeps_ownStorageEventCb (.inr ⟨rfl, rfl⟩) event) ?_
    rintro _ _ rfl
    exact ih

theorem keeps_authorize : KeepsOwn usb (store .transferAuthorized true) (fun _ k => k = .transferring) .handing := by
  refine keeps_stores fun s h G hI hG => ?_
  have hfits := hI.fits usb
  rw [hG] at hfits
  have hmay : MayStore usb .transferring s h .transferAuthorized true := fun _ => ⟨rfl, rfl, hfits.1, hfits.2⟩
  exact ⟨.transferring, hmay, rfl, fun _ _ => rfl, fun _ hf => absurd rfl hf, (Rely.store hI.facts hmay).handed hfits.1, rfl⟩

theorem keeps_unauthorize : KeepsOwn usb (store .transferAuthorized false) (fun _ k => k = .inside) .transferring :=
  keeps_stores fun _ _ _ _ _ => ⟨.inside, (fun hb => by cases hb), (by decide : usb ≠ main), fun _ _ => rfl,
    fun _ hf => absurd rfl hf, trivial, rfl⟩

theorem keeps_transferToUsb : KeepsOwn usb sdMountTransferToUsb (fun _ k => k = .transferring) .transferring := by
  have haloof {α : Type} {p : DeviceProg α} (hp : Aloof p) :
      KeepsOwn usb p (fun _ k => k = .transferring) .transferring := keeps_aloof hp rfl fun _ => rfl
  refine keeps_then (haloof (aloof_allOf (by simp [aloof_load, aloof_transferReady]))) ?_
  rintro ready _ rfl
  cases ready with
  | false => exact rfl
  | true =>
    refine keeps_then (R := fun _ k => k = .transferring) ?_ ?_
    · refine keeps_then (haloof (aloof_op rfl)) ?_
      rintro ⟨ok, events⟩ _ rfl
      refine keeps_then (keeps_deliver events) ?_
      rintro _ _ rfl
      exact rfl
    rintro ok _ rfl
    cases ok with
    | false => exact rfl
    | true => exact haloof aloof_releaseReady

theorem keeps_publish (wavFinalized manifestCommitted deviceFsReleased : Bool) :
    KeepsOwn usb (usbMscPublish wavFinalized manifestCommitted deviceFsReleased) (fun _ k => Resting k) .ready := by
  have hready : Resting .ready := ⟨rfl, rfl, rfl⟩
  have hfails : Aloof (do usbFail; return false) := aloof_usbFail.bind fun _ => .ret _
  have hstores {f : DeviceFlag} {b : Bool} (hf : f ∉ ownFlags) :
      KeepsOwn usb (store f b) (fun _ k => k = .handing) .handing :=
    keeps_aloof (aloof_op (by simpa [DeviceOp.aloof] using hf)) rfl fun _ => rfl
  refine keeps_then (R := fun _ k => k = .ready)
    (keeps_aloof (aloof_anyOf (by simp [aloof_isClear, aloof_load, Only.ret])) rfl fun _ => rfl) ?_
  rintro incomplete _ rfl
  cases incomplete with
  | true => exact keeps_usbAloof hfails hready
  | false =>
    refine keeps_usbEnds keeps_markHostUnresolved hfails ?_
    refine keeps_then (hstores (by decide)) ?_
    rintro _ _ rfl
    refine keeps_then (hstores (by decide)) ?_
    rintro _ _ rfl
    refine keeps_then (hstores (by decide)) ?_
    rintro _ _ rfl
    refine keeps_then keeps_authorize ?_
    rintro _ _ rfl
    refine keeps_then keeps_transferToUsb ?_
    rintro ok _ rfl
    refine keeps_then keeps_unauthorize ?_
    rintro _ _ rfl
    refine keeps_usbAloof ?_ resting_inside
    refine (aloof_anyOf (by simp [aloof_isClear, aloof_load, Only.ret])).bind fun _ => aloof_ite hfails ?_
    exact (aloof_platform _).bind fun _ => aloof_ite (.ret _) hfails

theorem aloof_currentState : Aloof recorderCurrentState := aloof_of_runs runs_currentState

theorem keeps_handleUsbAttach : KeepsOwn usb recorderHandleUsbAttach (fun _ k => Resting k) .inside := by
  have hinside {α : Type} {p : DeviceProg α} (hp : Aloof p) : KeepsOwn usb p (fun _ k => k = .inside) .inside :=
    keeps_aloof hp rfl fun _ => rfl
  have hfails : Aloof (recorderEnterError .usb) := aloof_enterError _
  have hbegin : Aloof usbMscOwnershipBeginPrepare :=
    (aloof_anyOf (by simp [aloof_isClear, aloof_load, aloof_notStarted])).bind fun _ => aloof_ite (.ret _) <|
      (aloof_load _).bind fun _ => aloof_ite (.ret _) <| (aloof_platform _).bind fun _ =>
        aloof_ite ((aloof_op rfl).bind fun _ => .ret _) (aloof_usbFail.bind fun _ => .ret _)
  refine keeps_then (hinside (aloof_perform _)) ?_
  rintro _ _ rfl
  refine keeps_then (hinside aloof_currentState) ?_
  rintro state _ rfl
  split
  · exact keeps_usbAloof hfails resting_inside
  · refine keeps_usbEnds (m := .freed) ?_ hfails ?_
    · refine keeps_then (hinside hbegin) ?_
      rintro began _ rfl
      cases began with
      | false => exact ⟨resting_inside, fun hr => by cases hr⟩
      | true =>
        refine keeps_then (hinside (aloof_transitionState (by decide) _)) ?_
        rintro moved _ rfl
        cases moved with
        | false => exact ⟨resting_inside, fun hr => by cases hr⟩
        | true =>
          refine keeps_then keeps_releaseForUsb fun ok k hk => ?_
          cases ok <;> exact hk
    refine keeps_then (R := fun _ k => k = .freed) (keeps_aloof (aloof_of_runs runs_requestStop) rfl fun _ => rfl) ?_
    rintro _ _ rfl
    refine keeps_then keeps_waitDone fun done k hk => ?_
    by_cases hdone : recTaskDoneMask.all done = true
    · rw [if_neg (by simp [hdone])]
      obtain rfl := hk.2 hdone
      refine keeps_then keeps_stillPreparing fun state k hk => ?_
      by_cases hstate : state = .usbPrepare
      · rw [if_neg (by simp [hstate])]
        obtain rfl := hk.2 hstate
        refine keeps_then (R := fun _ k => Resting k) ?_ fun published k hk => ?_
        · refine keeps_usbEnds keeps_fsReleased (.ret _) ?_
          refine keeps_then (R := fun _ k => Resting k) ?_ fun ok k hk => by cases ok <;> exact hk
          refine keeps_then (R := fun _ k => k = .ready) (keeps_aloof (aloof_load _) rfl fun _ => rfl) ?_
          rintro initialized _ rfl
          cases initialized with
          | false => exact ⟨rfl, rfl, rfl⟩
          | true => exact keeps_publish true true true
        · exact keeps_usbAloof (aloof_ite hfails (.ret _)) hk
      · rw [if_pos (by simpa using hstate)]
        exact keeps_usbAloof hfails hk.1
    · rw [if_pos (by simpa using hdone)]
      exact keeps_usbAloof hfails hk.1

end Coordinator

section Quiesce

theorem resting_leaving : Resting .leaving := ⟨rfl, rfl, rfl⟩

theorem resting_torn : Resting .torn := ⟨rfl, rfl, rfl⟩

theorem resting_dropped : Resting .dropped := ⟨rfl, rfl, rfl⟩

/-- The coordinator sees that USB has been started, and then that the storage is the host's. -/
theorem keeps_quiesceRefused : KeepsOwn usb (anyOf [isClear .initialized, isClear .started, isClear .storageUsbOwned,
    isClear .hostOwned, isClear .releasePending, load .releaseWaitingResponse, load .mounted])
    (fun refused k => Resting k ∧ (refused = false → k = .leaving)) .inside := by
  have hrefused {p : DeviceProg Bool} {ps : List (DeviceProg Bool)} {g m : OwnMark}
      (hp : KeepsOwn usb p (fun b k => Resting k ∧ (b = false → k = m)) g)
      (hps : KeepsOwn usb (anyOf ps) (fun refused k => Resting k ∧ (refused = false → k = .leaving)) m) :
      KeepsOwn usb (anyOf (p :: ps)) (fun refused k => Resting k ∧ (refused = false → k = .leaving)) g := by
    refine keeps_then hp fun b k hk => ?_
    cases b with
    | true => exact ⟨hk.1, fun hb => by cases hb⟩
    | false => exact hk.2 rfl ▸ hps
  have hclear {f : DeviceFlag} {g m : OwnMark} (hp : KeepsOwn usb (load f) (fun b k => Resting k ∧ (b = true → k = m)) g) :
      KeepsOwn usb (isClear f) (fun b k => Resting k ∧ (b = false → k = m)) g :=
    keeps_then hp fun b k hk => ⟨hk.1, fun hb => hk.2 (by simpa using hb)⟩
  refine hrefused (m := .inside) ?_ <| hrefused (m := .live) (hclear (keeps_flag fun s h G hI hG => ?_)) <|
    hrefused (m := .leaving) (hclear (keeps_flag fun s h G hI hG => ?_)) ?_
  · exact keeps_aloof (aloof_isClear _) rfl fun _ => ⟨resting_inside, fun _ => rfl⟩
  · cases hm : s.flag .started with
    | false => exact ⟨.inside, resting_inside.follows rfl rfl, trivial, resting_inside, fun hb => by cases hb⟩
    | true =>
      exact ⟨.live, ⟨rfl, fun _ _ => rfl, fun _ hf => by cases hf⟩, hI.facts.live hm, ⟨rfl, rfl, rfl⟩, fun _ => rfl⟩
  · have hlive : h.live = true := by
      have hfits := hI.fits usb
      rwa [hG] at hfits
    cases hm : s.flag .storageUsbOwned with
    | false => exact ⟨.live, ⟨rfl, fun _ _ => rfl, fun _ hf => by cases hf⟩, hlive, ⟨rfl, rfl, rfl⟩, fun hb => by cases hb⟩
    | true =>
      exact ⟨.leaving, resting_leaving.follows rfl rfl, ⟨hI.facts.usbOwned hm, hlive⟩, resting_leaving, fun _ => rfl⟩
  · refine keeps_aloof (aloof_anyOf (by simp [aloof_isClear, aloof_load])) rfl fun _ => ⟨resting_leaving, fun _ => rfl⟩

/-- The driver is torn down, and noted as such. -/
theorem keeps_driverUninstall :
    KeepsOwn usb tinyusbDriverUninstall (fun ok k => Resting k ∧ (ok = true → k = .torn)) .leaving := by
  refine keeps_then (R := fun _ k => k = .leaving) (keeps_aloof (aloof_platform _) rfl fun _ => rfl) ?_
  rintro ok _ rfl
  cases ok with
  | false => exact ⟨resting_leaving, fun hr => by cases hr⟩
  | true =>
    refine keeps_then (R := fun _ k => k = .torn) (keeps_stores fun s h G hI hG => ?_) ?_
    · have hfits := hI.fits usb
      rw [hG] at hfits
      have hmay : MayStore usb .torn s h .driver false := fun _ => hfits.2
      exact ⟨.torn, hmay, rfl, fun _ _ => rfl, (fun _ _ hf => by cases hf), ⟨(Rely.store hI.facts hmay).away hfits.1, rfl⟩, rfl⟩
    rintro _ _ rfl
    exact ⟨resting_torn, fun _ => rfl⟩

/-- Once the driver is gone the coordinator may take the flags of the passage down. -/
theorem keeps_takesDown {f : DeviceFlag} (hg : g = .torn ∨ g = .dropped)
    (hmay : ∀ s h, h.torn = true → MayStore usb g s h f false) (hacted : ∀ h : OwnRecord, h.acted usb (.store f false) () = h) :
    KeepsOwn usb (store f false) (fun _ k => k = g) g := by
  refine keeps_stores fun s h G hI hG => ?_
  have hfits := hI.fits usb
  rw [hG] at hfits
  have htorn : h.torn = true := by rcases hg with rfl | rfl <;> first | exact hfits.2 | exact hfits.2.1
  have hrely := Rely.store hI.facts (hmay s h htorn)
  refine ⟨g, hmay s h htorn, ?_, fun _ => id, fun _ _ => id, ?_, rfl⟩
  · rcases hg with rfl | rfl <;> exact rfl
  · rw [hacted] at hrely ⊢
    rcases hg with rfl | rfl
    · exact ⟨hrely.away hfits.1, hfits.2⟩
    · exact ⟨hrely.away hfits.1, hfits.2⟩

theorem keeps_releaseUsbStorage :
    KeepsOwn usb sdMountReleaseUsbStorage (fun ok k => Resting k ∧ (ok = true → k = .dropped)) .torn := by
  refine keeps_then (R := fun _ k => k = .torn)
    (keeps_aloof (aloof_allOf (by simp [aloof_load, aloof_releaseReady])) rfl fun _ => rfl) ?_
  rintro ready _ rfl
  cases ready with
  | false => exact ⟨resting_torn, fun hr => by cases hr⟩
  | true =>
    refine keeps_then (R := fun deleted k => Resting k ∧ (deleted = true → k = .dropped))
      (keeps_own_op fun s h G hI hG c r s' ha => ?_) fun deleted k hk => ?_
    · have hfits := hI.fits usb
      rw [hG] at hfits
      have hkept := aloof_act hI (t := usb) rfl (.inl (hI.begun hG rfl)) ha
      obtain ⟨rfl, rfl⟩ := Prod.mk.inj (Option.some.inj ha)
      cases hok : c.ok with
      | false =>
        rw [hok] at hkept
        refine ⟨.torn, ?_, resting_torn, fun hr => by cases hr⟩
        rwa [← hG, Function.update_eq_self]
      | true =>
        rw [hok] at hkept
        have hacted : h.acted usb (.platform .mscDeleteStorage) true = { h with dropped := true } := by
          simp [OwnRecord.acted, hfits.2]
        rw [hacted] at hkept ⊢
        have hfit := hkept.fits usb
        rw [hG] at hfit
        exact ⟨.dropped, hkept.mark hG (resting_dropped.follows rfl rfl) ⟨hfit.1, hfit.2, rfl⟩, resting_dropped, fun _ => rfl⟩
    · cases deleted with
      | false => exact ⟨hk.1, fun hr => by cases hr⟩
      | true =>
        rw [hk.2 rfl]
        refine keeps_aloof ?_ rfl fun _ => ⟨resting_dropped, fun _ => rfl⟩
        exact (aloof_op rfl).bind fun _ => (aloof_platform _).bind fun _ =>
          aloof_ite (.ret _) ((aloof_op rfl).bind fun _ => .ret _)

/-- The shutdown is committed only when the driver and the storage are gone. -/
theorem keeps_armedCommit : KeepsOwn usb shutdownArmedCommit (fun _ k => k = .dropped) .dropped := by
  refine keeps_own_op fun s h G hI hG c r s' ha => ⟨.dropped, ?_, rfl⟩
  have hfits := hI.fits usb
  rw [hG] at hfits
  obtain ⟨haway, htorn, hdropped⟩ := hfits
  have hunauthorized := resting_dropped.unauthorized hI hG
  have hmay : MayWrite usb s h .armed := ⟨rfl, htorn, hdropped, hunauthorized⟩
  have hwrite : s.write c { s.nvs with lifecycle := .armed } = (r, s') := Option.some.inj ha
  have hrely := Rely.write hmay r ((Capsule.write_eq hwrite).imp_right fun hs => hs.2)
  exact hI.write hG hmay hwrite (resting_dropped.follows rfl rfl) hunauthorized ⟨hrely.away haway, htorn, hdropped⟩

theorem keeps_completeReleaseQuiesce : KeepsOwn usb usbMscOwnershipCompleteReleaseQuiesce (fun _ k => Resting k) .inside := by
  have hfails : Aloof (do usbFail; return false) := aloof_usbFail.bind fun _ => .ret _
  have hstores {f : DeviceFlag} (hf : f ∉ ownFlags) : KeepsOwn usb (store f false) (fun _ k => k = .dropped) .dropped :=
    keeps_aloof (aloof_op (by simpa [DeviceOp.aloof] using hf)) rfl fun _ => rfl
  have hdown {f : DeviceFlag} (hmay : ∀ s h, h.torn = true → MayStore usb .dropped s h f false)
      (hacted : ∀ h : OwnRecord, h.acted usb (.store f false) () = h) :
      KeepsOwn usb (store f false) (fun _ k => k = .dropped) .dropped := keeps_takesDown (.inr rfl) hmay hacted
  refine keeps_then keeps_quiesceRefused fun refused k hk => ?_
  cases refused with
  | true => exact hk.1
  | false =>
    rw [hk.2 rfl]
    refine keeps_usbEnds keeps_driverUninstall hfails ?_
    refine keeps_then (keeps_takesDown (.inl rfl) (fun _ _ _ hb => by cases hb) fun _ => rfl) ?_
    rintro _ _ rfl
    refine keeps_usbEnds keeps_releaseUsbStorage hfails ?_
    refine keeps_then keeps_armedCommit ?_
    rintro armed _ rfl
    cases armed with
    | false => exact keeps_usbAloof hfails resting_dropped
    | true =>
      refine keeps_then (hdown (fun _ _ => .inl) fun _ => rfl) ?_
      rintro _ _ rfl
      refine keeps_then (hdown (fun _ _ _ hb => by cases hb) fun _ => rfl) ?_
      rintro _ _ rfl
      refine keeps_then (hstores (by decide)) ?_
      rintro _ _ rfl
      refine keeps_then (hstores (by decide)) ?_
      rintro _ _ rfl
      refine keeps_then (R := fun _ k => k = .dropped) (keeps_aloof (aloof_op rfl) rfl fun _ => rfl) ?_
      rintro _ _ rfl
      refine keeps_then (hstores (by decide)) ?_
      rintro _ _ rfl
      refine keeps_then (hstores (by decide)) ?_
      rintro _ _ rfl
      refine keeps_then (hstores (by decide)) ?_
      rintro _ _ rfl
      refine keeps_then (hdown (fun _ _ _ hb => by cases hb) fun _ => rfl) ?_
      rintro _ _ rfl
      refine keeps_usbAloof ?_ resting_dropped
      exact (aloof_op rfl).bind fun _ => (aloof_op rfl).bind fun _ => (aloof_op rfl).bind fun _ => .ret _

theorem aloof_hostOwnedIn (expected : RecorderState) : Aloof (recorderHostOwnedIn expected) :=
  aloof_currentState.bind fun _ => aloof_ite (.ret _)
    (aloof_allOf (by simp [aloof_isClear, usbMscOwnershipIsHostOwned, aloof_load]))

theorem aloof_powerShutdown : Aloof recorderPowerShutdown :=
  (aloof_allOf (by simp [aloof_platform])).bind fun _ => aloof_ite ((aloof_op rfl).bind fun _ => .ret _) (.ret _)

theorem keeps_handleUsbEvent (event : UsbEvent) : KeepsOwn usb (recorderHandleUsbEvent event) (fun _ k => Resting k) .inside := by
  cases event with
  | attach => exact keeps_handleUsbAttach
  | hostOwned =>
    refine keeps_usbAloof ?_ resting_inside
    have hsync : Aloof (recorderTransitionState .usbSync .usb) := aloof_transitionState (by decide) _
    refine (aloof_allOf (by simp [aloof_hostOwnedIn, hsync])).bind fun _ => ?_
    exact aloof_ite (aloof_enterError _) ((aloof_perform _).bind fun _ => aloof_perform _)
  | hostReattached =>
    refine keeps_usbAloof ?_ resting_inside
    have hadmission : Aloof usbMscOwnershipReleaseCommandAdmissionOpen :=
      (aloof_anyOf (by simp [aloof_isClear, aloof_load])).bind fun _ => .ret _
    refine (aloof_allOf (by simp [aloof_hostOwnedIn, hadmission])).bind fun _ => ?_
    exact aloof_ite (aloof_enterError _) ((aloof_perform _).bind fun _ => aloof_perform _)
  | releaseRequested =>
    have hinside {α : Type} {p : DeviceProg α} (hp : Aloof p) : KeepsOwn usb p (fun _ k => k = .inside) .inside :=
      keeps_aloof hp rfl fun _ => rfl
    refine keeps_then (hinside (aloof_hostOwnedIn _)) ?_
    rintro ready _ rfl
    cases ready with
    | false => exact keeps_usbAloof (aloof_enterError _) resting_inside
    | true =>
      refine keeps_then (hinside (aloof_perform _)) ?_
      rintro _ _ rfl
      refine keeps_then (hinside (aloof_perform _)) ?_
      rintro _ _ rfl
      refine keeps_then keeps_completeReleaseQuiesce fun quiesced k hk => ?_
      cases quiesced with
      | false => exact keeps_usbAloof (aloof_enterError _) hk
      | true => exact keeps_usbAloof (aloof_powerShutdown.bind fun _ => aloof_ite (aloof_enterError _) (.ret _)) hk
  | failed => exact keeps_usbAloof (aloof_enterError _) resting_inside
  | releaseQuiesced => exact resting_inside
  | none => exact resting_inside

theorem keeps_usbEventTask (fuel : ℕ) (hg : Resting g) :
    KeepsOwn usb (recorderUsbEventTask fuel) (fun _ k => k.transfers = false) g := by
  induction fuel generalizing g with
  | zero => exact keeps_aloof (.call _ _ rfl fun r => by cases r) hg.later fun _ => hg.transfers
  | succ fuel ih =>
    refine keeps_then (R := fun _ k => k = .inside) ?_ ?_
    · refine keeps_then (R := fun _ k => k = .inside) (keeps_flag fun s h G hI hG => ?_) ?_
      · exact ⟨.inside, resting_inside.follows hg.active hg.transfers, trivial, rfl⟩
      rintro events _ rfl
      cases events with
      | false => exact rfl
      | true =>
        refine keeps_then (R := fun _ k => k = .inside) (keeps_aloof (aloof_op rfl) rfl fun _ => rfl) ?_
        rintro bits _ rfl
        split
        · exact rfl
        · exact keeps_aloof ((aloof_op rfl).bind fun _ => .ret _) rfl fun _ => rfl
    rintro event _ rfl
    refine keeps_then (keeps_handleUsbEvent event) fun _ k hk => ?_
    exact keeps_then (keeps_usbAloof (aloof_perform _) hk) fun _ k hk => ih hk

end Quiesce

section Main

/-- Neither part of the passage nor of the lifecycle, as all that a boot does before it has begun with its tasks. -/
abbrev Still {α : Type} (p : DeviceProg α) : Prop := Only (fun o => o.aloof = true ∧ o.still = true) p

theorem still_op {o : DeviceOp} (ho : o.aloof = true ∧ o.still = true) : Still (.op o) := .call o _ ho .ret

theorem Still.aloof {α : Type} {p : DeviceProg α} (hp : Still p) : Aloof p := hp.mono fun _ => And.left

theorem still_ite {α : Type} {b : Prop} [Decidable b] {p q : DeviceProg α} (hp : Still p) (hq : Still q) :
    Still (if b then p else q) := by
  split
  · exact hp
  · exact hq

theorem still_shutdownArmedNow : Still recorderShutdownArmedNow := by
  have hpowered : Still (allOf [platform .disableWakeupSource, platform .releaseHold]) :=
    (still_op ⟨rfl, rfl⟩).bind fun _ => still_ite ((still_op ⟨rfl, rfl⟩).bind fun _ => still_ite (.ret _) (.ret _)) (.ret _)
  refine Only.bind (hpowered.bind fun _ => ?_) fun _ => .ret _
  exact still_ite ((still_op ⟨rfl, rfl⟩).bind fun _ => .ret _) (.ret _)

theorem still_rtcCorrectionInit : Still rtcCorrectionInit := by
  refine (still_op ⟨rfl, rfl⟩).bind fun _ => still_ite (.ret _) <| (still_op ⟨rfl, rfl⟩).bind fun _ =>
    (still_ite (.ret _) (still_op ⟨rfl, rfl⟩)).bind fun _ => still_ite (.ret _) <| (still_op ⟨rfl, rfl⟩).bind fun _ =>
      (still_op ⟨rfl, rfl⟩).bind fun pending => ?_
  cases pending with
  | none => exact .ret _
  | some pending => exact (still_op ⟨rfl, rfl⟩).bind fun _ => .ret _

theorem still_wakeRecoveryInit (manualResume : Bool) : Still (task87WakeRecoveryInit manualResume) :=
  (still_op ⟨rfl, rfl⟩).bind fun _ => (still_op ⟨rfl, rfl⟩).bind fun _ => still_op ⟨rfl, rfl⟩

theorem still_shutdownIfRequired : Still shutdownIfRequired :=
  (still_op ⟨rfl, rfl⟩).bind fun _ => still_ite still_shutdownArmedNow (.ret _)

theorem OwnInv.unopened (hI : OwnInv s h G) (hb : h.begun = false) : h.opened = false := by
  by_contra hn
  simp [(hI.facts.opened (by simpa using hn)).1] at hb

theorem keeps_asks : KeepsOwn main (.op .manualWake) (fun r k => k = (r.map OwnMark.asked).getD .booting) .booting := by
  refine keeps_own_op fun s h G hI hG c r s' ha => ?_
  obtain rfl : s = s' := (Prod.mk.inj (Option.some.inj ha)).2
  have hbegun : h.begun = false := by
    have hfits := hI.fits main
    rwa [hG] at hfits
  cases r with
  | none => exact ⟨.booting, by rwa [← hG, Function.update_eq_self], rfl⟩
  | some b =>
    refine ⟨.asked b, ?_, rfl⟩
    exact hI.notes b h.owned h.quiesced h.begun h.opened hG rfl
      (hI.unopened hbegun) id (fun ho => ⟨ho, rfl, hbegun⟩) (fun ho => absurd ho (by simp [hI.unopened hbegun])) ⟨hbegun, rfl⟩

/-- A boot goes on only where the host has no claim, or where its own resumption ends it. -/
theorem keeps_decides (b : Bool) : KeepsOwn main (shutdownArmedBootAction b)
    (fun action k => ∀ a, action = some a → a ≠ .staysShutdown → k = .staged) (.asked b) := by
  refine keeps_then (R := fun state k => ∀ l, state = some l → l.bootAction b ≠ .staysShutdown → k = .staged)
    (keeps_own_op fun s h G hI hG c r s' ha => ?_) fun state k hk a ha hstays => ?_
  · obtain ⟨hr, rfl⟩ := Prod.mk.inj (Option.some.inj ha)
    have hfits := hI.fits main
    rw [hG] at hfits
    obtain ⟨hbegun, hwake⟩ := hfits
    have hunopened := hI.unopened hbegun
    have hmoved (k : OwnMark) (hk : k.Of main) (owned quiesced : Bool)
        (howned : owned = true → h.owned = true ∧ quiesced = h.quiesced)
        (hfit : k.Fits main s { h with owned := owned, quiesced := quiesced }) :
        OwnInv s { h with owned := owned, quiesced := quiesced } (Function.update G main k) :=
      hI.notes h.wake owned quiesced h.begun h.opened hG hk hunopened id
        (fun ho => ⟨(howned ho).1, (howned ho).2, hbegun⟩) (fun ho => absurd ho (by simp [hunopened])) hfit
    -- where the durable state is neither of the two that the claim of the host leaves, the storage is not the host's
    have hfree (hl : s.nvs.lifecycle ≠ .hostUnresolved) (hl' : s.nvs.lifecycle ≠ .armed) : h.owned = false := by
      by_contra hn
      rcases (hI.facts.owned (by simpa using hn)).1 with hlocked | ⟨-, hlocked⟩
      · exact hl hlocked
      · exact hl' hlocked
    have hasked : OwnInv s h (Function.update G main (.asked b)) := by rwa [← hG, Function.update_eq_self]
    cases hok : c.ok with
    | false =>
      rw [hok] at hr
      obtain rfl := hr
      exact ⟨.asked b, hasked, fun l hl => by cases hl⟩
    | true =>
      rw [hok, if_pos rfl] at hr
      obtain rfl := hr
      cases hlifecycle : s.nvs.lifecycle with
      | normal =>
        have hown := hfree (by simp [hlifecycle]) (by simp [hlifecycle])
        exact ⟨.staged, hmoved .staged rfl h.owned h.quiesced (fun ho => ⟨ho, rfl⟩) ⟨hbegun, hown⟩, fun _ _ _ => rfl⟩
      | hostUnresolved =>
        exact ⟨.asked b, hasked, fun l hl hstays => absurd (by obtain rfl := Option.some.inj hl; rfl) hstays⟩
      | armed =>
        cases b with
        | false =>
          refine ⟨.asked false, ?_, fun l hl hstays => absurd (by obtain rfl := Option.some.inj hl; rfl) hstays⟩
          simpa [OwnRecord.acted, hwake] using hasked
        | true =>
          refine ⟨.staged, ?_, fun _ _ _ => rfl⟩
          have hresumes := hmoved .staged rfl false false (fun ho => by cases ho) ⟨hbegun, rfl⟩
          simpa [OwnRecord.acted, hwake, hbegun] using hresumes
      | wakeRecoveryPending =>
        have hown := hfree (by simp [hlifecycle]) (by simp [hlifecycle])
        exact ⟨.staged, hmoved .staged rfl h.owned h.quiesced (fun ho => ⟨ho, rfl⟩) ⟨hbegun, hown⟩, fun _ _ _ => rfl⟩
  · cases state with
    | none => cases ha
    | some l =>
      obtain rfl := Option.some.inj ha
      exact hk l rfl hstays

/-- The first task is spawned, and the boot has begun. -/
theorem keeps_begins : KeepsOwn main (spawn .base) (fun ok k => k = if ok then .waiting else .staged) .staged := by
  refine keeps_own_op fun s h G hI hG c r s' ha => ?_
  have hfits := hI.fits main
  rw [hG] at hfits
  obtain ⟨hbegun, howned⟩ := hfits
  obtain ⟨hr, hs⟩ := Prod.mk.inj (Option.some.inj ha)
  cases hok : c.ok with
  | false =>
    rw [hok] at hr hs
    obtain rfl := hr
    obtain rfl := hs
    refine ⟨.staged, ?_, rfl⟩
    rw [← hG, Function.update_eq_self]
    simpa [OwnRecord.acted] using hI
  | true =>
    rw [hok] at hr hs
    obtain rfl := hr
    obtain rfl := hs
    have hnoted := hI.notes h.wake h.owned h.quiesced true h.opened (m := .waiting) hG rfl (hI.unopened hbegun) (fun _ => rfl) (fun ho => absurd ho (by simp [howned]))
      (fun ho => absurd ho (by simp [hI.unopened hbegun])) ⟨rfl, hI.unopened hbegun⟩
    have hspawned := hnoted.spawn (u := base) rfl (fun hb => absurd rfl hb) (fun hu => by simp at hu)
    refine ⟨.waiting, ?_, rfl⟩
    simpa [OwnRecord.acted] using hspawned

/-- In `RECORDING` the lock of the lifecycle has been made. -/
theorem keeps_seesState : KeepsOwn main recorderCurrentState
    (fun state k => k = if state = .recording then .opening else .waiting) .waiting := by
  refine keeps_then (R := fun lock k => k = if lock then .opening else .waiting) (keeps_flag fun s h G hI hG => ?_) ?_
  · have hfits := hI.fits main
    rw [hG] at hfits
    cases hlock : s.flag .stateLock with
    | false => exact ⟨.waiting, ⟨rfl, fun _ _ => rfl, fun ht => by cases ht⟩, hfits, rfl⟩
    | true => exact ⟨.opening, ⟨rfl, fun _ _ => rfl, fun ht => by cases ht⟩, ⟨hfits.1, hfits.2, hlock⟩, rfl⟩
  rintro lock _ rfl
  cases lock with
  | false => exact rfl
  | true =>
    refine keeps_sight (fun _ _ => rfl) fun s h G hI hG c r s' ha => ?_
    obtain ⟨-, rfl⟩ := Prod.mk.inj (Option.some.inj ha)
    have hfits := hI.fits main
    rw [hG] at hfits
    refine ⟨rfl, ?_⟩
    by_cases hr : r = .recording
    · exact ⟨.opening, ⟨rfl, fun _ _ => rfl, fun ht => by cases ht⟩, hfits, (if_pos hr).symm⟩
    · exact ⟨.waiting, ⟨rfl, fun _ _ => rfl, fun ht => by cases ht⟩, ⟨hfits.1, hfits.2.1⟩, (if_neg hr).symm⟩

/-- Until the coordinator may run, the storage has not become the host's on this boot. -/
theorem OwnFacts.unowned (hf : OwnFacts s h) (hb : h.begun = true) (ho : h.opened = false) : h.owned = false := by
  by_contra hn
  rcases (hf.owned (by simpa using hn)).2 with hunbegun | haway
  · simp [hb] at hunbegun
  · simp [haway.opened] at ho

theorem keeps_opening {α : Type} {p : DeviceProg α} (hp : Aloof p) : KeepsOwn main p (fun _ k => k = .opening) .opening :=
  keeps_aloof hp rfl fun _ => rfl

theorem keeps_notesRecording (fresh : Bool) :
    KeepsOwn main (task87WakeRecoveryNoteRecordingStarted fresh) (fun _ k => k = .opening) .opening := by
  refine keeps_then (keeps_opening (aloof_load _)) ?_
  rintro pending _ rfl
  cases pending with
  | false => exact rfl
  | true =>
    refine keeps_then (keeps_opening (aloof_anyOf (by simp [aloof_isClear, Only.ret]))) ?_
    rintro refused _ rfl
    cases refused with
    | true => exact rfl
    | false =>
      refine keeps_then (R := fun _ k => k = .opening) ?_ ?_
      · refine keeps_then (keeps_opening (aloof_op rfl)) ?_
        rintro state _ rfl
        rcases state with _ | l
        · exact rfl
        cases l with
        | wakeRecoveryPending =>
          refine keeps_own_op fun s h G hI hG c r s' ha => ⟨.opening, ?_, rfl⟩
          have hfits := hI.fits main
          rw [hG] at hfits
          obtain ⟨hbegun, hopened, hlock⟩ := hfits
          have hwrite : s.write c { s.nvs with lifecycle := .normal } = (r, s') := Option.some.inj ha
          have hlock' : s'.flag .stateLock = true := by
            obtain rfl | ⟨-, rfl⟩ := Capsule.write_eq hwrite <;> exact hlock
          exact hI.write hG (l := .normal) ⟨rfl, hopened, hI.facts.unowned hbegun hopened⟩ hwrite
            ⟨rfl, fun _ _ => rfl, fun ht => by cases ht⟩ (hI.facts.closed hopened).2.2.1 ⟨hbegun, hopened, hlock'⟩
        | _ => exact rfl
      rintro completed _ rfl
      cases completed with
      | false => exact rfl
      | true => exact keeps_opening ((aloof_op rfl).bind fun _ => (aloof_op rfl).bind fun _ => .ret _)

theorem keeps_waitRecording (fuel : ℕ) :
    KeepsOwn main (recorderWaitInitialRecording fuel) (fun ok k => k.later = true ∧ (ok = true → k = .opening)) .waiting := by
  have hwaiting {α : Type} {p : DeviceProg α} (hp : Aloof p) : KeepsOwn main p (fun _ k => k = .waiting) .waiting :=
    keeps_aloof hp rfl fun _ => rfl
  induction fuel with
  | zero => exact ⟨trivial, (by rintro _ _ _ _ _ _ _ ⟨⟩)⟩
  | succ fuel ih =>
    refine keeps_then (hwaiting (aloof_allOf (by simp [aloof_load]))) ?_
    rintro ready _ rfl
    cases ready with
    | false => exact ih
    | true =>
      refine keeps_then keeps_seesState ?_
      rintro state _ rfl
      cases state with
      | error | lowBatteryStop => exact ⟨rfl, fun hr => by cases hr⟩
      | recording =>
        refine keeps_then (keeps_opening (aloof_load _)) ?_
        rintro fresh _ rfl
        refine keeps_then (keeps_notesRecording fresh) ?_
        rintro ok _ rfl
        cases ok with
        | true => exact ⟨rfl, fun _ => rfl⟩
        | false =>
          refine keeps_then (keeps_opening (aloof_enterError _)) ?_
          rintro _ _ rfl
          exact ⟨rfl, fun hr => by cases hr⟩
      | _ => exact ih

/-- The coordinator runs, or may begin to. -/
def UsbOpened (k : OwnMark) : Prop := k = .installing ∨ k = .running

theorem UsbOpened.later {k : OwnMark} (hk : UsbOpened k) : k.later = true := by rcases hk with rfl | rfl <;> rfl

theorem UsbOpened.fits {k : OwnMark} (hk : UsbOpened k) (hI : OwnInv s h G) (hG : G main = k) : h.opened = true := by
  have hfits := hI.fits main
  rw [hG] at hfits
  rcases hk with rfl | rfl
  · exact hfits.1
  · exact hfits

/-- Before the coordinator runs the flags of the passage may be cleared. -/
theorem keeps_clears {f : DeviceFlag} (hf : f ∉ ownFlags ∨ f ∈ [.storageUsbOwned, .hostOwned, .transferAuthorized, .started]) :
    KeepsOwn main (store f false) (fun _ k => k = .opening) .opening := by
  by_cases hown : f ∈ ownFlags
  · refine keeps_stores fun s h G hI hG => ?_
    have hfits := hI.fits main
    rw [hG] at hfits
    have hclosed := hI.facts.closed hfits.2.1
    have hlisted := hf.resolve_left (fun hn => hn hown)
    have hmay : MayStore main .opening s h f false ∧ h.acted main (.store f false) () = h ∧ f ≠ .stateLock := by
      simp only [List.mem_cons, List.not_mem_nil, or_false] at hlisted
      rcases hlisted with rfl | rfl | rfl | rfl
      · exact ⟨.inr hclosed.1, rfl, by decide⟩
      · exact ⟨(fun hb => by cases hb), rfl, by decide⟩
      · exact ⟨(fun hb => by cases hb), rfl, by decide⟩
      · exact ⟨(fun hb => by cases hb), rfl, by decide⟩
    refine ⟨.opening, hmay.1, rfl, fun _ _ => rfl, (fun ht => by cases ht), ?_, rfl⟩
    rw [hmay.2.1]
    exact ⟨hfits.1, hfits.2.1, by rw [Capsule.flag_set, if_neg hmay.2.2.symm]; exact hfits.2.2⟩
  · exact keeps_opening (aloof_op (by simpa [DeviceOp.aloof] using hown))

theorem keeps_ownershipInit : KeepsOwn main usbMscOwnershipInit (fun _ k => k = .opening) .opening := by
  refine keeps_then (keeps_opening (aloof_load _)) ?_
  rintro initialized _ rfl
  cases initialized with
  | true => exact rfl
  | false =>
    refine keeps_then (keeps_opening (aloof_allOf (by simp [sdMountIsMounted, aloof_load, aloof_platform]))) ?_
    rintro ready _ rfl
    cases ready with
    | false => exact rfl
    | true =>
      refine keeps_then (keeps_opening (aloof_op rfl)) ?_
      rintro _ _ rfl
      refine keeps_then (keeps_opening (aloof_platform _)) ?_
      rintro registered _ rfl
      cases registered with
      | false => exact keeps_opening ((aloof_op rfl).bind fun _ => .ret _)
      | true =>
        refine keeps_then (keeps_opening (aloof_op rfl)) ?_
        rintro _ _ rfl
        refine keeps_then (keeps_clears (by decide)) ?_
        rintro _ _ rfl
        refine keeps_then (keeps_clears (by decide)) ?_
        rintro _ _ rfl
        refine keeps_then (keeps_clears (by decide)) ?_
        rintro _ _ rfl
        refine keeps_then (keeps_clears (by decide)) ?_
        rintro _ _ rfl
        refine keeps_then (keeps_clears (by decide)) ?_
        rintro _ _ rfl
        refine keeps_then (keeps_clears (by decide)) ?_
        rintro _ _ rfl
        refine keeps_then (keeps_opening (aloof_op rfl)) ?_
        rintro _ _ rfl
        refine keeps_then (keeps_clears (by decide)) ?_
        rintro _ _ rfl
        refine keeps_then (keeps_clears (by decide)) ?_
        rintro _ _ rfl
        refine keeps_then (keeps_clears (by decide)) ?_
        rintro _ _ rfl
        refine keeps_then (keeps_clears (by decide)) ?_
        rintro _ _ rfl
        refine keeps_opening ?_
        exact (aloof_op rfl).bind fun _ => (aloof_op rfl).bind fun _ => (aloof_op rfl).bind fun _ => .ret _

/-- The coordinator is spawned. -/
theorem keeps_opens : KeepsOwn main (spawn .usb) (fun ok k => k = if ok then .installing else .opening) .opening := by
  refine keeps_own_op fun s h G hI hG c r s' ha => ?_
  have hfits := hI.fits main
  rw [hG] at hfits
  obtain ⟨hbegun, hopened, hlock⟩ := hfits
  obtain ⟨hr, hs⟩ := Prod.mk.inj (Option.some.inj ha)
  cases hok : c.ok with
  | false =>
    rw [hok] at hr hs
    obtain rfl := hr
    obtain rfl := hs
    refine ⟨.opening, ?_, rfl⟩
    rw [← hG, Function.update_eq_self]
    simpa [OwnRecord.acted] using hI
  | true =>
    rw [hok] at hr hs
    obtain rfl := hr
    obtain rfl := hs
    have hnoted := hI.notes h.wake h.owned h.quiesced h.begun true (m := .installing) hG rfl hopened id (fun ho => absurd ho (by simp [hI.facts.unowned hbegun hopened]))
      (fun _ => ⟨hbegun, hlock⟩) ⟨rfl, (hI.facts.closed hopened).2.2.2⟩
    refine ⟨.installing, ?_, rfl⟩
    simpa [OwnRecord.acted] using hnoted.spawn (u := usb) hbegun (fun _ => hlock) fun _ => rfl

theorem keeps_installs : KeepsOwn main tinyusbDriverInstall (fun _ k => k = .installing) .installing := by
  have hdriver (b : Bool) : KeepsOwn main (store .driver b) (fun _ k => k = .installing) .installing := by
    refine keeps_stores fun s h G hI hG => ⟨.installing, ?_, rfl, fun _ _ => rfl, (fun ht => by cases ht), ?_, rfl⟩
    · have hfits := hI.fits main
      rw [hG] at hfits
      cases b with
      | true =>
        refine ⟨hfits.1, ?_⟩
        by_contra ht
        have hlive := (hI.facts.torn (by simpa using ht)).2
        rw [hfits.2] at hlive
        cases hlive
      | false => exact fun ht => by cases ht
    · have hfits := hI.fits main
      rw [hG] at hfits
      cases b <;> exact hfits
  refine keeps_then (hdriver true) ?_
  rintro _ _ rfl
  refine keeps_then (R := fun _ k => k = .installing) (keeps_aloof (aloof_platform _) rfl fun _ => rfl) ?_
  rintro ok _ rfl
  refine keeps_then (R := fun _ k => k = .installing) ?_ (by rintro _ _ rfl; exact rfl)
  cases ok with
  | true => exact rfl
  | false => exact hdriver false

theorem keeps_ownershipStart : KeepsOwn main usbMscOwnershipStart (fun _ k => UsbOpened k) .installing := by
  have hinstalling {α : Type} {p : DeviceProg α} (hp : Aloof p) : KeepsOwn main p (fun _ k => k = .installing) .installing :=
    keeps_aloof hp rfl fun _ => rfl
  refine keeps_then (hinstalling (aloof_anyOf (by simp [aloof_isClear, aloof_load]))) ?_
  rintro refused _ rfl
  cases refused with
  | true => exact .inl rfl
  | false =>
    refine keeps_then (hinstalling (aloof_load _)) ?_
    rintro started _ rfl
    cases started with
    | true => exact .inl rfl
    | false =>
      refine keeps_then (hinstalling (aloof_op rfl)) ?_
      rintro _ _ rfl
      refine keeps_then keeps_installs ?_
      rintro ok _ rfl
      refine keeps_then (R := fun _ k => UsbOpened k) ?_ fun _ k hk =>
        keeps_aloof ((aloof_op rfl).bind fun _ => .ret _) hk.later fun _ => hk
      cases ok with
      | false => exact .inl rfl
      | true =>
        refine keeps_stores fun s h G hI hG => ?_
        have hopened : h.opened = true := UsbOpened.fits (.inl rfl) hI hG
        exact ⟨.running, fun _ => ⟨rfl, hopened⟩, rfl, fun _ _ => rfl, (fun ht => by cases ht), hopened, .inr rfl⟩

theorem keeps_cdcStart (hg : UsbOpened g) : KeepsOwn main usbCdcProtocolStart (fun _ k => k.later = true) g := by
  refine keeps_then (R := fun _ k => k = g) (keeps_own_op fun s h G hI hG c r s' ha => ⟨g, ?_, rfl⟩) ?_
  · have hopened := hg.fits hI hG
    obtain ⟨hbegun, hlock⟩ := hI.facts.opened hopened
    rw [← hG, Function.update_eq_self]
    obtain rfl := Option.some.inj (Capsule.act_snd ha)
    dsimp only
    split
    · exact hI.spawn (u := cdc) hbegun (fun _ => hlock) fun _ => hopened
    · exact hI
  rintro worker _ rfl
  cases worker with
  | false => exact hg.later
  | true =>
    refine keeps_aloof ((aloof_platform _).bind fun _ => ?_) hg.later fun _ => hg.later
    exact aloof_ite ((aloof_perform _).bind fun _ => .ret _) ((aloof_op rfl).bind fun _ => .ret _)

theorem keeps_startUsb : KeepsOwn main startUsb (fun _ _ => True) .opening := by
  have hfails {g : OwnMark} (hg : g.later = true) : KeepsOwn main (recorderEnterError .usb) (fun _ _ => True) g :=
    keeps_aloof (aloof_enterError _) hg fun _ => trivial
  refine keeps_then (R := fun _ k => k = .opening) ?_ ?_
  · refine keeps_then keeps_ownershipInit ?_
    rintro initialized _ rfl
    cases initialized with
    | false => exact rfl
    | true =>
      have hcutoff : Aloof usbMscOwnershipSetPhysicalSessionCutoff :=
        (aloof_anyOf (by simp [aloof_isClear, aloof_load])).bind fun _ => aloof_ite (.ret _) ((aloof_op rfl).bind fun _ => .ret _)
      exact keeps_opening (aloof_allOf (by simp [hcutoff, aloof_platform]))
  rintro ready _ rfl
  cases ready with
  | false => exact hfails rfl
  | true =>
    refine keeps_then keeps_opens ?_
    rintro coordinator _ rfl
    cases coordinator with
    | false => exact hfails rfl
    | true =>
      refine keeps_then keeps_ownershipStart fun started k hk => ?_
      cases started with
      | false =>
        exact keeps_aloof ((aloof_op (o := .deleteTask .usb) rfl).bind fun _ => aloof_enterError _) hk.later fun _ => trivial
      | true =>
        refine keeps_then (keeps_cdcStart hk) fun cdc k hk => ?_
        exact keeps_aloof (aloof_ite (aloof_enterError _) (.ret _)) hk fun _ => trivial

theorem keeps_runsBoot (action : BootAction) (fuel : ℕ) : KeepsOwn main (appMainRun action fuel) (fun _ _ => True) .staged := by
  have hstill {α : Type} {p : DeviceProg α} (hp : Still p) : KeepsOwn main p (fun _ k => k = .staged) .staged :=
    keeps_still hp fun _ => rfl
  have hasleep {g : OwnMark} {p : DeviceProg Unit} (hp : Still p) : KeepsOwn main p (fun _ _ => True) g :=
    keeps_still hp fun _ => trivial
  refine keeps_then (hstill (still_wakeRecoveryInit _)) ?_
  rintro _ _ rfl
  refine keeps_then (hstill (still_ite still_rtcCorrectionInit (.ret _))) ?_
  rintro rtcReady _ rfl
  cases rtcReady with
  | false => exact hasleep still_shutdownArmedNow
  | true =>
    refine keeps_then keeps_begins ?_
    rintro based _ rfl
    cases based with
    | false => exact hasleep still_shutdownIfRequired
    | true =>
      refine keeps_then (keeps_waitRecording fuel) fun recording k hk => ?_
      cases recording with
      | false => exact hasleep still_shutdownIfRequired
      | true =>
        obtain rfl := hk.2 rfl
        refine keeps_then (keeps_opening (aloof_ite still_rtcCorrectionInit.aloof (.ret _))) ?_
        rintro rtcReady _ rfl
        cases rtcReady with
        | false => exact keeps_aloof (aloof_enterError _) rfl fun _ => trivial
        | true =>
          refine keeps_then (keeps_opening (aloof_isClear _)) ?_
          rintro allowed _ rfl
          cases allowed with
          | false =>
            exact keeps_aloof ((aloof_enterError _).bind fun _ => still_shutdownArmedNow.aloof) rfl fun _ => trivial
          | true => exact keeps_startUsb

theorem keeps_boots (fuel : ℕ) : KeepsOwn main (appMain fuel) (fun _ _ => True) .booting := by
  have hstill {α : Type} {p : DeviceProg α} (hp : Still p) : KeepsOwn main p (fun _ k => k = .booting) .booting :=
    keeps_still hp fun _ => rfl
  have hasleep {g : OwnMark} : KeepsOwn main recorderShutdownArmedNow (fun _ _ => True) g :=
    keeps_still still_shutdownArmedNow fun _ => trivial
  refine keeps_then (hstill (still_op ⟨rfl, rfl⟩)) ?_
  rintro hold _ rfl
  cases hold with
  | false => trivial
  | true =>
    refine keeps_then (hstill (still_op ⟨rfl, rfl⟩)) ?_
    rintro nvs _ rfl
    cases nvs with
    | false => exact hasleep
    | true =>
      refine keeps_then keeps_asks ?_
      rintro (_ | wake) _ rfl
      · exact hasleep
      refine keeps_then (keeps_decides wake) fun action k hk => ?_
      cases action with
      | none => exact hasleep
      | some action =>
        cases action with
        | staysShutdown => exact hasleep
        | normal =>
          obtain rfl := hk .normal rfl (by decide)
          exact keeps_runsBoot .normal fuel
        | manualResume =>
          obtain rfl := hk .manualResume rfl (by decide)
          exact keeps_runsBoot .manualResume fuel

end Main

section Runs

theorem aloof_wrapped (cb : MscCallback) : Aloof (wrapped cb) := by
  have hwrap (real : MscCallback) : Aloof (wrapTudMsc real) :=
    (aloof_load _).bind fun _ => aloof_ite ((aloof_perform _).bind fun _ => .ret _) ((aloof_platform _).bind fun _ => .ret _)
  cases cb <;> exact hwrap _

theorem OwnMark.rest_inactive (ran : Bool) : (rest ran).active = false := by cases ran <;> rfl

theorem OwnMark.rest_transfers (ran : Bool) : (rest ran).transfers = false := by cases ran <;> rfl

/-- A call begins. -/
theorem OwnInv.goes {ran : Bool} {m : OwnMark} (hI : OwnInv s h G) (hG : G t = .rest ran) (hm : m.Of t)
    (hbegun : t ≠ main → h.begun = true) (hlock : t ≠ main → t ≠ base → s.flag .stateLock = true)
    (hopened : t ∈ [usb, tinyusb, cdc] → h.opened = true) (hfits : m.Fits t s h) : OwnInv s h (Function.update G t m) := by
  have hor {u : DeviceTask} (hu : u ≠ t) (hactive : s.spawned u = true ∨ (Function.update G t m u).active = true) :
      s.spawned u = true ∨ (G u).active = true := by rwa [Function.update_of_ne hu] at hactive
  refine ⟨hI.facts, fun u => ?_, fun u => ?_, fun u hmain hactive => ?_, fun u hmain hbase hactive => ?_, ?_, fun ha => ?_⟩
  · by_cases hu : u = t
    · subst hu
      rwa [Function.update_self]
    · rw [Function.update_of_ne hu]
      exact hI.fits u
  · by_cases hu : u = t
    · subst hu
      rwa [Function.update_self]
    · rw [Function.update_of_ne hu]
      exact hI.own u
  · by_cases hu : u = t
    · exact hbegun (hu ▸ hmain)
    · exact hI.up u hmain (hor hu hactive)
  · by_cases hu : u = t
    · exact hlock (hu ▸ hmain) (hu ▸ hbase)
    · exact hI.lock u hmain hbase (hor hu hactive)
  · rintro (hd | ⟨u, hu, hactive⟩)
    · exact hI.running (.inl hd)
    · by_cases hut : u = t
      · exact hopened (hut ▸ hu)
      · exact hI.running (.inr ⟨u, hu, hor hut hactive⟩)
  · obtain ⟨hlifecycle, hhanded, htransfers⟩ := hI.transfer ha
    refine ⟨hlifecycle, hhanded, ?_⟩
    have hu : usb ≠ t := by
      rintro rfl
      rw [hG, OwnMark.rest_transfers] at htransfers
      cases htransfers
    rwa [Function.update_of_ne hu]

theorem returns_own {c : DeviceCall} {ran : Bool} (v : c.Ret) (ht : t = usb → g.transfers = false) :
    Returns deviceCode.remember OwnRecord.note (fun m h G => OwnInv m.1 h G) OwnMark.rest t ran c v g := by
  intro m h G hI hG
  refine hI.mark hG (m := .outside) ⟨trivial, (fun _ ha => by cases ha), fun hu hf => ?_⟩ trivial
  rw [ht hu] at hf
  cases hf

theorem own_calls : KeepsCalls deviceCode.remember OwnRecord.note (fun m h G => OwnInv m.1 h G) (fun _ _ _ _ _ => True)
    (fun _ => True) OwnMark.rest := by
  intro t c ran m h G hI _ hG hmay
  change mayDevice t m.1 ran c = true at hmay
  have hreturns {Q : c.Ret → OwnMark → Prop} {k : OwnMark} (hQ : ∀ v k, Q v k → t = usb → k.transfers = false)
      (hgoes : OwnInv m.1 h (Function.update G t k)) (hp : ∀ fuel, KeepsOwn t (deviceBody c fuel) Q k) :
      ∃ k, OwnInv m.1 h (Function.update G t k) ∧ ∀ fuel, KeepsOwn t (deviceBody c fuel)
        (Returns deviceCode.remember OwnRecord.note (fun m h G => OwnInv m.1 h G) OwnMark.rest t ran c) k :=
    ⟨k, hgoes, fun fuel => keeps_mono (hp fuel) fun v k hk => returns_own v (hQ v k hk)⟩
  -- every task but the first two is spawned behind the lock of the lifecycle
  have hgoes (ht : t ≠ main) (hbase : t ≠ base) (hspawned : m.1.spawned t = true) {k : OwnMark} (hk : k.Of t)
      (hfits : k.Fits t m.1 h) : OwnInv m.1 h (Function.update G t k) :=
    hI.goes hG hk (fun _ => hI.up t ht (.inl hspawned)) (fun _ _ => hI.lock t ht hbase (.inl hspawned))
      (fun hu => hI.running (.inr ⟨t, hu, .inl hspawned⟩)) hfits
  have hinside (ht : t ≠ main) (hbase : t ≠ base) (hspawned : m.1.spawned t = true) :
      OwnInv m.1 h (Function.update G t .inside) := hgoes ht hbase hspawned ht trivial
  have hfits := hI.fits t
  rw [hG] at hfits
  cases c with
  | task u =>
    have hruns := hmay
    simp only [mayDevice, Bool.and_eq_true, decide_eq_true_eq] at hmay
    obtain ⟨⟨⟨rfl, hspawned⟩, hran⟩, -⟩ := hmay
    obtain rfl : ran = false := by simpa using hran
    cases t with
    | main =>
      refine hreturns (fun _ _ _ ht => by cases ht) (hI.goes hG (m := .booting) rfl (fun ht => absurd rfl ht)
        (fun ht => absurd rfl ht) (fun hu => by simp at hu) hfits) keeps_boots
    | base =>
      refine hreturns (fun _ _ _ ht => by cases ht) (hI.goes hG (m := .starting) rfl (fun ht => hI.up _ ht (.inl hspawned))
        (fun _ hb => absurd rfl hb) (fun hu => by simp at hu) hfits) fun _ => keeps_baseAppMain
    | writer =>
      refine hreturns (fun _ _ _ ht => by cases ht) (hgoes (by decide) (by decide) hspawned (k := .mounting false) rfl
        ⟨hfits.1, fun _ => hfits.2⟩) keeps_ownWriter
    | capture =>
      refine hreturns (Q := fun _ _ => True) (fun _ _ _ ht => by cases ht) (hinside (by decide) (by decide) hspawned)
        fun fuel => ?_
      exact keeps_aloof (aloof_of_runs (runs_deviceBody hruns (by decide) (by decide) fuel)) rfl fun _ => trivial
    | battery =>
      refine hreturns (Q := fun _ _ => True) (fun _ _ _ ht => by cases ht) (hinside (by decide) (by decide) hspawned)
        fun fuel => ?_
      refine keeps_aloof ((runs_deviceBody hruns (by decide) (by decide) fuel).mono fun _ => aloof_of_other (.inl rfl)) rfl ?_
      exact fun _ => trivial
    | usb =>
      exact hreturns (fun _ _ hk _ => hk) (hinside (by decide) (by decide) hspawned) fun fuel =>
        keeps_usbEventTask fuel resting_inside
    | tinyusb =>
      exact hreturns (Q := fun _ _ => True) (fun _ _ _ ht => by cases ht) (hinside (by decide) (by decide) hspawned) fun _ =>
        trivial
    | cdc =>
      exact hreturns (Q := fun _ _ => True) (fun _ _ _ ht => by cases ht) (hinside (by decide) (by decide) hspawned) fun _ =>
        trivial
  | releaseAccept | releaseResponseComplete | setTime =>
    have hruns := hmay
    simp only [mayDevice, Bool.and_eq_true, decide_eq_true_eq] at hmay
    obtain ⟨⟨rfl, hspawned⟩, -⟩ := hmay
    refine hreturns (Q := fun _ _ => True) (fun _ _ _ ht => by cases ht) (hinside (by decide) (by decide) hspawned)
      fun fuel => ?_
    refine keeps_aloof ((runs_deviceBody hruns (by decide) (by decide) fuel).mono fun _ => aloof_of_other (.inr rfl)) rfl ?_
    exact fun _ => trivial
  | deviceEvent | storageEvent | scsiComplete | msc =>
    simp only [mayDevice, Bool.and_eq_true, decide_eq_true_eq] at hmay
    obtain ⟨⟨rfl, hdriver⟩, -⟩ := hmay
    have hopened := hI.running (.inl hdriver)
    obtain ⟨hbegun, hlock⟩ := hI.facts.opened hopened
    refine hreturns (Q := fun _ _ => True) (fun _ _ _ ht => by cases ht) (hI.goes hG (m := .inside)
      (by decide : tinyusb ≠ main) (fun _ => hbegun) (fun _ _ => hlock) (fun _ => hopened) trivial) fun fuel => ?_
    first
      | exact keeps_ownDeviceEventCb _
      | exact keeps_mono (keeps_ownStorageEventCb (.inl ⟨rfl, rfl⟩) _) fun _ _ _ => trivial
      | exact keeps_aloof (aloof_scsiCompleteCb _) rfl fun _ => trivial
      | exact keeps_aloof (aloof_wrapped _) rfl fun _ => trivial

theorem own_boot (nvs : Nvs) {h : OwnRecord}
    (ho : h.owned = true → nvs.lifecycle = .hostUnresolved ∨ h.quiesced = true ∧ nvs.lifecycle = .armed) :
    OwnInv (.boot nvs) (.start nvs h) fun _ => .fresh := by
  have hoff {P : Prop} (hf : false = true) : P := by cases hf
  refine ⟨⟨fun _ => ⟨rfl, rfl⟩, fun _ => ⟨rfl, rfl, rfl, rfl⟩, hoff, hoff, hoff, hoff, hoff, hoff,
    fun hown => ⟨ho hown, .inl rfl⟩, hoff, hoff, hoff⟩, fun t => ?_, fun _ => trivial, fun t ht hor => ?_, fun t ht _ hor => ?_,
    fun hup => ?_, hoff⟩
  · cases t with
    | main => exact rfl
    | base => exact rfl
    | writer => exact ⟨⟨rfl, rfl, rfl, rfl⟩, rfl⟩
    | _ => trivial
  · exact absurd (hor.resolve_right hoff) (by simpa [Capsule.boot] using ht)
  · exact absurd (hor.resolve_right hoff) (by simpa [Capsule.boot] using ht)
  · simp [usbRuns, Capsule.boot, OwnMark.active] at hup

variable {P P' : DevicePool OwnRecord}

theorem boots_ownInv (h : Boots OwnRecord.note OwnRecord.start {} P) : ∃ G, OwnInv P.mem P.seen G := by
  obtain ⟨before, G, hI, -⟩ := boots_good own_calls (fun nvs => own_boot nvs fun ho => by cases ho)
    (fun s h G hI => own_boot s.1.nvs fun ho => (hI.facts.owned ho).1) h
  exact ⟨G, hI⟩

/-- A boot that records until the host attaches, through the seal of the card and the transfer, to the host's own attach. -/
def handoverRun : List (Option DeviceEvent) :=
  let card : (o : WriterOp) → o.Ans
    | .hashWavFile _ => some (List.replicate 64 0x30, 44)
    | o => goodCard o
  let choice : DeviceChoice := { goodChoice with events := [.mountComplete .usb], card := card }
  let act (t : DeviceTask) (n : ℕ) : List (Option DeviceEvent) := List.replicate n (some (.act t choice))
  let call (t : DeviceTask) (c : DeviceCall) (n : ℕ) : List (Option DeviceEvent) := some (.call t c 1) :: act t n
  call main (.task main) 8 ++ call base (.task base) 11 ++ call writer (.task writer) 42 ++ call capture (.task capture) 6 ++
    call battery (.task battery) 1 ++ act main 54 ++ call tinyusb (.deviceEvent .attached) 10 ++
    call tinyusb (.scsiComplete 0) 13 ++ call usb (.task usb) 22 ++ act capture 9 ++ act battery 5 ++ act writer 14 ++
    act usb 32 ++ call tinyusb (.deviceEvent .attached) 13

end Runs

end M5DayLog
