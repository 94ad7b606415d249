import M5DayLog.Device.Model

/-! The storage, which belongs to the Device or to the host: the mount of the card, and the USB mass-storage ownership that
passes the card to the host and takes it back only by shutting down. -/

namespace M5DayLog

open Threads Bytes Fat DeviceProg

section Mount

def sdMountIsMounted : DeviceProg Bool := load .mounted

def sdMountDeviceFsReleased : DeviceProg Bool := load .deviceFsReleased

/-- The three directories. -/
def ensureRecordingDirs : DeviceProg Bool := allOf [platform .mkdir, platform .mkdir, platform .mkdir]

def sdMountInstallMscDriver : DeviceProg Bool := do
  let installed ← load .mscDriverInit
  if installed then return true
  else
    let ok ← platform .mscInstallDriver
    if ok then
      store .mscDriverInit true
      return true
    else return false

def sdMountCreateStorage : DeviceProg Bool := do
  let refused ← anyOf [isClear .mscDriverInit, load .storage]
  if refused then return false
  else
    let ok ← platform .mscNewStorage
    store .storage ok
    return ok

def sdMountDeleteStorage : DeviceProg Bool := do
  let quiet ← platform .mscSetStorageCallback
  onlyIf quiet (store .storageCallback false)
  let ok ← platform .mscDeleteStorage
  onlyIf ok (store .storage false)
  return ok

def sdMountUninstallMscDriver : DeviceProg Bool := do
  let ok ← platform .mscUninstallDriver
  onlyIf ok (store .mscDriverInit false)
  return ok

/-- Both ways out of a mount: to the host, where only the release is noted, or for good. -/
def sdMountUnmount : DeviceProg Unit := do
  let usbRelease ← sd .beginUnmount
  if usbRelease then return ()
  else
    let storage ← load .storage
    let deleted ← (if storage then sdMountDeleteStorage else pure true : DeviceProg Bool)
    if !deleted then return ()
    else
      let installed ← load .mscDriverInit
      let uninstalled ← (if installed then sdMountUninstallMscDriver else pure true : DeviceProg Bool)
      if !uninstalled then return ()
      else
        let _ ← sd .setUnmounted
        return ()

def sdMountRecordings : DeviceProg Bool := do
  let mounted ← sdMountIsMounted
  if mounted then ensureRecordingDirs
  else
    let storage ← load .storage
    if storage then return false
    else
      let card ← allOf [platform .spiBusInitialize, platform .sdspiHostInit, platform .sdspiHostInitDevice,
        platform .sdmmcCardInit, sdMountInstallMscDriver]
      if !card then return false
      else
        let created ← sdMountCreateStorage
        if !created then
          perform .mscUninstallDriver
          store .mscDriverInit false
          return false
        else
          let _ ← sd .setMounted
          let dirs ← ensureRecordingDirs
          if dirs then return true
          else
            sdMountUnmount
            return false

/-- The Device may still use the mounted file system. -/
def sdMountUsable : DeviceProg Bool := do
  let lost ← anyOf [isClear .mounted, load .deviceFsReleased]
  return !lost

def sdMountEnsureDateDir (date : Bytes) : DeviceProg Bool := do
  let usable ← sdMountUsable
  if !usable ∨ !validDate date then return false else platform .mkdir

def sdMountEnsureQuarantineDir : DeviceProg Bool := do
  let usable ← sdMountUsable
  if !usable then return false else platform .mkdir

def sdMountReleaseForUsb : DeviceProg Bool := sd .releaseForUsb

end Mount

section Callbacks

def usbFail : DeviceProg Unit := do
  let events ← load .usbEvents
  onlyIf events (setBits [.failed])

/-- Neither `s_started` nor `s_starting`. -/
def notStarted : DeviceProg Bool := do
  let started ← load .started
  if started then return false else isClear .starting

/-- `usb_storage_event_cb`, once it is registered. -/
def usbStorageEventCb (event : StorageEvent) : DeviceProg Unit := do
  let registered ← load .storageCallback
  let events ← load .usbEvents
  if !registered ∨ !events then return ()
  else
    match event with
    | .mountStart mountPoint =>
      let unexpected ← anyOf [pure (mountPoint ≠ .app), isClear .publishTriggered, isClear .transferAuthorized,
        load .storageUsbOwned, load .hostOwned, load .releasePending, isClear .mounted, isClear .wavFinalized,
        isClear .manifestCommitted, isClear .usbDeviceFsReleased]
      onlyIf unexpected usbFail
    | .mountComplete mountPoint =>
      let expected ← (if mountPoint = .usb then load .transferAuthorized else pure false : DeviceProg Bool)
      if expected then
        let _ ← sd .noteUsbOwned
        store .storageUsbOwned true
      else usbFail
    | .mountFailed | .formatRequired | .formatFailed => usbFail

inductive TinyusbEvent
  | attached
  | detached
  | suspended
  deriving DecidableEq

def attachedProvisional : DeviceProg Unit := do
  let mismatch ← anyOf [isClear .initialized, notStarted, load .hostOwned, load .releasePending, load .publishTriggered,
    load .provisionalAttached, isClear .mounted]
  if mismatch then usbFail else store .provisionalAttached true

def attachedPublished : DeviceProg Unit := do
  let mismatch ← anyOf [isClear .initialized, notStarted, isClear .publishTriggered, isClear .prepareDisconnected,
    load .releasePending, load .mounted]
  if mismatch then
    perform .tudDisconnect
    usbFail
  else
    store .hostOwned true
    store .provisionalAttached false
    store .prepareDisconnected false
    setBits [.hostOwned]

def attachedAgain : DeviceProg Unit := do
  let mismatch ← anyOf [load .releasePending, load .mounted]
  if mismatch then
    perform .tudDisconnect
    usbFail
  else return ()

def deviceDetached : DeviceProg Unit := do
  let kept ← anyOf [load .storageUsbOwned, load .hostOwned, isClear .provisionalAttached, load .publishTriggered]
  if !kept then store .provisionalAttached false
  else
    let hostOwned ← load .hostOwned
    if hostOwned then
      store .hostSessionDetached true
      let cutoff ← load .physicalSessionCutoff
      onlyIf cutoff (perform .cdcCloseSession)
    else return ()

def usbDeviceEventCb (event : TinyusbEvent) : DeviceProg Unit := do
  let events ← load .usbEvents
  if !events then return ()
  else
    match event with
    | .attached =>
      let usbOwned ← load .storageUsbOwned
      if !usbOwned then attachedProvisional
      else
        let hostOwned ← load .hostOwned
        if !hostOwned then attachedPublished else attachedAgain
    | .detached => deviceDetached
    | .suspended => return ()

def usbNoteInitialMscCommandComplete : DeviceProg Unit := do
  let refused ← anyOf [isClear .initialized, notStarted, isClear .provisionalAttached, load .storageUsbOwned,
    load .hostOwned, load .releasePending, load .publishTriggered, isClear .mounted]
  if refused then return ()
  else
    store .publishTriggered true
    setBits [.attach]

def usbScsiCmdTestUnitReady : UInt8 := 0

/-- `tud_msc_scsi_complete_cb` for a command with this operation code. -/
def tudMscScsiCompleteCb (opcode : UInt8) : DeviceProg Unit := do
  let past ← anyOf [load .storageUsbOwned, isClear .provisionalAttached, load .publishTriggered]
  if !past then
    if opcode = usbScsiCmdTestUnitReady then usbNoteInitialMscCommandComplete else return ()
  else
    let other ← anyOf [isClear .hostOwned, isClear .hostSessionDetached, load .releasePending, load .mounted]
    if other then return ()
    else
      store .hostSessionDetached false
      setBits [.hostReattached]

/-- A wrapped backend callback: the real one answers while no release is pending, and `none` is a medium that is not
present. -/
def wrapTudMsc (real : MscCallback) : DeviceProg (Option Bool) := do
  let pending ← load .releasePending
  if pending then
    perform .tudMscSetSense
    return none
  else
    let r ← platform (.realMsc real)
    return some r

def wrapTudMscTestUnitReadyCb : DeviceProg (Option Bool) := wrapTudMsc .testUnitReady

def wrapTudMscCapacityCb : DeviceProg (Option Bool) := wrapTudMsc .capacity

def wrapTudMscRead10Cb : DeviceProg (Option Bool) := wrapTudMsc .read10

def wrapTudMscWrite10Cb : DeviceProg (Option Bool) := wrapTudMsc .write10

end Callbacks

section Ownership

def usbMscOwnershipInit : DeviceProg Bool := do
  let initialized ← load .initialized
  if initialized then return true
  else
    let ready ← allOf [sdMountIsMounted, platform .createEventGroup]
    if !ready then return false
    else
      store .usbEvents true
      let registered ← platform .mscSetStorageCallback
      if !registered then
        store .usbEvents false
        return false
      else
        store .storageCallback true
        store .starting false
        store .started false
        store .storageUsbOwned false
        store .hostOwned false
        store .releasePending false
        store .releaseWaitingResponse false
        .op (DeviceOp.storeAttemptId [])
        store .provisionalAttached false
        store .publishTriggered false
        store .prepareDisconnected false
        store .transferAuthorized false
        store .hostSessionDetached false
        store .physicalSessionCutoff false
        store .initialized true
        return true

def usbMscOwnershipSetPhysicalSessionCutoff : DeviceProg Bool := do
  let refused ← anyOf [isClear .initialized, load .started, load .starting]
  if refused then return false
  else
    store .physicalSessionCutoff true
    return true

/-- The TinyUSB task runs, and may call back, before the install returns. -/
def tinyusbDriverInstall : DeviceProg Bool := do
  store .driver true
  let ok ← platform .driverInstall
  onlyIf (!ok) (store .driver false)
  return ok

def tinyusbDriverUninstall : DeviceProg Bool := do
  let ok ← platform .driverUninstall
  onlyIf ok (store .driver false)
  return ok

def usbMscOwnershipStart : DeviceProg Bool := do
  let refused ← anyOf [isClear .initialized, isClear .mounted, load .storageUsbOwned, load .hostOwned,
    load .releasePending, load .starting]
  if refused then return false
  else
    let started ← load .started
    if started then return true
    else
      store .starting true
      let ok ← tinyusbDriverInstall
      onlyIf ok (store .started true)
      store .starting false
      return ok

inductive UsbEvent
  | none
  | attach
  | hostOwned
  | hostReattached
  | releaseRequested
  | releaseQuiesced
  | failed
  deriving DecidableEq

/-- The public bits, the most urgent first. -/
def usbPublicBits : List (DeviceBit × UsbEvent) :=
  [(.failed, .failed), (.attach, .attach), (.hostOwned, .hostOwned), (.hostReattached, .hostReattached),
    (.releaseRequested, .releaseRequested), (.releaseQuiesced, .releaseQuiesced)]

def usbMscOwnershipWaitEvent : DeviceProg UsbEvent := do
  let events ← load .usbEvents
  if !events then return .failed
  else
    let bits ← waitBits (usbPublicBits.map (·.1)) false false true
    match usbPublicBits.find? fun b => bits b.1 with
    | none => return .none
    | some (bit, event) =>
      .op (DeviceOp.clearBits [bit])
      return event

def usbMscOwnershipBeginPrepare : DeviceProg Bool := do
  let refused ← anyOf [isClear .initialized, notStarted, isClear .provisionalAttached, isClear .publishTriggered,
    load .storageUsbOwned, load .hostOwned, load .releasePending, isClear .mounted]
  if refused then return false
  else
    let disconnected ← load .prepareDisconnected
    if disconnected then return true
    else
      let ok ← platform .tudDisconnect
      if ok then
        store .prepareDisconnected true
        return true
      else
        usbFail
        return false

def deliver : List StorageEvent → DeviceProg Unit
  | [] => return ()
  | event :: events => do
    usbStorageEventCb event
    deliver events

/-- The storage delivers its events from within the call. -/
def tinyusbMscSetStorageMountPoint : DeviceProg Bool := do
  let (ok, events) ← Prog.op DeviceOp.setStorageMountPoint
  deliver events
  return ok

def sdMountTransferToUsb : DeviceProg Bool := do
  let ready ← allOf [sd .transferReady, load .storage]
  if !ready then return false
  else
    let ok ← tinyusbMscSetStorageMountPoint
    if !ok then return false else sd .releaseReady

def usbMscPublish (wavFinalized manifestCommitted deviceFsReleased : Bool) : DeviceProg Bool := do
  let incomplete ← anyOf [pure !wavFinalized, pure !manifestCommitted, pure !deviceFsReleased, isClear .usbEvents,
    load .storageUsbOwned, load .hostOwned, load .releasePending, isClear .provisionalAttached, isClear .publishTriggered,
    isClear .prepareDisconnected, isClear .mounted]
  if incomplete then
    usbFail
    return false
  else
    let unresolved ← shutdownArmedMarkHostUnresolved
    if !unresolved then
      usbFail
      return false
    else
      store .wavFinalized wavFinalized
      store .manifestCommitted manifestCommitted
      store .usbDeviceFsReleased deviceFsReleased
      store .transferAuthorized true
      let ok ← sdMountTransferToUsb
      store .transferAuthorized false
      let failed ← anyOf [pure !ok, isClear .storageUsbOwned, load .mounted]
      if failed then
        usbFail
        return false
      else
        let connected ← platform .tudConnect
        if connected then return true
        else
          usbFail
          return false

def usbMscOwnershipNotePrepareComplete (wavFinalized manifestCommitted deviceFsReleased : Bool) : DeviceProg Bool := do
  let initialized ← load .initialized
  if !initialized then return false else usbMscPublish wavFinalized manifestCommitted deviceFsReleased

def usbMscOwnershipIsHostOwned : DeviceProg Bool := load .hostOwned

end Ownership

section Release

def usbMscReleaseAttemptMaxBytes : ℕ := 64

/-- A letter, a digit or one of `. _ : -`. -/
def attemptIdChar (c : UInt8) : Bool :=
  (0x41 ≤ c && c ≤ 0x5a) || (0x61 ≤ c && c ≤ 0x7a) || (0x30 ≤ c && c ≤ 0x39) || c = 0x2e || c = 0x5f || c = 0x3a || c = 0x2d

def usbReleaseAttemptIdValid (id : Bytes) : Bool :=
  id.length ≠ 0 && id.length ≤ usbMscReleaseAttemptMaxBytes && id.all attemptIdChar

def usbMscOwnershipReleaseCommandAdmissionOpen : DeviceProg Bool := do
  let closed ← anyOf [isClear .initialized, isClear .started, isClear .storageUsbOwned, isClear .hostOwned, load .mounted,
    load .releasePending]
  return !closed

inductive ReleaseStorageResult
  | accepted
  | invalidArgs
  | wrongState
  | conflict
  deriving DecidableEq

/-- The exchange of `s_release_pending` is the acceptance. -/
def usbMscOwnershipAcceptReleaseStorage (id : Bytes) : DeviceProg ReleaseStorageResult :=
  if !usbReleaseAttemptIdValid id then return .invalidArgs
  else do
    let wrong ← anyOf [isClear .initialized, isClear .started, isClear .storageUsbOwned, isClear .hostOwned, load .mounted]
    if wrong then return .wrongState
    else
      let won ← Prog.op DeviceOp.casReleasePending
      if !won then return .conflict
      else
        .op (DeviceOp.storeAttemptId id)
        store .releaseWaitingResponse true
        return .accepted

def usbMscOwnershipReleaseResponseComplete (id : Bytes) : DeviceProg Bool :=
  if !usbReleaseAttemptIdValid id then return false
  else do
    let refused ← anyOf [isClear .releasePending, isClear .releaseWaitingResponse, isClear .initialized, isClear .started,
      isClear .hostOwned]
    if refused then return false
    else
      let accepted ← Prog.op DeviceOp.loadAttemptId
      if accepted ≠ id then return false
      else
        store .releaseWaitingResponse false
        setBits [.releaseRequested]
        return true

def sdMountReleaseUsbStorage : DeviceProg Bool := do
  let ready ← allOf [sd .releaseReady, load .storage, load .mscDriverInit]
  if !ready then return false
  else
    let deleted ← platform .mscDeleteStorage
    if !deleted then return false
    else
      store .storage false
      let uninstalled ← platform .mscUninstallDriver
      if !uninstalled then return false
      else
        store .mscDriverInit false
        return true

def usbMscOwnershipCompleteReleaseQuiesce : DeviceProg Bool := do
  let refused ← anyOf [isClear .initialized, isClear .started, isClear .storageUsbOwned, isClear .hostOwned,
    isClear .releasePending, load .releaseWaitingResponse, load .mounted]
  if refused then return false
  else
    let uninstalled ← tinyusbDriverUninstall
    if !uninstalled then
      usbFail
      return false
    else
      store .started false
      let released ← sdMountReleaseUsbStorage
      if !released then
        usbFail
        return false
      else
        let armed ← shutdownArmedCommit
        if !armed then
          usbFail
          return false
        else
          store .storageUsbOwned false
          store .hostOwned false
          store .releasePending false
          store .releaseWaitingResponse false
          .op (DeviceOp.storeAttemptId [])
          store .provisionalAttached false
          store .publishTriggered false
          store .prepareDisconnected false
          store .transferAuthorized false
          store .hostSessionDetached false
          .op (DeviceOp.clearBits [.attach, .hostOwned, .hostReattached, .releaseRequested])
          setBits [.releaseQuiesced]
          return true

end Release

end M5DayLog
