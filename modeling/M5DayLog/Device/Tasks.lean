import M5DayLog.Device.Storage

/-! The tasks: the recorder's writer, capture and battery tasks, the USB coordinator, the callbacks, and `app_main`, which
decides at each boot what may start. A run of the Device is a run of boots, each of which begins with what the NVS partition
holds, and power may be lost at any step. -/

namespace M5DayLog

open Threads Bytes Fat DeviceProg

section Writer

/-- Manifest sync, which on a manual-WAKE boot goes on to the recovery of the Device. -/
def recorderTask87ManifestSyncWavDir (deviceId now : Bytes) : DeviceProg Bool := do
  let ok ← Prog.op (DeviceOp.card (.syncWavDir deviceId now))
  if !ok then return false
  else
    let pending ← task87WakeRecoveryPending
    if !pending then return true else task87WakeRecoveryCompleteDeviceRecovery

/-- The writer's calls. Its new id is stored right before the date directory is made, since nothing between them can
fail. -/
def writerCall : (o : WriterOp) → DeviceProg o.Ans
  | .mountRecordings => sdMountRecordings
  | .unmount => sdMountUnmount
  | .setEventsReady ready => recorderSetEventsReady ready
  | .transitionState next reason => recorderTransitionState next reason
  | .enterError reason => recorderEnterError reason
  | .ensureQuarantineDir => sdMountEnsureQuarantineDir
  | .syncWavDir deviceId now => recorderTask87ManifestSyncWavDir deviceId now
  | .ensureDateDir date => do
    store .segRecId true
    sdMountEnsureDateDir date
  | .signalReady => setBits [.writerReady]
  | .waitSlotFull => do
    let _ ← waitBits [.slotFull] true false true
    return ()
  | .stopRequested => recorderStopRequested
  | o => .op (DeviceOp.card o)

/-- `recorder_task49_delete`. -/
def recorderTask49Delete (done : DeviceBit) : DeviceProg Unit := do
  let events ← load .recEvents
  onlyIf events (setBits [done])

def deviceWriterTask (fuel : ℕ) : DeviceProg Unit := do
  match ← (recorderWriterTask fuel).interp writerCall with
  | .running => halt
  | .deleted => recorderTask49Delete .writerFinalized

end Writer

section Capture

def captureLoop : ℕ → DeviceProg Unit
  | 0 => halt
  | fuel + 1 => do
    let stop ← recorderStopRequested
    if stop then return ()
    else
      let read ← Prog.op DeviceOp.pdmRead
      if read.error then recorderEnterError .i2sRead
      else
        let stop ← recorderStopRequested
        if stop then onlyIf read.overflow (recorderEnterError .dmaOverrun)
        else
          let loss ← (if read.overflow then pure false else platform .bufferLoss : DeviceProg Bool)
          let full ← platform .slotFull
          if read.overflow then recorderEnterError .dmaOverrun
          else if loss then recorderEnterError .bufferOverflow
          else
            onlyIf full (setBits [.slotFull])
            captureLoop fuel

/-- Retry, in the error state, until the driver lets go. -/
def captureDeinit : ℕ → ℕ → DeviceProg Unit
  | 0, _ => halt
  | fuel + 1, attempt => do
    let ok ← platform .pdmCaptureDeinit
    if ok then return ()
    else
      onlyIf (attempt % 20 = 0) (recorderEnterError .internal)
      perform .delay
      captureDeinit fuel (attempt + 1)

def captureStop : DeviceProg Unit := do
  let stop ← Prog.op DeviceOp.pdmStop
  if stop.error then recorderEnterError .i2sRead else onlyIf stop.overflow (recorderEnterError .dmaOverrun)

def recorderCaptureTask (fuel : ℕ) : DeviceProg Unit := do
  let bits ← waitBits [.writerReady, .stop] false false false
  if bits .stop ∨ !bits .writerReady then recorderTask49Delete .captureDone
  else
    let ready ← platform .pdmCaptureInit
    if !ready then
      recorderEnterError .micInit
      recorderTask49Delete .captureDone
    else
      let recording ← recorderTransitionState .recording .none
      (if recording then setBits [.recordingReady] else recorderEnterError .internal : DeviceProg Unit)
      captureLoop fuel
      captureStop
      recorderRequestStop
      captureDeinit fuel 0
      recorderRequestStop
      recorderTask49Delete .captureDone

end Capture

section Battery

def lowBatteryConfirmSamples : ℕ := 3

def batteryLoop : ℕ → ℕ → DeviceProg Unit
  | 0, _ => halt
  | fuel + 1, lowSamples => do
    let stop ← recorderStopRequested
    if stop then return ()
    else
      let ok ← platform .readBattery
      if !ok then recorderEnterError .internal
      else
        let low ← platform .batteryLow
        let lowSamples := if low then lowSamples + 1 else 0
        if lowBatteryConfirmSamples ≤ lowSamples then
          let stopped ← recorderTransitionState .lowBatteryStop .lowBattery
          if stopped then recorderRequestStop else recorderEnterError .internal
        else
          perform .delay
          batteryLoop fuel lowSamples

def recorderBatteryTask (fuel : ℕ) : DeviceProg Unit := do
  let bits ← waitBits [.recordingReady, .stop] false false false
  if bits .stop ∨ !bits .recordingReady then recorderTask49Delete .batteryDone
  else
    let ready ← platform .powerInit
    if !ready then
      recorderEnterError .internal
      recorderTask49Delete .batteryDone
    else
      batteryLoop fuel 0
      recorderTask49Delete .batteryDone

end Battery

section Base

/-- The first tasks, one after the other, up to one that cannot be spawned. -/
def spawnTasks : List DeviceTask → DeviceProg Unit
  | [] => return ()
  | t :: ts => do
    let ok ← spawn t
    if ok then spawnTasks ts else recorderEnterError .internal

/-- `recorder_base_app_main`, up to its idle loop. -/
def recorderBaseAppMain : DeviceProg Unit := do
  let hold ← platform .powerEnableHold
  .op DeviceOp.machineInit
  let lock ← platform .createMutex
  if !lock then return ()
  else
    store .stateLock true
    let events ← platform .createEventGroup
    if !events then
      let _ ← recorderTransitionState .error .internal
      return ()
    else
      store .recEvents true
      if !hold then recorderEnterError .internal
      else
        let ready ← allOf [platform .createMutex, platform .statusLedInit]
        if !ready then recorderEnterError .internal else spawnTasks [.writer, .capture, .battery]

end Base

section Coordinator

def recTaskDoneMask : List DeviceBit := [.writerFinalized, .captureDone, .batteryDone]

def recorderHandleUsbAttach : DeviceProg Unit := do
  perform .cdcResetSession
  let state ← recorderCurrentState
  if state ≠ .recording then recorderEnterError .usb
  else
    let prepared ← allOf [usbMscOwnershipBeginPrepare, recorderTransitionState .usbPrepare .usb, sdMountReleaseForUsb]
    if !prepared then recorderEnterError .usb
    else
      recorderRequestStop
      let done ← waitBits recTaskDoneMask false true false
      if !recTaskDoneMask.all done then recorderEnterError .usb
      else
        let state ← recorderCurrentState
        if state ≠ .usbPrepare then recorderEnterError .usb
        else
          let published ← allOf [sdMountDeviceFsReleased, usbMscOwnershipNotePrepareComplete true true true]
          onlyIf (!published) (recorderEnterError .usb)

/-- The recorder is in this state, the card is unmounted and the host owns the storage. -/
def recorderHostOwnedIn (expected : RecorderState) : DeviceProg Bool := do
  let state ← recorderCurrentState
  if state ≠ expected then return false else allOf [isClear .mounted, usbMscOwnershipIsHostOwned]

def recorderHandleUsbHostOwned : DeviceProg Unit := do
  let ready ← allOf [recorderHostOwnedIn .usbPrepare, recorderTransitionState .usbSync .usb]
  if !ready then recorderEnterError .usb
  else
    perform .cdcOpenSession
    perform .flushScsiTrace

def recorderHandleUsbHostReattached : DeviceProg Unit := do
  let ready ← allOf [recorderHostOwnedIn .usbSync, usbMscOwnershipReleaseCommandAdmissionOpen]
  if !ready then recorderEnterError .usb
  else
    perform .cdcResetSession
    perform .cdcOpenSession

def recorderHandleUsbRelease : DeviceProg Unit := do
  let ready ← recorderHostOwnedIn .usbSync
  if !ready then recorderEnterError .usb
  else
    perform .cdcResetSession
    perform .flushScsiTrace
    let quiesced ← usbMscOwnershipCompleteReleaseQuiesce
    if !quiesced then recorderEnterError .usb
    else
      let asleep ← recorderPowerShutdown
      onlyIf (!asleep) (recorderEnterError .internal)

def recorderHandleUsbEvent : UsbEvent → DeviceProg Unit
  | .attach => recorderHandleUsbAttach
  | .hostOwned => recorderHandleUsbHostOwned
  | .hostReattached => recorderHandleUsbHostReattached
  | .releaseRequested => recorderHandleUsbRelease
  | .failed => recorderEnterError .usb
  | .releaseQuiesced | .none => return ()

def recorderUsbEventTask : ℕ → DeviceProg Unit
  | 0 => halt
  | fuel + 1 => do
    let event ← usbMscOwnershipWaitEvent
    recorderHandleUsbEvent event
    perform .flushScsiTrace
    recorderUsbEventTask fuel

end Coordinator

section Main

def recorderShutdownArmedNow : DeviceProg Unit := do
  let _ ← recorderPowerShutdown
  return ()

/-- Wait for the state to be `RECORDING`, and then for the wake recovery to be complete. -/
def recorderWaitInitialRecording : ℕ → DeviceProg Bool
  | 0 => halt
  | fuel + 1 => do
    let ready ← allOf [load .recEvents, load .stateLock]
    if !ready then recorderWaitInitialRecording fuel
    else
      let state ← recorderCurrentState
      match state with
      | .recording =>
        let fresh ← load .segRecId
        let ok ← task87WakeRecoveryNoteRecordingStarted fresh
        if ok then return true
        else
          recorderEnterError .internal
          return false
      | .error | .lowBatteryStop => return false
      | _ => recorderWaitInitialRecording fuel

def usbCdcProtocolStart : DeviceProg Bool := do
  let worker ← spawn .cdc
  if !worker then return false
  else
    let ok ← platform .cdcAcmInit
    if ok then
      perform .cdcOpenSession
      return true
    else
      .op (DeviceOp.deleteTask .cdc)
      return false

/-- The coordinator runs before TinyUSB is installed. -/
def startUsb : DeviceProg Unit := do
  let ready ← allOf [usbMscOwnershipInit, usbMscOwnershipSetPhysicalSessionCutoff, platform .cdcProtocolInit]
  if !ready then recorderEnterError .usb
  else
    let coordinator ← spawn .usb
    if !coordinator then recorderEnterError .usb
    else
      let started ← usbMscOwnershipStart
      if !started then
        .op (DeviceOp.deleteTask .usb)
        recorderEnterError .usb
      else
        let cdc ← usbCdcProtocolStart
        onlyIf (!cdc) (recorderEnterError .usb)

def shutdownIfRequired : DeviceProg Unit := do
  let required ← task87WakeRecoveryRequiresShutdown
  onlyIf required recorderShutdownArmedNow

/-- What a boot does once its action is known. -/
def appMainRun (action : BootAction) (fuel : ℕ) : DeviceProg Unit := do
  task87WakeRecoveryInit (action = .manualResume)
  let rtcReady ← (if action = .manualResume then rtcCorrectionInit else pure true : DeviceProg Bool)
  if !rtcReady then recorderShutdownArmedNow
  else
    let base ← spawn .base
    if !base then shutdownIfRequired
    else
      let recording ← recorderWaitInitialRecording fuel
      if !recording then shutdownIfRequired
      else
        let rtcReady ← (if action = .normal then rtcCorrectionInit else pure true : DeviceProg Bool)
        if !rtcReady then recorderEnterError .internal
        else
          let allowed ← task87WakeRecoveryUsbRearmAllowed
          if allowed then startUsb
          else
            recorderEnterError .internal
            recorderShutdownArmedNow

def appMain (fuel : ℕ) : DeviceProg Unit := do
  let hold ← platform .powerEnableHold
  if !hold then return ()
  else
    let nvs ← platform .nvsInit
    if !nvs then recorderShutdownArmedNow
    else
      match ← Prog.op DeviceOp.manualWake with
      | none => recorderShutdownArmedNow
      | some manualWake =>
        match ← shutdownArmedBootAction manualWake with
        | none | some .staysShutdown => recorderShutdownArmedNow
        | some action => appMainRun action fuel

end Main

section Calls

/-- What the tasks run, the callbacks of the TinyUSB task, and what the CDC worker asks of the other components. -/
inductive DeviceCall
  | task (t : DeviceTask)
  | deviceEvent (event : TinyusbEvent)
  | storageEvent (event : StorageEvent)
  | scsiComplete (opcode : UInt8)
  | msc (cb : MscCallback)
  | releaseAccept (id : Bytes)
  | releaseResponseComplete (id : Bytes)
  | setTime
  deriving DecidableEq

def wrapped : MscCallback → DeviceProg (Option Bool)
  | .testUnitReady => wrapTudMscTestUnitReadyCb
  | .capacity => wrapTudMscCapacityCb
  | .read10 => wrapTudMscRead10Cb
  | .write10 => wrapTudMscWrite10Cb

abbrev DeviceCall.Ret : DeviceCall → Type
  | msc _ => Option Bool
  | releaseAccept _ => ReleaseStorageResult
  | releaseResponseComplete _ | setTime => Bool
  | _ => Unit

def taskBody : DeviceTask → (fuel : ℕ) → DeviceProg Unit
  | .main, fuel => appMain fuel
  | .base, _ => recorderBaseAppMain
  | .writer, fuel => deviceWriterTask fuel
  | .capture, fuel => recorderCaptureTask fuel
  | .battery, fuel => recorderBatteryTask fuel
  | .usb, fuel => recorderUsbEventTask fuel
  | .tinyusb, _ | .cdc, _ => return ()

def deviceBody : (c : DeviceCall) → (fuel : ℕ) → DeviceProg c.Ret
  | .task t, fuel => taskBody t fuel
  | .deviceEvent event, _ => usbDeviceEventCb event
  | .storageEvent event, _ => usbStorageEventCb event
  | .scsiComplete opcode, _ => tudMscScsiCompleteCb opcode
  | .msc cb, _ => wrapped cb
  | .releaseAccept id, _ => usbMscOwnershipAcceptReleaseStorage id
  | .releaseResponseComplete id, _ => usbMscOwnershipReleaseResponseComplete id
  | .setTime, _ => rtcCorrectionApply

/-- A task runs once, when it has been spawned; the callbacks come from the TinyUSB task while the driver is installed. -/
def mayDevice (t : DeviceTask) (s : Capsule) (ran : Bool) : DeviceCall → Bool
  | .task u => t = u && s.spawned t && !ran && !s.asleep
  | .deviceEvent _ | .storageEvent _ | .scsiComplete _ | .msc _ => t = .tinyusb && s.flag .driver && !s.asleep
  | .releaseAccept _ | .releaseResponseComplete _ | .setTime => t = .cdc && s.spawned .cdc && !s.asleep

def deviceCode : Code DeviceTask DeviceOp DeviceOp.Ans DeviceChoice Capsule DeviceCall DeviceCall.Ret Bool where
  act := Capsule.actAwake
  may t c ran s := mayDevice t s ran c
  body c _ fuel := deviceBody c fuel
  after _ _ _ := true

end Calls

end M5DayLog
