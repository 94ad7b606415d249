import M5DayLog.Device.Tasks

/-! Which operations each task carries out. An invariant of the Device asks of a task only what its footprint leaves open. -/

namespace M5DayLog

open Threads Bytes Fat Device DeviceProg

section Footprint

namespace DeviceTask

def stores : DeviceTask → DeviceFlag → Bool
  | main, f => f ∈ [.rtcLock, .rtcPending, .usbEvents, .storageCallback, .starting, .started, .storageUsbOwned, .hostOwned,
      .releasePending, .releaseWaitingResponse, .provisionalAttached, .publishTriggered, .prepareDisconnected,
      .transferAuthorized, .hostSessionDetached, .physicalSessionCutoff, .initialized, .driver]
  | base, f => f ∈ [.stateLock, .recEvents]
  | writer, f => f ∈ [.stateEventsReady, .segRecId, .storage, .mscDriverInit, .storageCallback]
  | usb, f => f ∈ [.prepareDisconnected, .wavFinalized, .manifestCommitted, .usbDeviceFsReleased, .transferAuthorized,
      .storageUsbOwned, .driver, .started, .storage, .mscDriverInit, .hostOwned, .releasePending, .releaseWaitingResponse,
      .provisionalAttached, .publishTriggered, .hostSessionDetached]
  | tinyusb, f => f ∈ [.storageUsbOwned, .provisionalAttached, .hostOwned, .prepareDisconnected, .hostSessionDetached,
      .publishTriggered]
  | cdc, f => f ∈ [.releaseWaitingResponse, .rtcPending]
  | capture, _ | battery, _ => false

def signals : DeviceTask → DeviceBit → Bool
  | writer, b => b ∈ [.stop, .slotFull, .writerReady, .writerFinalized]
  | capture, b => b ∈ [.stop, .slotFull, .recordingReady, .captureDone]
  | battery, b => b ∈ [.stop, .slotFull, .batteryDone]
  | usb, b => b ∈ [.stop, .slotFull, .failed, .releaseQuiesced]
  | tinyusb, b => b ∈ [.stop, .slotFull, .failed, .hostOwned, .attach, .hostReattached]
  | cdc, b => b ∈ [.stop, .slotFull, .releaseRequested]
  | main, b | base, b => b ∈ [.stop, .slotFull]

def enters : DeviceTask → RecorderState → Bool
  | writer, next => next ∈ [.error, .recover]
  | capture, next => next ∈ [.error, .recording]
  | battery, next => next ∈ [.error, .lowBatteryStop]
  | usb, next => next ∈ [.error, .usbPrepare, .usbSync]
  | _, next => next = .error

def sections : DeviceTask → SdOp → Bool
  | writer, o => o ∈ [.setMounted, .setUnmounted, .beginUnmount]
  | usb, o => o ∈ [.releaseForUsb, .transferReady, .releaseReady, .noteUsbOwned]
  | tinyusb, o => o = .noteUsbOwned
  | _, _ => false

def spawns : DeviceTask → DeviceTask → Bool
  | main, t => t ∈ [usb, cdc]
  | base, t => t ∈ [writer, capture, battery]
  | _, _ => false

/-- The operations of a task, except those of a wake recovery: the boot's decision, which `app_main` makes, and the part of
the writer. -/
def does (t : DeviceTask) : DeviceOp → Bool
  | .load _ | .nvsRead | .currentState | .testBit _ | .waitBits .. | .platform _ | .halt | .loadAttemptId => true
  | .store f _ => t.stores f
  | .setBits bits => bits.all t.signals
  | .transition next _ => t.enters next
  | .sd o => t.sections o
  | .spawn u => t.spawns u
  | .nvsWrite l => t = usb && l ∈ [.hostUnresolved, .armed]
  | .rtcRead => t = main
  | .deleteTask u => t = main && u ∈ [usb, cdc]
  | .manualWake => false
  | .rtcSet | .casReleasePending => t = cdc
  | .rtcClear => false
  | .card _ => t = writer
  | .machineInit => t = base
  | .storeAttemptId _ => t ∈ [main, usb, cdc]
  | .clearBits _ | .setStorageMountPoint => t = usb
  | .deepSleep => t ∈ [main, usb]
  | .pdmRead | .pdmStop => t = capture

/-- The task carries out nothing else in the program. -/
abbrev Runs {α : Type} (t : DeviceTask) (p : DeviceProg α) : Prop := Only (fun o => t.does o = true) p

end DeviceTask

/-- The operations that complete the recovery of the Device. -/
def DeviceOp.recovers : DeviceOp → Bool
  | .store f _ => f ∈ [.rtcPending, .deviceRecoveryComplete]
  | .nvsWrite l => l = .wakeRecoveryPending
  | .rtcClear => true
  | _ => false

end Footprint

open DeviceTask

section Basics

variable {α β : Type} {t : DeviceTask}

theorem runs_op {o : DeviceOp} (h : t.does o = true) : t.Runs (.op o) := .call o _ h .ret

theorem runs_ret (a : α) : t.Runs (.ret a : DeviceProg α) := .ret a

theorem runs_ite {c : Prop} [Decidable c] {p q : DeviceProg α} (hp : t.Runs p) (hq : t.Runs q) :
    t.Runs (if c then p else q) := by
  split
  · exact hp
  · exact hq

theorem runs_load (f : DeviceFlag) : t.Runs (load f) := runs_op rfl

theorem runs_isClear (f : DeviceFlag) : t.Runs (isClear f) := (runs_load f).bind fun _ => .ret _

theorem runs_platform (p : PlatformStep) : t.Runs (platform p) := runs_op rfl

theorem runs_sd {o : SdOp} (h : t.sections o = true) : t.Runs (DeviceProg.sd o) := runs_op (o := .sd o) h

theorem runs_perform (p : PlatformStep) : t.Runs (perform p) := (runs_platform p).bind fun _ => .ret _

theorem runs_halt : t.Runs (halt : DeviceProg α) := .call _ _ rfl fun r => nomatch r

theorem runs_onlyIf {b : Bool} {p : DeviceProg Unit} (h : t.Runs p) : t.Runs (onlyIf b p) := runs_ite h (.ret _)

theorem runs_anyOf {ps : List (DeviceProg Bool)} (h : ∀ p ∈ ps, t.Runs p) : t.Runs (anyOf ps) := by
  induction ps with
  | nil => exact .ret _
  | cons p ps ih =>
    rw [List.forall_mem_cons] at h
    exact h.1.bind fun _ => runs_ite (.ret _) (ih h.2)

theorem runs_allOf {ps : List (DeviceProg Bool)} (h : ∀ p ∈ ps, t.Runs p) : t.Runs (allOf ps) := by
  induction ps with
  | nil => exact .ret _
  | cons p ps ih =>
    rw [List.forall_mem_cons] at h
    exact h.1.bind fun _ => runs_ite (ih h.2) (.ret _)

end Basics

section Recorder

variable {t : DeviceTask}

theorem stop_signals (t : DeviceTask) : [DeviceBit.stop, .slotFull].all t.signals = true := by cases t <;> decide

theorem runs_requestStop : t.Runs recorderRequestStop :=
  (runs_load _).bind fun _ => runs_onlyIf (runs_op (stop_signals t))

theorem runs_stopRequested : t.Runs recorderStopRequested := (runs_load _).bind fun _ => runs_ite (.ret _) (runs_op rfl)

theorem runs_currentState : t.Runs recorderCurrentState := (runs_load _).bind fun _ => runs_ite (runs_op rfl) (.ret _)

theorem runs_transitionState {next : RecorderState} (h : t.enters next = true) (reason : RecorderReason) :
    t.Runs (recorderTransitionState next reason) := by
  refine (runs_load _).bind fun _ => runs_ite (.ret _) ((runs_op (o := .transition next reason) h).bind fun r => ?_)
  cases r with
  | done => exact .ret _
  | refused => exact .ret _
  | appendFailed => exact runs_requestStop.bind fun _ => .ret _

theorem enters_error (t : DeviceTask) : t.enters .error = true := by cases t <;> rfl

theorem runs_enterError (reason : RecorderReason) : t.Runs (recorderEnterError reason) :=
  (runs_transitionState (enters_error t) reason).bind fun _ => runs_requestStop

theorem runs_powerShutdown (h : t.does .deepSleep = true) : t.Runs recorderPowerShutdown :=
  (runs_allOf (by simp [runs_platform])).bind fun _ => runs_ite ((runs_op h).bind fun _ => .ret _) (.ret _)

theorem runs_task49Delete {done : DeviceBit} (h : t.signals done = true) : t.Runs (recorderTask49Delete done) :=
  (runs_load _).bind fun _ => runs_onlyIf (runs_op (by simp [does, h]))

end Recorder

section WriterCalls

/-- The calls of the writer's preparation, which it makes only before its first segment. -/
def WriterOp.prepares : WriterOp → Bool
  | .mountRecordings | .setEventsReady _ | .transitionState .. | .scanRecordings | .syncWavDir .. | .signalReady => true
  | _ => false

/-- A part of the writer that prepares nothing. -/
abbrev RecordsOnly {α : Type} (p : Writer α) : Prop := Only (fun o => o.prepares = false) p

theorem records_op {o : WriterOp} (h : o.prepares = false) : RecordsOnly (Writer.op o) := .call o _ h .ret

theorem records_finalizeSegment (seg : Segment) : RecordsOnly (finalizeSegment seg) := by
  refine Only.bind ?_ fun _ => .ret _
  unfold finalizeOnce
  split
  · exact .ret _
  · dsimp only
    split
    · exact .ret _
    · refine (records_op rfl).bind fun closed => ?_
      split
      · exact .ret _
      · exact (records_op rfl).bind fun _ => .ret _

theorem records_manifestRecordWav (deviceId wav recId started state : Bytes) :
    RecordsOnly (recorderManifestRecordWav deviceId wav recId started state) := by
  unfold recorderManifestRecordWav
  split
  · exact .ret _
  · refine (records_op rfl).bind fun w => ?_
    cases recorderCurrentIso8601 w with
    | none => exact .ret _
    | some now =>
      refine (records_op rfl).bind fun hashed => ?_
      cases hashed with
      | none => exact .ret _
      | some hashed =>
        dsimp only
        split
        · exact .ret _
        · split
          · exact .ret _
          · exact (records_op rfl).bind fun _ => .ret _

theorem records_nextSegment (deviceId : Bytes) (seg : Segment) : RecordsOnly (nextSegment deviceId seg) := by
  refine (records_op rfl).bind fun w => (records_op rfl).bind fun rand16 => ?_
  dsimp only
  split
  · exact .ret _
  · split
    · exact .ret _
    · split
      · refine (records_op rfl).bind fun made => ?_
        split
        · exact .ret _
        · refine (records_op rfl).bind fun admitted => ?_
          split
          · exact .ret _
          · refine (records_op rfl).bind fun opened => ?_
            split
            · exact .ret _
            · exact (records_op rfl).bind fun _ => .ret _
      · exact .ret _

theorem records_fail {α : Type} (reason : RecorderReason) (a : α) :
    RecordsOnly (do Writer.op .noteSdError; Writer.op (.enterError reason); return a) :=
  (records_op rfl).bind fun _ => (records_op rfl).bind fun _ => .ret _

theorem records_rotateSegment (deviceId : Bytes) (seg : Segment) : RecordsOnly (rotateSegment deviceId seg) := by
  refine (records_finalizeSegment seg).bind fun ⟨finalized, seg⟩ => ?_
  dsimp only
  split
  · exact records_fail _ _
  · refine (records_manifestRecordWav ..).bind fun recorded => ?_
    split
    · exact records_fail _ _
    · refine (records_nextSegment deviceId seg).bind fun ⟨r, seg⟩ => ?_
      cases r with
      | ok _ => exact .ret _
      | error reason => exact (records_op rfl).bind fun _ => .ret _

theorem records_drainSlots (fuel : ℕ) (seg : Segment) : RecordsOnly (drainSlots fuel seg) := by
  induction fuel generalizing seg with
  | zero => exact .ret _
  | succ fuel ih =>
    refine (records_op rfl).bind fun full => ?_
    cases full with
    | none => exact .ret _
    | some full =>
      refine (records_op rfl).bind fun wrote => ?_
      dsimp only
      split
      · exact records_fail _ _
      · refine (records_op rfl).bind fun _ => ?_
        split
        · exact ih _
        · refine (records_op rfl).bind fun flushed => ?_
          split
          · exact records_fail _ _
          · exact ih _

theorem records_checkRotation (deviceId : Bytes) (seg : Segment) : RecordsOnly (checkRotation deviceId seg) := by
  refine (records_op rfl).bind fun w => (records_op rfl).bind fun tick => ?_
  dsimp only
  split <;> first | exact .ret _ | exact records_rotateSegment deviceId seg

theorem records_writerLoop (deviceId : Bytes) (fuel : ℕ) (seg : Segment) : RecordsOnly (writerLoop deviceId fuel seg) := by
  induction fuel generalizing seg with
  | zero => exact .ret _
  | succ fuel ih =>
    refine (records_op rfl).bind fun _ => (records_drainSlots _ _).bind fun r => ?_
    cases r with
    | none => exact .ret _
    | some r =>
      refine (records_op rfl).bind fun stop => ?_
      split
      · exact .ret _
      · refine (records_checkRotation deviceId _).bind fun ⟨goOn, seg⟩ => ?_
        dsimp only
        split
        · exact .ret _
        · refine (records_op rfl).bind fun stop => ?_
          split
          · exact .ret _
          · exact ih _

theorem records_finishSegment (deviceId : Bytes) (seg : Segment) : RecordsOnly (finishSegment deviceId seg) := by
  refine (records_finalizeSegment seg).bind fun ⟨finalized, seg⟩ => ?_
  dsimp only
  split
  · exact (records_op rfl).bind fun _ => records_op rfl
  · refine (records_manifestRecordWav ..).bind fun recorded => ?_
    split
    · exact (records_op rfl).bind fun _ => records_op rfl
    · exact .ret _

/-- The one transition that the writer asks for is to `RECOVER`. -/
def WriterOp.proper : WriterOp → Bool
  | .transitionState next _ => next = .recover
  | _ => true

abbrev Proper {α : Type} (p : Writer α) : Prop := Only (fun o => o.proper = true) p

theorem RecordsOnly.proper {α : Type} {p : Writer α} (hp : RecordsOnly p) : Proper p :=
  hp.mono fun o ho => by cases o <;> first | rfl | cases ho

theorem proper_op {o : WriterOp} (h : o.proper = true) : Proper (Writer.op o) := .call o _ h .ret

theorem proper_require {α : Type} {step : Writer Bool} {reason : RecorderReason} {rest : Writer (Except RecorderReason α)}
    (hstep : Proper step) (hrest : Proper rest) : Proper (require step reason rest) := by
  refine hstep.bind fun ok => ?_
  split
  · exact .ret _
  · exact hrest

theorem proper_ensureManifestExists (deviceId : Bytes) : Proper (recorderEnsureManifestExists deviceId) := by
  refine (proper_op rfl).bind fun w => ?_
  cases recorderCurrentIso8601 w with
  | none => exact .ret _
  | some now => exact proper_op rfl

theorem proper_syncManifest (deviceId : Bytes) : Proper (recorderSyncManifest deviceId) := by
  refine (proper_op rfl).bind fun w => ?_
  cases recorderCurrentIso8601 w with
  | none => exact .ret _
  | some now => exact proper_op rfl

theorem proper_writerPrepare : Proper writerPrepare := by
  refine proper_require (proper_op rfl) ((proper_op rfl).bind fun deviceId => ?_)
  cases deviceId with
  | none => exact .ret _
  | some deviceId =>
    refine proper_require (proper_op rfl) <| proper_require (proper_ensureManifestExists deviceId) <|
      proper_require (proper_op rfl) <| proper_require (proper_op rfl) <|
      proper_require (proper_syncManifest deviceId) <| (records_nextSegment deviceId _).proper.bind fun ⟨r, seg⟩ => ?_
    cases r <;> exact .ret _

theorem proper_recorderWriterTask (fuel : ℕ) : Proper (recorderWriterTask fuel) := by
  have hleave : Proper (do Writer.op (.setEventsReady false); Writer.op .unmount; return TaskStatus.deleted) :=
    (proper_op rfl).bind fun _ => (proper_op rfl).bind fun _ => .ret _
  refine (proper_op rfl).bind fun mounted => ?_
  split
  · exact (proper_op rfl).bind fun _ => .ret _
  · refine (proper_op rfl).bind fun _ => proper_writerPrepare.bind fun prepared => ?_
    cases prepared with
    | error reason => exact (proper_op rfl).bind fun _ => hleave
    | ok prepared =>
      refine (proper_op rfl).bind fun _ => (records_writerLoop prepared.1 fuel prepared.2).proper.bind fun r => ?_
      cases r with
      | none => exact .ret _
      | some seg => exact (records_finishSegment _ seg).proper.bind fun _ => hleave

end WriterCalls

section WriterTask

/-- A part of the writer that may complete the recovery. -/
abbrev Recovers {α : Type} (p : DeviceProg α) : Prop := Only (fun o => writer.does o = true ∨ o.recovers = true) p

theorem recovers_op {o : DeviceOp} (h : o.recovers = true) : Recovers (.op o) := .call o _ (.inr h) .ret

theorem recovers_of_runs {α : Type} {p : DeviceProg α} (h : writer.Runs p) : Recovers p := h.mono fun _ => .inl

theorem recovers_allOf {ps : List (DeviceProg Bool)} (h : ∀ p ∈ ps, Recovers p) : Recovers (allOf ps) := by
  induction ps with
  | nil => exact .ret _
  | cons p ps ih =>
    rw [List.forall_mem_cons] at h
    refine h.1.bind fun _ => ?_
    split
    · exact ih h.2
    · exact .ret _

theorem recovers_flushPendingEvent : Recovers rtcCorrectionFlushPendingEvent := by
  refine (recovers_of_runs (runs_load _)).bind fun lock => ?_
  split
  · exact .ret _
  · refine (recovers_of_runs (runs_perform _)).bind fun _ => (recovers_of_runs (runs_load _)).bind fun pending => ?_
    split
    · exact .ret _
    · refine (recovers_of_runs (runs_platform _)).bind fun recovered => ?_
      split
      · exact .ret _
      · refine (recovers_op rfl).bind fun cleared => ?_
        split
        · exact (recovers_op rfl).bind fun _ => .ret _
        · exact .ret _

theorem recovers_markWakeRecoveryPending : Recovers shutdownArmedMarkWakeRecoveryPending := by
  refine (recovers_of_runs (runs_op rfl)).bind fun state => ?_
  cases state with
  | none => exact .ret _
  | some l => cases l <;> first | exact .ret _ | exact recovers_op rfl

theorem recovers_manifestSync (deviceId now : Bytes) : Recovers (recorderTask87ManifestSyncWavDir deviceId now) := by
  refine (recovers_of_runs (runs_op rfl)).bind fun ok => ?_
  split
  · exact .ret _
  · refine (recovers_of_runs (runs_load _)).bind fun pending => ?_
    split
    · exact .ret _
    · refine (recovers_of_runs (runs_anyOf (by simp [runs_isClear, runs_load]))).bind fun refused => ?_
      split
      · exact .ret _
      · refine (recovers_allOf ?_).bind fun done => ?_
        · simp [recovers_flushPendingEvent, recovers_markWakeRecoveryPending]
        · split
          · exact (recovers_op rfl).bind fun _ => .ret _
          · exact .ret _

theorem runs_deleteStorage : writer.Runs sdMountDeleteStorage :=
  (runs_platform _).bind fun _ => (runs_onlyIf (runs_op rfl)).bind fun _ => (runs_platform _).bind fun _ =>
    (runs_onlyIf (runs_op rfl)).bind fun _ => .ret _

theorem runs_uninstallMscDriver : writer.Runs sdMountUninstallMscDriver :=
  (runs_platform _).bind fun _ => (runs_onlyIf (runs_op rfl)).bind fun _ => .ret _

theorem runs_unmount : writer.Runs sdMountUnmount :=
  (runs_op rfl).bind fun _ => runs_ite (.ret _) <| (runs_load _).bind fun _ =>
    (runs_ite runs_deleteStorage (.ret _)).bind fun _ => runs_ite (.ret _) <| (runs_load _).bind fun _ =>
      (runs_ite runs_uninstallMscDriver (.ret _)).bind fun _ => runs_ite (.ret _) <| (runs_op rfl).bind fun _ => .ret _

theorem runs_installMscDriver : writer.Runs sdMountInstallMscDriver :=
  (runs_load _).bind fun _ => runs_ite (.ret _) <| (runs_platform _).bind fun _ =>
    runs_ite ((runs_op rfl).bind fun _ => .ret _) (.ret _)

theorem runs_createStorage : writer.Runs sdMountCreateStorage :=
  (runs_anyOf (by simp [runs_isClear, runs_load])).bind fun _ => runs_ite (.ret _) <|
    (runs_platform _).bind fun _ => (runs_op rfl).bind fun _ => .ret _

theorem runs_ensureRecordingDirs {t : DeviceTask} : t.Runs ensureRecordingDirs := runs_allOf (by simp [runs_platform])

theorem runs_mountRecordings : writer.Runs sdMountRecordings :=
  (runs_load _).bind fun _ => runs_ite runs_ensureRecordingDirs <| (runs_load _).bind fun _ => runs_ite (.ret _) <|
    (runs_allOf (by simp [runs_platform, runs_installMscDriver])).bind fun _ => runs_ite (.ret _) <|
      runs_createStorage.bind fun _ => runs_ite
        ((runs_perform _).bind fun _ => (runs_op rfl).bind fun _ => .ret _)
        ((runs_op rfl).bind fun _ => runs_ensureRecordingDirs.bind fun _ =>
          runs_ite (.ret _) (runs_unmount.bind fun _ => .ret _))

theorem runs_usable {t : DeviceTask} : t.Runs sdMountUsable :=
  (runs_anyOf (by simp [runs_isClear, runs_load])).bind fun _ => .ret _

theorem runs_recordingCall (o : WriterOp) (h : o.prepares = false) : writer.Runs (writerCall o) := by
  cases o with
  | unmount => exact runs_unmount
  | enterError reason => exact runs_enterError reason
  | ensureQuarantineDir => exact runs_usable.bind fun _ => runs_ite (.ret _) (runs_platform _)
  | ensureDateDir date =>
    exact (runs_op rfl).bind fun _ => runs_usable.bind fun _ => runs_ite (.ret _) (runs_platform _)
  | waitSlotFull => exact (runs_op rfl).bind fun _ => .ret _
  | stopRequested => exact runs_stopRequested
  | mountRecordings | setEventsReady | transitionState | syncWavDir | signalReady | scanRecordings => cases h
  | _ => exact runs_op rfl

theorem recovers_writerCall (o : WriterOp) (h : o.proper = true) : Recovers (writerCall o) := by
  cases hp : o.prepares with
  | false => exact recovers_of_runs (runs_recordingCall o hp)
  | true =>
    cases o with
    | mountRecordings => exact recovers_of_runs runs_mountRecordings
    | setEventsReady ready => exact recovers_of_runs ((runs_load _).bind fun _ => runs_onlyIf (runs_op rfl))
    | transitionState next reason =>
      simp only [WriterOp.proper, decide_eq_true_eq] at h
      rw [h]
      exact recovers_of_runs (runs_transitionState rfl reason)
    | syncWavDir deviceId now => exact recovers_manifestSync deviceId now
    | signalReady => exact recovers_of_runs (runs_op rfl)
    | scanRecordings => exact recovers_of_runs (runs_op rfl)
    | _ => cases hp

theorem recovers_writerTask (fuel : ℕ) : Recovers (deviceWriterTask fuel) := by
  refine ((proper_recorderWriterTask fuel).interp recovers_writerCall).bind fun status => ?_
  cases status with
  | running => exact recovers_of_runs runs_halt
  | deleted => exact recovers_of_runs (runs_task49Delete rfl)

end WriterTask

section RecorderTasks

theorem runs_captureLoop (fuel : ℕ) : capture.Runs (captureLoop fuel) := by
  induction fuel with
  | zero => exact runs_halt
  | succ fuel ih =>
    refine runs_stopRequested.bind fun _ => runs_ite (.ret _) <| (runs_op rfl).bind fun read => ?_
    refine runs_ite (runs_enterError _) <| runs_stopRequested.bind fun _ => ?_
    refine runs_ite (runs_onlyIf (runs_enterError _)) <| (runs_ite (.ret _) (runs_platform _)).bind fun loss => ?_
    refine (runs_platform _).bind fun full => runs_ite (runs_enterError _) <| runs_ite (runs_enterError _) ?_
    exact (runs_onlyIf (runs_op rfl)).bind fun _ => ih

theorem runs_captureDeinit (fuel attempt : ℕ) : capture.Runs (captureDeinit fuel attempt) := by
  induction fuel generalizing attempt with
  | zero => exact runs_halt
  | succ fuel ih =>
    exact (runs_platform _).bind fun _ => runs_ite (.ret _) <| (runs_onlyIf (runs_enterError _)).bind fun _ =>
      (runs_perform _).bind fun _ => ih _

theorem runs_captureStop : capture.Runs captureStop :=
  (runs_op rfl).bind fun _ => runs_ite (runs_enterError _) (runs_onlyIf (runs_enterError _))

theorem runs_captureTask (fuel : ℕ) : capture.Runs (recorderCaptureTask fuel) :=
  (runs_op rfl).bind fun _ => runs_ite (runs_task49Delete rfl) <| (runs_platform _).bind fun _ =>
    runs_ite ((runs_enterError _).bind fun _ => runs_task49Delete rfl) <| (runs_transitionState rfl _).bind fun _ =>
      (runs_ite (runs_op rfl) (runs_enterError _)).bind fun _ => (runs_captureLoop fuel).bind fun _ =>
        runs_captureStop.bind fun _ => runs_requestStop.bind fun _ => (runs_captureDeinit fuel 0).bind fun _ =>
          runs_requestStop.bind fun _ => runs_task49Delete rfl

theorem runs_batteryLoop (fuel lowSamples : ℕ) : battery.Runs (batteryLoop fuel lowSamples) := by
  induction fuel generalizing lowSamples with
  | zero => exact runs_halt
  | succ fuel ih =>
    refine runs_stopRequested.bind fun _ => runs_ite (.ret _) <| (runs_platform _).bind fun _ =>
      runs_ite (runs_enterError _) <| (runs_platform _).bind fun low => runs_ite ?_ ?_
    · exact (runs_transitionState rfl _).bind fun _ => runs_ite runs_requestStop (runs_enterError _)
    · exact (runs_perform _).bind fun _ => ih _

theorem runs_batteryTask (fuel : ℕ) : battery.Runs (recorderBatteryTask fuel) :=
  (runs_op rfl).bind fun _ => runs_ite (runs_task49Delete rfl) <| (runs_platform _).bind fun _ =>
    runs_ite ((runs_enterError _).bind fun _ => runs_task49Delete rfl) <| (runs_batteryLoop fuel 0).bind fun _ =>
      runs_task49Delete rfl

theorem runs_spawnTasks {ts : List DeviceTask} (h : ∀ t ∈ ts, base.spawns t = true) : base.Runs (spawnTasks ts) := by
  induction ts with
  | nil => exact .ret _
  | cons t ts ih =>
    rw [List.forall_mem_cons] at h
    exact (runs_op (t := base) (o := .spawn t) h.1).bind fun _ => runs_ite (ih h.2) (runs_enterError _)

theorem runs_baseAppMain : base.Runs recorderBaseAppMain :=
  (runs_platform _).bind fun _ => (runs_op rfl).bind fun _ => (runs_platform _).bind fun _ => runs_ite (.ret _) <|
    (runs_op rfl).bind fun _ => (runs_platform _).bind fun _ =>
      runs_ite ((runs_transitionState rfl _).bind fun _ => .ret _) <| (runs_op rfl).bind fun _ =>
        runs_ite (runs_enterError _) <| (runs_allOf (by simp [runs_platform])).bind fun _ =>
          runs_ite (runs_enterError _) (runs_spawnTasks (by decide))

end RecorderTasks

section UsbTasks

variable {t : DeviceTask}

theorem runs_usbFail (h : t.signals .failed = true) : t.Runs usbFail :=
  (runs_load _).bind fun _ => runs_onlyIf (runs_op (by simp [does, h]))

theorem runs_notStarted : t.Runs notStarted := (runs_load _).bind fun _ => runs_ite (.ret _) (runs_isClear _)

theorem runs_storageEventCb (h : t = usb ∨ t = tinyusb) (event : StorageEvent) : t.Runs (usbStorageEventCb event) := by
  have hfail : t.Runs usbFail := runs_usbFail (by rcases h with rfl | rfl <;> rfl)
  refine (runs_load _).bind fun _ => (runs_load _).bind fun _ => runs_ite (.ret _) ?_
  cases event with
  | mountStart mountPoint =>
    exact (runs_anyOf (by simp [runs_isClear, runs_load, runs_ret])).bind fun _ => runs_onlyIf hfail
  | mountComplete mountPoint =>
    refine (runs_ite (runs_load _) (.ret _)).bind fun _ => runs_ite ?_ hfail
    exact (runs_op (by rcases h with rfl | rfl <;> rfl)).bind fun _ => runs_op (by rcases h with rfl | rfl <;> rfl)
  | mountFailed => exact hfail
  | formatRequired => exact hfail
  | formatFailed => exact hfail

theorem runs_deviceEventCb (event : TinyusbEvent) : tinyusb.Runs (usbDeviceEventCb event) := by
  refine (runs_load _).bind fun _ => runs_ite (.ret _) ?_
  have hfail : tinyusb.Runs usbFail := runs_usbFail rfl
  cases event with
  | attached =>
    refine (runs_load _).bind fun _ => runs_ite ?_ <| (runs_load _).bind fun _ => runs_ite ?_ ?_
    · exact (runs_anyOf (by simp [runs_isClear, runs_load, runs_notStarted])).bind fun _ => runs_ite hfail (runs_op rfl)
    · refine (runs_anyOf (by simp [runs_isClear, runs_load, runs_notStarted])).bind fun _ => runs_ite ?_ ?_
      · exact (runs_perform _).bind fun _ => hfail
      · exact (runs_op rfl).bind fun _ => (runs_op rfl).bind fun _ => (runs_op rfl).bind fun _ => runs_op rfl
    · exact (runs_anyOf (by simp [runs_load])).bind fun _ => runs_ite ((runs_perform _).bind fun _ => hfail) (.ret _)
  | detached =>
    refine (runs_anyOf (by simp [runs_isClear, runs_load])).bind fun _ => runs_ite (runs_op rfl) ?_
    exact (runs_load _).bind fun _ => runs_ite ((runs_op rfl).bind fun _ => (runs_load _).bind fun _ =>
      runs_onlyIf (runs_perform _)) (.ret _)
  | suspended => exact .ret _

theorem runs_scsiCompleteCb (opcode : UInt8) : tinyusb.Runs (tudMscScsiCompleteCb opcode) := by
  refine (runs_anyOf (by simp [runs_isClear, runs_load])).bind fun _ => runs_ite (runs_ite ?_ (.ret _)) ?_
  · exact (runs_anyOf (by simp [runs_isClear, runs_load, runs_notStarted])).bind fun _ => runs_ite (.ret _) <|
      (runs_op rfl).bind fun _ => runs_op rfl
  · exact (runs_anyOf (by simp [runs_isClear, runs_load])).bind fun _ => runs_ite (.ret _) <|
      (runs_op rfl).bind fun _ => runs_op rfl

theorem runs_wrapped (cb : MscCallback) : t.Runs (wrapped cb) := by
  have hwrap : t.Runs (wrapTudMsc cb) :=
    (runs_load _).bind fun _ => runs_ite ((runs_perform _).bind fun _ => .ret _) ((runs_platform _).bind fun _ => .ret _)
  cases cb <;> exact hwrap

theorem runs_acceptReleaseStorage (id : Bytes) : cdc.Runs (usbMscOwnershipAcceptReleaseStorage id) :=
  runs_ite (.ret _) <| (runs_anyOf (by simp [runs_isClear, runs_load])).bind fun _ => runs_ite (.ret _) <|
    (runs_op rfl).bind fun _ => runs_ite (.ret _) <| (runs_op rfl).bind fun _ => (runs_op rfl).bind fun _ => .ret _

theorem runs_releaseResponseComplete (id : Bytes) : cdc.Runs (usbMscOwnershipReleaseResponseComplete id) :=
  runs_ite (.ret _) <| (runs_anyOf (by simp [runs_isClear])).bind fun _ => runs_ite (.ret _) <|
    (runs_op rfl).bind fun _ => runs_ite (.ret _) <| (runs_op rfl).bind fun _ => (runs_op rfl).bind fun _ => .ret _

theorem runs_rtcCorrectionApply : cdc.Runs rtcCorrectionApply :=
  (runs_load _).bind fun _ => runs_ite (.ret _) <| (runs_load _).bind fun _ => runs_ite (.ret _) <|
    (runs_platform _).bind fun _ => runs_ite (.ret _) <| (runs_op rfl).bind fun _ =>
      runs_ite ((runs_op rfl).bind fun _ => .ret _) (.ret _)

end UsbTasks

section Coordinator

theorem runs_waitEvent : usb.Runs usbMscOwnershipWaitEvent := by
  refine (runs_load _).bind fun _ => runs_ite (.ret _) <| (runs_op rfl).bind fun bits => ?_
  split
  · exact .ret _
  · exact (runs_op rfl).bind fun _ => .ret _

theorem runs_beginPrepare : usb.Runs usbMscOwnershipBeginPrepare :=
  (runs_anyOf (by simp [runs_isClear, runs_load, runs_notStarted])).bind fun _ => runs_ite (.ret _) <|
    (runs_load _).bind fun _ => runs_ite (.ret _) <| (runs_platform _).bind fun _ =>
      runs_ite ((runs_op rfl).bind fun _ => .ret _) ((runs_usbFail rfl).bind fun _ => .ret _)

theorem runs_deliver (events : List StorageEvent) : usb.Runs (deliver events) := by
  induction events with
  | nil => exact .ret _
  | cons event events ih => exact (runs_storageEventCb (.inl rfl) event).bind fun _ => ih

theorem runs_transferToUsb : usb.Runs sdMountTransferToUsb := by
  have hswitch : usb.Runs tinyusbMscSetStorageMountPoint :=
    (runs_op rfl).bind fun r => (runs_deliver r.2).bind fun _ => .ret _
  exact (runs_allOf (by simp [runs_load, runs_sd, sections])).bind fun _ => runs_ite (.ret _) <|
    hswitch.bind fun _ => runs_ite (.ret _) (runs_op rfl)

theorem runs_publish (wavFinalized manifestCommitted deviceFsReleased : Bool) :
    usb.Runs (usbMscPublish wavFinalized manifestCommitted deviceFsReleased) := by
  have hfail : usb.Runs (do usbFail; return false) := (runs_usbFail rfl).bind fun _ => .ret _
  refine (runs_anyOf (by simp [runs_isClear, runs_load, runs_ret])).bind fun _ => runs_ite hfail ?_
  refine (runs_op rfl).bind fun _ => runs_ite hfail <| (runs_op rfl).bind fun _ => (runs_op rfl).bind fun _ => ?_
  refine (runs_op rfl).bind fun _ => (runs_op rfl).bind fun _ => runs_transferToUsb.bind fun _ => ?_
  refine (runs_op rfl).bind fun _ => (runs_anyOf (by simp [runs_isClear, runs_load, runs_ret])).bind fun _ => ?_
  exact runs_ite hfail <| (runs_platform _).bind fun _ => runs_ite (.ret _) hfail

theorem runs_handleUsbAttach : usb.Runs recorderHandleUsbAttach := by
  refine (runs_perform _).bind fun _ => runs_currentState.bind fun _ => runs_ite (runs_enterError _) ?_
  refine (runs_allOf (by simp [runs_beginPrepare, runs_transitionState, enters, sdMountReleaseForUsb, runs_sd,
    sections])).bind fun _ => runs_ite (runs_enterError _) <| runs_requestStop.bind fun _ => ?_
  refine (runs_op rfl).bind fun _ => runs_ite (runs_enterError _) <| runs_currentState.bind fun _ => ?_
  refine runs_ite (runs_enterError _) <| (runs_allOf ?_).bind fun _ => runs_onlyIf (runs_enterError _)
  have hcomplete : usb.Runs (usbMscOwnershipNotePrepareComplete true true true) :=
    (runs_load _).bind fun _ => runs_ite (.ret _) (runs_publish ..)
  simp [sdMountDeviceFsReleased, runs_load, hcomplete]

theorem runs_hostOwnedIn (expected : RecorderState) : usb.Runs (recorderHostOwnedIn expected) :=
  runs_currentState.bind fun _ => runs_ite (.ret _) (runs_allOf (by simp [runs_isClear, usbMscOwnershipIsHostOwned, runs_load]))

theorem runs_completeReleaseQuiesce : usb.Runs usbMscOwnershipCompleteReleaseQuiesce := by
  have hfail : usb.Runs (do usbFail; return false) := (runs_usbFail rfl).bind fun _ => .ret _
  have huninstall : usb.Runs tinyusbDriverUninstall :=
    (runs_platform _).bind fun _ => (runs_onlyIf (runs_op rfl)).bind fun _ => .ret _
  have hrelease : usb.Runs sdMountReleaseUsbStorage :=
    (runs_allOf (by simp [runs_load, runs_sd, sections])).bind fun _ => runs_ite (.ret _) <|
      (runs_platform _).bind fun _ => runs_ite (.ret _) <| (runs_op rfl).bind fun _ => (runs_platform _).bind fun _ =>
        runs_ite (.ret _) <| (runs_op rfl).bind fun _ => .ret _
  refine (runs_anyOf (by simp [runs_isClear, runs_load])).bind fun _ => runs_ite (.ret _) <| huninstall.bind fun _ => ?_
  refine runs_ite hfail <| (runs_op rfl).bind fun _ => hrelease.bind fun _ => runs_ite hfail ?_
  refine (runs_op rfl).bind fun _ => runs_ite hfail <| (runs_op rfl).bind fun _ => (runs_op rfl).bind fun _ => ?_
  refine (runs_op rfl).bind fun _ => (runs_op rfl).bind fun _ => (runs_op rfl).bind fun _ => (runs_op rfl).bind fun _ => ?_
  refine (runs_op rfl).bind fun _ => (runs_op rfl).bind fun _ => (runs_op rfl).bind fun _ => (runs_op rfl).bind fun _ => ?_
  exact (runs_op rfl).bind fun _ => (runs_op rfl).bind fun _ => .ret _

theorem runs_handleUsbEvent (event : UsbEvent) : usb.Runs (recorderHandleUsbEvent event) := by
  cases event with
  | attach => exact runs_handleUsbAttach
  | hostOwned =>
    refine (runs_allOf (by simp [runs_hostOwnedIn, runs_transitionState, enters])).bind fun _ => ?_
    exact runs_ite (runs_enterError _) ((runs_perform _).bind fun _ => runs_perform _)
  | hostReattached =>
    have hadmission : usb.Runs usbMscOwnershipReleaseCommandAdmissionOpen :=
      (runs_anyOf (by simp [runs_isClear, runs_load])).bind fun _ => .ret _
    refine (runs_allOf (by simp [runs_hostOwnedIn, hadmission])).bind fun _ => ?_
    exact runs_ite (runs_enterError _) ((runs_perform _).bind fun _ => runs_perform _)
  | releaseRequested =>
    refine (runs_hostOwnedIn _).bind fun _ => runs_ite (runs_enterError _) <| (runs_perform _).bind fun _ => ?_
    refine (runs_perform _).bind fun _ => runs_completeReleaseQuiesce.bind fun _ => runs_ite (runs_enterError _) ?_
    exact (runs_powerShutdown rfl).bind fun _ => runs_onlyIf (runs_enterError _)
  | failed => exact runs_enterError _
  | releaseQuiesced => exact .ret _
  | none => exact .ret _

theorem runs_usbEventTask (fuel : ℕ) : usb.Runs (recorderUsbEventTask fuel) := by
  induction fuel with
  | zero => exact runs_halt
  | succ fuel ih =>
    exact runs_waitEvent.bind fun _ => (runs_handleUsbEvent _).bind fun _ => (runs_perform _).bind fun _ => ih

end Coordinator

section Main

theorem runs_rtcCorrectionInit : main.Runs rtcCorrectionInit := by
  refine (runs_platform _).bind fun _ => runs_ite (.ret _) <| (runs_load _).bind fun _ =>
    (runs_ite (.ret _) (runs_platform _)).bind fun _ => runs_ite (.ret _) <| (runs_op rfl).bind fun _ =>
      (runs_op rfl).bind fun pending => ?_
  cases pending with
  | none => exact .ret _
  | some pending => exact (runs_op rfl).bind fun _ => .ret _

theorem runs_ownershipInit : main.Runs usbMscOwnershipInit := by
  refine (runs_load _).bind fun _ => runs_ite (.ret _) <|
    (runs_allOf (by simp [sdMountIsMounted, runs_load, runs_platform])).bind fun _ => runs_ite (.ret _) ?_
  refine (runs_op rfl).bind fun _ => (runs_platform _).bind fun _ => runs_ite ((runs_op rfl).bind fun _ => .ret _) ?_
  refine (runs_op rfl).bind fun _ => (runs_op rfl).bind fun _ => (runs_op rfl).bind fun _ => (runs_op rfl).bind fun _ => ?_
  refine (runs_op rfl).bind fun _ => (runs_op rfl).bind fun _ => (runs_op rfl).bind fun _ => (runs_op rfl).bind fun _ => ?_
  refine (runs_op rfl).bind fun _ => (runs_op rfl).bind fun _ => (runs_op rfl).bind fun _ => (runs_op rfl).bind fun _ => ?_
  exact (runs_op rfl).bind fun _ => (runs_op rfl).bind fun _ => (runs_op rfl).bind fun _ => .ret _

theorem runs_ownershipStart : main.Runs usbMscOwnershipStart := by
  have hinstall : main.Runs tinyusbDriverInstall :=
    (runs_op rfl).bind fun _ => (runs_platform _).bind fun _ => (runs_onlyIf (runs_op rfl)).bind fun _ => .ret _
  refine (runs_anyOf (by simp [runs_isClear, runs_load])).bind fun _ => runs_ite (.ret _) <| (runs_load _).bind fun _ => ?_
  exact runs_ite (.ret _) <| (runs_op rfl).bind fun _ => hinstall.bind fun _ => (runs_onlyIf (runs_op rfl)).bind fun _ =>
    (runs_op rfl).bind fun _ => .ret _

theorem runs_startUsb : main.Runs startUsb := by
  have hcutoff : main.Runs usbMscOwnershipSetPhysicalSessionCutoff :=
    (runs_anyOf (by simp [runs_isClear, runs_load])).bind fun _ => runs_ite (.ret _) <| (runs_op rfl).bind fun _ => .ret _
  have hcdc : main.Runs usbCdcProtocolStart :=
    (runs_op rfl).bind fun _ => runs_ite (.ret _) <| (runs_platform _).bind fun _ =>
      runs_ite ((runs_perform _).bind fun _ => .ret _) ((runs_op rfl).bind fun _ => .ret _)
  refine (runs_allOf (by simp [runs_ownershipInit, hcutoff, runs_platform])).bind fun _ => runs_ite (runs_enterError _) ?_
  refine (runs_op rfl).bind fun _ => runs_ite (runs_enterError _) <| runs_ownershipStart.bind fun _ => ?_
  exact runs_ite ((runs_op rfl).bind fun _ => runs_enterError _) <| hcdc.bind fun _ => runs_onlyIf (runs_enterError _)

theorem runs_shutdownArmedNow : main.Runs recorderShutdownArmedNow := (runs_powerShutdown rfl).bind fun _ => .ret _

end Main

/-- A call carries out the operations of its task and no others; `app_main` and the writer are looked at by their parts. -/
theorem runs_deviceBody {t : DeviceTask} {s : Capsule} {ran : Bool} {c : DeviceCall} (h : mayDevice t s ran c = true)
    (hmain : t ≠ main) (hwriter : t ≠ writer) (fuel : ℕ) : t.Runs (deviceBody c fuel) := by
  cases c with
  | task u =>
    simp only [mayDevice, Bool.and_eq_true, decide_eq_true_eq] at h
    rw [← h.1.1.1]
    cases t with
    | main => exact absurd rfl hmain
    | base => exact runs_baseAppMain
    | writer => exact absurd rfl hwriter
    | capture => exact runs_captureTask fuel
    | battery => exact runs_batteryTask fuel
    | usb => exact runs_usbEventTask fuel
    | tinyusb => exact .ret _
    | cdc => exact .ret _
  | msc cb => exact runs_wrapped cb
  | deviceEvent event =>
    simp only [mayDevice, Bool.and_eq_true, decide_eq_true_eq] at h
    obtain rfl := h.1.1
    exact runs_deviceEventCb event
  | storageEvent event =>
    simp only [mayDevice, Bool.and_eq_true, decide_eq_true_eq] at h
    exact runs_storageEventCb (.inr h.1.1) event
  | scsiComplete opcode =>
    simp only [mayDevice, Bool.and_eq_true, decide_eq_true_eq] at h
    obtain rfl := h.1.1
    exact runs_scsiCompleteCb opcode
  | releaseAccept id =>
    simp only [mayDevice, Bool.and_eq_true, decide_eq_true_eq] at h
    obtain rfl := h.1.1
    exact runs_acceptReleaseStorage id
  | releaseResponseComplete id =>
    simp only [mayDevice, Bool.and_eq_true, decide_eq_true_eq] at h
    obtain rfl := h.1.1
    exact runs_releaseResponseComplete id
  | setTime =>
    simp only [mayDevice, Bool.and_eq_true, decide_eq_true_eq] at h
    obtain rfl := h.1.1
    exact runs_rtcCorrectionApply

end M5DayLog
