import M5DayLog.Pc.Release
import M5DayLog.Sha256

/-! The one-shot maintenance release. A run qualifies its target twice, seals its gate, locks the volume and consumes a
guard file in a host directory before it asks the Device to release its storage. Runs may stand in different processes and
on different gates; the guard file is all that they share. -/

namespace M5DayLog

open Bytes Threads

section Values

inductive MaintenanceReason
  | evidenceDirectoryMissing
  | evidenceDirectoryUnsafe
  | evidenceFileMissing
  | evidenceFileUnsafe
  | historicalPinRequired
  | historicalEvidenceTooLarge
  | historicalEvidenceUnreadable
  | historicalEvidenceMismatch
  | usbInventoryUnavailable
  | ambiguousUsbStorage
  | guardOnDeviceMedia
  | volumeNotAvailable
  | preflightDrift
  | originalClearEvidenceRequired
  | blockedProvenanceOrApproval
  | invalidAttemptId
  | controlledPocQualificationRequired
  | controlledPocQualificationUnverified
  | guardDirectoryUnverified
  | unauthorizedGuardDirectory
  | guardRecordUnverified
  | attemptAlreadyConsumed
  | guardDurabilityUnverified
  | postAcceptTimeout
  | indeterminateOrHostFailure
  | released
  | preflight (code : String)
  deriving DecidableEq

/-- The exceptions: `MaintenanceBlocked`, the `OSError`s, and those that the release knows. -/
inductive MaintenanceExc
  | blocked (reason : MaintenanceReason)
  | fileExists
  | osError
  | release (e : ReleaseExc)
  deriving DecidableEq

namespace MaintenanceExc

def isOsError (e : MaintenanceExc) : Bool := e = .fileExists ∨ e = .osError

/-- `except OSError: raise MaintenanceBlocked(reason)`. -/
def osAs (reason : MaintenanceReason) (e : MaintenanceExc) : MaintenanceExc := if e.isOsError then .blocked reason else e

/-- The exception as the port's context manager sees it. -/
def toRelease : MaintenanceExc → ReleaseExc
  | release e => e
  | _ => .exception

end MaintenanceExc

structure Preflight where
  receiptSha256 : String
  deviceId : String
  verifiedBackups : ℤ
  verifiedProtected : ℤ
  historySha256 : String
  deriving DecidableEq

/-- The permit of the Human Gate. `attemptId` is `none` where the adapter has put in something that is no string. -/
structure GatePermit where
  issue : ℤ
  receiptSha256 : String
  target : EjectTarget
  attemptId : Option String
  runningHandlerQualified : Bool
  authorizedGuardDirectory : String
  historySha256 : String
  deriving DecidableEq

structure ControlledPocReadiness where
  mode : String
  target : EjectTarget
  receiptSha256 : String
  historySha256 : String
  attemptId : String
  noKnownCompetingWriter : Bool
  devicePcOwned : Bool
  sameTargetLockDismounted : Bool
  deriving DecidableEq

inductive MaintenanceStatus
  | maintenanceReleaseOnly
  | blocked
  deriving DecidableEq

structure MaintenanceOutcome where
  status : MaintenanceStatus
  reason : MaintenanceReason
  deriving DecidableEq

def maintenanceIssue : ℤ := 119

def maintenanceScope : String := "CONTROLLED_POC_MAINTENANCE_119"

/-- Sixty-four lower-case hexadecimal digits. -/
def isHexPin (s : String) : Bool :=
  s.length = 64 && s.toList.all fun c => ( '0' ≤ c && c ≤ '9') || ( 'a' ≤ c && c ≤ 'f')

/-- What the checks read of `os.stat_result`. -/
structure StatResult where
  isLnk : Bool
  isDir : Bool
  isReg : Bool
  nlink : ℕ
  fileAttributes : ℕ
  reparseTag : ℕ
  size : ℕ
  mtimeNs : ℤ
  ino : ℕ
  deriving DecidableEq

def StatResult.isReparse (info : StatResult) : Bool :=
  info.isLnk || (info.fileAttributes &&& 0x400) ≠ 0 || info.reparseTag ≠ 0

structure DiskInterface where
  removableInstanceId : String
  physicalUsbInstanceId : String
  diskNumber : ℤ
  instanceId : String
  deriving DecidableEq

/-- How the port can list its USB disks: a native API without or with the call, or a checker in place of the API. -/
inductive UsbInventory
  | uncallable
  | disks (entries : List DiskInterface)
  | noApi (checker : Bool)

end Values

section Record

/-- A `\u` escape, in lower case. -/
def unicodeEscape (n : ℕ) : Bytes :=
  let digit (k : ℕ) : UInt8 := (lit "0123456789abcdef").getD (k % 16) 0
  lit "\\u" ++ [digit (n / 4096), digit (n / 256), digit (n / 16), digit n]

/-- One character of a JSON string in ASCII; above the basic plane it is written as two surrogates. -/
def jsonChar (c : Char) : Bytes :=
  let n := c.toNat
  if n = 0x22 then lit "\\\""
  else if n = 0x5c then lit "\\\\"
  else if n = 0x0a then lit "\\n"
  else if n = 0x0d then lit "\\r"
  else if n = 0x09 then lit "\\t"
  else if n = 0x0c then lit "\\f"
  else if n = 0x08 then lit "\\b"
  else if 0x20 ≤ n ∧ n ≤ 0x7e then [n.toUInt8]
  else if n < 0x10000 then unicodeEscape n
  else unicodeEscape (0xd800 + (n - 0x10000) / 0x400) ++ unicodeEscape (0xdc00 + (n - 0x10000) % 0x400)

def jsonText (s : String) : Bytes := lit "\"" ++ s.toList.flatMap jsonChar ++ lit "\""

/-- The record that consumes the guard. -/
def guardContent (permit : GatePermit) (attemptId : String) : Bytes :=
  lit "\x7b\"attempt_id\": " ++ jsonText attemptId ++ lit ", \"consumed\": true, \"history_sha256\": " ++
    jsonText permit.historySha256 ++ lit ", \"issue\": " ++ lit (toString permit.issue) ++ lit ", \"receipt_sha256\": " ++
    jsonText permit.receiptSha256 ++ lit ", \"scope\": " ++ jsonText maintenanceScope ++ lit "\x7d\n"

def guardFileName : String := "issue-119-maintenance-release.guard"

end Record

section Host

/-- What names mean on the host while the runs last: the directory that a path resolves to, by its parts, and the path
with its ancestors up to the root. -/
structure Namespace where
  resolve : String → Option (List String)
  ancestors : String → List String

/-- The calls out of a run: the port, the callables it is given, the standard library and the file system. A directory
stands for the guard file in it, and what `create` opens is named by the resolved directory. -/
inductive HostOp
  | port (o : PortOp)
  | usbInventory
  | assertSingleUsbTarget (target : EjectTarget)
  | freshPreflight
  | qualify (final : Preflight) (target : EjectTarget)
  | qualifyPoc (permit : GatePermit) (final : Preflight) (target : EjectTarget)
  | uuid (text : String)
  | lstat (path : String)
  | resolve (path : String)
  | create (directory : String)
  | fdopen (fd : List String)
  | put (fd : List String) (content : Bytes) (whole : Bool)
  | fsync (fd : List String)
  | closeFd (fd : List String)
  | readBytes (directory : String)
  deriving DecidableEq

/-- What a call returns where it does not raise. A callable may return an object of another type. -/
abbrev HostOp.Val : HostOp → Type
  | port o => o.Val
  | usbInventory => UsbInventory
  | freshPreflight => Preflight
  | qualify _ _ => Option GatePermit
  | qualifyPoc _ _ _ => Option ControlledPocReadiness
  | uuid _ => String
  | lstat _ => StatResult
  | resolve _ | create _ => List String
  | readBytes _ => Bytes
  | _ => Unit

inductive MaintenanceOp (γ : Type)
  | gate (g : γ) (o : UsbSessionIoGate.Op)
  | host (o : HostOp)
  | halt
  deriving DecidableEq

abbrev MaintenanceOp.Ans {γ : Type} : MaintenanceOp γ → Type
  | gate _ _ => UsbSessionIoGate.Ans
  | host o => Except MaintenanceExc o.Val
  | halt => Empty

/-- What is left open at a step: the answer of every call, whether a `create` that raises has made the file, how much of a
record a buffered write has put down, and the clock. -/
structure HostAnswers where
  host : (o : HostOp) → Except MaintenanceExc o.Val
  made : Bool
  written : ℕ
  start : ℚ
  now : ℚ

/-- The gates of all processes, and the guard file of every directory. -/
structure HostMem (γ : Type) where
  gates : γ → UsbSessionIoGate
  guards : List String → Option Bytes

variable {γ : Type} [DecidableEq γ]

/-- `O_CREAT | O_EXCL`: only where the file is not there it is made, and then by this call alone. -/
def createGuard (dir : Option (List String)) (answer : Except MaintenanceExc (List String)) (made : Bool)
    (guards : List String → Option Bytes) : Except MaintenanceExc (List String) × (List String → Option Bytes) :=
  match dir with
  | none => (.error .osError, guards)
  | some d =>
    match guards d, answer with
    | some _, .error e => (.error e, guards)
    | some _, .ok _ => (.error .fileExists, guards)
    | none, .error e => (.error e, if made then Function.update guards d (some []) else guards)
    | none, .ok _ => (.ok d, Function.update guards d (some []))

/-- A write puts down the record up to some byte, or all of it. -/
def putGuard (fd : List String) (content : Bytes) (all : Bool) (written : ℕ) (guards : List String → Option Bytes) :
    List String → Option Bytes :=
  Function.update guards fd ((guards fd).map fun old => if all then content else content.take (max old.length written))

def hostAct (ns : Namespace) : (o : HostOp) → HostAnswers → (List String → Option Bytes) →
    Except MaintenanceExc o.Val × (List String → Option Bytes)
  | .resolve path, c, guards => ((c.host (.resolve path)).bind fun _ => (ns.resolve path).elim (.error .osError) .ok, guards)
  | .create directory, c, guards => createGuard (ns.resolve directory) (c.host (.create directory)) c.made guards
  | .put fd content whole, c, guards =>
    (c.host (.put fd content whole), putGuard fd content (whole && (c.host (.put fd content whole)).isOk) c.written guards)
  | .readBytes directory, c, guards =>
    ((c.host (.readBytes directory)).bind fun _ => ((ns.resolve directory).bind guards).elim (.error .osError) .ok, guards)
  | o, c, guards => (c.host o, guards)

def maintenanceAct (ns : Namespace) : (o : MaintenanceOp γ) → HostAnswers → HostMem γ → Option (o.Ans × HostMem γ)
  | .gate g o, c, mem =>
    let r := (mem.gates g).act o c.start c.now
    some (r.1, { mem with gates := Function.update mem.gates g r.2 })
  | .host o, c, mem => some ((hostAct ns o c mem.guards).1, { mem with guards := (hostAct ns o c mem.guards).2 })
  | .halt, _, _ => none

end Host

section Programs

variable {γ α : Type}

abbrev MaintenanceM (γ : Type) := ExceptT MaintenanceExc (Prog (MaintenanceOp γ) MaintenanceOp.Ans)

def host (o : HostOp) : MaintenanceM γ o.Val := ExceptT.mk (Prog.op (MaintenanceOp.host o))

def blocked (reason : MaintenanceReason) : MaintenanceM γ α := throw (.blocked reason)

/-- `try ... except`, where each handler raises another exception. -/
def handling (handler : MaintenanceExc → MaintenanceExc) (body : MaintenanceM γ α) : MaintenanceM γ α := ExceptT.mk do
  let r ← body.run
  return r.mapError handler

def gateBlock (g : γ) (o : UsbSessionIoGate.Op) : MaintenanceM γ (Option ℚ) := ExceptT.mk do
  let r ← Prog.op (MaintenanceOp.gate g o)
  return r.mapError .release

/-- A program on one gate, as a program on the gate `g`. -/
def releaseOpAt (g : γ) : ReleaseOp → MaintenanceOp γ
  | .gate o => .gate g o
  | .port o => .host (.port o)
  | .halt => .halt

def releaseOpAns (g : γ) : (o : ReleaseOp) → (releaseOpAt g o).Ans → o.Ans
  | .gate _, r => r
  | .port _, r => r.mapError MaintenanceExc.toRelease
  | .halt, r => r

def gateSeal (g : γ) (timeoutS : ℚ) (fuel : ℕ) : MaintenanceM γ Unit := ExceptT.mk do
  let r ← (UsbSessionIoGate.seal {} timeoutS fuel).run.lift (releaseOpAt g) (releaseOpAns g)
  return r.mapError fun e => .release e.exc

/-- `with gate.ordinary("msc")`. -/
def gateOrdinary (g : γ) (body : MaintenanceM γ α) : MaintenanceM γ α := do
  let _ ← gateBlock g .admission
  ExceptT.mk do
    let r ← body.run
    let _ ← Prog.op (MaintenanceOp.gate g .leave)
    return r

/-- `with gate.release_control()`. -/
def gateControl (g : γ) (body : MaintenanceM γ α) : MaintenanceM γ α := do
  let _ ← gateBlock g .control
  ExceptT.mk do
    let r ← body.run
    let _ ← Prog.op (MaintenanceOp.gate g .endControl)
    return r

/-- `with self.port.quiesce(target)`. Nothing is returned where the exit has swallowed an exception. -/
def quiescing (target : EjectTarget) (body : MaintenanceM γ α) : MaintenanceM γ (Option α) := do
  host (.port (.quiesce target))
  host (.port .enter)
  ExceptT.mk do
    match ← body.run with
    | .ok a =>
      let left ← (host (.port (.exit none)) : MaintenanceM γ Bool).run
      return left.map fun _ => some a
    | .error e =>
      let left ← (host (.port (.exit (some e.toRelease))) : MaintenanceM γ Bool).run
      return left.bind fun swallowed => if swallowed then .ok none else .error e

end Programs

section Evidence

variable {γ : Type} (ns : Namespace)

def safeDirectory (path : String) : MaintenanceM γ Unit := do
  let info ← handling (.osAs .evidenceDirectoryMissing) (host (.lstat path))
  if info.isReparse || !info.isDir then blocked .evidenceDirectoryUnsafe else return ()

def safeDirectories : List String → MaintenanceM γ Unit
  | [] => return ()
  | path :: paths => do
    safeDirectory path
    safeDirectories paths

def safeDirectoryChain (path : String) : MaintenanceM γ Unit := safeDirectories (ns.ancestors path)

/-- The guard file is a regular file with one name, in a safe directory. -/
def regularGuard (directory : String) : MaintenanceM γ StatResult := do
  safeDirectoryChain ns directory
  let info ← handling (.osAs .evidenceFileMissing) (host (.lstat (directory ++ "/" ++ guardFileName)))
  if info.isReparse || !info.isReg || info.nlink ≠ 1 then blocked .evidenceFileUnsafe else return info

/-- Read the guard file under a pin: its identity is the same before and after, and its hash is the pin. -/
def readPinned (directory : String) (digest : Bytes) : MaintenanceM γ Bytes := do
  if !isValidSha256Hex digest then blocked .historicalPinRequired
  else
    let first ← regularGuard ns directory
    if first.size > 1024 * 1024 then blocked .historicalEvidenceTooLarge
    else
      let raw ← handling (.osAs .historicalEvidenceUnreadable) (host (.readBytes directory))
      let last ← regularGuard ns directory
      if (first.size, first.mtimeNs, first.ino) ≠ (last.size, last.mtimeNs, last.ino) ∨ sha256Hex raw ≠ digest then
        blocked .historicalEvidenceMismatch
      else return raw

end Evidence

section Guard

variable {γ : Type} (ns : Namespace)

/-- The guard's directory must be the one that the permit approves. -/
def authorizeGuard (directory : String) (permit : GatePermit) : MaintenanceM γ Unit := do
  let dirs ← handling (fun e => if e.isOsError ∨ e = .release .valueError then .blocked .guardDirectoryUnverified else e) (do
    safeDirectoryChain ns permit.authorizedGuardDirectory
    safeDirectoryChain ns directory
    let approved ← host (.resolve permit.authorizedGuardDirectory)
    let actual ← host (.resolve directory)
    return (approved, actual))
  if dirs.2 ≠ dirs.1 then blocked .unauthorizedGuardDirectory else return ()

/-- Write the record through to the disk; the stream is closed in any case. -/
def writeGuard (fd : List String) (content : Bytes) : MaintenanceM γ Unit := ExceptT.mk do
  let wrote ← (do
    host (.put fd content false)
    host (.put fd content true)
    host (.fsync fd) : MaintenanceM γ Unit).run
  let left ← (host (.put fd content wrote.isOk) : MaintenanceM γ Unit).run
  return left.bind fun _ => wrote

def readBackGuard (directory : String) (content : Bytes) : MaintenanceM γ Unit :=
  handling (fun e => match e with | .blocked _ => .blocked .guardRecordUnverified | e => e) do
    let raw ← readPinned ns directory (sha256Hex content)
    if raw ≠ content then blocked .guardRecordUnverified else return ()

/-- The handlers of `consume`: every uncertain create, write or sync counts as consumed. -/
def guardHandler : MaintenanceExc → MaintenanceExc
  | .fileExists => .blocked .attemptAlreadyConsumed
  | .osError => .blocked .guardDurabilityUnverified
  | e => e

/-- Create the guard file, write it and read it back. A descriptor that no stream has taken over is closed in the end. -/
def recordGuard (directory : String) (content : Bytes) : MaintenanceM γ Unit := ExceptT.mk do
  match ← (host (.create directory) : MaintenanceM γ (List String)).run with
  | .error e => return .error (guardHandler e)
  | .ok fd =>
    match ← (host (.fdopen fd) : MaintenanceM γ Unit).run with
    | .error e =>
      let left ← (host (.closeFd fd) : MaintenanceM γ Unit).run
      return left.bind fun _ => .error (guardHandler e)
    | .ok _ => (handling guardHandler (do
        writeGuard fd content
        readBackGuard ns directory content)).run

def OneShotGuard.consume (directory : String) (permit : GatePermit) (attemptId : String) : MaintenanceM γ Unit := do
  authorizeGuard ns directory permit
  recordGuard ns directory (guardContent permit attemptId)

end Guard

section Coordinator

variable {γ : Type} (ns : Namespace)

/-- The coordinator and the arguments of one run. -/
structure MaintenanceArgs (γ : Type) where
  timeoutS : ℚ
  mountRoot : String
  cdcPort : String
  gate : γ
  guardDirectory : String
  pocCallable : Bool

/-- Any other removable USB disk on the host refuses the target. -/
def requireUniqueUsbTarget (target : EjectTarget) : MaintenanceM γ Unit := do
  match ← host .usbInventory with
  | .uncallable => blocked .usbInventoryUnavailable
  | .disks entries =>
    match entries.filter fun entry => entry.removableInstanceId ≠ "" && entry.physicalUsbInstanceId ≠ "" with
    | [entry] =>
      if entry.diskNumber ≠ target.diskNumber ∨ entry.instanceId ≠ target.diskInstanceId ∨
          entry.physicalUsbInstanceId ≠ target.usbPhysicalInstanceId then blocked .ambiguousUsbStorage else return ()
    | _ => blocked .ambiguousUsbStorage
  | .noApi false => blocked .usbInventoryUnavailable
  | .noApi true => host (.assertSingleUsbTarget target)

/-- The guard may not lie on the Device. -/
def guardOffDevice (args : MaintenanceArgs γ) : MaintenanceM γ Unit := do
  safeDirectoryChain ns args.mountRoot
  safeDirectoryChain ns args.guardDirectory
  let root ← host (.resolve args.mountRoot)
  let guardParent ← host (.resolve args.guardDirectory)
  if root <+: guardParent then blocked .guardOnDeviceMedia else return ()

/-- What the run has qualified under its lease. -/
structure Qualified where
  target : EjectTarget
  final : Preflight
  permit : GatePermit
  attemptId : String

def permitFits (permit : GatePermit) (final : Preflight) (target : EjectTarget) : Bool :=
  permit.issue = maintenanceIssue && permit.receiptSha256 = final.receiptSha256 &&
  permit.historySha256 = final.historySha256 && permit.target = target && permit.runningHandlerQualified

def readinessFits (readiness : ControlledPocReadiness) (q : Qualified) : Bool :=
  readiness.mode = maintenanceScope && readiness.target = q.target &&
  readiness.receiptSha256 = q.final.receiptSha256 && readiness.historySha256 = q.final.historySha256 &&
  readiness.attemptId = q.attemptId && readiness.noKnownCompetingWriter && readiness.devicePcOwned &&
  readiness.sameTargetLockDismounted

/-- The permit for the second of two equal preflights, under a canonical attempt id. -/
def qualifyAttempt (final : Preflight) (target : EjectTarget) : MaintenanceM γ Qualified := do
  match ← host (.qualify final target) with
  | none => blocked .blockedProvenanceOrApproval
  | some permit =>
    if !permitFits permit final target then blocked .blockedProvenanceOrApproval
    else
      match permit.attemptId with
      | none => blocked .invalidAttemptId
      | some attemptId =>
        let canonical ← host (.uuid attemptId)
        if canonical ≠ attemptId then blocked .invalidAttemptId else return ⟨target, final, permit, attemptId⟩

def qualification (args : MaintenanceArgs γ) : MaintenanceM γ Qualified := do
  let initial ← host .freshPreflight
  let target ← host (.port (.resolveTarget args.mountRoot initial.deviceId))
  host (.port (.revalidateTarget target args.cdcPort))
  requireUniqueUsbTarget target
  let available ← host (.port (.volumeAvailable target))
  if !available then blocked .volumeNotAvailable
  else
    let final ← host .freshPreflight
    if final ≠ initial then blocked .preflightDrift
    else
      host (.port (.revalidateTarget target args.cdcPort))
      requireUniqueUsbTarget target
      if !isHexPin final.historySha256 then blocked .originalClearEvidenceRequired else qualifyAttempt final target

/-- Look for the volume until it has gone or the deadline is over. -/
def pollVolume (args : MaintenanceArgs γ) (target : EjectTarget) (deadline : ℚ) : ℕ → MaintenanceM γ MaintenanceOutcome
  | 0 => ExceptT.mk (.call .halt fun r => nomatch r)
  | fuel + 1 => do
    let disappeared ← host (.port (.volumeDisappeared target))
    if disappeared then
      let _ ← gateBlock args.gate .released
      return ⟨.maintenanceReleaseOnly, .released⟩
    else
      let now ← host (.port .clock)
      if deadline ≤ now then blocked .postAcceptTimeout
      else
        let now ← host (.port .clock)
        host (.port (.sleep (min (1 / 5) (max 0 (deadline - now)))))
        pollVolume args target deadline fuel

/-- The readiness is observed while the volume is locked, and the guard consumed before the first byte can be sent. -/
def releaseOnce (args : MaintenanceArgs γ) (q : Qualified) (fuel : ℕ) : MaintenanceM γ MaintenanceOutcome := do
  let _ ← gateBlock args.gate .hostQuiesced
  if !args.pocCallable then blocked .controlledPocQualificationRequired
  else
    match ← host (.qualifyPoc q.permit q.final q.target) with
    | none => blocked .controlledPocQualificationUnverified
    | some readiness =>
      if !readinessFits readiness q then blocked .controlledPocQualificationUnverified
      else
        OneShotGuard.consume ns args.guardDirectory q.permit q.attemptId
        host (.port (.releaseStorage args.cdcPort q.attemptId q.target))
        let _ ← gateBlock args.gate .accepted
        let now ← host (.port .clock)
        pollVolume args q.target (now + args.timeoutS) fuel

def maintenanceStages (args : MaintenanceArgs γ) (fuel : ℕ) : MaintenanceM γ (Option MaintenanceOutcome) := do
  guardOffDevice ns args
  let q ← gateOrdinary args.gate (qualification args)
  gateSeal args.gate args.timeoutS fuel
  gateControl args.gate (quiescing q.target (releaseOnce ns args q fuel))

/-- `except Exception`: only a base exception leaves the run. -/
def MaintenanceReleaseCoordinator.run (args : MaintenanceArgs γ) (fuel : ℕ) :
    MaintenanceM γ (Option MaintenanceOutcome) := ExceptT.mk do
  match ← (maintenanceStages ns args fuel).run with
  | .ok outcome => return .ok outcome
  | .error (.release .baseException) => return .error (.release .baseException)
  | .error (.blocked reason) => return .ok (some ⟨.blocked, reason⟩)
  | .error _ => return .ok (some ⟨.blocked, .indeterminateOrHostFailure⟩)

/-- Runs of coordinators, in any number of processes. A process that dies takes no further step. -/
def maintenanceCode (ι γ : Type) [DecidableEq γ] (ns : Namespace) :
    Code ι (MaintenanceOp γ) MaintenanceOp.Ans HostAnswers (HostMem γ) (MaintenanceArgs γ)
      (fun _ => Except MaintenanceExc (Option MaintenanceOutcome)) Unit where
  act := maintenanceAct ns
  may _ _ _ _ := true
  body args _ fuel := (MaintenanceReleaseCoordinator.run ns args fuel).run
  after _ _ l := l

end Coordinator

end M5DayLog
