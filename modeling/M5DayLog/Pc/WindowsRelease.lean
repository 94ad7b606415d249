import M5DayLog.Lib.Trace
import M5DayLog.Pc.Capacity
import M5DayLog.Pc.Contract
import M5DayLog.Pc.Maintenance

/-! The release of a Device's storage on a Windows host: the native calls, the interface enumerations made of them, and the
port that freezes the CDC endpoint of its session. Every native call has an answer of its own, so that the topology of the
host may change between any two of them. -/

namespace M5DayLog.Windows

open Bytes Capacity

section Native

def genericRead : ℕ := 0x80000000
def genericWrite : ℕ := 0x40000000
def fileShareRead : ℕ := 1
def fileShareWrite : ℕ := 2
def ioctlVolumeGetVolumeDiskExtents : ℕ := 0x00560000
def ioctlStorageGetDeviceNumber : ℕ := 0x002d1080
def fsctlLockVolume : ℕ := 0x00090018
def fsctlDismountVolume : ℕ := 0x00090020
def devcapRemovable : ℕ := 4
def errorNoMoreItems : ℕ := 259
def maxCdcReply : ℕ := 4096

inductive InterfaceClass
  | comPort
  | disk
  deriving DecidableEq

/-- A value of the registry: a string, or a value of another type. -/
inductive RegistryValue
  | string (s : String)
  | other
  deriving DecidableEq

/-- The calls out of the process. `inspectDevice` stands for the reading of the Device's metadata, and `halt` ends a run
whose loops have used up their fuel. -/
inductive NativeOp
  | inspectDevice (mountRoot : String)
  | getVolumePathName (mountRoot : String)
  | getVolumeNameForVolumeMountPoint (path : String)
  | getVolumeInformation (volumeGuid : String)
  | queryDosDevice (name : String)
  | createFile (path : String) (access sharing : ℕ)
  | deviceIoControl (handle code outputSize : ℕ)
  | closeHandle (handle : ℕ)
  | getLastError
  | getClassDevs (cls : InterfaceClass)
  | enumDeviceInterfaces (devs : ℕ) (cls : InterfaceClass) (index : ℕ)
  | getDeviceInterfaceDetail (devs interface : ℕ)
  | destroyDeviceInfoList (devs : ℕ)
  | getDeviceId (devInst : ℕ)
  | getParent (devInst : ℕ)
  | getCapabilities (devInst : ℕ)
  | openKey (path : String)
  | queryValue (key : ℕ) (name : String)
  | closeKey (key : ℕ)
  | setCommTimeouts (handle : ℕ)
  | writeFile (handle : ℕ) (bytes : Bytes)
  | readFile (handle : ℕ)
  | monotonic
  | uuid4
  | halt
  deriving DecidableEq

/-- A call that fails answers `none` or `false`. The errors that are caught around `inspectDevice` are `valueError`. -/
abbrev NativeOp.Ans : NativeOp → Type
  | inspectDevice _ => Except ReleaseExc String
  | getVolumePathName _ | getVolumeNameForVolumeMountPoint _ | getDeviceId _ => Option String
  | getVolumeInformation _ | queryDosDevice _ | setCommTimeouts _ => Bool
  | deviceIoControl _ _ _ | readFile _ => Option Bytes
  | createFile _ _ _ | getClassDevs _ | enumDeviceInterfaces _ _ _ | getParent _ | getCapabilities _ | openKey _ |
    writeFile _ _ => Option ℕ
  | getDeviceInterfaceDetail _ _ => Option (String × ℕ)
  | queryValue _ _ => Option RegistryValue
  | getLastError => ℕ
  | monotonic => ℚ
  | uuid4 => String
  | closeHandle _ | destroyDeviceInfoList _ | closeKey _ => Unit
  | halt => Empty

abbrev NativeM := ExceptT ReleaseExc (Prog NativeOp NativeOp.Ans)

def native (o : NativeOp) : NativeM o.Ans := ExceptT.mk do
  let r ← Prog.op o
  return .ok r

/-- `try ... finally`, with one call at the end. -/
def withFinally {α : Type} (last : NativeOp) (body : NativeM α) : NativeM α := ExceptT.mk do
  let r ← body.run
  let _ ← Prog.op last
  return r

def catchAs {α : Type} (body : NativeM α) (handler : ReleaseExc → NativeM α) : NativeM α := ExceptT.mk do
  match ← body.run with
  | .ok a => return .ok a
  | .error e => (handler e).run

def outOfFuel {α : Type} : NativeM α := ExceptT.mk (.call .halt fun r => nomatch r)

/-- An answer that must be there. -/
def require {α : Type} (exc : ReleaseExc) : Option α → NativeM α
  | some a => return a
  | none => throw exc

end Native

section Names

/-- What the host makes of the case of a string. -/
structure HostText where
  upper : String → String
  casefold : String → String

/-- A character as a letter of a pattern that ignores case. -/
def foldLetter (c : Char) : Char :=
  if c = 'ſ' then 's' else if c = 'ı' ∨ c = 'İ' then 'i' else if 'A' ≤ c ∧ c ≤ 'Z' then Char.ofNat (c.toNat + 32) else c

def isHexDigit (c : Char) : Bool := ( '0' ≤ c && c ≤ '9') || ( 'a' ≤ foldLetter c && foldLetter c ≤ 'f')

/-- `COM[1-9][0-9]{0,3}`, in any case. -/
def isComPort (s : String) : Bool :=
  match s.toList with
  | c :: o :: m :: first :: rest =>
    [c, o, m].map foldLetter = "com".toList && '1' ≤ first && first ≤ '9' && rest.length ≤ 3 &&
      rest.all fun d => '0' ≤ d && d ≤ '9'
  | _ => false

/-- `USB\VID_[0-9A-F]{4}&PID_[0-9A-F]{4}\[^\]+`, in any case. -/
def isUsbDevice (s : String) : Bool :=
  let chars := s.toList
  let vendor := (chars.drop 8).take 4
  let product := (chars.drop 17).take 4
  let instanceName := chars.drop 22
  (chars.take 8).map foldLetter = "usb\\vid_".toList && vendor.length = 4 && vendor.all isHexDigit &&
    ((chars.drop 12).take 5).map foldLetter = "&pid_".toList && product.length = 4 && product.all isHexDigit &&
    (chars.drop 21).take 1 = ['\\'] && instanceName ≠ [] && instanceName.all (· ≠ '\\')

def stripBackslashes (s : String) : String := String.ofList (s.toList.reverse.dropWhile (· = '\\')).reverse

/-- `struct.unpack_from('<I', data, offset)`, of data that is long enough. -/
def unpackU32 (data : Bytes) (offset : ℕ) : ℕ :=
  ((data.drop offset).take 4).foldr (fun b n => b.toNat + 256 * n) 0

end Names

section Interfaces

structure DiskInterface where
  diskNumber : ℤ
  instanceId : String
  removableInstanceId : Option String
  physicalUsbInstanceId : Option String
  deriving DecidableEq

/-- A present COM interface: its path, not the name of a port. -/
structure CdcInterface where
  devicePath : String
  instanceId : String
  physicalUsbInstanceId : String
  deriving DecidableEq

def openPath (path : String) (access sharing : ℕ) : NativeM ℕ := do
  require .hostQuiesceError (← native (.createFile path access sharing))

def ioctl (handle code outputSize : ℕ) : NativeM Bytes := do
  require .hostQuiesceError (← native (.deviceIoControl handle code outputSize))

def instanceIdOf (devInst : ℕ) : NativeM String := do
  require .unsupportedTarget (← native (.getDeviceId devInst))

/-- The nearest of the node and its ancestors that is a USB device, among as many as `steps`. -/
def physicalUsbFrom (host : HostText) : (steps devInst : ℕ) → NativeM (Option String)
  | 0, _ => return none
  | steps + 1, devInst => do
    let name ← instanceIdOf devInst
    if isUsbDevice name then return some (host.upper name)
    else
      match ← native (.getParent devInst) with
      | none => return none
      | some parent => physicalUsbFrom host steps parent

def physicalUsbId (host : HostText) (devInst : ℕ) : NativeM (Option String) := physicalUsbFrom host 32 devInst

def removableFrom : (steps devInst : ℕ) → NativeM (Option String)
  | 0, _ => return none
  | steps + 1, devInst => do
    let capabilities ← native (.getCapabilities devInst)
    if capabilities.any fun c => c &&& devcapRemovable ≠ 0 then return some (← instanceIdOf devInst)
    else
      match ← native (.getParent devInst) with
      | none => return none
      | some parent => removableFrom steps parent

def removableAncestor (devInst : ℕ) : NativeM (Option String) := removableFrom 32 devInst

/-- The loop over the interfaces of a class: `each` ends it with a result, or goes on from a new state. -/
def interfaceLoop {σ ρ : Type} (cls : InterfaceClass) (exc : ReleaseExc) (devs : ℕ) (each : String → ℕ → σ → NativeM (ρ ⊕ σ))
    (done : σ → ρ) : (fuel index : ℕ) → σ → NativeM ρ
  | 0, _, _ => outOfFuel
  | fuel + 1, index, s => do
    match ← native (.enumDeviceInterfaces devs cls index) with
    | none =>
      let error ← native .getLastError
      if error = errorNoMoreItems then return done s else throw exc
    | some interface =>
      let (path, devInst) ← require exc (← native (.getDeviceInterfaceDetail devs interface))
      match ← each path devInst s with
      | .inl r => return r
      | .inr s => interfaceLoop cls exc devs each done fuel (index + 1) s

def forInterfaces {σ ρ : Type} (cls : InterfaceClass) (exc : ReleaseExc) (each : String → ℕ → σ → NativeM (ρ ⊕ σ))
    (done : σ → ρ) (fuel : ℕ) (s : σ) : NativeM ρ := do
  let devs ← require exc (← native (.getClassDevs cls))
  withFinally (.destroyDeviceInfoList devs) (interfaceLoop cls exc devs each done fuel 0 s)

/-- The port name of a COM node, `none` where the registry does not answer. -/
def registryPortName (devInst : ℕ) : NativeM (Option RegistryValue) := do
  let name ← instanceIdOf devInst
  match ← native (.openKey ("SYSTEM\\CurrentControlSet\\Enum\\" ++ name ++ "\\Device Parameters")) with
  | none => return none
  | some key => withFinally (.closeKey key) (native (.queryValue key "PortName"))

/-- An interface whose node has the port's name is taken with the path that the host publishes for it. -/
def matchPort (host : HostText) (port path : String) (devInst : ℕ) (matched : List CdcInterface) :
    NativeM (List CdcInterface) := do
  match ← registryPortName devInst with
  | some (.string assigned) =>
    if host.upper assigned = host.upper port then
      let physical ← require .wrongTarget (← physicalUsbId host devInst)
      if !"\\\\?\\".toList.isPrefixOf path.toList then throw .wrongTarget
      else
        let name ← instanceIdOf devInst
        return matched ++ [⟨path, name, physical⟩]
    else return matched
  | _ => return matched

/-- The one present interface of a COM port. -/
def cdcInterface (host : HostText) (fuel : ℕ) (port : String) : NativeM CdcInterface :=
  if !isComPort port then throw .wrongTarget
  else do
    let matched ← forInterfaces .comPort .wrongTarget
      (fun path devInst matched => do return .inr (← matchPort host port path devInst matched)) id fuel []
    match matched with
    | [only] => return only
    | _ => throw .wrongTarget

def volumeGuid (host : HostText) (mountRoot : String) : NativeM String := do
  let path ← require .wrongTarget (← native (.getVolumePathName mountRoot))
  if host.casefold path ≠ host.casefold mountRoot then throw .wrongTarget
  else
    let guid ← require .wrongTarget (← native (.getVolumeNameForVolumeMountPoint path))
    if !isVolumeRoot guid then throw .wrongTarget else return guid

def volumeDiskNumbers (volumeGuid : String) : NativeM (List ℤ) := do
  let handle ← openPath (stripBackslashes volumeGuid) genericRead (fileShareRead ||| fileShareWrite)
  withFinally (.closeHandle handle) do
    let data ← ioctl handle ioctlVolumeGetVolumeDiskExtents 4096
    if data.length < 12 then throw .unsupportedTarget
    else if unpackU32 data 0 ≠ 1 ∨ data.length < 32 then throw .unsupportedTarget
    else return [(unpackU32 data 8 : ℤ)]

def describeDisk (host : HostText) (path : String) (devInst : ℕ) : NativeM DiskInterface := do
  let handle ← openPath path 0 (fileShareRead ||| fileShareWrite)
  let number ← withFinally (.closeHandle handle) do
    let data ← ioctl handle ioctlStorageGetDeviceNumber 12
    if data.length < 12 then throw .unsupportedTarget else return unpackU32 data 4
  let name ← instanceIdOf devInst
  let removable ← removableAncestor devInst
  let physical ← physicalUsbId host devInst
  return ⟨number, name, removable, physical⟩

def diskInterfaces (host : HostText) (fuel : ℕ) : NativeM (List DiskInterface) :=
  forInterfaces .disk .unsupportedTarget
    (fun path devInst discovered => do return .inr (discovered ++ [← describeDisk host path devInst])) id fuel []

def diskInstancePresent (host : HostText) (fuel : ℕ) (instanceId : String) : NativeM Bool :=
  if instanceId = "" then throw .hostQuiesceError
  else
    forInterfaces .disk .hostQuiesceError
      (fun _ devInst _ => do
        let name ← instanceIdOf devInst
        return if host.casefold name = host.casefold instanceId then .inl true else .inr ())
      (fun _ => false) fuel ()

def mountPointPresent (mountRoot : String) : NativeM Bool :=
  if !isDriveRoot mountRoot then throw .hostQuiesceError
  else do
    let found ← native (.queryDosDevice (String.ofList (mountRoot.toList.take 2)))
    if found then return true
    else
      let error ← native .getLastError
      if error = 2 ∨ error = 3 then return false else throw .hostQuiesceError

def filesystemAccessible (volumeGuid : String) : NativeM Bool := native (.getVolumeInformation volumeGuid)

/-- What a failed lock means: someone else has the volume, or `exc`. -/
def lockFailed {α : Type} : NativeM α := do
  let error ← native .getLastError
  if error = 32 ∨ error = 33 then throw .volumeBusy else throw .volumeLockError

def onQuiesceError {α : Type} (body handler : NativeM α) : NativeM α :=
  catchAs body fun e => if e = .hostQuiesceError then handler else throw e

/-- The start of `lock_and_dismount`, up to its `yield`: the handle that the end will close. -/
def lockAndDismount (volumeGuid : String) : NativeM ℕ := do
  let handle ← onQuiesceError
    (openPath (stripBackslashes volumeGuid) (genericRead ||| genericWrite) (fileShareRead ||| fileShareWrite)) lockFailed
  catchAs
    (do
      let _ ← onQuiesceError (ioctl handle fsctlLockVolume 0) lockFailed
      let _ ← onQuiesceError (ioctl handle fsctlDismountVolume 0) (throw .volumeDismountError)
      return handle)
    fun e => do
      native (.closeHandle handle)
      throw e

end Interfaces

section Release

-- what the host reads from the bytes of a reply
variable (loads : Bytes → Except ReleaseExc Contract.Json)

def releaseRequest (requestId attemptId : String) : Bytes :=
  lit "\x7b\"id\":" ++ jsonText requestId ++ lit ",\"cmd\":\"RELEASE_STORAGE\",\"args\":\x7b\"releaseAttemptId\":" ++
    jsonText attemptId ++ lit "\x7d\x7d\n"

/-- The bytes of the reply, up to its newline. -/
def readReply (handle : ℕ) (deadline : ℚ) : (fuel : ℕ) → Bytes → NativeM Bytes
  | 0, _ => outOfFuel
  | fuel + 1, reply => do
    let now ← native .monotonic
    if ¬ (now < deadline ∧ reply.length < maxCdcReply) then throw .releaseIndeterminate
    else
      let got ← require .releaseIndeterminate (← native (.readFile handle))
      let reply := reply ++ got
      if got ≠ [] ∧ reply.getLast? = some 0x0a then return reply else readReply handle deadline fuel reply

open Contract in
/-- A reply that accepts the attempt, one that rejects it, or one that proves neither. -/
def judgeReply (requestId attemptId : String) (reply : Bytes) : Except ReleaseExc Unit :=
  match loads reply with
  | .error e => .error (if e = .valueError then .releaseIndeterminate else e)
  | .ok obj =>
    let field (name : String) (j : Json) : Option Json := j.get (text name)
    let isText (s : String) : Option Json → Bool
      | some (.str value) => value = text s
      | _ => false
    let isFlag (b : Bool) : Option Json → Bool
      | some (.bool value) => value = b
      | _ => false
    if isText requestId (field "id" obj) && isFlag false (field "ok" obj) then .error .releaseRejected
    else
      match field "result" obj with
      | none => .error .releaseIndeterminate
      | some result =>
        if isText requestId (field "id" obj) && isFlag true (field "ok" obj) &&
          isText attemptId (field "releaseAttemptId" result) && isFlag true (field "accepted" result) then .ok ()
        else .error .releaseIndeterminate

/-- What is done with the open handle, the endpoint being the bound one still. -/
def exchange (fuel handle : ℕ) (requestId attemptId : String) : NativeM Unit := do
  let configured ← native (.setCommTimeouts handle)
  if !configured then throw .releaseRejected
  else
    let request := releaseRequest requestId attemptId
    let written ← require .releaseIndeterminate (← native (.writeFile handle request))
    if written ≠ request.length then throw .releaseIndeterminate
    else
      let now ← native .monotonic
      let reply ← readReply handle (now + 5) fuel []
      ExceptT.mk (.ret (judgeReply loads requestId attemptId reply))

def releaseCdc (host : HostText) (fuel : ℕ) (port attemptId : String) (binding : CdcInterface) : NativeM Unit := do
  let endpoint ← cdcInterface host fuel port
  if endpoint ≠ binding then throw .wrongTarget
  else
    let requestId ← native .uuid4
    let handle ← openPath endpoint.devicePath (genericRead ||| genericWrite) 0
    withFinally (.closeHandle handle) do
      let current ← cdcInterface host fuel port
      if current ≠ binding then throw .wrongTarget else exchange loads fuel handle requestId attemptId

end Release

section Port

/-- The endpoint of a session, with the USB device and the port that it was frozen for. -/
structure CdcBinding where
  usbInstanceId : String
  port : String
  endpoint : CdcInterface
  deriving DecidableEq

structure WindowsHostReleasePort where
  cdcBinding : Option CdcBinding
  deriving DecidableEq

namespace WindowsHostReleasePort

def init : WindowsHostReleasePort := ⟨none⟩

end WindowsHostReleasePort

variable (host : HostText) (loads : Bytes → Except ReleaseExc Contract.Json) (fuel : ℕ)

def resolveTarget (mountRoot expectedDeviceId : String) : NativeM EjectTarget :=
  if !isDriveRoot mountRoot then throw .unsupportedTarget
  else do
    let guid ← volumeGuid host mountRoot
    match ← volumeDiskNumbers guid with
    | [disk] =>
      if disk < 0 then throw .unsupportedTarget
      else
        match (← diskInterfaces host fuel).filter (·.diskNumber = disk) with
        | [⟨_, name, some removable, some physical⟩] =>
          if name = "" ∨ removable = "" ∨ physical = "" then throw .unsupportedTarget
          else return ⟨expectedDeviceId, mountRoot, guid, disk, name, removable, physical⟩
        | _ => throw .unsupportedTarget
    | _ => throw .unsupportedTarget

/-- The id of the Device in the volume, as its metadata states it. -/
def currentDeviceId (mountRoot : String) : NativeM String := do
  match ← native (.inspectDevice mountRoot) with
  | .ok id => return id
  | .error e => throw (if e = .valueError then .wrongTarget else e)

/-- The port after a target has been validated anew. The first endpoint that passes is frozen. -/
def revalidateTarget (self : WindowsHostReleasePort) (target : EjectTarget) (cdcPort : String) :
    NativeM WindowsHostReleasePort := do
  let currentId ← currentDeviceId target.mountRoot
  if currentId ≠ target.expectedDeviceId then throw .wrongTarget
  else
    let current ← resolveTarget host fuel target.mountRoot target.expectedDeviceId
    if current ≠ target then throw .wrongTarget
    else
      let endpoint ← cdcInterface host fuel cdcPort
      if endpoint.physicalUsbInstanceId ≠ target.usbPhysicalInstanceId then throw .wrongTarget
      else
        let binding : CdcBinding := ⟨target.usbPhysicalInstanceId, host.upper cdcPort, endpoint⟩
        if self.cdcBinding.any (· ≠ binding) then throw .wrongTarget else return ⟨some binding⟩

def releaseStorage (self : WindowsHostReleasePort) (cdcPort attemptId : String) (target : EjectTarget) : NativeM Unit :=
  match self.cdcBinding with
  | none => throw .wrongTarget
  | some binding =>
    if binding.usbInstanceId ≠ target.usbPhysicalInstanceId ∨ binding.port ≠ host.upper cdcPort then throw .wrongTarget
    else do
      let current ← cdcInterface host fuel cdcPort
      if current ≠ binding.endpoint then throw .wrongTarget else releaseCdc loads host fuel cdcPort attemptId binding.endpoint

def volumeDisappeared (target : EjectTarget) : NativeM Bool := do
  let present ← diskInstancePresent host fuel target.diskInstanceId
  if present then return false
  else return !(← mountPointPresent target.mountRoot)

end Port

section Session

/-- The calls of the port's methods. `quiesce` returns a context, of which `enter` and `leave` are the two ends. -/
inductive PortCall
  | resolveTarget (mountRoot expectedDeviceId : String)
  | revalidateTarget (target : EjectTarget) (cdcPort : String)
  | volumeAvailable (target : EjectTarget)
  | enter (target : EjectTarget)
  | leave (handle : ℕ)
  | releaseStorage (cdcPort attemptId : String) (target : EjectTarget)
  | volumeDisappeared (target : EjectTarget)
  deriving DecidableEq

inductive PortValue
  | none
  | target (value : EjectTarget)
  | flag (value : Bool)
  | handle (value : ℕ)
  deriving DecidableEq

variable (host : HostText) (loads : Bytes → Except ReleaseExc Contract.Json) (fuel : ℕ)

/-- What a call returns, with the port that it leaves. -/
def PortCall.body (self : WindowsHostReleasePort) : PortCall → NativeM (PortValue × WindowsHostReleasePort)
  | .resolveTarget mountRoot expectedDeviceId => do
    return (.target (← Windows.resolveTarget host fuel mountRoot expectedDeviceId), self)
  | .revalidateTarget target cdcPort => do return (.none, ← Windows.revalidateTarget host fuel self target cdcPort)
  | .volumeAvailable target => do return (.flag (← filesystemAccessible target.volumeGuid), self)
  | .enter target => do return (.handle (← lockAndDismount target.volumeGuid), self)
  | .leave handle => do
    native (.closeHandle handle)
    return (.none, self)
  | .releaseStorage cdcPort attemptId target => do
    Windows.releaseStorage host loads fuel self cdcPort attemptId target
    return (.none, self)
  | .volumeDisappeared target => do return (.flag (← Windows.volumeDisappeared host fuel target), self)

/-- One call of a session, with what it has done and what has come of it. -/
structure CallRecord where
  call : PortCall
  trace : Prog.Trace NativeOp NativeOp.Ans
  result : Except ReleaseExc PortValue

/-- A call that raises leaves the port as it was. -/
def afterCall (self : WindowsHostReleasePort) :
    Except ReleaseExc (PortValue × WindowsHostReleasePort) → Except ReleaseExc PortValue × WindowsHostReleasePort
  | .ok (value, self') => (.ok value, self')
  | .error e => (.error e, self)

/-- The calls made on one port since it was built, one after the other, and the port as they leave it. -/
inductive Session : List CallRecord → WindowsHostReleasePort → Prop
  | init : Session [] .init
  | call {calls : List CallRecord} {self : WindowsHostReleasePort} (h : Session calls self) (c : PortCall)
      {t : Prog.Trace NativeOp NativeOp.Ans} {r : Except ReleaseExc (PortValue × WindowsHostReleasePort)}
      (hdoes : Prog.Does (c.body host loads fuel self).run t (.ret r)) :
      Session (calls ++ [⟨c, t, (afterCall self r).1⟩]) (afterCall self r).2

end Session

end M5DayLog.Windows
