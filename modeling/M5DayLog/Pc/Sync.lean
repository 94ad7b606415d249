import M5DayLog.Lib.Calendar
import M5DayLog.Pc.Release
import M5DayLog.Sha256

/-! The manifest-based synchronisation. A run copies each recording of a mounted Device into the library, under the date that
the recording started at, and keeps one row for each recording in its database. -/

namespace M5DayLog.PcSync

open Bytes

section Documents

/-- What the synchronisation reads of an entry of the manifest. -/
structure Recording where
  recordingId : Bytes
  filename : Bytes
  startedAt : Bytes
  durationMs : ℕ
  sizeBytes : ℕ
  sha256 : Bytes
  deriving DecidableEq

structure DeviceDocument where
  deviceId : Bytes
  model : Bytes
  firmwareVersion : Bytes
  deriving DecidableEq

structure ManifestDocument where
  deviceId : Bytes
  updatedAt : Bytes
  recordings : List Recording
  deriving DecidableEq

inductive SyncReason
  | filenameContainment
  | identityMismatch
  | duplicateIdentity
  | invalidTimestamp
  | targetOnDevice
  | targetOutsideLibrary
  | stalePartial
  | freshPartial
  deriving DecidableEq

inductive SyncExc
  | contract
  | validation (reason : SyncReason)
  | integrity
  | fileNotFound
  | fileExists
  | osError
  | database
  | interrupted
  deriving DecidableEq

/-- The exceptions that `except OSError` takes; `IntegrityError` is one of them. -/
def SyncExc.isOsError (e : SyncExc) : Bool := e = .integrity ∨ e = .fileNotFound ∨ e = .fileExists ∨ e = .osError

end Documents

section Timestamp

def upper (c : UInt8) : UInt8 := if 0x61 ≤ c && c ≤ 0x7a then c - 0x20 else c

/-- A number of exactly `n` digits up to a bound, and what follows it. -/
def fixedNumber (n bound : ℕ) (s : Bytes) : Option (ℕ × Bytes) :=
  if (s.take n).length = n ∧ (s.take n).all isDigit ∧ decVal 0 (s.take n) ≤ bound then some (decVal 0 (s.take n), s.drop n)
  else none

def expect (c : UInt8) (s : Bytes) : Option Bytes := if s.head? = some c then some (s.drop 1) else none

/-- `(?:\.\d+)?`. -/
def skipFraction (s : Bytes) : Bytes :=
  match s with
  | 0x2e :: rest => if rest.takeWhile isDigit = [] then s else rest.dropWhile isDigit
  | _ => s

/-- `(?:Z|[+-](?:[01]\d|2[0-3]):[0-5]\d)$`; the end may be one before a last newline. -/
def isZone (s : Bytes) : Bool :=
  match s with
  | 0x5a :: rest => rest = [] ∨ rest = [0x0a]
  | c :: rest =>
    (c = 0x2b ∨ c = 0x2d) && ((do
      let (_, rest) ← fixedNumber 2 23 rest
      let rest ← expect 0x3a rest
      let (_, rest) ← fixedNumber 2 59 rest
      return decide (rest = [] ∨ rest = [0x0a]) : Option Bool).getD false)
  | [] => false

/-- `_RFC3339_DATETIME.match(value.upper())`, as the groups of year, month and day. -/
def rfc3339Date (value : Bytes) : Option (ℕ × ℕ × ℕ) := do
  let (year, s) ← fixedNumber 4 9999 (value.map upper)
  let s ← expect 0x2d s
  let (month, s) ← fixedNumber 2 12 s
  let s ← expect 0x2d s
  let (day, s) ← fixedNumber 2 99 s
  let s ← expect 0x54 s
  let (_, s) ← fixedNumber 2 23 s
  let s ← expect 0x3a s
  let (_, s) ← fixedNumber 2 59 s
  let s ← expect 0x3a s
  let (_, s) ← fixedNumber 2 59 s
  if month = 0 ∨ !isZone (skipFraction s) then none else return (year, month, day)

/-- Where the final file of a recording stands in the library. -/
structure FinalPath where
  year : ℕ
  month : ℕ
  day : ℕ
  recordingId : Bytes
  deriving DecidableEq

/-- A number in at least `n` digits. -/
def padded (n k : ℕ) : Bytes := List.replicate (n - (dec k).length) 0x30 ++ dec k

/-- The parts of the path below the root of the library. -/
def FinalPath.parts (p : FinalPath) : List Bytes :=
  [padded 4 p.year, padded 2 p.month, padded 2 p.day, lit "raw", p.recordingId ++ lit ".wav"]

theorem decVal_padded (n k : ℕ) : decVal 0 (padded n k) = k := by
  have hzeros : ∀ m, decVal 0 (List.replicate m 0x30 ++ dec k) = decVal 0 (dec k) := fun m => by
    induction m with
    | zero => rfl
    | succ m ih => simpa [List.replicate_succ, decVal_cons] using ih
  rw [padded, hzeros, decVal_dec]

/-- Two recordings that start on different days, or with different ids, have different files. -/
theorem FinalPath.parts_injective : Function.Injective FinalPath.parts := by
  intro p q h
  simp only [parts, List.cons.injEq, and_true, List.append_cancel_right_eq, true_and] at h
  obtain ⟨hyear, hmonth, hday, hid⟩ := h
  have hnum := fun n {a b : ℕ} (h : padded n a = padded n b) => (decVal_padded n a).symm.trans ((congrArg _ h).trans (decVal_padded n b))
  cases p
  cases q
  simp only [FinalPath.mk.injEq]
  exact ⟨hnum 4 hyear, hnum 2 hmonth, hnum 2 hday, hid⟩

def targetPath (recording : Recording) : Except SyncExc FinalPath :=
  match rfc3339Date recording.startedAt with
  | none => .error (.validation .invalidTimestamp)
  | some (year, month, day) =>
    if year = 0 ∨ ¬ (1 ≤ day ∧ day ≤ Calendar.monthDays year month) then .error (.validation .invalidTimestamp)
    else .ok ⟨year, month, day, recording.recordingId⟩

theorem targetPath_id {recording : Recording} {p : FinalPath} (h : targetPath recording = .ok p) :
    p.recordingId = recording.recordingId := by
  rw [targetPath] at h
  split at h
  · cases h
  · split at h
    · cases h
    · cases h
      rfl

end Timestamp

section World

inductive SyncStatus
  | synced
  | conflict
  deriving DecidableEq

/-- A row of `recordings`. -/
structure Row where
  recordingId : Bytes
  deviceId : Bytes
  startedAt : Bytes
  durationMs : ℕ
  sourceFilename : Bytes
  sourceSha256 : Bytes
  sizeBytes : ℕ
  localPath : FinalPath
  syncStatus : SyncStatus
  deriving DecidableEq

/-- A row of `devices`, without the times of the host's clock. -/
structure DeviceRow where
  model : Bytes
  firmwareVersion : Bytes
  lastManifestAt : Bytes
  deriving DecidableEq

inductive LibraryFile
  | final (p : FinalPath)
  | partialOf (p : FinalPath)
  deriving DecidableEq

/-- Where the paths of a run lead once links are resolved: onto the Device, or below the root of the library. -/
structure Layout where
  libraryOnDevice : Bool
  databaseOnDevice : Bool
  fileOnDevice : LibraryFile → Bool
  fileInLibrary : LibraryFile → Bool

/-- A mounted Device: its documents, once they are found valid, its regular files below `recordings`, and how the local
paths lie to it. -/
structure Mount where
  device : DeviceDocument
  manifest : ManifestDocument
  sources : Bytes → Option Bytes
  layout : Layout

/-- The library with its finals and partials, the database, and the Device that is mounted. -/
structure SyncWorld where
  finals : FinalPath → Option Bytes
  partials : FinalPath → Option Bytes
  rows : Bytes → Option Row
  devices : Bytes → Option DeviceRow
  mount : Mount

/-- The calls out of a run: metadata, path checks, the database and the files. -/
inductive SyncOp
  | inspectDevice
  | loadManifest
  | resolveSource (filename : Bytes)
  | rejectRoots
  | rejectTargets (final : FinalPath)
  | initDb
  | connect
  | closeDb
  | upsertDevice (deviceId : Bytes) (row : DeviceRow)
  | selectRecording (recordingId : Bytes)
  | upsertRecording (row : Row)
  | setConflict (recordingId : Bytes)
  | pathExists (file : LibraryFile)
  | readFinal (final : FinalPath)
  | unlink (file : LibraryFile)
  | makeParents (final : FinalPath)
  | createPartial (final : FinalPath)
  | openSource (source : Bytes)
  | readSource (source : Bytes) (position size : ℕ)
  | writePartial (final : FinalPath) (chunk : Bytes)
  | syncPartial (final : FinalPath)
  | closePartial (final : FinalPath)
  | link (final : FinalPath)
  | rename (final : FinalPath)
  deriving DecidableEq

/-- What a call returns where it does not raise; the reader that `openSource` gives is known by the bytes that it has left. -/
abbrev SyncOp.Val : SyncOp → Type
  | inspectDevice => DeviceDocument
  | loadManifest => ManifestDocument
  | resolveSource _ | readFinal _ | readSource _ _ _ => Bytes
  | selectRecording _ => Option Row
  | pathExists _ => Bool
  | openSource _ => ℕ
  | _ => Unit

abbrev SyncOp.Ans (o : SyncOp) : Type := Except SyncExc o.Val

/-- What can go wrong in a call: it raises before or after it has taken effect, it misreads, or it misses a file. -/
inductive SyncFault
  | refuse (e : SyncExc)
  | late (e : SyncExc)
  | misread (b : Bytes)
  | missing

/-- One path of `_reject_recording_target_paths`. -/
def Layout.rejectFile (layout : Layout) (file : LibraryFile) : Except SyncExc Unit :=
  if layout.fileOnDevice file then .error (.validation .targetOnDevice)
  else if !layout.fileInLibrary file then .error (.validation .targetOutsideLibrary)
  else .ok ()

namespace SyncWorld

def file (s : SyncWorld) : LibraryFile → Option Bytes
  | .final p => s.finals p
  | .partialOf p => s.partials p

def setFinal (s : SyncWorld) (p : FinalPath) (b : Option Bytes) : SyncWorld := { s with finals := Function.update s.finals p b }

def setPartial (s : SyncWorld) (p : FinalPath) (b : Option Bytes) : SyncWorld :=
  { s with partials := Function.update s.partials p b }

def setRow (s : SyncWorld) (id : Bytes) (row : Option Row) : SyncWorld := { s with rows := Function.update s.rows id row }

/-- The partial becomes the final, unless there is one; a link leaves the partial where it is. -/
def publish (s : SyncWorld) (p : FinalPath) (keep : Bool) : Except SyncExc Unit × SyncWorld :=
  match s.partials p, s.finals p with
  | none, _ => (.error .fileNotFound, s)
  | some _, some _ => (.error .fileExists, s)
  | some b, none => (.ok (), (s.setFinal p (some b)).setPartial p (if keep then some b else none))

/-- A call that no fault befalls. -/
def effect : (o : SyncOp) → SyncWorld → o.Ans × SyncWorld
  | .inspectDevice, s => (.ok s.mount.device, s)
  | .loadManifest, s => (.ok s.mount.manifest, s)
  | .resolveSource filename, s =>
    (if (s.mount.sources filename).isSome then .ok filename else .error (.validation .filenameContainment), s)
  | .upsertDevice id row, s => (.ok (), { s with devices := Function.update s.devices id (some row) })
  | .selectRecording id, s => (.ok (s.rows id), s)
  | .upsertRecording row, s => (.ok (), s.setRow row.recordingId (some row))
  | .setConflict id, s => (.ok (), s.setRow id ((s.rows id).map fun row => { row with syncStatus := .conflict }))
  | .pathExists file, s => (.ok (s.file file).isSome, s)
  | .readFinal p, s => ((s.finals p).elim (.error .fileNotFound) .ok, s)
  | .unlink (.final p), s => if (s.finals p).isSome then (.ok (), s.setFinal p none) else (.error .fileNotFound, s)
  | .unlink (.partialOf p), s => if (s.partials p).isSome then (.ok (), s.setPartial p none) else (.error .fileNotFound, s)
  | .createPartial p, s => if (s.partials p).isSome then (.error .fileExists, s) else (.ok (), s.setPartial p (some []))
  | .openSource source, s => ((s.mount.sources source).elim (.error .fileNotFound) fun content => .ok content.length, s)
  | .readSource source position size, s => (.ok ((((s.mount.sources source).getD []).drop position).take size), s)
  | .writePartial p chunk, s => (.ok (), s.setPartial p ((s.partials p).map (· ++ chunk)))
  | .link p, s => s.publish p true
  | .rename p, s => s.publish p false
  | .rejectRoots, s =>
    (if s.mount.layout.libraryOnDevice || s.mount.layout.databaseOnDevice then .error (.validation .targetOnDevice) else .ok (), s)
  | .rejectTargets p, s => (s.mount.layout.rejectFile (.final p) >>= fun _ => s.mount.layout.rejectFile (.partialOf p), s)
  | .initDb, s | .connect, s | .closeDb, s | .makeParents _, s | .syncPartial _, s
  | .closePartial _, s => (.ok (), s)

end SyncWorld

/-- A medium that misreads gives as many bytes as it was asked for, or as the file has. -/
def misreadAnswer (b : Bytes) : (o : SyncOp) → o.Ans → o.Ans
  | .readFinal _, r => r.map fun _ => b
  | .readSource _ _ _, r => r.map fun right => (b ++ right).take right.length
  | _, r => r

def missingAnswer : (o : SyncOp) → o.Ans → o.Ans
  | .pathExists _, r => r.map fun _ => false
  | _, r => r

/-- The host: each call under a fault, and what the end of the process leaves of a call. -/
def syncHost : Device SyncOp SyncOp.Ans SyncWorld SyncFault where
  act o f s :=
    match f with
    | none => s.effect o
    | some (.refuse e) => (.error e, s)
    | some (.late e) => (.error e, (s.effect o).2)
    | some (.misread b) => (misreadAnswer b o (s.effect o).1, (s.effect o).2)
    | some .missing => (missingAnswer o (s.effect o).1, (s.effect o).2)
  cut o n s :=
    match o with
    | .writePartial p chunk => (s.effect (.writePartial p (chunk.take n))).2
    | o => if n = 0 then s else (s.effect o).2

end World

section Programs

variable {α : Type}

abbrev SyncM := ExceptT SyncExc (Prog SyncOp SyncOp.Ans)

def sync (o : SyncOp) : SyncM o.Val := ExceptT.mk (Prog.op o)

/-- `try: body except OSError: raise SyncValidationError(...)`, but for the exception that `skip` names. -/
def osErrorAs (reason : SyncReason) (skip : Option SyncExc) (body : SyncM Unit) : SyncM Unit := ExceptT.mk do
  match ← body.run with
  | .ok _ => return .ok ()
  | .error e => return if some e = skip then .ok () else if e.isOsError then .error (.validation reason) else .error e

/-- The pure part of `_resolved_source`: a path of plain parts below `recordings`. -/
def containedFilename (filename : Bytes) : Bool :=
  let rawParts := filename.splitOn slash
  !(filename.contains 0x5c) && 2 ≤ rawParts.length && rawParts.head? = some (lit "recordings") &&
    rawParts.all fun part => part ≠ [] && part ≠ lit "." && part ≠ lit ".."

def resolvedSource (filename : Bytes) : SyncM Bytes := do
  if !containedFilename filename then throw (.validation .filenameContainment) else sync (.resolveSource filename)

def prepare (seen : List Bytes) : List Recording → SyncM (List (Recording × Bytes))
  | [] => return []
  | recording :: recordings => do
    if recording.recordingId ∈ seen then throw (.validation .duplicateIdentity)
    else
      let source ← resolvedSource recording.filename
      let prepared ← prepare (recording.recordingId :: seen) recordings
      return (recording, source) :: prepared

def preflight (device : DeviceDocument) (manifest : ManifestDocument) : SyncM (List (Recording × Bytes)) :=
  if device.deviceId ≠ manifest.deviceId then throw (.validation .identityMismatch) else prepare [] manifest.recordings

def rejectDerivedTargets : List (Recording × Bytes) → SyncM Unit
  | [] => return ()
  | (recording, _) :: prepared => do
    let finalPath ← ExceptT.mk (return targetPath recording)
    sync (.rejectTargets finalPath)
    rejectDerivedTargets prepared

/-- `_hash_file` and the comparison; a file that cannot be read does not match. -/
def fileMatches (final : FinalPath) (expectedSize : ℕ) (expectedSha256 : Bytes) : SyncM Bool := ExceptT.mk do
  match ← (sync (.readFinal final)).run with
  | .ok content => return .ok (content.length = expectedSize && sha256Hex content = expectedSha256)
  | .error e => return if e.isOsError then .ok false else .error e

def openFreshPartial (final : FinalPath) : SyncM Unit := do
  osErrorAs .stalePartial (some .fileNotFound) (sync (.unlink (.partialOf final)))
  osErrorAs .freshPartial none (sync (.createPartial final))

/-- Copy chunk by chunk up to the end of the source; the result is all that has been copied. A reader gives at least one byte
for each that it has left, so that `left + 1` reads come to the end. -/
def copyChunks (final : FinalPath) (source : Bytes) (chunkSize : ℕ) : ℕ → Bytes → SyncM Bytes
  | 0, _ => throw .interrupted
  | fuel + 1, copied => do
    let chunk ← sync (.readSource source copied.length chunkSize)
    if chunk = [] then return copied
    else
      sync (.writePartial final chunk)
      copyChunks final source chunkSize fuel (copied ++ chunk)

/-- Copy into a fresh partial, which is closed in any case, and verify what has been copied. -/
def copyVerifiedStream (final : FinalPath) (source : Bytes) (expectedSize : ℕ) (expectedSha256 : Bytes) (chunkSize left : ℕ) :
    SyncM Unit := do
  sync (.makeParents final)
  openFreshPartial final
  let copied ← ExceptT.mk do
    let r ← (do
      let copied ← copyChunks final source chunkSize (left + 1) []
      sync (.syncPartial final)
      return copied : SyncM Bytes).run
    let closed ← (sync (.closePartial final)).run
    return closed.bind fun _ => r
  if copied.length ≠ expectedSize ∨ sha256Hex copied ≠ expectedSha256 then throw .integrity else return ()

/-- Publish without replacing a final file: a rename on Windows, and a link elsewhere, which is undone if the partial stays. -/
def publishNoClobber (posix : Bool) (final : FinalPath) : SyncM Unit := do
  if !posix then sync (.rename final)
  else
    sync (.link final)
    ExceptT.mk do
      match ← (sync (.unlink (.partialOf final))).run with
      | .ok _ => return .ok ()
      | .error e =>
        let undone ← (sync (.unlink (.final final))).run
        return undone.bind fun _ => .error e

def recordingRow (deviceId : Bytes) (recording : Recording) (finalPath : FinalPath) (status : SyncStatus) : Row where
  recordingId := recording.recordingId
  deviceId := deviceId
  startedAt := recording.startedAt
  durationMs := recording.durationMs
  sourceFilename := recording.filename
  sourceSha256 := recording.sha256
  sizeBytes := recording.sizeBytes
  localPath := finalPath
  syncStatus := status

def writeRecording (deviceId : Bytes) (recording : Recording) (finalPath : FinalPath) (status : SyncStatus) : SyncM Unit :=
  sync (.upsertRecording (recordingRow deviceId recording finalPath status))

def markConflict (deviceId : Bytes) (recording : Recording) (finalPath : FinalPath) (existing : Option Row) : SyncM Unit :=
  match existing with
  | none => writeRecording deviceId recording finalPath .conflict
  | some _ => sync (.setConflict recording.recordingId)

inductive SyncResult
  | copied
  | reused
  | conflict
  deriving DecidableEq

/-- The row is of the same Device, hash and size. -/
def sameIdentity (deviceId : Bytes) (recording : Recording) (existing : Option Row) : Bool :=
  existing.all fun row => row.deviceId = deviceId && row.sourceSha256 = recording.sha256 && row.sizeBytes = recording.sizeBytes

def dropPartial (final : FinalPath) : SyncM Unit := do
  if ← sync (.pathExists (.partialOf final)) then sync (.unlink (.partialOf final)) else return ()

/-- The final file is there before any copy. -/
def reuseFinal (deviceId : Bytes) (recording : Recording) (finalPath : FinalPath) (existing : Option Row) : SyncM SyncResult := do
  if ← fileMatches finalPath recording.sizeBytes recording.sha256 then
    writeRecording deviceId recording finalPath .synced
    dropPartial finalPath
    return .reused
  else
    markConflict deviceId recording finalPath existing
    return .conflict

/-- Another final file came before the publication. -/
def lostPublication (deviceId : Bytes) (recording : Recording) (finalPath : FinalPath) (existing : Option Row) :
    SyncM SyncResult := do
  sync (.rejectTargets finalPath)
  if ← fileMatches finalPath recording.sizeBytes recording.sha256 then
    dropPartial finalPath
    writeRecording deviceId recording finalPath .synced
    return .reused
  else
    dropPartial finalPath
    markConflict deviceId recording finalPath existing
    return .conflict

/-- Copy the source up to the publication. -/
def copySource (recording : Recording) (source : Bytes) (finalPath : FinalPath) : SyncM Unit := do
  sync (.makeParents finalPath)
  sync (.rejectTargets finalPath)
  let left ← sync (.openSource source)
  copyVerifiedStream finalPath source recording.sizeBytes recording.sha256 (1024 * 1024) left
  sync (.rejectTargets finalPath)

def verifyPublished (deviceId : Bytes) (recording : Recording) (finalPath : FinalPath) : SyncM SyncResult := do
  if ← fileMatches finalPath recording.sizeBytes recording.sha256 then
    writeRecording deviceId recording finalPath .synced
    return .copied
  else throw .integrity

def publishRecording (posix : Bool) (deviceId : Bytes) (recording : Recording) (finalPath : FinalPath) (existing : Option Row) :
    SyncM SyncResult := ExceptT.mk do
  match ← (publishNoClobber posix finalPath).run with
  | .ok _ => (verifyPublished deviceId recording finalPath).run
  | .error .fileExists => (lostPublication deviceId recording finalPath existing).run
  | .error e => return .error e

/-- The body of the loop of `sync_device`. -/
def syncRecording (posix : Bool) (deviceId : Bytes) (recording : Recording) (source : Bytes) : SyncM SyncResult := do
  let finalPath ← ExceptT.mk (return targetPath recording)
  sync (.rejectTargets finalPath)
  let existing ← sync (.selectRecording recording.recordingId)
  if !sameIdentity deviceId recording existing then
    markConflict deviceId recording finalPath existing
    return .conflict
  else if ← sync (.pathExists (.final finalPath)) then
    reuseFinal deviceId recording finalPath existing
  else
    copySource recording source finalPath
    publishRecording posix deviceId recording finalPath existing

def countResult (summary : SyncSummary) : SyncResult → SyncSummary
  | .copied => { summary with copied := summary.copied + 1 }
  | .reused => { summary with reused := summary.reused + 1 }
  | .conflict => { summary with conflicts := summary.conflicts + 1 }

def syncRecordings (posix : Bool) (deviceId : Bytes) : SyncSummary → List (Recording × Bytes) → SyncM SyncSummary
  | summary, [] => return summary
  | summary, (recording, source) :: prepared => do
    let result ← syncRecording posix deviceId recording source
    syncRecordings posix deviceId (countResult summary result) prepared

/-- `sync_device`; the connection is closed in any case. -/
def syncDevice (posix : Bool) : SyncM SyncSummary := do
  let device ← sync .inspectDevice
  let manifest ← sync .loadManifest
  let prepared ← preflight device manifest
  sync .rejectRoots
  rejectDerivedTargets prepared
  sync .initDb
  sync .connect
  ExceptT.mk do
    let r ← (do
      sync (.upsertDevice device.deviceId ⟨device.model, device.firmwareVersion, manifest.updatedAt⟩)
      syncRecordings posix device.deviceId ⟨0, 0, 0⟩ prepared : SyncM SyncSummary).run
    let closed ← (sync .closeDb).run
    return closed.bind fun _ => r

end Programs

end M5DayLog.PcSync
