import M5DayLog.Manifest.Journal
import M5DayLog.Wav.Hash

/-! The boot scan that reconciles the manifest with the recordings tree. Every admitted file is hashed and upserted,
and the converse, that every entry has a file, is read off two counts. -/

namespace M5DayLog

open Bytes Fat

inductive ScanError
  | ok
  | invalidInput
  | directoryError
  | wavUnreadable
  | indexConflict
  | indexWriteError
  | missingWav
  deriving DecidableEq

section Names

def audienceWavName (name : Bytes) : Bool :=
  5 ≤ name.length && decide (lit ".wav" <:+ name) && !decide (lit ".wav.part" <:+ name)

/-- The `HHMMSS` of `HHMMSS_…`. -/
def splitWavName (base : Bytes) : Option Bytes :=
  if base.length < 11 ∨ !(base.take 6).all isDigit ∨ at' base 6 ≠ underscore then none else some (base.take 6)

def dateDirHasShape (name : Bytes) : Bool :=
  name.length = 10 && at' name 4 = dash && at' name 7 = dash &&
  (List.range 10).all fun i => i = 4 || i = 7 || isDigit (at' name i)

def validDateDir (name : Bytes) : Bool :=
  dateDirHasShape name && validCalendarDate (fourDigits name 0) (twoDigits name 5) (twoDigits name 8)

/-- `YYYY-MM-DDTHH:MM:SS+00:00` from the date directory and the `HHMMSS` prefix. -/
def scanStartedAt (date time : Bytes) : Bytes :=
  date.take 4 ++ lit "-" ++ (date.drop 5).take 2 ++ lit "-" ++ (date.drop 8).take 2 ++ lit "T" ++ time.take 2 ++ lit ":" ++
  (time.drop 2).take 2 ++ lit ":" ++ (time.drop 4).take 2 ++ lit "+00:00"

/-- The id and start stamp of an admitted name; a name without them is no recording of this device. -/
def wavIdentity (dateDir : Option Bytes) (base : Bytes) : Option (Bytes × Bytes) := do
  let id ← deviceManifestExtractRecordingId base 65
  let date ← dateDir
  let time ← splitWavName base
  let started := scanStartedAt date time
  if isValidUuid id ∧ validDateDir date ∧ isValidIso8601Offset started then some (id, started) else none

end Names

structure SyncArgs where
  recordingsDir : Path
  manifestPath : Path
  tmpPath : Path
  deviceId : Bytes
  updatedAt : Bytes
  state : Bytes

/-- The running counters of a scan. -/
structure Scan where
  indexed : ℕ
  skipped : ℕ
  error : ScanError

/-- What the scan returns, with its two outputs and the state it leaves for its caller. -/
structure SyncResult where
  ok : Bool
  added : ℕ
  skipped : ℕ
  indexed : ℕ
  error : ScanError

def SyncResult.fail (error : ScanError) (skipped : ℕ) : SyncResult := ⟨false, 0, skipped, 0, error⟩

/-- Count the ids of a valid manifest. -/
def manifestRecordingCount (path : Path) (deviceId : Bytes) : Sys (Option ℕ) := do
  match ← readFileBounded path manifestMaxBytes with
  | none => return none
  | some doc => if manifestSnapshotValid doc deviceId then return some (countRecordingIds (doc.length + 1) doc) else return none

section Programs

variable (a : SyncArgs)

/-- Ensure that one file has its entry. A name without an identity is skipped; any other failure is fatal. -/
def ensureOneWav (wavPath relFilename : Path) (dateDir : Option Bytes) (base : Bytes) (scan : Scan) : Sys (Bool × Scan) :=
  match wavIdentity dateDir base with
  | none => return (true, { scan with skipped := scan.skipped + 1 })
  | some (recId, started) => do
    match ← deviceManifestHashWavFile wavPath with
    | none => return (false, { scan with error := .wavUnreadable, skipped := scan.skipped + 1 })
    | some (sha, sizeBytes) =>
      let pcmBytes := sizeBytes - wavHeaderSize
      let duration := deviceManifestDurationMs (pcmBytes - pcmBytes % bytesPerSample)
      let buf ← malloc manifestEntryMax
      if !buf then return (false, { scan with error := .indexWriteError, skipped := scan.skipped + 1 })
      else
        match deviceManifestBuildEntry recId relFilename started duration.toUInt32 sizeBytes.toUInt32 sha sampleRateHz
            bitsPerSample channelCount a.state none manifestEntryMax with
        | none => return (false, { scan with error := .indexWriteError, skipped := scan.skipped + 1 })
        | some entry =>
          match ← deviceManifestUpsertFile a.manifestPath a.tmpPath a.deviceId a.updatedAt entry with
          | .ok => return (true, { scan with indexed := scan.indexed + 1 })
          | .conflict => return (false, { scan with error := .indexConflict, skipped := scan.skipped + 1 })
          | .error => return (false, { scan with error := .indexWriteError, skipped := scan.skipped + 1 })

/-- The path of a file relative to the manifest, as entries name it. -/
def relativeName (date name : Bytes) : Bytes := lit "recordings/" ++ date ++ slash :: name

/-- The files of one date directory. -/
def scanWavs (date : Bytes) : List Bytes → Scan → Sys (Except SyncResult Scan)
  | [], scan => return .ok scan
  | name :: names, scan =>
    if isDot name ∨ !audienceWavName name then scanWavs date names scan
    else
      let wav := join (join a.recordingsDir date) name
      let rel := relativeName date name
      if wav.length ≥ maxPathLen ∨ rel.length ≥ 192 then return .error (.fail .directoryError 0)
      else do
        let r ← ensureOneWav a wav rel (some date) name scan
        if r.1 then scanWavs date names r.2 else return .error (.fail r.2.error r.2.skipped)

def scanDateDir (date : Bytes) (scan : Scan) : Sys (Except SyncResult Scan) := do
  let child := join a.recordingsDir date
  match ← opendir child with
  | none => return .error (.fail .directoryError 0)
  | some sub =>
    match ← scanWavs a date sub.names scan with
    | .error r =>
      let _ ← closedir child
      return .error r
    | .ok scan =>
      let closed ← closedir child
      if sub.error ∨ !closed then return .error (.fail .directoryError 0) else return .ok scan

/-- The children of the recordings directory. A name shaped like a date must be a directory of a real date. -/
def scanTree : List Bytes → Scan → Sys (Except SyncResult Scan)
  | [], scan => return .ok scan
  | name :: names, scan =>
    if isDot name then scanTree names scan
    else
      let child := join a.recordingsDir name
      if child.length ≥ maxPathLen then return .error (.fail .directoryError 0)
      else do
        match ← stat child with
        | .error _ => return .error (.fail .directoryError 0)
        | .ok st =>
          if dateDirHasShape name ∧ (!validDateDir name ∨ !st.isDir) then return .error (.fail .directoryError 0)
          else if st.isDir then
            if !validDateDir name then scanTree names scan
            else
              match ← scanDateDir a name scan with
              | .error r => return .error r
              | .ok scan => scanTree names scan
          else
            scanTree names (if audienceWavName name then { scan with skipped := scan.skipped + 1 } else scan)

def deviceManifestSyncWavDir : Sys SyncResult :=
  if a.recordingsDir = [] ∨ a.manifestPath = [] ∨ a.tmpPath = [] ∨ !isValidUuid a.deviceId ∨
      !isValidIso8601Offset a.updatedAt ∨ (a.state ≠ stateFinalized ∧ a.state ≠ stateRecovered) then
    return .fail .invalidInput 0
  else do
    match ← manifestRecordingCount a.manifestPath a.deviceId with
    | none => return .fail .indexWriteError 0
    | some beforeCount =>
      match ← opendir a.recordingsDir with
      | none => return .fail .directoryError 0
      | some dir =>
        match ← scanTree a dir.names ⟨0, 0, .ok⟩ with
        | .error r =>
          let _ ← closedir a.recordingsDir
          return r
        | .ok scan =>
          let closed ← closedir a.recordingsDir
          if dir.error ∨ !closed then return .fail .directoryError 0
          else
            match ← manifestRecordingCount a.manifestPath a.deviceId with
            | none => return .fail .indexWriteError 0
            | some afterCount =>
              if afterCount ≠ scan.indexed ∨ afterCount < beforeCount then return .fail .missingWav scan.skipped
              else return ⟨true, afterCount - beforeCount, scan.skipped, scan.indexed, .ok⟩

end Programs

end M5DayLog
