import M5DayLog.Wav.Fate

/-! The boot scan for parts: every `.wav.part` in the recordings directory and in its subdirectories is recovered or moved to
quarantine, with a line in the events log for each. The names of a directory are those it has when it is opened; a part that
is renamed does not come up again, because its new name is no part of this directory. -/

namespace M5DayLog

open Bytes Fat Device

/-- The counts of one scan. -/
structure RecoveryStats where
  scanned : ℕ
  recovered : ℕ
  quarantined : ℕ
  errors : ℕ
  recoveredPcmBytes : UInt32
  quarantinedFiles : ℕ
  deriving DecidableEq

def RecoveryStats.zero : RecoveryStats := ⟨0, 0, 0, 0, 0, 0⟩

section Events

/-- The bytes of a name that may stand in an event. -/
def eventNameChar (c : UInt8) : Bool :=
  (0x41 ≤ c && c ≤ 0x5a) || (0x61 ≤ c && c ≤ 0x7a) || isDigit c || c = 0x2e || c = underscore || c = dash

/-- The base name of a part, with any other byte replaced. -/
def eventFileName (part : Path) : Bytes :=
  ((basenameLocal part).take 128).map fun c => if eventNameChar c then c else underscore

def fileEventLine (part : Path) (result : Bytes) (pcmBytes : ℕ) : Bytes :=
  lit "\x7b\"event\":\"recovery_file\",\"file\":\"" ++ eventFileName part ++ lit "\",\"result\":\"" ++ result ++
  lit "\",\"pcm_bytes\":" ++ dec pcmBytes ++ lit "\x7d\n"

def summaryEventLine (stats : RecoveryStats) : Bytes :=
  lit "\x7b\"event\":\"recovery\",\"scanned\":" ++ dec stats.scanned ++ lit ",\"recovered\":" ++ dec stats.recovered ++
  lit ",\"quarantined\":" ++ dec stats.quarantined ++ lit ",\"errors\":" ++ dec stats.errors ++
  lit ",\"recovered_pcm_bytes\":" ++ dec stats.recoveredPcmBytes.toNat ++ lit "\x7d\n"

/-- Append one line to the log. Only a failing open, flush or close is reported. -/
def appendEventLine (events : Path) (line : Bytes) : Sys Bool :=
  if events = [] then return false
  else do
    let fp ← fopen events .append
    if !fp then return false
    else
      let _ ← fappend events line
      let flushed ← fflush events
      if !flushed then closeFailed events
      else
        let _ ← fsync events
        fclose events

def appendFileEvent (events part : Path) (result : Bytes) (pcmBytes : ℕ) : Sys Bool :=
  appendEventLine events (fileEventLine part result pcmBytes)

def wavRecoveryAppendSummaryEvent (events : Path) (stats : RecoveryStats) : Sys Bool :=
  appendEventLine events (summaryEventLine stats)

/-- A log that is not wanted gets no line, and a line that fails stops nothing. -/
def noteEvent (events : Option Path) (append : Path → Sys Bool) : Sys Unit :=
  match events with
  | none => return ()
  | some path => do
    let _ ← append path
    return ()

end Events

section Programs

variable (quarantineDir : Path) (events : Option Path)

/-- The counts after a part has been dealt with. -/
def RecoveryStats.count (stats : RecoveryStats) : RecoveryOutcome × ℕ → RecoveryStats
  | (.recovered, pcm) => { stats with
      scanned := stats.scanned + 1
      recovered := stats.recovered + 1
      recoveredPcmBytes := stats.recoveredPcmBytes + pcm.toUInt32 }
  | (.quarantined, _) => { stats with
      scanned := stats.scanned + 1
      quarantined := stats.quarantined + 1
      quarantinedFiles := stats.quarantinedFiles + 1 }
  | (.error, _) => { stats with scanned := stats.scanned + 1, errors := stats.errors + 1 }

def outcomeText : RecoveryOutcome → Bytes
  | .recovered => lit "recovered"
  | .quarantined => lit "quarantined"
  | .error => lit "error"

/-- The size that an event names. -/
def eventPcmBytes : RecoveryOutcome × ℕ → ℕ
  | (.recovered, pcm) => pcm
  | _ => 0

def handleOnePart (part : Path) (stats : RecoveryStats) : Sys RecoveryStats :=
  match wavRotationPartToWav part maxPathLen with
  | none => return stats.count (.error, 0)
  | some wav => do
    let r ← wavRecoveryRecoverFile part wav quarantineDir
    noteEvent events fun path => appendFileEvent path part (outcomeText r.1) (eventPcmBytes r)
    return stats.count r

/-- The entries of a subdirectory. -/
def scanParts (dir : Path) : List Bytes → RecoveryStats → Sys RecoveryStats
  | [], stats => return stats
  | name :: names, stats =>
    if isDot name then scanParts dir names stats
    else
      let part := join dir name
      if part.length ≥ maxPathLen then scanParts dir names { stats with errors := stats.errors + 1 }
      else if !hasPartSuffix part then scanParts dir names stats
      else do
        let isDir ← pathIsDirLocal part
        if !isDir then
          let stats ← handleOnePart quarantineDir events part stats
          scanParts dir names stats
        else scanParts dir names stats

def scanSubdir (dir : Path) (stats : RecoveryStats) : Sys RecoveryStats := do
  match ← opendir dir with
  | none => return { stats with errors := stats.errors + 1 }
  | some sub =>
    let stats ← scanParts quarantineDir events dir sub.names stats
    let _ ← closedir dir
    return stats

/-- The entries of the recordings directory. -/
def scanRecordings (recordings : Path) : List Bytes → RecoveryStats → Sys RecoveryStats
  | [], stats => return stats
  | name :: names, stats =>
    if isDot name then scanRecordings recordings names stats
    else
      let child := join recordings name
      if child.length ≥ maxPathLen then scanRecordings recordings names { stats with errors := stats.errors + 1 }
      else do
        let isDir ← pathIsDirLocal child
        if isDir then
          let stats ← scanSubdir quarantineDir events child stats
          scanRecordings recordings names stats
        else if !hasPartSuffix child then scanRecordings recordings names stats
        else
          let stats ← handleOnePart quarantineDir events child stats
          scanRecordings recordings names stats

/-- Whether the directory was walked, and the counts. -/
def wavRecoveryScanRecordings (recordings : Path) : Sys (Bool × RecoveryStats) :=
  if recordings = [] ∨ quarantineDir = [] then return (false, .zero)
  else do
    let ready ← wavRecoveryEnsureDir quarantineDir
    if !ready then return (false, .zero)
    else
      match ← opendir recordings with
      | none => return (false, .zero)
      | some dir =>
        let stats ← scanRecordings quarantineDir events recordings dir.names .zero
        let _ ← closedir recordings
        noteEvent events fun path => wavRecoveryAppendSummaryEvent path stats
        return (true, stats)

end Programs

end M5DayLog
