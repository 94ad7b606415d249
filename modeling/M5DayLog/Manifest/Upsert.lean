import M5DayLog.Lib.Fat
import M5DayLog.Manifest.Compare

/-! The manifest transaction on the card. An append writes the complete new document to a temporary file and
renames it into place, keeping the old document as a backup because FAT never renames over a file; recovery
decides between the three files at boot. -/

namespace M5DayLog

open Bytes Fat

def readFileBounded (path : Path) (maxBytes : ℕ) : Sys (Option Bytes) :=
  if path = [] ∨ maxBytes = 0 then return none
  else do
    match ← stat path with
    | .error _ => return none
    | .ok st =>
      if st.size > maxBytes then return none
      else
        let buf ← malloc (st.size + 1)
        if !buf then return none
        else
          let fp ← fopen path .read
          if !fp then return none
          else
            let got ← fread path 0 st.size
            let closed ← fclose path
            if !closed ∨ got.data.length ≠ st.size then return none else return some got.data

def manifestFileValid (path : Path) (deviceId : Bytes) : Sys Bool := do
  match ← readFileBounded path manifestMaxBytes with
  | none => return false
  | some buf => return manifestSnapshotValid buf deviceId

/-- A new published snapshot may only extend the previous byte-exact entry prefix. -/
def manifestFileExtends (candidate old : Path) (deviceId : Bytes) : Sys Bool := do
  match ← readFileBounded candidate manifestMaxBytes with
  | none => return false
  | some newDoc =>
    match ← readFileBounded old manifestMaxBytes with
    | none => return false
    | some oldDoc =>
      return manifestSnapshotValid newDoc deviceId && manifestSnapshotValid oldDoc deviceId &&
        manifestDocExtends newDoc oldDoc

def manifestBackupPath (manifestPath : Path) : Option Path :=
  let out := manifestPath ++ lit ".bak"
  if out.length < maxPathLen then some out else none

/-- Retire the backup that the preceding append has kept, once the manifest is seen to extend it. -/
def retireBackup (manifestPath backup : Path) (deviceId : Bytes) : Sys Bool := do
  match ← stat backup with
  | .error e => return e = .ENOENT
  | .ok _ =>
    let superset ← manifestFileExtends manifestPath backup deviceId
    if !superset then return false
    else
      match ← remove backup with
      | .ok _ => return true
      | .error _ => return false

/-- Write the whole document to the temporary file, through to the media. -/
def writeTmp (tmpPath : Path) (doc : Bytes) : Sys Bool := do
  let fp ← fopen tmpPath .write
  if !fp then return false
  else
    let wrote ← fwrite tmpPath 0 doc
    let flushed ← if wrote ≠ doc.length then pure false else fflush tmpPath
    let synced ← if !flushed then pure false else fsync tmpPath
    let closed ← fclose tmpPath
    if !synced ∨ !closed then
      let _ ← remove tmpPath
      return false
    else return true

/-- Rename the temporary file into place. Only a known target-exists error starts the two-snapshot protocol. -/
def publishTmp (tmpPath manifestPath backup : Path) (deviceId : Bytes) (hadFinal : Bool) : Sys Bool := do
  match ← rename tmpPath manifestPath with
  | .ok _ => manifestFileValid manifestPath deviceId
  | .error e =>
    if !hadFinal ∨ e ≠ .EEXIST then return false
    else
      match ← rename manifestPath backup with
      | .error _ => return false
      | .ok _ =>
        match ← rename tmpPath manifestPath with
        | .ok _ => manifestFileExtends manifestPath backup deviceId
        | .error _ =>
          match ← stat manifestPath with
          | .error .ENOENT =>
            let _ ← rename backup manifestPath
            return false
          | _ => return false

def writeTmpAndRename (tmpPath manifestPath : Path) (doc : Bytes) : Sys Bool :=
  match deviceIdentityParseDeviceId doc, manifestBackupPath manifestPath with
  | some docDeviceId, some backup =>
    if !manifestSnapshotValid doc docDeviceId then return false
    else do
      let retired ← retireBackup manifestPath backup docDeviceId
      if !retired then return false
      else
        let final ← stat manifestPath
        let hadFinal := final.toOption.isSome
        if !hadFinal ∧ final ≠ .error .ENOENT then return false
        else
          let written ← writeTmp tmpPath doc
          if !written then return false
          else publishTmp tmpPath manifestPath backup docDeviceId hadFinal
  | _, _ => return false

inductive ManifestResult
  | ok
  | conflict
  | error
  deriving DecidableEq

/-- The fields of an entry that the upsert compares. -/
structure EntryKey where
  recordingId : Bytes
  sha256 : Bytes
  filename : Bytes
  startedAt : Bytes
  sizeBytes : ℕ
  durationMs : ℕ

/-- The key fields that an entry must carry. -/
def entryKey (entryJson : Bytes) : Option EntryKey := do
  let recordingId ← jsonStringField entryJson (lit "\"recordingId\"")
  let sha256 ← jsonStringField entryJson (lit "\"sha256\"")
  let filename ← jsonStringField entryJson (lit "\"filename\"")
  let startedAt ← jsonStringField entryJson (lit "\"startedAt\"")
  let size ← manifestEntrySize entryJson
  let duration ← manifestEntryDuration entryJson
  if recordingId ≠ [] ∧ recordingId.length ≤ 64 ∧ sha256.length = 64 ∧ filename ≠ [] ∧ filename.length ≤ 180 ∧
      startedAt.length = 25 ∧ isValidUuid recordingId ∧ isValidSha256Hex sha256 ∧ isValidIso8601Offset startedAt ∧
      validFilename filename ∧ wavHeaderSize ≤ size ∧ (size - wavHeaderSize) % blockAlign = 0 ∧
      duration = deviceManifestDurationMs (size - wavHeaderSize)
  then some ⟨recordingId, sha256, filename, startedAt, size, duration⟩ else none

/-- Whether the stored entry of a scope is the same recording; `none` when a field is missing. -/
def storedMatches (scope : Bytes) (key : EntryKey) : Option Bool := do
  let sha256 ← jsonStringField scope (lit "\"sha256\"")
  let filename ← jsonStringField scope (lit "\"filename\"")
  let startedAt ← jsonStringField scope (lit "\"startedAt\"")
  let size ← manifestEntrySize scope
  let duration ← manifestEntryDuration scope
  if sha256.length ≠ 64 ∨ filename = [] ∨ filename.length ≥ 192 ∨ startedAt.length ≠ 25 then none
  else some (sha256 = key.sha256 && filename = key.filename && size = key.sizeBytes && duration = key.durationMs &&
    manifestStartTimesCompatible startedAt key.startedAt)

section Pure

variable {e : Entry}

def Entry.key (e : Entry) : EntryKey :=
  ⟨e.recordingId, e.sha256, e.filename, e.startedAt, e.sizeBytes, e.durationMs⟩

/-- The stored entry is the recording that the key names. -/
def Entry.matchesKey (e : Entry) (key : EntryKey) : Bool :=
  e.sha256 = key.sha256 && e.filename = key.filename && e.sizeBytes = key.sizeBytes &&
  e.durationMs = key.durationMs && manifestStartTimesCompatible e.startedAt key.startedAt

/-- The text of an entry as its words. -/
theorem Entry.render_words (e : Entry) :
    e.render = spell (e.coreWords (lit "\x7b") ++ e.restWords) (lit "\x7d") := by
  have h := e.spell_words [] []
  simp only [List.append_nil, List.nil_append] at h
  exact h.symm

theorem Entry.rest_trailing (he : e.Built) : Trailing e.restWords (lit "\x7d") :=
  ⟨fun t ht => words_plain (by decide : isGap [] = true) he t (List.mem_append_right _ ht),
    by with_unfolding_all decide⟩

/-- A built entry carries its key, and is refused exactly when its numbers do not agree. -/
theorem entryKey_render (he : e.Built) : entryKey e.render = if e.Consistent then some e.key else none := by
  have hg : isGap (lit "\x7b") = true := by with_unfolding_all decide
  have ht := Entry.rest_trailing he
  have hid := uuid_length he.recordingId
  have hsha := sha256Hex_length he.sha256
  have hstart := iso8601_length he.startedAt
  have hname := filename_length he.filename
  have hid0 : e.recordingId ≠ [] := by
    intro h
    simp [h] at hid
  have hname0 : e.filename ≠ [] := by
    intro h
    simp [h] at hname
  unfold entryKey
  rw [e.render_words, e.field_recordingId he hg ht, e.field_sha256 he hg ht, e.field_filename he hg ht,
    e.field_startedAt he hg ht, e.field_sizeBytes he hg ht, e.field_durationMs he hg ht]
  simp only [Option.bind_eq_bind, Option.bind_some]
  refine if_congr ?_ rfl rfl
  simp only [Entry.Consistent, he.recordingId, he.sha256, he.startedAt, he.filename, he.header, hid0, hname0, hid, hsha,
    hstart, hname, ne_eq, not_false_eq_true, true_and, Nat.reduceLeDiff]

/-- Reading the stored fields of an entry's scope compares that entry with the key. -/
theorem storedMatches_spell (he : e.Built) {more : List (Bytes × Bytes)} {tail : Bytes} (ht : Trailing more tail)
    (key : EntryKey) : storedMatches (spell (e.coreWords [] ++ more) tail) key = some (e.matchesKey key) := by
  have hg : isGap [] = true := by decide
  have hsha := sha256Hex_length he.sha256
  have hstart := iso8601_length he.startedAt
  have hname := filename_length he.filename
  have hname0 : e.filename ≠ [] := by
    intro h
    simp [h] at hname
  unfold storedMatches
  rw [e.field_sha256 he hg ht, e.field_filename he hg ht, e.field_startedAt he hg ht, e.field_sizeBytes he hg ht,
    e.field_durationMs he hg ht]
  simp only [Option.bind_eq_bind, Option.bind_some]
  rw [if_neg]
  · rfl
  · simp only [hsha, hstart, hname0, ne_eq, not_true_eq_false, false_or, or_false]
    omega

end Pure

/-- No manifest yet: only `ENOENT` creates one, with this single entry. -/
def upsertMissing (manifestPath tmpPath : Path) (deviceId updatedAt entryJson : Bytes) : Sys ManifestResult := do
  match ← stat manifestPath with
  | .ok _ => return .error
  | .error e =>
    let fresh := header deviceId updatedAt ++ (entryJson ++ lit "]\x7d")
    if e ≠ .ENOENT ∨ fresh.length ≥ manifestMaxBytes then return .error
    else
      let buf ← malloc (fresh.length + 1)
      if !buf then return .error
      else
        let ok ← writeTmpAndRename tmpPath manifestPath fresh
        return if ok then .ok else .error

/-- The id is present: the same recording is an idempotent retry, anything else a conflict. -/
def upsertPresent (hit : Bytes) (key : EntryKey) : Sys ManifestResult := do
  let scope := storedScope hit
  let buf ← malloc (scope.length + 1)
  if !buf then return .error
  else
    match storedMatches scope key with
    | none => return .error
    | some true => return .ok
    | some false => return .conflict

def upsertAppend (manifestPath tmpPath : Path) (doc updatedAt entryJson : Bytes) : Sys ManifestResult :=
  match appendEntry doc updatedAt entryJson with
  | none => return .error
  | some fresh => do
    let buf ← malloc (fresh.length + 1)
    if !buf then return .error
    else
      let ok ← writeTmpAndRename tmpPath manifestPath fresh
      return if ok then .ok else .error

def deviceManifestUpsertFile (manifestPath tmpPath : Path) (deviceId updatedAt entryJson : Bytes) :
    Sys ManifestResult :=
  if manifestPath = [] ∨ tmpPath = [] ∨ !isValidUuid deviceId ∨ !isValidIso8601Offset updatedAt ∨ entryJson = [] ∨
      entryJson.length > manifestEntryMax then return .error
  else
    match entryKey entryJson with
    | none => return .error
    | some key => do
      match ← readFileBounded manifestPath manifestMaxBytes with
      | none => upsertMissing manifestPath tmpPath deviceId updatedAt entryJson
      | some doc =>
        if !manifestSnapshotValid doc deviceId then return .error
        else if deviceIdentityParseSchemaVersion doc ≠ some metadataSchemaVersion then return .error
        else if deviceIdentityParseDeviceId doc ≠ some deviceId then return .error
        else
          match memfind (duplicateNeedle key.recordingId) doc with
          | some hit => upsertPresent hit key
          | none => upsertAppend manifestPath tmpPath doc updatedAt entryJson

/-- `ENOENT` alone proves absence; `none` when the probe is uncertain. -/
def manifestArtifactExists (path : Path) : Sys (Option Bool) := do
  match ← stat path with
  | .ok _ => return some true
  | .error .ENOENT => return some false
  | .error _ => return none

/-- Settle the backup: restore it when the manifest is gone, retire it when the manifest extends it. The
result says whether a manifest is now in place. -/
def recoverBackup (manifestPath backup : Path) (deviceId : Bytes) (finalExists : Bool) : Sys (Option Bool) := do
  let valid ← manifestFileValid backup deviceId
  if !valid then return none
  else if !finalExists then
    match ← rename backup manifestPath with
    | .ok _ => return some true
    | .error _ => return none
  else
    let superset ← manifestFileExtends manifestPath backup deviceId
    if !superset then return none
    else
      match ← remove backup with
      | .ok _ => return some true
      | .error _ => return none

/-- The manifest is authoritative; a temporary file of an interrupted append is dropped. -/
def recoverFinal (manifestPath tmpPath : Path) (deviceId : Bytes) (tmpExists : Bool) : Sys Bool := do
  let valid ← manifestFileValid manifestPath deviceId
  if !valid then return false
  else if !tmpExists then return true
  else
    match ← remove tmpPath with
    | .ok _ => return true
    | .error _ => return false

/-- First creation: only a complete canonical temporary file may be promoted. -/
def recoverFirst (manifestPath tmpPath : Path) (deviceId : Bytes) (tmpExists : Bool) : Sys Bool :=
  if !tmpExists then return false
  else do
    let valid ← manifestFileValid tmpPath deviceId
    if !valid then return false
    else
      match ← rename tmpPath manifestPath with
      | .ok _ => manifestFileValid manifestPath deviceId
      | .error _ => return false

def deviceManifestRecoverTmp (manifestPath tmpPath : Path) (deviceId : Bytes) : Sys Bool :=
  match manifestBackupPath manifestPath with
  | none => return false
  | some backup =>
    if !isValidUuid deviceId then return false
    else do
      match ← manifestArtifactExists manifestPath with
      | none => return false
      | some finalExists =>
        match ← manifestArtifactExists tmpPath with
        | none => return false
        | some tmpExists =>
          match ← manifestArtifactExists backup with
          | none => return false
          | some backupExists =>
            let final ← if backupExists then recoverBackup manifestPath backup deviceId finalExists
              else pure (some finalExists)
            match final with
            | none => return false
            | some true => recoverFinal manifestPath tmpPath deviceId tmpExists
            | some false => recoverFirst manifestPath tmpPath deviceId tmpExists

end M5DayLog
