import M5DayLog.Manifest.Fields
import M5DayLog.Lib.Fat

/-! `device.json`: the document that carries the identity of the recorder onto the card. It is written once, where there is
no file yet; a file that is there is only read and compared. -/

namespace M5DayLog

open Bytes Fat Device

section Document

def recorderModel : Bytes := lit "M5Capsule v1.1"
def deviceJsonPath : Path := lit "/sdcard/M5DAYLOG/device.json"

def safeToken (s : Bytes) : Bool := s ≠ [] && s.length ≤ 64 && s.all fun c => c ≠ quote && c ≠ 0x5c && 0x20 ≤ c

/-- The document up to the value of `deviceId`. -/
def deviceJsonHead : Bytes :=
  lit "\x7b\"schemaVersion\":" ++ dec metadataSchemaVersion ++ lit ",\"deviceId\":\""

def deviceJsonTail (model firmwareVersion : Bytes) : Bytes :=
  lit ",\"model\":" ++ quoted model ++ lit ",\"firmwareVersion\":" ++ quoted firmwareVersion ++
  lit ",\"audioCapabilities\":\x7b\"sampleRate\":" ++ dec sampleRateHz ++ lit ",\"bitDepth\":" ++ dec bitsPerSample ++
  lit ",\"channels\":" ++ dec channelCount ++ lit ",\"format\":\"pcm\"\x7d\x7d"

/-- The whole document where it fits into `outSize` bytes with its NUL. -/
def deviceIdentityBuildDeviceJson (deviceId : Bytes) (model version : Option Bytes) (outSize : ℕ) : Option Bytes :=
  let model := model.getD recorderModel
  let version := version.getD firmwareVersion
  if outSize = 0 ∨ !isValidUuid deviceId then none
  else if !safeToken model ∨ !safeToken version then none
  else
    let out := deviceJsonHead ++ (deviceId ++ quote :: deviceJsonTail model version)
    if out.length ≥ outSize then none else some out

end Document

section Ensure

def deviceJsonDocSize : ℕ := 512
def deviceJsonMaxBytes : ℕ := 8192
def deviceJsonLocalSize : ℕ := 2048

def writeAllSynced (path : Path) (doc : Bytes) : Sys Bool := do
  let wrote ← fwrite path 0 doc
  if wrote ≠ doc.length then return false
  else
    let flushed ← fflush path
    if !flushed then return false else fsync path

def writeAndClose (path : Path) (doc : Bytes) : Sys Bool := do
  let ok ← writeAllSynced path doc
  let closed ← fclose path
  return ok && closed

/-- Create the file with the document. -/
def createDeviceJson (path : Path) (doc : Bytes) : Sys Bool := do
  let created ← fopen path .write
  if !created then return false else writeAndClose path doc

/-- `ftell` at the end of the file. -/
def ftellEnd (path : Path) : Sys (Option ℕ) := do
  match ← stat path with
  | .ok st => return some st.size
  | .error _ => return none

/-- Read the file that is there, and compare its identity. Behind the bytes that are read the buffer is zero. -/
def compareDeviceJson (path : Path) (deviceId : Bytes) : Sys Bool := do
  let atEnd ← fseek path 0
  if !atEnd then
    let _ ← fclose path
    return false
  else
    match ← ftellEnd path with
    | none =>
      let _ ← fclose path
      return false
    | some size =>
      if size > deviceJsonMaxBytes then
        let _ ← fclose path
        return false
      else
        let rewound ← fseek path 0
        if !rewound ∨ size > deviceJsonLocalSize then
          let _ ← fclose path
          return false
        else
          let got ← fread path 0 size
          let _ ← fclose path
          if got.data.length ≠ size then return false
          else if deviceIdentityParseSchemaVersion got.data ≠ some metadataSchemaVersion then return false
          else return deviceIdentityParseDeviceId got.data = some deviceId

def deviceIdentityEnsureDeviceJson (path : Path) (deviceId : Bytes) (model version : Option Bytes) : Sys Bool :=
  if path = [] ∨ !isValidUuid deviceId then return false
  else
    match deviceIdentityBuildDeviceJson deviceId model version deviceJsonDocSize with
    | none => return false
    | some doc => do
      let there ← fopen path .read
      if !there then createDeviceJson path doc else compareDeviceJson path deviceId

end Ensure

section Texts

variable {deviceId data x : Bytes}

theorem deviceJsonHead_length : deviceJsonHead.length = 31 := by with_unfolding_all decide

/-- The two keys stand where the head has them, and nowhere before. -/
theorem schemaKey_first : deviceJsonHead = [0x7b] ++ (lit "\"schemaVersion\"" ++ 0x3a :: 0x31 :: 0x2c :: lit "\"deviceId\":\"") ∧
    ∀ i < [(0x7b : UInt8)].length, ¬ lit "\"schemaVersion\"" <+: ([0x7b] ++ lit "\"schemaVersion\"").drop i := by
  with_unfolding_all decide

theorem idKey_first : deviceJsonHead = lit "\x7b\"schemaVersion\":1," ++ (lit "\"deviceId\"" ++ [0x3a, quote]) ∧
    ∀ i < (lit "\x7b\"schemaVersion\":1,").length,
      ¬ lit "\"deviceId\"" <+: (lit "\x7b\"schemaVersion\":1," ++ lit "\"deviceId\"").drop i := by
  with_unfolding_all decide

theorem idKey_text : lit "\"deviceId\"" ≠ [] ∧ Skips colon (lit "\"deviceId\"") ∧ (lit "\"deviceId\"").length = 10 ∧
    (lit "\x7b\"schemaVersion\":1,").length = 19 := by
  with_unfolding_all decide

theorem schemaKey_text : lit "\"schemaVersion\"" ≠ [] ∧ Skips colon (lit "\"schemaVersion\"") := by
  with_unfolding_all decide

theorem parseSchemaVersion_head (x : Bytes) :
    deviceIdentityParseSchemaVersion (deviceJsonHead ++ x) = some metadataSchemaVersion := by
  obtain ⟨hhead, hfirst⟩ := schemaKey_first
  obtain ⟨hne, hcolon⟩ := schemaKey_text
  rw [deviceIdentityParseSchemaVersion, hhead, List.append_assoc, List.append_assoc, memfind_first hne hfirst,
    Option.bind_some, List.cons_append, show (0x3a : UInt8) = colon from rfl, strchr_append hcolon]
  rfl

theorem parseDeviceId_head (hid : isValidUuid deviceId = true) (x : Bytes) :
    deviceIdentityParseDeviceId (deviceJsonHead ++ (deviceId ++ quote :: x)) = some deviceId := by
  obtain ⟨hhead, hfirst⟩ := idKey_first
  obtain ⟨hne, hcolon, -⟩ := idKey_text
  have hlen := uuid_length hid
  rw [deviceIdentityParseDeviceId, hhead, List.append_assoc, List.append_assoc, memfind_first hne hfirst, Option.bind_some,
    List.cons_append, show (0x3a : UInt8) = colon from rfl, strchr_append hcolon]
  have hblank : isBlank quote = false := by decide
  simp only [List.drop_one, List.tail_cons, List.cons_append, List.nil_append, List.dropWhile_cons, hblank,
    Bool.false_eq_true, if_false, ne_eq, not_true_eq_false, false_or]
  rw [if_neg (by rw [List.length_append]; omega), ← hlen, List.drop_left, List.take_left]
  simp [hid]

/-- A torn document that still shows an identity has come past the closing quote of its value. -/
theorem length_of_parseDeviceId (h : deviceIdentityParseDeviceId data = some deviceId) (hdata : data <+: deviceJsonHead ++ x) :
    68 ≤ data.length := by
  obtain ⟨hhead, hfirst⟩ := idKey_first
  obtain ⟨hne, hcolon, hten, hnineteen⟩ := idKey_text
  unfold deviceIdentityParseDeviceId at h
  cases hfind : memfind (lit "\"deviceId\"") data with
  | none =>
    rw [hfind] at h
    cases h
  | some d =>
    obtain ⟨l, y, hl, hd⟩ := memfind_eq_some hfind
    have hkey : lit "\"deviceId\"" <+: (lit "\x7b\"schemaVersion\":1," ++ (lit "\"deviceId\"" ++ ([0x3a, quote] ++ x))).drop
        l.length := by
      have hdrop := hdata.drop l.length
      rw [hl, List.drop_left, hd, hhead, List.append_assoc, List.append_assoc] at hdrop
      exact (List.prefix_append _ _).trans hdrop
    have hle := first_le hfirst hkey
    rw [hfind, Option.bind_some, hd, strchr_skip hcolon] at h
    cases hp : strchr colon y with
    | none =>
      rw [hp] at h
      cases h
    | some p =>
      have hpy := strchr_length_le hp
      rw [hp] at h
      dsimp only at h
      have hblank := (List.dropWhile_suffix (p := isBlank) (l := p.drop 1)).length_le
      rw [List.length_drop] at hblank
      cases hvalue : (p.drop 1).dropWhile isBlank with
      | nil =>
        rw [hvalue] at h
        cases h
      | cons c t =>
        rw [hvalue, List.length_cons] at hblank
        rw [hvalue] at h
        dsimp only at h
        have ht : 36 < t.length := by
          by_contra hshort
          rw [List.drop_of_length_le (Nat.le_of_not_lt hshort)] at h
          simp at h
        rw [hl, hd, List.length_append, List.length_append]
        omega

/-- What a file says of another recorder or of another schema. -/
def Foreign (deviceId data : Bytes) : Prop :=
  (∃ v, deviceIdentityParseSchemaVersion data = some v ∧ v ≠ metadataSchemaVersion) ∨
    ∃ other, deviceIdentityParseDeviceId data = some other ∧ other ≠ deviceId

/-- The file carries the identity. -/
def Carries (deviceId data : Bytes) : Prop :=
  deviceIdentityParseSchemaVersion data = some metadataSchemaVersion ∧ deviceIdentityParseDeviceId data = some deviceId

instance (deviceId data : Bytes) : Decidable (Carries deviceId data) := inferInstanceAs (Decidable (_ ∧ _))

variable {model version : Option Bytes} {outSize : ℕ} {doc : Bytes}

theorem build_eq_some (h : deviceIdentityBuildDeviceJson deviceId model version outSize = some doc) :
    isValidUuid deviceId = true ∧ doc.length < outSize ∧
      doc = deviceJsonHead ++ (deviceId ++ quote :: deviceJsonTail (model.getD recorderModel) (version.getD firmwareVersion)) := by
  unfold deviceIdentityBuildDeviceJson at h
  simp only [Option.ite_none_left_eq_some, not_or, Bool.not_eq_true', Bool.not_eq_false, Option.some.injEq] at h
  obtain ⟨⟨-, hid⟩, -, hlen, rfl⟩ := h
  exact ⟨hid, Nat.lt_of_not_le hlen, rfl⟩

/-- The document of another recorder is foreign. -/
theorem foreign_build {other : Bytes} (h : deviceIdentityBuildDeviceJson other model version outSize = some doc)
    (hne : other ≠ deviceId) : Foreign deviceId doc := by
  obtain ⟨hid, -, rfl⟩ := build_eq_some h
  exact .inr ⟨other, parseDeviceId_head hid _, hne⟩

/-- The recorder's own document always fits. -/
theorem build_production (hid : isValidUuid deviceId = true) :
    deviceIdentityBuildDeviceJson deviceId none none deviceJsonDocSize =
      some (deviceJsonHead ++ (deviceId ++ quote :: deviceJsonTail recorderModel firmwareVersion)) := by
  have htokens : safeToken recorderModel = true ∧ safeToken firmwareVersion = true ∧
      (deviceJsonTail recorderModel firmwareVersion).length = 135 := by
    rw [deviceJsonTail, recorderModel, firmwareVersion]
    repeat rw [lit_ofList]
    decide +kernel
  have hlen := uuid_length hid
  unfold deviceIdentityBuildDeviceJson
  rw [if_neg (by simp [hid, deviceJsonDocSize]), if_neg (by simp [htokens.1, htokens.2.1])]
  simp only [Option.getD_none]
  rw [if_neg]
  rw [List.length_append, List.length_append, List.length_cons, htokens.2.2, deviceJsonHead_length, hlen, deviceJsonDocSize]
  decide

theorem carries_build (h : deviceIdentityBuildDeviceJson deviceId model version outSize = some doc) : Carries deviceId doc := by
  obtain ⟨hid, -, rfl⟩ := build_eq_some h
  exact ⟨parseSchemaVersion_head _, parseDeviceId_head hid _⟩

theorem carries_iff_of_prefix (h : deviceIdentityBuildDeviceJson deviceId model version outSize = some doc)
    (hdata : data <+: doc) : Carries deviceId data ↔ 68 ≤ data.length := by
  obtain ⟨hid, -, rfl⟩ := build_eq_some h
  constructor
  · exact fun h => length_of_parseDeviceId h.2 hdata
  · intro hlen
    have hhead := deviceJsonHead_length
    have hidlen := uuid_length hid
    rw [List.prefix_iff_eq_take] at hdata
    have htake : ∃ y, data = deviceJsonHead ++ (deviceId ++ quote :: y) := by
      refine ⟨(deviceJsonTail (model.getD recorderModel) (version.getD firmwareVersion)).take (data.length - 68), ?_⟩
      conv_lhs => rw [hdata]
      rw [List.take_append, List.take_append, hhead, hidlen, List.take_of_length_le (by omega),
        List.take_of_length_le (by omega), show data.length - 31 - 36 = (data.length - 68) + 1 by omega, List.take_succ_cons]
    obtain ⟨y, rfl⟩ := htake
    exact ⟨parseSchemaVersion_head _, parseDeviceId_head hid _⟩

theorem headPrefix_version : ∀ n < 31, ∀ v, deviceIdentityParseSchemaVersion (deviceJsonHead.take n) = some v →
    v = metadataSchemaVersion := by
  have h : ∀ n < 31, deviceIdentityParseSchemaVersion (deviceJsonHead.take n) ∈ [none, some metadataSchemaVersion] := by
    with_unfolding_all decide
  intro n hn v hv
  have := h n hn
  rw [hv] at this
  simpa using this

/-- A torn document is no other recorder's. -/
theorem not_foreign_of_prefix (h : deviceIdentityBuildDeviceJson deviceId model version outSize = some doc)
    (hdata : data <+: doc) : ¬ Foreign deviceId data := by
  have hcarries := carries_iff_of_prefix h hdata
  obtain ⟨hid, -, rfl⟩ := build_eq_some h
  rintro (⟨v, hv, hne⟩ | ⟨other, hother, hne⟩)
  · rw [List.prefix_iff_eq_take] at hdata
    by_cases hlen : 31 ≤ data.length
    · rw [hdata, List.take_append, deviceJsonHead_length, List.take_of_length_le (by rw [deviceJsonHead_length]; exact hlen),
        parseSchemaVersion_head] at hv
      exact hne (Option.some.inj hv).symm
    · rw [hdata, List.take_append, deviceJsonHead_length, Nat.sub_eq_zero_of_le (by omega), List.take_zero,
        List.append_nil] at hv
      exact hne (headPrefix_version _ (Nat.lt_of_not_le hlen) v hv)
  · have hboth := hcarries.mpr (length_of_parseDeviceId hother hdata)
    rw [hboth.2] at hother
    exact hne (Option.some.inj hother).symm

end Texts

section Runs

variable {A : Fault → Prop} {C : Card → Prop} {path : Path} {c : Card} {deviceId doc data : Bytes} {model version : Option Bytes}

/-- The card, with the first bytes of the document in the file. -/
def Torn (c : Card) (path : Path) (doc : Bytes) (s : Card) : Prop := ∃ n, s = c.put path (.file (doc.take n))

/-- The card as it was, or with a torn document. -/
def Begun (c : Card) (path : Path) (doc : Bytes) (s : Card) : Prop := s = c ∨ Torn c path doc s

theorem wp_writeAllSynced (hC : ∀ s, Torn c path doc s → C s) :
    device.wp A C (writeAllSynced path doc)
      (fun ok s => Torn c path doc s ∧ (¬ IoFault A → ok = true ∧ s = c.put path (.file doc))) (c.put path (.file [])) := by
  have hwrite (n : ℕ) : (c.put path (.file [])).writeAt path 0 doc n = c.put path (.file (doc.take n)) := by
    rw [Card.writeAt_new (by rw [Card.lookup_put, if_pos rfl]), Card.put_put]
  have htorn : Torn c path doc (c.put path (.file doc)) := ⟨doc.length, by rw [List.take_length]⟩
  have hsync : device.wp A C (do
      let flushed ← fflush path
      if !flushed then return false else fsync path)
      (fun ok s => Torn c path doc s ∧ (¬ IoFault A → ok = true ∧ s = c.put path (.file doc))) (c.put path (.file doc)) := by
    rw [wp_bind]
    apply wp_fflush (hC _ htorn)
    · exact wp_fsync (hC _ htorn) ⟨htorn, fun _ => ⟨rfl, rfl⟩⟩ fun hA => ⟨htorn, fun hno => absurd hA hno⟩
    · exact fun hA => ⟨htorn, fun hno => absurd hA hno⟩
  unfold writeAllSynced
  rw [wp_bind]
  apply wp_fwrite
  · exact fun n => hC _ ⟨n, hwrite n⟩
  · rw [hwrite, List.take_length, if_neg (not_not.mpr rfl)]
    exact hsync
  · intro hA n hn
    rw [hwrite]
    split
    case isTrue => exact ⟨⟨n, rfl⟩, fun hno => absurd hA hno⟩
    case isFalse hall =>
      rw [not_not.mp hall, List.take_length]
      exact hsync

theorem wp_writeAndClose (hC : ∀ s, Torn c path doc s → C s) :
    device.wp A C (writeAndClose path doc)
      (fun ok s => Torn c path doc s ∧ (¬ IoFault A → ok = true ∧ s = c.put path (.file doc))) (c.put path (.file [])) := by
  unfold writeAndClose
  rw [wp_bind]
  apply wp_mono _ (wp_writeAllSynced hC)
  rintro ok s ⟨htorn, hok⟩
  rw [wp_bind]
  apply wp_fclose (hC s htorn)
  · refine ⟨htorn, fun hno => ?_⟩
    obtain ⟨rfl, rfl⟩ := hok hno
    exact ⟨rfl, rfl⟩
  · exact fun hA => ⟨htorn, fun hno => absurd hA hno⟩

theorem openAns_write (hnot : c.isDir path = false) (hdir : c.isDir (dirname path) = true) :
    c.openAns path .write = (true, c.put path (.file [])) := by
  unfold Card.openAns
  dsimp only
  rw [hnot, hdir, if_neg (by simp)]

/-- Under whatever faults and wherever power goes, a creation leaves a first part of the document; without a fault, all of
it. -/
theorem wp_createDeviceJson (hnot : c.isDir path = false) (hdir : c.isDir (dirname path) = true)
    (hC : ∀ s, Begun c path doc s → C s) :
    device.wp A C (createDeviceJson path doc)
      (fun ok s => Begun c path doc s ∧ (¬ IoFault A → ok = true ∧ s = c.put path (.file doc))) c := by
  unfold createDeviceJson
  rw [wp_bind]
  apply wp_fopen (hC c (.inl rfl))
  · rw [openAns_write hnot hdir]
    apply wp_mono _ (wp_writeAndClose fun s hs => hC s (.inr hs))
    exact fun ok s h => ⟨.inr h.1, h.2⟩
  · exact fun hA => ⟨.inl rfl, fun hno => absurd hA hno⟩

/-- What a comparison of the file gives: without a fault, whether it carries the identity. -/
def Compared (A : Fault → Prop) (c : Card) (deviceId data : Bytes) (ok : Bool) (s : Card) : Prop :=
  s = c ∧ (¬ IoFault A → data.length ≤ deviceJsonLocalSize → ok = decide (Carries deviceId data))

theorem wp_closeRefused (hC : C c) (hno : ¬ IoFault A → data.length ≤ deviceJsonLocalSize → ¬ Carries deviceId data) :
    device.wp A C (do
      let _ ← fclose path
      return false) (Compared A c deviceId data) c := by
  have hrefused : Compared A c deviceId data false c := ⟨rfl, fun hA hlen => (decide_eq_false (hno hA hlen)).symm⟩
  rw [wp_bind]
  exact wp_fclose hC hrefused fun _ => hrefused

theorem wp_readDeviceJson (hdata : c.file? path = some data) (hC : C c) :
    device.wp A C (do
      let got ← fread path 0 data.length
      let _ ← fclose path
      if got.data.length ≠ data.length then return false
      else if deviceIdentityParseSchemaVersion got.data ≠ some metadataSchemaVersion then return false
      else return deviceIdentityParseDeviceId got.data = some deviceId) (Compared A c deviceId data) c := by
  rw [wp_bind]
  apply wp_fread hC
  · rw [hdata, Option.getD_some, List.drop_zero, List.take_length, wp_bind]
    have hlast : device.wp A C (if data.length ≠ data.length then return false
        else if deviceIdentityParseSchemaVersion data ≠ some metadataSchemaVersion then return false
        else return deviceIdentityParseDeviceId data = some deviceId) (Compared A c deviceId data) c := by
      rw [if_neg (not_not.mpr rfl)]
      split
      case isTrue hversion => exact ⟨rfl, fun _ _ => (decide_eq_false fun h => hversion h.1).symm⟩
      case isFalse hversion =>
        refine ⟨rfl, fun _ _ => ?_⟩
        simp only [Carries, not_not.mp hversion, true_and]
    exact wp_fclose hC hlast fun _ => hlast
  · intro hA k
    rw [wp_bind]
    apply wp_fclose hC
    · split
      case isTrue => exact ⟨rfl, fun hno => absurd hA hno⟩
      case isFalse =>
        split
        case isTrue => exact ⟨rfl, fun hno => absurd hA hno⟩
        case isFalse => exact ⟨rfl, fun hno => absurd hA hno⟩
    · intro _
      split
      case isTrue => exact ⟨rfl, fun hno => absurd hA hno⟩
      case isFalse =>
        split
        case isTrue => exact ⟨rfl, fun hno => absurd hA hno⟩
        case isFalse => exact ⟨rfl, fun hno => absurd hA hno⟩

/-- A file that is there is only read. -/
theorem wp_compareDeviceJson (hdata : c.file? path = some data) (hC : C c) :
    device.wp A C (compareDeviceJson path deviceId) (Compared A c deviceId data) c := by
  have hstat : c.statAns path = .ok ⟨false, data.length⟩ := by
    rw [Card.statAns, Card.file?_eq_some.mp hdata]
  unfold compareDeviceJson
  rw [wp_bind]
  apply wp_fseek hC
  · show device.wp A C (ftellEnd path >>= _) _ _
    rw [wp_bind, ftellEnd, wp_bind]
    apply wp_stat hC
    · rw [hstat]
      show device.wp A C (if data.length > deviceJsonMaxBytes then _ else _) _ _
      split
      case isTrue hlarge =>
        apply wp_closeRefused hC
        intro _ hlen
        rw [deviceJsonLocalSize] at hlen
        rw [deviceJsonMaxBytes] at hlarge
        omega
      case isFalse =>
        rw [wp_bind]
        apply wp_fseek hC
        · show device.wp A C (if !true = true ∨ data.length > deviceJsonLocalSize then _ else _) _ _
          split
          case isTrue hlarge => exact wp_closeRefused hC fun _ hlen => by simp at hlarge; omega
          case isFalse => exact wp_readDeviceJson hdata hC
        · exact fun hA => wp_closeRefused hC fun hno => absurd hA hno
    · exact fun hA _ => wp_closeRefused hC fun hno => absurd hA hno
  · exact fun hA => wp_closeRefused hC fun hno => absurd hA hno

/-- Where the document can be built the call opens the file, and creates or compares it. -/
theorem ensureDeviceJson_eq (hpath : path ≠ [])
    (hdoc : deviceIdentityBuildDeviceJson deviceId model version deviceJsonDocSize = some doc) :
    deviceIdentityEnsureDeviceJson path deviceId model version = (do
      let there ← fopen path .read
      if !there then createDeviceJson path doc else compareDeviceJson path deviceId) := by
  rw [deviceIdentityEnsureDeviceJson, if_neg (by simp [hpath, (build_eq_some hdoc).1]), hdoc]

theorem wp_ensure_missing (hpath : path ≠ [])
    (hdoc : deviceIdentityBuildDeviceJson deviceId model version deviceJsonDocSize = some doc)
    (hmissing : c.vol.lookup path = none) (hdir : c.isDir (dirname path) = true) :
    device.wp A (Begun c path doc) (deviceIdentityEnsureDeviceJson path deviceId model version)
      (fun ok s => Begun c path doc s ∧ (¬ IoFault A → ok = true ∧ s = c.put path (.file doc))) c := by
  have hnot : c.isDir path = false := by simp [Card.isDir, hmissing]
  have hopen : c.openAns path .read = (false, c) := by simp [Card.openAns, Card.file?, hmissing]
  have hcreate : device.wp A (Begun c path doc) (createDeviceJson path doc)
      (fun ok s => Begun c path doc s ∧ (¬ IoFault A → ok = true ∧ s = c.put path (.file doc))) c :=
    wp_createDeviceJson hnot hdir fun _ h => h
  rw [ensureDeviceJson_eq hpath hdoc, wp_bind]
  apply wp_fopen (.inl rfl)
  · rw [hopen]
    exact hcreate
  · exact fun _ => hcreate

theorem wp_ensure_present (hpath : path ≠ [])
    (hdoc : deviceIdentityBuildDeviceJson deviceId model version deviceJsonDocSize = some doc)
    (hdata : c.file? path = some data) :
    device.wp (fun _ => False) (fun _ => True) (deviceIdentityEnsureDeviceJson path deviceId model version)
      (Compared (fun _ => False) c deviceId data) c := by
  have hopen : c.openAns path .read = (true, c) := by simp [Card.openAns, hdata]
  rw [ensureDeviceJson_eq hpath hdoc, wp_bind]
  apply wp_fopen trivial
  · rw [hopen]
    exact wp_compareDeviceJson hdata trivial
  · exact fun hA => hA.elim fun _ h => h.elim fun _ h => h.elim

/-- The next call goes through. -/
def opens : List (Event Fault) → Bool
  | .act (some (.io _ _)) :: _ | .cut _ :: _ => false
  | _ => true

/-- The file is there but cannot be opened to read, and then it is opened to write. -/
def reopens : List (Event Fault) → Bool
  | .act (some (.io _ _)) :: schedule => opens schedule
  | _ => false

theorem state_compareDeviceJson (hdata : c.file? path = some data) (schedule : List (Event Fault)) :
    (device.run (compareDeviceJson path deviceId) schedule c).state = c := by
  have hsat := run_sat (compareDeviceJson path deviceId) schedule
    (wp_mono _ (wp_compareDeviceJson (A := fun _ => True) (C := (· = c)) hdata rfl) fun _ _ h => h.1) fun _ _ _ _ => trivial
  rwa [Outcome.sat_state] at hsat

theorem state_writeAndClose (c : Card) (path : Path) (doc : Bytes) (schedule : List (Event Fault)) :
    Torn c path doc (device.run (writeAndClose path doc) schedule (c.put path (.file []))).state := by
  have hwp : device.wp (fun _ => True) (Torn c path doc) (writeAndClose path doc) (fun _ s => Torn c path doc s)
      (c.put path (.file [])) := wp_mono _ (wp_writeAndClose fun _ h => h) fun _ _ h => h.1
  have hsat := run_sat _ schedule hwp fun _ _ _ _ => trivial
  rwa [Outcome.sat_state] at hsat

/-- A foreign file is left as it is unless it is opened to write. -/
theorem ensure_foreign_iff (hpath : path ≠ [])
    (hdoc : deviceIdentityBuildDeviceJson deviceId model version deviceJsonDocSize = some doc)
    (hdata : c.file? path = some data) (hforeign : Foreign deviceId data) (hdir : c.isDir (dirname path) = true)
    (schedule : List (Event Fault)) :
    (device.run (deviceIdentityEnsureDeviceJson path deviceId model version) schedule c).state.file? path = some data ↔
      reopens schedule = false := by
  have hopen : c.openAns path .read = (true, c) := by simp [Card.openAns, hdata]
  have hlookup := Card.file?_eq_some.mp hdata
  have hnot : c.isDir path = false := by simp [Card.isDir, hlookup]
  have hwrite := openAns_write hnot hdir
  have hcompare (schedule : List (Event Fault)) :
      (device.run (compareDeviceJson path deviceId) schedule c).state.file? path = some data := by
    rw [state_compareDeviceJson hdata, hdata]
  have htorn (schedule : List (Event Fault)) :
      (device.run (writeAndClose path doc) schedule (c.put path (.file []))).state.file? path ≠ some data := by
    obtain ⟨n, hn⟩ := state_writeAndClose c path doc schedule
    rw [hn, Card.file?_put]
    intro hsame
    exact not_foreign_of_prefix hdoc (List.take_prefix n doc) (Option.some.inj hsame ▸ hforeign)
  rw [ensureDeviceJson_eq hpath hdoc]
  rcases schedule with _ | ⟨(_ | ⟨code, n⟩ | ⟨names, error⟩) | n, schedule⟩
  · refine iff_of_true ?_ rfl
    show (device.run (if !(c.openAns path .read).1 then _ else _) [] (c.openAns path .read).2).state.file? path = _
    rw [hopen]
    exact hcompare []
  · refine iff_of_true ?_ rfl
    show (device.run (if !(c.openAns path .read).1 then _ else _) schedule (c.openAns path .read).2).state.file? path = _
    rw [hopen]
    exact hcompare schedule
  · show (device.run (createDeviceJson path doc) schedule c).state.file? path = some data ↔ opens schedule = false
    rcases schedule with _ | ⟨(_ | ⟨code, n⟩ | ⟨names, error⟩) | n, schedule⟩
    · refine iff_of_false ?_ Bool.true_eq_false.mp
      show (device.run (if !(c.openAns path .write).1 then _ else _) [] (c.openAns path .write).2).state.file? path ≠ _
      rw [hwrite]
      exact htorn []
    · refine iff_of_false ?_ Bool.true_eq_false.mp
      show (device.run (if !(c.openAns path .write).1 then _ else _) schedule (c.openAns path .write).2).state.file? path ≠ _
      rw [hwrite]
      exact htorn schedule
    · exact iff_of_true hdata rfl
    · refine iff_of_false ?_ Bool.true_eq_false.mp
      show (device.run (if !(c.openAns path .write).1 then _ else _) schedule (c.openAns path .write).2).state.file? path ≠ _
      rw [hwrite]
      exact htorn schedule
    · exact iff_of_true hdata rfl
  · refine iff_of_true ?_ rfl
    show (device.run (if !(c.openAns path .read).1 then _ else _) schedule (c.openAns path .read).2).state.file? path = _
    rw [hopen]
    exact hcompare schedule
  · exact iff_of_true hdata rfl

/-- A call that meets no fault succeeds on what a creation has left exactly where this shows the identity, or nothing is
there. -/
theorem ensure_begun_iff {model' version' : Option Bytes} {doc' : Bytes} (hpath : path ≠ [])
    (hdoc : deviceIdentityBuildDeviceJson deviceId model version deviceJsonDocSize = some doc)
    (hdoc' : deviceIdentityBuildDeviceJson deviceId model' version' deviceJsonDocSize = some doc')
    (hmissing : c.vol.lookup path = none) (hdir : c.isDir (dirname path) = true) {left : Card} (hleft : Begun c path doc left) :
    ((device.eval (deviceIdentityEnsureDeviceJson path deviceId model' version') left).1 = true ∧
        ∃ data, (device.eval (deviceIdentityEnsureDeviceJson path deviceId model' version') left).2.file? path = some data ∧
          Carries deviceId data) ↔
      ∀ data, left.file? path = some data → 68 ≤ data.length := by
  have hno : ¬ IoFault fun _ => False := fun h => h.elim fun _ h => h.elim fun _ h => h
  rcases hleft with rfl | ⟨n, rfl⟩
  · have hsat := eval_sat _ (wp_ensure_missing (A := fun _ => False) hpath hdoc' hmissing hdir)
    obtain ⟨hok, hstate⟩ := hsat.2 hno
    refine iff_of_true ⟨hok, doc', ?_, carries_build hdoc'⟩ ?_
    · rw [hstate, Card.file?_put]
    · intro data hdata
      rw [Card.file?_eq_some, hmissing] at hdata
      cases hdata
  · have hfile : (c.put path (.file (doc.take n))).file? path = some (doc.take n) := Card.file?_put
    have hcarries := carries_iff_of_prefix hdoc (List.take_prefix n doc)
    have hlen : (doc.take n).length ≤ deviceJsonLocalSize := by
      have := (build_eq_some hdoc).2.1
      rw [deviceJsonDocSize] at this
      rw [List.length_take, deviceJsonLocalSize]
      omega
    obtain ⟨hstate, hok⟩ := eval_sat _ (wp_ensure_present hpath hdoc' hfile)
    rw [hok hno hlen, hstate, hfile, decide_eq_true_iff]
    constructor
    · rintro ⟨h, -⟩ data hdata
      rw [← Option.some.inj hdata]
      exact hcarries.mp h
    · intro h
      have hshown := hcarries.mpr (h _ rfl)
      exact ⟨hshown, _, rfl, hshown⟩

/-- After a first creation that may fail or be cut anywhere, a call that meets no fault succeeds and leaves the identity in the
file exactly when no file has been left or one that has come past the identity. A foreign file stays as it is exactly when it
is not opened to write after it could not be opened to read. -/
theorem ensureDeviceJson_survives_iff (path : Path) (deviceId : Bytes) (model version model' version' : Option Bytes)
    (doc doc' : Bytes) (c : Card) (schedule : List (Event Fault)) (hpath : path ≠ [])
    (hdoc : deviceIdentityBuildDeviceJson deviceId model version deviceJsonDocSize = some doc)
    (hdoc' : deviceIdentityBuildDeviceJson deviceId model' version' deviceJsonDocSize = some doc')
    (hdir : c.isDir (dirname path) = true) :
    let left := (device.run (deviceIdentityEnsureDeviceJson path deviceId model version) schedule c).state
    let later := device.eval (deviceIdentityEnsureDeviceJson path deviceId model' version') left
    (c.vol.lookup path = none →
      ((later.1 = true ∧ ∃ data, later.2.file? path = some data ∧ Carries deviceId data) ↔
        ∀ data, left.file? path = some data → 68 ≤ data.length)) ∧
    ∀ data, c.file? path = some data → Foreign deviceId data →
      (left.file? path = some data ↔ reopens schedule = false) := by
  refine ⟨fun hmissing => ?_, fun data hdata hforeign => ensure_foreign_iff hpath hdoc hdata hforeign hdir schedule⟩
  have hwp : device.wp (fun _ => True) (Begun c path doc) (deviceIdentityEnsureDeviceJson path deviceId model version)
      (fun _ s => Begun c path doc s) c := wp_mono _ (wp_ensure_missing hpath hdoc hmissing hdir) fun _ _ h => h.1
  have hsat := run_sat _ schedule hwp fun _ _ _ _ => trivial
  rw [Outcome.sat_state] at hsat
  exact ensure_begun_iff hpath hdoc hdoc' hmissing hdir hsat

def sampleDeviceId : Bytes := lit "01234567-89ab-4cde-8f01-23456789abcd"

theorem sampleDeviceId_uuid : isValidUuid sampleDeviceId = true := by
  rw [sampleDeviceId, lit_ofList]
  decide +kernel

/-- A card that has only the directory. -/
def freshCard : Card := ⟨[⟨lit "/sdcard/M5DAYLOG", .dir⟩].toAList, false⟩

theorem ensureDeviceJson_survives_torn :
    let left := (device.run (deviceIdentityEnsureDeviceJson deviceJsonPath sampleDeviceId none none)
      [.act none, .act none, .cut 30] freshCard).state
    let later := device.eval (deviceIdentityEnsureDeviceJson deviceJsonPath sampleDeviceId none none) left
    (freshCard.vol.lookup deviceJsonPath = none →
      ((later.1 = true ∧ ∃ data, later.2.file? deviceJsonPath = some data ∧ Carries sampleDeviceId data) ↔
        ∀ data, left.file? deviceJsonPath = some data → 68 ≤ data.length)) ∧
    ∀ data, freshCard.file? deviceJsonPath = some data → Foreign sampleDeviceId data →
      (left.file? deviceJsonPath = some data ↔ reopens [.act none, .act none, .cut 30] = false) :=
  ensureDeviceJson_survives_iff deviceJsonPath sampleDeviceId none none none none _ _ freshCard [.act none, .act none, .cut 30]
    (by with_unfolding_all decide) (build_production sampleDeviceId_uuid) (build_production sampleDeviceId_uuid)
    (by with_unfolding_all decide)

def otherDeviceId : Bytes := lit "fedcba98-7654-4321-8fed-cba987654321"

/-- A card with the file of another recorder. -/
def otherCard : Card :=
  freshCard.put deviceJsonPath
    (.file (deviceJsonHead ++ (otherDeviceId ++ quote :: deviceJsonTail recorderModel firmwareVersion)))

/-- Power goes after thirty bytes of the document, and the next boot refuses the file it finds. The file of another recorder
that cannot be opened to read is written over. -/
theorem ensureDeviceJson_refuses_torn :
    (device.eval (deviceIdentityEnsureDeviceJson deviceJsonPath sampleDeviceId none none)
      (device.run (deviceIdentityEnsureDeviceJson deviceJsonPath sampleDeviceId none none) [.act none, .act none, .cut 30]
        freshCard).state).1 = false ∧
    (device.run (deviceIdentityEnsureDeviceJson deviceJsonPath sampleDeviceId none none) [.act (some (.io 5 0))]
      otherCard).state.file? deviceJsonPath ≠ otherCard.file? deviceJsonPath := by
  rw [deviceIdentityEnsureDeviceJson, build_production sampleDeviceId_uuid, sampleDeviceId_uuid, otherCard, freshCard, deviceJsonHead, deviceJsonTail, recorderModel,
    firmwareVersion, deviceJsonPath, sampleDeviceId, otherDeviceId]
  repeat rw [lit_ofList]
  decide +kernel

end Runs

end M5DayLog
