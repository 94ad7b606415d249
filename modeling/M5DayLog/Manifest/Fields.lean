import M5DayLog.Manifest.Snapshot

/-! Field lookup by key. The firmware reads single fields of a document or an entry by searching for the quoted
key; on canonical text each lookup finds the field it names. -/

namespace M5DayLog

open Bytes

def isBlank (c : UInt8) : Bool := c = 0x20 || c = 0x09

/-- The value of a string up to its closing quote; an escape is refused. -/
def scanString : Bytes → Option Bytes
  | [] => none
  | c :: t => if c = quote then some [] else if c = backslash then none else (scanString t).map (c :: ·)

/-- `"key":"<value>"`, the value without its quotes. -/
def jsonStringField (doc key : Bytes) : Option Bytes :=
  match (memfind key doc).bind (strchr colon) with
  | none => none
  | some p =>
    match (p.drop 1).dropWhile isBlank with
    | [] => none
    | c :: t => if c = quote then scanString t else none

/-- A number that is followed by a comma or a closing brace. -/
def manifestEntryNumber (key doc : Bytes) : Option ℕ :=
  match memfind key doc with
  | none => none
  | some p =>
    match manifestUint32 (p.drop key.length) with
    | some (value, c :: _) => if c = 0x2c ∨ c = 0x7d then some value else none
    | _ => none

def manifestEntrySize (doc : Bytes) : Option ℕ := manifestEntryNumber (lit "\"sizeBytes\":") doc

def manifestEntryDuration (doc : Bytes) : Option ℕ := manifestEntryNumber (lit "\"durationMs\":") doc

/-- The digits read into a version number, given up above a million. -/
def versionDigits (value : ℕ) (any : Bool) : Bytes → Option ℕ
  | [] => if any then some value else none
  | c :: t =>
    if isDigit c then
      let value := value * 10 + (c.toNat - 0x30)
      if value > 1000000 then none else versionDigits value true t
    else if any then some value else none

def deviceIdentityParseSchemaVersion (json : Bytes) : Option ℕ :=
  match (memfind (lit "\"schemaVersion\"") json).bind (strchr colon) with
  | none => none
  | some p => versionDigits 0 false ((p.drop 1).dropWhile isBlank)

def deviceIdentityParseDeviceId (json : Bytes) : Option Bytes :=
  match (memfind (lit "\"deviceId\"") json).bind (strchr colon) with
  | none => none
  | some p =>
    match (p.drop 1).dropWhile isBlank with
    | [] => none
    | c :: t =>
      if c ≠ quote ∨ t.length < 36 then none
      else if (t.drop 36).head? ≠ some quote then none
      else if isValidUuid (t.take 36) then some (t.take 36) else none

def isSpace (c : UInt8) : Bool := c = 0x0a || c = 0x0d || isBlank c

/-- From the last `]` before the trailing `}`; blanks and newlines may follow. -/
def arrayClose (doc : Bytes) : Option Bytes :=
  let r := doc.reverse.dropWhile isSpace
  if r.head? = some 0x7d ∧ (r.drop 1).head? = some 0x5d then some (doc.drop (r.length - 2)) else none

/-- The document with `updatedAt` replaced in place and the entry inserted before the end of its array. -/
def appendEntry (doc updatedAt entryJson : Bytes) : Option Bytes := do
  let updKey ← memfind (lit "\"updatedAt\"") doc
  let arrKey ← memfind (lit "\"recordings\"") doc
  let updColon ← strchr colon updKey
  let tsOpen ← strchr quote updColon
  let tsQ0 := tsOpen.tail
  let tsQ1 ← strchr quote tsQ0
  let arrOpen ← strchr 0x5b arrKey
  let arrClose ← arrayClose doc
  let arrEmpty := (arrOpen.tail.take (arrOpen.length - 1 - arrClose.length)).all isSpace
  let freshLen := doc.length - (tsQ0.length - tsQ1.length) + updatedAt.length +
    (entryJson.length + if arrEmpty then 0 else 1)
  let fresh := doc.take (doc.length - tsQ0.length) ++ updatedAt ++ tsQ1.take (tsQ1.length - arrClose.length) ++
    (if arrEmpty then [] else lit ",") ++ entryJson ++ arrClose
  if tsQ0.length ≤ tsQ1.length ∨ ¬ arrOpen.length < tsQ1.length ∨ arrOpen.length ≤ arrClose.length ∨
    updatedAt.length ≠ 25 ∨ freshLen > manifestAdmissionCeilingBytes ∨ fresh.length ≠ freshLen
  then none else some fresh

section Search

variable {w : Bytes} {ts more : List (Bytes × Bytes)} {tail x : Bytes}

theorem strchr_append {c : UInt8} {l : Bytes} (hl : Skips c l) (x : Bytes) :
    strchr c (l ++ c :: x) = some (c :: x) := by
  rw [strchr_skip hl, strchr, if_pos rfl]

theorem strchr_quote_colon (x : Bytes) : strchr quote (colon :: quote :: x) = some (quote :: x) := by
  simp [strchr, colon, quote]

/-- Behind a quoted key the first colon is the one after it. -/
theorem strchr_key (hw : Skips colon w) (x : Bytes) :
    strchr colon (quote :: (w ++ quote :: (lit ":" ++ x))) = some (colon :: x) := by
  have h : quote :: (w ++ quote :: (lit ":" ++ x)) = (quote :: (w ++ [quote])) ++ colon :: x := by
    simp [lit_colon, colon]
  rw [h]
  apply strchr_append
  simp only [Skips, List.forall_mem_cons, List.forall_mem_append]
  exact ⟨by decide, hw, by decide, List.forall_mem_nil _⟩

theorem scanString_append {v : Bytes} (hv : v.all plainChar = true) (x : Bytes) :
    scanString (v ++ quote :: x) = some v := by
  induction v with
  | nil => simp [scanString]
  | cons c v ih =>
    simp only [List.all_cons, Bool.and_eq_true] at hv
    obtain ⟨hq, hb⟩ := (plainChar_iff c).mp hv.1
    rw [not_or] at hb
    rw [List.cons_append, scanString, if_neg hq, if_neg hb.1, ih hv.2, Option.map_some]

/-- A key is found where the words put it, and its string value is the next word. -/
theorem jsonStringField_spell {g v : Bytes} (pre : List (Bytes × Bytes)) (hw : isKey w = true) (hc : Skips colon w)
    (hv : v.all plainChar = true) (hpre : ∀ t ∈ pre, t.2 ≠ w)
    (hplain : Plain w (pre ++ (g, w) :: (lit ":", v) :: ts) tail) :
    jsonStringField (spell (pre ++ (g, w) :: (lit ":", v) :: ts) tail) (wordNeedle w []) = some v := by
  have hfind : findWord w [] (pre ++ (g, w) :: (lit ":", v) :: ts) tail =
      some (quote :: (w ++ quote :: (lit ":" ++ quote :: (v ++ quote :: spell ts tail)))) := by
    rw [findWord_append hpre, findWord_hit List.nil_prefix, spell]
  rw [jsonStringField, memfind_spell _ (key_quiet hw) hplain, hfind, Option.bind_some, strchr_key hc]
  have hq : isBlank quote = false := by decide
  simp only [List.drop_one, List.tail_cons, List.dropWhile_cons, hq, Bool.false_eq_true, if_false, if_true]
  exact scanString_append hv _

theorem manifestEntryNumber_spell {g g' w' : Bytes} {n : ℕ} (pre : List (Bytes × Bytes)) (hw : isKey w = true)
    (hn : n < 2 ^ 32) (hpre : ∀ t ∈ pre, t.2 ≠ w) (hg : g' = lit ":" ++ (dec n ++ lit ","))
    (hplain : Plain w (pre ++ (g, w) :: (g', w') :: ts) tail) :
    manifestEntryNumber (wordNeedle w (lit ":")) (spell (pre ++ (g, w) :: (g', w') :: ts) tail) = some n := by
  have hfind : findWord w (lit ":") (pre ++ (g, w) :: (g', w') :: ts) tail =
      some (wordNeedle w (lit ":") ++ (dec n ++ (lit "," ++ quote :: (w' ++ quote :: spell ts tail)))) := by
    rw [findWord_append hpre, findWord_hit]
    · simp only [spell, hg, wordNeedle, List.cons_append, List.append_assoc]
    · rw [spell, hg, List.append_assoc]
      exact List.prefix_append ..
  rw [manifestEntryNumber, memfind_spell _ (key_quiet hw) hplain, hfind]
  dsimp only
  have hdig : startsDigit (lit "," ++ quote :: (w' ++ quote :: spell ts tail)) = false := by
    rw [lit_comma]
    rfl
  rw [List.drop_left, manifestUint32_eq_some.mpr ⟨rfl, hdig, hn⟩, lit_comma]
  rfl

end Search

section EntryFields

variable {e : Entry} {gap : Bytes} {more : List (Bytes × Bytes)} {tail : Bytes}

/-- What may follow the core fields of an entry in a text that is searched for them. -/
structure Trailing (more : List (Bytes × Bytes)) (tail : Bytes) : Prop where
  words : ∀ t ∈ more, isGap t.1 = true ∧ Quiet t.2
  tail : Quiet tail

theorem Entry.core_plain (he : e.Built) (hg : isGap gap = true) (h : Trailing more tail) {w : Bytes}
    (hw : isKey w = true) : Plain w (e.coreWords gap ++ more) tail := by
  refine plain_of hw ?_ h.tail
  intro t ht
  rcases List.mem_append.mp ht with h' | h'
  · exact words_plain hg he t (List.mem_append_left _ h')
  · exact h.words t h'

/-- A value that a check accepts differs from every word the check refuses. -/
theorem ne_of_check {f : Bytes → Bool} {v w : Bytes} (hv : f v = true) (hw : f w = false) : v ≠ w := by
  rintro rfl
  rw [hv] at hw
  exact absurd hw (by decide)

/-- The keys sought in an entry are keys, hold no colon, and are none of its identifying values. -/
theorem entryKeys : ∀ s ∈ ["recordingId", "filename", "startedAt", "durationMs", "sizeBytes", "sha256"],
    isKey (lit s) = true ∧ Skips colon (lit s) ∧ isValidUuid (lit s) = false ∧ validFilename (lit s) = false ∧
      isValidIso8601Offset (lit s) = false := by with_unfolding_all decide

theorem entryKeys_nodup :
    ([("recordingId" : String), "filename", "startedAt", "durationMs", "sizeBytes", "sha256"].map lit).Nodup := by
  with_unfolding_all decide

/-- No word before the `n`-th of an entry is the key `s`. -/
def Before (e : Entry) (gap : Bytes) (n : ℕ) (s : String) : Prop :=
  ∀ t ∈ (e.coreWords gap).take n, t.2 ≠ lit s

theorem Entry.before (he : e.Built) : Before e gap 2 "filename" ∧ Before e gap 4 "startedAt" ∧
    Before e gap 6 "durationMs" ∧ Before e gap 7 "sizeBytes" ∧ Before e gap 8 "sha256" := by
  have hk := entryKeys
  have hnodup := entryKeys_nodup
  simp only [List.map_cons, List.map_nil, List.nodup_cons, List.mem_cons, List.not_mem_nil, or_false, not_or] at hnodup
  have hid : ∀ s ∈ ["recordingId", "filename", "startedAt", "durationMs", "sizeBytes", "sha256"],
      e.recordingId ≠ lit s ∧ e.filename ≠ lit s ∧ e.startedAt ≠ lit s := fun s hs =>
    ⟨ne_of_check he.recordingId (hk s hs).2.2.1, ne_of_check he.filename (hk s hs).2.2.2.1,
      ne_of_check he.startedAt (hk s hs).2.2.2.2⟩
  simp only [List.forall_mem_cons] at hid
  simp only [Before, Entry.coreWords, List.take_succ_cons, List.take_zero, List.forall_mem_cons, List.not_mem_nil,
    false_implies, implies_true, and_true, ne_eq]
  tauto

theorem Entry.field_recordingId (he : e.Built) (hg : isGap gap = true) (h : Trailing more tail) :
    jsonStringField (spell (e.coreWords gap ++ more) tail) (lit "\"recordingId\"") = some e.recordingId := by
  have hkey : lit "\"recordingId\"" = wordNeedle (lit "recordingId") [] := by with_unfolding_all decide
  obtain ⟨hw, hc, -⟩ := entryKeys "recordingId" (by simp)
  rw [hkey]
  exact jsonStringField_spell [] hw hc (uuid_plain he.recordingId) (by simp) (e.core_plain he hg h hw)

theorem Entry.field_filename (he : e.Built) (hg : isGap gap = true) (h : Trailing more tail) :
    jsonStringField (spell (e.coreWords gap ++ more) tail) (lit "\"filename\"") = some e.filename := by
  have hkey : lit "\"filename\"" = wordNeedle (lit "filename") [] := by with_unfolding_all decide
  obtain ⟨hw, hc, -⟩ := entryKeys "filename" (by simp)
  rw [hkey]
  exact jsonStringField_spell ((e.coreWords gap).take 2) hw hc (filename_plain he.filename) (e.before he).1
    (e.core_plain he hg h hw)

theorem Entry.field_startedAt (he : e.Built) (hg : isGap gap = true) (h : Trailing more tail) :
    jsonStringField (spell (e.coreWords gap ++ more) tail) (lit "\"startedAt\"") = some e.startedAt := by
  have hkey : lit "\"startedAt\"" = wordNeedle (lit "startedAt") [] := by with_unfolding_all decide
  obtain ⟨hw, hc, -⟩ := entryKeys "startedAt" (by simp)
  rw [hkey]
  exact jsonStringField_spell ((e.coreWords gap).take 4) hw hc (iso8601_plain he.startedAt) (e.before he).2.1
    (e.core_plain he hg h hw)

theorem Entry.field_sha256 (he : e.Built) (hg : isGap gap = true) (h : Trailing more tail) :
    jsonStringField (spell (e.coreWords gap ++ more) tail) (lit "\"sha256\"") = some e.sha256 := by
  have hkey : lit "\"sha256\"" = wordNeedle (lit "sha256") [] := by with_unfolding_all decide
  obtain ⟨hw, hc, -⟩ := entryKeys "sha256" (by simp)
  rw [hkey]
  exact jsonStringField_spell ((e.coreWords gap).take 8) hw hc (sha256Hex_plain he.sha256) (e.before he).2.2.2.2
    (e.core_plain he hg h hw)

theorem Entry.field_durationMs (he : e.Built) (hg : isGap gap = true) (h : Trailing more tail) :
    manifestEntryDuration (spell (e.coreWords gap ++ more) tail) = some e.durationMs := by
  have hkey : lit "\"durationMs\":" = wordNeedle (lit "durationMs") (lit ":") := by with_unfolding_all decide
  obtain ⟨hw, -⟩ := entryKeys "durationMs" (by simp)
  rw [manifestEntryDuration, hkey]
  exact manifestEntryNumber_spell ((e.coreWords gap).take 6) hw he.duration_lt (e.before he).2.2.1 rfl
    (e.core_plain he hg h hw)

theorem Entry.field_sizeBytes (he : e.Built) (hg : isGap gap = true) (h : Trailing more tail) :
    manifestEntrySize (spell (e.coreWords gap ++ more) tail) = some e.sizeBytes := by
  have hkey : lit "\"sizeBytes\":" = wordNeedle (lit "sizeBytes") (lit ":") := by with_unfolding_all decide
  obtain ⟨hw, -⟩ := entryKeys "sizeBytes" (by simp)
  rw [manifestEntrySize, hkey]
  exact manifestEntryNumber_spell ((e.coreWords gap).take 7) hw he.size_lt (e.before he).2.2.2.1 rfl
    (e.core_plain he hg h hw)

end EntryFields

section Document

/-- The words of a document before its recordings array. -/
def headerWords (deviceId updatedAt : Bytes) : List (Bytes × Bytes) :=
  [(lit "\x7b", lit "schemaVersion"), (lit ":" ++ (dec metadataSchemaVersion ++ lit ","), lit "deviceId"),
    (lit ":", deviceId), (lit ",", lit "updatedAt"), (lit ":", updatedAt), (lit ",", lit "recordings")]

theorem document_spell (deviceId updatedAt : Bytes) (es : List Entry) :
    document deviceId updatedAt es =
      spell (headerWords deviceId updatedAt) (lit ":" ++ (lit "[" ++ (body es ++ lit "]\x7d"))) := by
  have h1 : lit "\x7b\"schemaVersion\":" = lit "\x7b" ++ quote :: (lit "schemaVersion" ++ quote :: lit ":") := by
    with_unfolding_all decide
  have h2 : lit ",\"deviceId\":" = lit "," ++ quote :: (lit "deviceId" ++ quote :: lit ":") := by
    with_unfolding_all decide
  have h3 : lit ",\"updatedAt\":" = lit "," ++ quote :: (lit "updatedAt" ++ quote :: lit ":") := by
    with_unfolding_all decide
  have h4 : lit ",\"recordings\":[" = lit "," ++ quote :: (lit "recordings" ++ quote :: (lit ":" ++ lit "[")) := by
    with_unfolding_all decide
  unfold document header
  rw [h1, h2, h3, h4]
  conv_lhs => simp only [quoted, List.append_assoc, List.cons_append, List.nil_append]
  conv_rhs => simp only [headerWords, spell, List.append_assoc]

/-- The words of a whole document. -/
def docWords (deviceId updatedAt : Bytes) (es : List Entry) : List (Bytes × Bytes) :=
  headerWords deviceId updatedAt ++ bodyWords (lit ":[") es

def docTail : List Entry → Bytes
  | [] => lit ":[]\x7d"
  | _ :: _ => lit "\x7d" ++ lit "]\x7d"

/-- The text of the recordings array with its brackets, after the key. -/
def recordingsText (es : List Entry) : Bytes := lit ":" ++ (lit "[" ++ (body es ++ lit "]\x7d"))

theorem recordings_words (es : List Entry) : spell (bodyWords (lit ":[") es) (docTail es) = recordingsText es := by
  cases es with
  | nil => with_unfolding_all decide
  | cons e es =>
    have h : lit ":[" = lit ":" ++ lit "[" := by with_unfolding_all decide
    rw [docTail, spell_bodyWords, h, recordingsText, List.append_assoc]

theorem document_words (deviceId updatedAt : Bytes) (es : List Entry) :
    document deviceId updatedAt es = spell (docWords deviceId updatedAt es) (docTail es) := by
  rw [document_spell, docWords, spell_append, recordings_words, recordingsText]

variable {dev upd : Bytes} {es : List Entry}

theorem docWords_plain (hd : dev.all plainChar = true) (hu : upd.all plainChar = true) (hes : ∀ e ∈ es, e.Valid)
    {w : Bytes} (hw : isKey w = true) : Plain w (docWords dev upd es) (docTail es) := by
  refine plain_of hw ?_ ?_
  · intro t ht
    rcases List.mem_append.mp ht with h | h
    · revert t
      have hnum := isGap_number metadataSchemaVersion
      have hcolon : isGap (lit ":") = true := by with_unfolding_all decide
      have hcomma : isGap (lit ",") = true := by with_unfolding_all decide
      have hopen : isGap (lit "\x7b") = true := by with_unfolding_all decide
      have hkeys : Quiet (lit "schemaVersion") ∧ Quiet (lit "deviceId") ∧ Quiet (lit "updatedAt") ∧
          Quiet (lit "recordings") := by with_unfolding_all decide
      simp only [headerWords, List.mem_cons, List.not_mem_nil, or_false]
      rintro t - (rfl | rfl | rfl | rfl | rfl | rfl)
      exacts [⟨hopen, hkeys.1⟩, ⟨hnum, hkeys.2.1⟩, ⟨hcolon, plain_quiet hd⟩, ⟨hcomma, hkeys.2.2.1⟩,
        ⟨hcolon, plain_quiet hu⟩, ⟨hcomma, hkeys.2.2.2⟩]
    · exact bodyWords_plain (by with_unfolding_all decide) hes t h
  · cases es with
    | nil =>
      rw [docTail]
      with_unfolding_all decide
    | cons e es =>
      rw [docTail]
      with_unfolding_all decide

theorem headerKeys : ∀ s ∈ ["schemaVersion", "deviceId", "updatedAt", "recordings"],
    isKey (lit s) = true ∧ Skips colon (lit s) ∧ isValidUuid (lit s) = false ∧ isValidIso8601Offset (lit s) = false := by
  with_unfolding_all decide

section Lookups

variable (hd : isValidUuid dev = true) (hu : isValidIso8601Offset upd = true) (hes : ∀ e ∈ es, e.Valid)
include hd hu hes

theorem document_plain {w : Bytes} (hw : isKey w = true) : Plain w (docWords dev upd es) (docTail es) :=
  docWords_plain (uuid_plain hd) (iso8601_plain hu) hes hw

/-- A header key is found where the header has it. -/
theorem find_header {g w r : Bytes} (pre post : List (Bytes × Bytes)) (hw : isKey w = true)
    (hsplit : headerWords dev upd = pre ++ (g, w) :: post) (hpre : ∀ t ∈ pre, t.2 ≠ w)
    (hr : r <+: spell post (recordingsText es)) :
    memfind (wordNeedle w r) (document dev upd es) = some (quote :: (w ++ quote :: spell post (recordingsText es))) := by
  have hpost : spell (post ++ bodyWords (lit ":[") es) (docTail es) = spell post (recordingsText es) := by
    rw [spell_append, recordings_words]
  rw [document_words, memfind_spell _ (key_quiet hw) (document_plain hd hu hes hw), docWords, hsplit, List.append_assoc,
    findWord_append hpre, List.cons_append, findWord_hit (by rwa [hpost]), hpost]

/-- The version read from a document is the version written in it. -/
theorem parseSchemaVersion_document :
    deviceIdentityParseSchemaVersion (document dev upd es) = some metadataSchemaVersion := by
  obtain ⟨hw, hc, -⟩ := headerKeys "schemaVersion" (by simp)
  have hkey : lit "\"schemaVersion\"" = wordNeedle (lit "schemaVersion") [] := by with_unfolding_all decide
  have hdec : dec metadataSchemaVersion = [0x31] := by decide
  have hfind := find_header hd hu hes [] _ hw rfl (by simp) List.nil_prefix
  rw [deviceIdentityParseSchemaVersion, hkey, hfind, Option.bind_some, spell, List.append_assoc, strchr_key hc]
  simp only [hdec, lit_comma, List.cons_append, List.nil_append, List.drop_one, List.tail_cons]
  rfl

/-- The device id read from a document is the one written in it. -/
theorem parseDeviceId_document : deviceIdentityParseDeviceId (document dev upd es) = some dev := by
  obtain ⟨hw, hc, -⟩ := headerKeys "deviceId" (by simp)
  have hkey : lit "\"deviceId\"" = wordNeedle (lit "deviceId") [] := by with_unfolding_all decide
  have hfind := find_header hd hu hes ((headerWords dev upd).take 1) _ hw rfl
    (by simp only [headerWords, List.take_succ_cons, List.take_zero, List.forall_mem_singleton]
        with_unfolding_all decide) List.nil_prefix
  have hlen := uuid_length hd
  have hblank : isBlank quote = false := by decide
  rw [deviceIdentityParseDeviceId, hkey, hfind, Option.bind_some, spell, strchr_key hc]
  simp only [List.drop_one, List.tail_cons, List.dropWhile_cons, hblank, Bool.false_eq_true, if_false]
  rw [if_neg, if_neg, if_pos]
  · rw [← hlen, List.take_left]
  · rwa [← hlen, List.take_left]
  · rw [← hlen, List.drop_left]
    simp
  · simp [hlen]

end Lookups

section Append

/-- Behind the key `recordings` the first bracket opens the array. -/
theorem strchr_recordings (es : List Entry) : strchr 0x5b (quote :: (lit "recordings" ++ quote :: recordingsText es)) =
    some (0x5b :: (body es ++ lit "]\x7d")) := by
  have hopen : lit "[" = [0x5b] := by with_unfolding_all decide
  have h : quote :: (lit "recordings" ++ quote :: recordingsText es) =
      (quote :: (lit "recordings" ++ quote :: lit ":")) ++ 0x5b :: (body es ++ lit "]\x7d") := by
    simp only [recordingsText, hopen, List.cons_append, List.append_assoc, List.nil_append]
  rw [h]
  exact strchr_append (by with_unfolding_all decide) _

theorem moreEntries_append (es : List Entry) (e : Entry) :
    moreEntries (es ++ [e]) = moreEntries es ++ (lit "," ++ e.render) := by
  induction es with
  | nil => simp [moreEntries]
  | cons e' es ih => simp only [List.cons_append, moreEntries, ih, List.append_assoc]

theorem body_append (es : List Entry) (e : Entry) :
    body (es ++ [e]) = body es ++ ((if es = [] then [] else lit ",") ++ e.render) := by
  cases es with
  | nil => simp [body, moreEntries]
  | cons e' es => simp only [List.cons_append, body_cons, moreEntries_append, List.append_assoc, reduceCtorEq, if_false]

/-- The document before the value of `updatedAt`. -/
def beforeUpdated (deviceId : Bytes) : Bytes :=
  lit "\x7b\"schemaVersion\":" ++ dec metadataSchemaVersion ++ lit ",\"deviceId\":" ++ quoted deviceId ++
  lit ",\"updatedAt\":" ++ [quote]

theorem document_split (deviceId updatedAt : Bytes) (es : List Entry) : document deviceId updatedAt es =
    beforeUpdated deviceId ++ (updatedAt ++ quote :: (lit ",\"recordings\":[" ++ (body es ++ lit "]\x7d"))) := by
  unfold document header beforeUpdated
  conv_lhs => simp only [quoted, List.append_assoc, List.cons_append, List.nil_append]
  conv_rhs => simp only [quoted, List.append_assoc, List.cons_append, List.nil_append]

theorem arrayClose_append (d : Bytes) : arrayClose (d ++ lit "]\x7d") = some (lit "]\x7d") := by
  have hsp : isSpace 0x7d = false := by decide
  simp [arrayClose, lit_close, hsp]

theorem body_all_space (es : List Entry) : (body es).all isSpace = decide (es = []) := by
  cases es with
  | nil => rfl
  | cons e es =>
    obtain ⟨t, ht⟩ := render_head e
    have hsp : isSpace 0x7b = false := by decide
    simp [body_cons, ht, hsp]

variable {dev upd upd' : Bytes} {es : List Entry}

/-- The pointer arithmetic of an append: the document is cut at the old timestamp and at the end of its array. -/
theorem appendEntry_cut {doc k1 k2 c before old mid inner tail new x : Bytes}
    (hk1 : memfind (lit "\"updatedAt\"") doc = some k1) (hk2 : memfind (lit "\"recordings\"") doc = some k2)
    (hc : strchr colon k1 = some c) (hq : strchr quote c = some (quote :: (old ++ quote :: (mid ++ tail))))
    (hold : Skips quote old) (hb : strchr 0x5b k2 = some (0x5b :: (inner ++ tail))) (ht : arrayClose doc = some tail)
    (hdoc : doc = before ++ (old ++ quote :: (mid ++ tail))) (hinner : inner.length < mid.length)
    (hlen : old.length = 25) (hnew : new.length = 25) :
    appendEntry doc new x =
      let fresh := before ++ (new ++ quote :: (mid ++ ((if inner.all isSpace then [] else lit ",") ++ (x ++ tail))))
      if fresh.length > manifestAdmissionCeilingBytes then none else some fresh := by
  have hclose : strchr quote (old ++ quote :: (mid ++ tail)) = some (quote :: (mid ++ tail)) :=
    strchr_append hold _
  have hsep : (if inner.all isSpace = true then [] else lit ",").length = if inner.all isSpace = true then 0 else 1 := by
    split <;> simp [lit_comma]
  have htake : (inner ++ tail).take ((0x5b :: (inner ++ tail)).length - 1 - tail.length) = inner := by
    simp
  have hmid : (quote :: (mid ++ tail)).take ((quote :: (mid ++ tail)).length - tail.length) = quote :: mid := by
    rw [← List.cons_append, List.length_append, Nat.add_sub_cancel, List.take_left]
  have hpre : doc.take (doc.length - (old ++ quote :: (mid ++ tail)).length) = before := by
    rw [hdoc, List.length_append, Nat.add_sub_cancel, List.take_left]
  unfold appendEntry
  rw [hk1, Option.bind_eq_bind, Option.bind_some, hk2, Option.bind_some, hc, Option.bind_some, hq, Option.bind_some]
  dsimp only [List.tail_cons]
  rw [hclose, Option.bind_some, hb, Option.bind_some, ht, Option.bind_some]
  dsimp only [List.tail_cons]
  simp only [htake, hmid, hpre, ← hsep]
  set sep := if inner.all isSpace = true then [] else lit ","
  have hfresh : before ++ new ++ quote :: mid ++ sep ++ x ++ tail =
      before ++ (new ++ quote :: (mid ++ (sep ++ (x ++ tail)))) := by
    simp only [List.append_assoc, List.cons_append]
  have hfreshLen : doc.length - ((old ++ quote :: (mid ++ tail)).length - (quote :: (mid ++ tail)).length) +
      new.length + (x.length + sep.length) = (before ++ (new ++ quote :: (mid ++ (sep ++ (x ++ tail))))).length := by
    rw [hdoc]
    simp only [List.length_append, List.length_cons]
    omega
  rw [hfresh, hfreshLen]
  apply if_congr _ rfl rfl
  simp only [List.length_append, List.length_cons, hlen, hnew]
  omega

/-- Appending to a snapshot text gives the text of the snapshot with the entry added, unless it is too long. -/
theorem appendEntry_document (hd : isValidUuid dev = true) (hu : isValidIso8601Offset upd = true)
    (hu' : isValidIso8601Offset upd' = true) (hes : ∀ e ∈ es, e.Valid) (e : Entry) :
    appendEntry (document dev upd es) upd' e.render =
      if (document dev upd' (es ++ [e])).length > manifestAdmissionCeilingBytes then none
      else some (document dev upd' (es ++ [e])) := by
  obtain ⟨hw1, hc1, -⟩ := headerKeys "updatedAt" (by simp)
  obtain ⟨hw2, -⟩ := headerKeys "recordings" (by simp)
  have hkey1 : lit "\"updatedAt\"" = wordNeedle (lit "updatedAt") [] := by with_unfolding_all decide
  have hkey2 : lit "\"recordings\"" = wordNeedle (lit "recordings") [] := by with_unfolding_all decide
  have hdev : dev ≠ lit "updatedAt" ∧ dev ≠ lit "recordings" :=
    ⟨ne_of_check hd (by with_unfolding_all decide), ne_of_check hd (by with_unfolding_all decide)⟩
  have hupd : upd ≠ lit "recordings" := ne_of_check hu (by with_unfolding_all decide)
  have hlits : lit "schemaVersion" ≠ lit "updatedAt" ∧ lit "deviceId" ≠ lit "updatedAt" ∧
      lit "schemaVersion" ≠ lit "recordings" ∧ lit "deviceId" ≠ lit "recordings" ∧
      lit "updatedAt" ≠ lit "recordings" := by with_unfolding_all decide
  have hfind1 := find_header hd hu hes ((headerWords dev upd).take 3) _ hw1 rfl
    (by simp [headerWords, hdev, hlits]) List.nil_prefix
  have hfind2 := find_header hd hu hes ((headerWords dev upd).take 5) _ hw2 rfl
    (by simp [headerWords, hdev, hupd, hlits]) List.nil_prefix
  have hrec : lit ",\"recordings\":[" = lit "," ++ quote :: (lit "recordings" ++ quote :: (lit ":" ++ lit "[")) := by
    with_unfolding_all decide
  -- behind the key `updatedAt`: the old timestamp, then the recordings array
  have hrest : spell [(lit ":", upd), (lit ",", lit "recordings")] (recordingsText es) =
      lit ":" ++ quote :: (upd ++ quote :: ((lit ",\"recordings\":[" ++ body es) ++ lit "]\x7d")) := by
    rw [hrec]
    simp only [spell, recordingsText, List.append_assoc, List.cons_append]
  have hsplit : document dev upd es =
      beforeUpdated dev ++ (upd ++ quote :: ((lit ",\"recordings\":[" ++ body es) ++ lit "]\x7d")) := by
    rw [document_split, List.append_assoc]
  have hend : arrayClose (document dev upd es) = some (lit "]\x7d") := by
    rw [hsplit, ← List.cons_append, ← List.append_assoc, ← List.append_assoc]
    exact arrayClose_append _
  have hlong : (body es).length < (lit ",\"recordings\":[" ++ body es).length := by
    rw [hrec]
    simp only [List.length_append, List.length_cons]
    omega
  rw [appendEntry_cut (hkey1 ▸ hfind1) (hkey2 ▸ hfind2) (hrest ▸ strchr_key hc1 _)
    (strchr_quote_colon _) (plain_text (iso8601_plain hu)) (strchr_recordings es) hend hsplit hlong
    (iso8601_length hu) (iso8601_length hu')]
  have hdoc : beforeUpdated dev ++ (upd' ++ quote :: ((lit ",\"recordings\":[" ++ body es) ++
      ((if (body es).all isSpace = true then [] else lit ",") ++ (e.render ++ lit "]\x7d")))) =
        document dev upd' (es ++ [e]) := by
    rw [document_split, body_append, body_all_space]
    simp only [decide_eq_true_eq, List.append_assoc]
  dsimp only
  rw [hdoc]

end Append

end Document

end M5DayLog
