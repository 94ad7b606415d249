import M5DayLog.Lib.Regex
import M5DayLog.Pc.DateTime
import M5DayLog.Pc.SchemaKeywords
import M5DayLog.Pc.TextFile

/-! Loading the metadata of a device. A file is read as text, parsed as JSON and validated against its canonical schema; the
document is returned if it satisfies the schema, and a contract error is raised if not. -/

namespace M5DayLog.Contract

section Patterns

/-- The text of `s`, letter for letter. -/
def literal (s : String) : Regex.Pattern ℕ := (text s).foldr (fun c p => .seq (.one (· = c)) p) .empty

def digit : Regex.Pattern ℕ := .one isDec

def offsetPattern : Regex.Pattern ℕ :=
  .seq (.alt (literal "Z") (.seq (.one fun c => c = 0x2b || c = 0x2d) (.seq (digit.times 2) (.seq (literal ":") (digit.times 2)))))
    .finish

def filenamePattern : Regex.Pattern ℕ := .seq .start (.seq (.plus .any) (.seq (literal ".wav") .finish))

def sha256Pattern : Regex.Pattern ℕ :=
  .seq .start (.seq ((Regex.Pattern.one fun c => isDec c || (0x61 ≤ c && c ≤ 0x66)).times 64) .finish)

/-- The patterns of the canonical schemas. -/
def patterns : List (PyStr × Regex.Pattern ℕ) :=
  [(text "(?:Z|[+-][0-9]\x7b2\x7d:[0-9]\x7b2\x7d)$", offsetPattern), (text "^.+\\.wav$", filenamePattern),
    (text "^[0-9a-f]\x7b64\x7d$", sha256Pattern)]

/-- In Python the dot takes all but a line feed, and `$` stands also before a last one. -/
def python : Regex.Dialect ℕ := ⟨fun c => c ≠ 0x0a, fun s => s = [] || s = [0x0a]⟩

/-- In ECMA-262 the dot takes no line terminator, and `$` stands at the end. -/
def ecma262 : Regex.Dialect ℕ := ⟨fun c => c ≠ 0x0a && c ≠ 0x0d && c ≠ 0x2028 && c ≠ 0x2029, fun s => s = []⟩

/-- `re.search(pattern, value)`. -/
def reSearch (pattern value : PyStr) : Bool :=
  match patterns.lookup pattern with
  | some p => Regex.search python p value
  | none => false

end Patterns

section Readings

/-- What `_validate_format` takes for a UUID. -/
def UuidText (u : Unicode) (s : PyStr) : Prop := uuidParse u s ≠ none ∧ ∀ position ∈ [8, 13, 18, 23], s[position]? = some 0x2d

def readingOf (dialect : Regex.Dialect ℕ) (uuid dateTime : PyStr → Prop) : Reading where
  finds pattern s := ∃ p, patterns.lookup pattern = some p ∧ Regex.Finds dialect p s
  format name s := (name = text "uuid" → uuid s) ∧ (name = text "date-time" → dateTime s)

/-- The patterns of ECMA-262 and the date-times of RFC 3339. -/
def draftReading (u : Unicode) : Reading := readingOf ecma262 (UuidText u) DateTime

/-- The patterns of the program's language, and the date-times that it takes. -/
def hostReading (u : Unicode) : Reading := readingOf python (UuidText u) HostDateTime

/-- On a line of text the patterns of both languages find the same. -/
theorem finds_line_iff (u : Unicode) (pattern : PyStr) {s : PyStr} (hs : ∀ c ∈ s, ecma262.any c = true) :
    (hostReading u).finds pattern s ↔ (draftReading u).finds pattern s := by
  have hany : ∀ c ∈ s, python.any c = ecma262.any c := by
    intro c hc
    rw [hs c hc]
    have := hs c hc
    simp only [ecma262, Bool.and_eq_true] at this
    exact this.1.1.1
  have hend : ∀ r, r <:+ s → python.atEnd r = ecma262.atEnd r := by
    intro r hr
    have hlast : r ≠ [0x0a] := by
      rintro rfl
      exact absurd (hs 0x0a (hr.subset List.mem_cons_self)) (by decide)
    simp [python, ecma262, hlast]
  simp only [hostReading, draftReading, readingOf, Regex.finds_congr hany hend]

/-- On a line of text the program takes the date-times of RFC 3339, those of the year 0 apart. -/
theorem hostDateTime_line_iff {s : PyStr} (hs : 0x0a ∉ s) :
    HostDateTime s ↔ ∃ year month day, Rfc3339 year month day s ∧ year ≠ 0 ∧ 1 ≤ day ∧ day ≤ Calendar.monthDays year month := by
  constructor
  · rintro ⟨t, year, month, day, rfl | rfl, h⟩
    · exact ⟨year, month, day, h⟩
    · exact absurd (List.mem_append_right _ (List.mem_singleton_self _)) hs
  · rintro ⟨year, month, day, h⟩
    exact ⟨s, year, month, day, .inl rfl, h⟩

theorem reSearch_iff {pattern s : PyStr} : reSearch pattern s = true ↔ ∃ p, patterns.lookup pattern = some p ∧ Regex.Finds python p s := by
  rw [reSearch]
  cases hp : patterns.lookup pattern with
  | none => simp
  | some p => simp [Regex.search_iff]

theorem decides_uuid {u : Unicode} (s path : PyStr) : Decides (validateFormat u s (text "uuid") path) (UuidText u s) := by
  rw [validateFormat, if_pos rfl]
  split
  · next hparse => exact decides_contractError fun h => h.1 hparse
  · next hparse =>
    split
    · next hall =>
      refine decides_ok ⟨hparse, fun position hposition => ?_⟩
      exact of_decide_eq_true (List.all_eq_true.mp hall position hposition)
    · next hall =>
      refine decides_contractError fun h => hall (List.all_eq_true.mpr fun position hposition => ?_)
      exact decide_eq_true (h.2 position hposition)

theorem decides_dateTime {u : Unicode} (hu : NoDateTimeUpper u) (s path : PyStr) :
    Decides (validateFormat u s (text "date-time") path) (HostDateTime s) := by
  rw [validateFormat, if_neg (by decide), if_pos rfl]
  split
  · next hgroups =>
    refine decides_contractError ?_
    rintro ⟨t, year, month, day, ht, htext, -⟩
    rw [(rfc3339Groups_iff hu).mpr ⟨t, ht, htext⟩] at hgroups
    cases hgroups
  · next year month day hgroups =>
    split
    · next hday =>
      refine decides_contractError ?_
      rintro ⟨t, year', month', day', ht, htext, hyear, hdays⟩
      have hsame := (rfc3339Groups_iff hu).mpr ⟨t, ht, htext⟩
      rw [hgroups] at hsame
      obtain ⟨rfl, rfl, rfl⟩ : year = year' ∧ month = month' ∧ day = day' := by simpa using hsame
      exact hday.elim hyear fun h => h hdays
    · next hday =>
      obtain ⟨hyear, hdays⟩ := not_or.mp hday
      obtain ⟨t, ht, htext⟩ := (rfc3339Groups_iff hu).mp hgroups
      exact decides_ok ⟨t, year, month, day, ht, htext, hyear, not_not.mp hdays⟩

theorem readsAs_host {u : Unicode} (hu : NoDateTimeUpper u) : ReadsAs u reSearch (hostReading u) where
  finds _ _ := reSearch_iff
  format format hformat s path := by
    have hne : text "uuid" ≠ text "date-time" := by decide
    simp only [knownFormats, List.mem_cons, List.not_mem_nil, or_false] at hformat
    rcases hformat with rfl | rfl
    · exact (decides_uuid s path).congr ⟨fun h => ⟨fun _ => h, fun heq => absurd heq hne⟩, fun h => h.1 rfl⟩
    · exact (decides_dateTime hu s path).congr ⟨fun h => ⟨fun heq => absurd heq.symm hne, fun _ => h⟩, fun h => h.2 rfl⟩

end Readings

section Loading

/-- A `ContractValidationError` with its message, or another exception. -/
inductive LoadExc
  | contract (message : PyStr)
  | unicodeDecode
  | value
  | recursion
  | typeError

def metadataUnavailable (cause : String) : LoadExc := .contract (text "metadata unavailable: " ++ text cause)

def ContractExc.toLoadExc : ContractExc → LoadExc
  | .contract path keyword => .contract (text "contract validation failed at " ++ path ++ text ": " ++ keyword)
  | .typeError => .typeError
  | .recursion => .recursion

/-- `validate_contract_document`, with the canonical file that it reads. -/
def validateDocument (u : Unicode) (frames : ℕ) (schema : SchemaFile) (document : Json) : Except ContractExc Unit := do
  assertSupportedSchema frames schema.toJson (text "$")
  validateContractDocument u reSearch schema frames document

/-- `_load_document`, of what there is to read: the bytes of a file, or the name of an `OSError`. Of the exceptions of the parser
only the decoding error is caught. -/
def loadDocument (u : Unicode) (limits : Limits) (frames : ℕ) (schema : SchemaFile) (content : Except String Bytes) :
    Except LoadExc Json :=
  match content with
  | .error cause => .error (metadataUnavailable cause)
  | .ok bytes =>
    match decodeUtf8 bytes with
    | none => .error .unicodeDecode
    | some s =>
      match loads limits (universalNewlines s) with
      | .error .decode => .error (metadataUnavailable "JSONDecodeError")
      | .error .value => .error .value
      | .error .recursion => .error .recursion
      | .ok (.dict fields) =>
        match validateDocument u frames schema (.dict fields) with
        | .error e => .error e.toLoadExc
        | .ok () => .ok (.dict fields)
      | .ok _ => .error (.contract (text "metadata must be a JSON object"))

/-- The text is JSON of a document that satisfies the schema. -/
structure Accepted (r : Reading) (schema : SchemaFile) (s : PyStr) (document : Json) : Prop where
  json : IsJson s document
  object : document.OfType .object
  satisfies : Satisfies r schema.defs schema.root document

theorem Encodes.unique {content : Bytes} {s t : PyStr} (hs : Encodes content s) (ht : Encodes content t) : s = t :=
  Option.some.inj ((decodeUtf8_iff.mpr hs).symm.trans (decodeUtf8_iff.mpr ht))

/-- Within the limits, the text of a file is read as JSON or is a decoding error. -/
theorem loads_text {limits : Limits} {s : PyStr} (hlimits : ¬ Overruns limits s) :
    (∀ v, loads limits (universalNewlines s) = .ok v ↔ IsJson s v) ∧
      ((∃ v, loads limits (universalNewlines s) = .ok v) ∨ loads limits (universalNewlines s) = .error .decode) := by
  refine ⟨fun v => ?_, ?_⟩
  · rw [loads_universalNewlines_ok_iff, ← loads_ok_iff]
    exact (loads_iff hlimits).1 v
  · rcases hloads : loads limits (universalNewlines s) with e | v
    · by_cases he : e = .decode
      · exact .inr (by rw [he])
      · exact absurd (loads_universalNewlines_error_iff.mpr ⟨e, hloads, he⟩) hlimits
    · exact .inl ⟨v, rfl⟩

theorem IsJson.unique {s : PyStr} {v w : Json} {limits : Limits} (hlimits : ¬ Overruns limits s) (hv : IsJson s v) (hw : IsJson s w) :
    v = w :=
  Except.ok.inj ((((loads_text hlimits).1 v).mpr hv).symm.trans (((loads_text hlimits).1 w).mpr hw))

theorem canonical_supported {schema : SchemaFile} (h : schema = manifestFile ∨ schema = deviceFile) :
    ∃ n ≤ 6, Supported schema.defs n schema.root := by
  rcases h with rfl | rfl
  · exact ⟨6, le_rfl, supported_manifest⟩
  · exact ⟨2, by decide, supported_device⟩

theorem validateDocument_decides {u : Unicode} (hu : NoDateTimeUpper u) {frames : ℕ} (hframes : 6 ≤ frames) {schema : SchemaFile}
    (hschema : schema = manifestFile ∨ schema = deviceFile) (document : Json) :
    Decides (validateDocument u frames schema document) (Satisfies (hostReading u) schema.defs schema.root document) := by
  obtain ⟨n, hn, hsupported⟩ := canonical_supported hschema
  rw [validateDocument, assertSupportedSchema_canonical hschema hframes]
  exact validateValue_decides (readsAs_host hu) hsupported (hn.trans hframes) document _

theorem loadDocument_ok {u : Unicode} {limits : Limits} {frames : ℕ} {schema : SchemaFile} {bytes : Bytes} {s : PyStr}
    {fields : List (PyStr × Json)} (hdecode : decodeUtf8 bytes = some s) (hloads : loads limits (universalNewlines s) = .ok (.dict fields))
    (hvalid : validateDocument u frames schema (.dict fields) = .ok ()) :
    loadDocument u limits frames schema (.ok bytes) = .ok (.dict fields) := by
  simp only [loadDocument, hdecode, hloads, hvalid]

/-- Loading returns the documents that are accepted, and raises a contract error on every other text. -/
theorem loadDocument_iff {u : Unicode} (hu : NoDateTimeUpper u) {limits : Limits} {frames : ℕ} (hframes : 6 ≤ frames)
    {schema : SchemaFile} (hschema : schema = manifestFile ∨ schema = deviceFile) {content : Bytes} {s : PyStr}
    (hcontent : Encodes content s) (hlimits : ¬ Overruns limits s) :
    (∀ document, loadDocument u limits frames schema (.ok content) = .ok document ↔ Accepted (hostReading u) schema s document) ∧
      ((∀ document, ¬ Accepted (hostReading u) schema s document) →
        ∃ message, loadDocument u limits frames schema (.ok content) = .error (.contract message)) := by
  obtain ⟨hjson, htotal⟩ := loads_text hlimits
  have hdecode := decodeUtf8_iff.mpr hcontent
  rcases htotal with ⟨v, hv⟩ | herror
  · have hunique : ∀ {document}, Accepted (hostReading u) schema s document → document = v := fun h =>
      h.json.unique hlimits ((hjson v).mp hv)
    by_cases hobject : ∃ fields, v = .dict fields
    · obtain ⟨fields, rfl⟩ := hobject
      rcases validateDocument_decides hu hframes hschema (.dict fields) with ⟨hok, hsat⟩ | ⟨⟨path, keyword, herror⟩, hsat⟩
      · have hload : loadDocument u limits frames schema (.ok content) = .ok (.dict fields) := by
          exact loadDocument_ok hdecode hv hok
        have haccepted : Accepted (hostReading u) schema s (.dict fields) := ⟨(hjson _).mp hv, ⟨fields, rfl⟩, hsat⟩
        refine ⟨fun document => ?_, fun h => absurd haccepted (h _)⟩
        rw [hload]
        exact ⟨fun h => Except.ok.inj h ▸ haccepted, fun h => by rw [hunique h]⟩
      · have hload : loadDocument u limits frames schema (.ok content) = .error (ContractExc.contract path keyword).toLoadExc := by
          simp only [loadDocument, hdecode, hv, herror]
        refine ⟨fun document => ?_, fun _ => ⟨_, hload⟩⟩
        rw [hload]
        refine ⟨fun h => (by cases h), fun h => ?_⟩
        obtain rfl := hunique h
        exact absurd h.satisfies hsat
    · have hload : loadDocument u limits frames schema (.ok content) = .error (.contract (text "metadata must be a JSON object")) := by
        simp only [loadDocument, hdecode, hv]
        cases v with
        | dict fields => exact absurd ⟨fields, rfl⟩ hobject
        | null | bool | int | float | str | list => rfl
      refine ⟨fun document => ?_, fun _ => ⟨_, hload⟩⟩
      rw [hload]
      refine ⟨fun h => (by cases h), fun h => ?_⟩
      obtain rfl := hunique h
      exact absurd h.object hobject
  · have hload : loadDocument u limits frames schema (.ok content) = .error (metadataUnavailable "JSONDecodeError") := by
      simp only [loadDocument, hdecode, herror]
    refine ⟨fun document => ?_, fun _ => ⟨_, hload⟩⟩
    rw [hload]
    refine ⟨fun h => (by cases h), fun h => ?_⟩
    have := (hjson document).mpr h.json
    rw [herror] at this
    cases this

section Samples

def pythonLimits : Limits := ⟨4300, by decide, 1000⟩

def utf8 (s : String) : Bytes := s.toList.flatMap String.utf8EncodeChar

def quoted (s : String) : String := "\"" ++ (s ++ "\"")

def member (name value : String) : String := quoted name ++ (":" ++ value)

/-- A manifest without recordings whose time of update ends in a newline. -/
def trailingNewline : String :=
  "\x7b" ++ (member "schemaVersion" "1" ++ ("," ++ (member "deviceId" (quoted "00000000-0000-0000-0000-000000000000") ++ ("," ++
    (member "updatedAt" (quoted "2026-10-03T12:00:00Z\\n") ++ ("," ++ (member "recordings" "[]" ++ "\x7d")))))))

def trailingNewlineDocument : Json :=
  .dict [(text "schemaVersion", .int 1), (text "deviceId", .str (text "00000000-0000-0000-0000-000000000000")),
    (text "updatedAt", .str (text "2026-10-03T12:00:00Z\n")), (text "recordings", .list [])]

theorem encodes_utf8 (s : String) : Encodes (utf8 s) (text s) := ⟨s.toList, rfl, rfl⟩

theorem text_append (s t : String) : text (s ++ t) = text s ++ text t := by
  rw [text, String.toList_append, List.map_append]
  rfl

theorem text_quoted (s : String) (rest : PyStr) : text (quoted s) ++ rest = 0x22 :: (text s ++ 0x22 :: rest) := by
  rw [quoted, text_append, text_append, List.append_assoc, List.append_assoc]
  rfl

/-- Characters that stand for themselves. -/
theorem chars_plain {a s str rest : PyStr} (ha : ∀ c ∈ a, 0x20 ≤ c ∧ c ≠ 0x22 ∧ c ≠ 0x5c) (h : Chars s str rest) :
    Chars (a ++ s) (a ++ str) rest := by
  induction a with
  | nil => exact h
  | cons c a ih =>
    obtain ⟨⟨hc, hquote, hslash⟩, ha⟩ := List.forall_mem_cons.mp ha
    exact .plain hc hquote hslash (ih ha)

/-- A member of an object, before what follows it. -/
theorem member_text {limit depth : ℕ} {name value : String} {v : Json} {rest : PyStr}
    (hname : ∀ c ∈ text name, 0x20 ≤ c ∧ c ≠ 0x22 ∧ c ≠ 0x5c) (hvalue : Value limit depth (text value ++ rest) v rest) :
    Member (Value limit depth) (text (member name value) ++ rest) (text name, v) rest := by
  have hchars := chars_plain hname (.quote (s := 0x3a :: (text value ++ rest)))
  rw [List.append_nil] at hchars
  rw [member, text_append, text_append, List.append_assoc, List.append_assoc, text_quoted]
  exact .mk (.mk hchars (.refl _)) (.refl _) hvalue

theorem isJson_trailingNewline : JsonText pythonLimits (text trailingNewline) trailingNewlineDocument := by
  have hsplit : text trailingNewline = 0x7b :: (text (member "schemaVersion" "1") ++ (0x2c ::
      (text (member "deviceId" (quoted "00000000-0000-0000-0000-000000000000")) ++ (0x2c ::
      (text (member "updatedAt" (quoted "2026-10-03T12:00:00Z\\n")) ++ (0x2c :: (text (member "recordings" "[]") ++ [0x7d]))))))) := by
    simp only [trailingNewline, text_append]
    rfl
  rw [hsplit]
  refine .mk (.refl _) (.inr (.object (.elements (.refl _) (.more (member_text (by decide) ?_) (.refl _) (.refl _)
    (.more (member_text (by decide) ?_) (.refl _) (.refl _) (.more (member_text (by decide) ?_) (.refl _) (.refl _)
      (.last (member_text (by decide) ?_) (.refl _)))))))) (.refl _)
  · have hone : NumberText (minus false ++ ([0x31] ++ ([] ++ []))) ⟨false, [0x31], [], none⟩ :=
      .mk (.digits (by decide) (by decide) (List.forall_mem_nil _)) .absent .absent
    exact .inl (.number hone (by decide))
  · rw [text_quoted]
    exact .inl (.string (chars_plain (by decide) .quote))
  · have hraw : text "2026-10-03T12:00:00Z\\n" = text "2026-10-03T12:00:00Z" ++ [0x5c, 0x6e] := rfl
    rw [text_quoted, hraw, List.append_assoc]
    exact .inl (.string (chars_plain (by decide) (.escape (.simple rfl) .quote)))
  · exact .inr (.array (.empty (.refl _)))

theorem noDateTimeUpper_asciiOnly : NoDateTimeUpper asciiOnly := by
  intro c hc
  refine ⟨c, List.mem_singleton_self c, Bool.eq_false_iff.mpr fun h => ?_⟩
  exact absurd (dateTimeChar_ascii h) (Nat.not_lt.mpr hc)

theorem loadDocument_sample :
    loadDocument asciiOnly pythonLimits 6 manifestFile (.ok (utf8 trailingNewline)) = .ok trailingNewlineDocument := by
  have hloads := loads_universalNewlines_ok_iff.mpr isJson_trailingNewline
  have hvalid : validateDocument asciiOnly 6 manifestFile trailingNewlineDocument = .ok () := by
    rw [validateDocument, assertSupportedSchema_canonical (.inl rfl) (by decide)]
    decide +kernel
  exact loadDocument_ok (decodeUtf8_iff.mpr (encodes_utf8 trailingNewline)) hloads hvalid

/-- A newline after a date-time is loaded, though no pattern of ECMA-262 that ends in `$` matches before it. -/
theorem loadDocument_trailingNewline : ∃ document,
    loadDocument asciiOnly pythonLimits 6 manifestFile (.ok (utf8 trailingNewline)) = .ok document ∧
      ¬ Satisfies (draftReading asciiOnly) manifestFile.defs manifestFile.root document := by
  refine ⟨trailingNewlineDocument, loadDocument_sample, ?_⟩
  rintro ⟨-, -, -, -, hproperties, -⟩
  have hreference := hproperties _ rfl (text "updatedAt", reference "offsetDateTime") (by simp [manifestFile, object, Schema.properties])
    (.str (text "2026-10-03T12:00:00Z\n")) rfl
  obtain ⟨-, -, href, -, -, -⟩ := hreference
  obtain ⟨hasserts, -, -, -, -, -⟩ := href _ rfl offsetDateTime rfl
  obtain ⟨-, -, -, -, -, hpattern, -⟩ := hasserts
  obtain ⟨p, hp, hfinds⟩ := hpattern _ rfl _ rfl
  obtain rfl : p = offsetPattern := Option.some.inj (hp.symm.trans rfl)
  have hsearch : Regex.search ecma262 offsetPattern (text "2026-10-03T12:00:00Z\n") = false := by decide +kernel
  exact Bool.false_ne_true (hsearch.symm.trans (Regex.search_iff.mpr hfinds))

theorem loadDocument_iff_trailingNewline : Accepted (hostReading asciiOnly) manifestFile (text trailingNewline) trailingNewlineDocument := by
  have hlimits : ¬ Overruns pythonLimits (text trailingNewline) := fun h => by
    obtain ⟨e, he, -⟩ := loads_error_iff.mp h
    rw [loads_ok_iff.mpr isJson_trailingNewline] at he
    cases he
  exact ((loadDocument_iff noDateTimeUpper_asciiOnly (by decide) (.inl rfl) (encodes_utf8 trailingNewline) hlimits).1
    trailingNewlineDocument).mp loadDocument_sample

end Samples

end Loading

end M5DayLog.Contract
