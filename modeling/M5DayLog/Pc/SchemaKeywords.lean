import M5DayLog.Pc.SchemaSemantics

/-! The files of the schemas. Before it validates, the program checks that it knows every keyword of the schema; the check passes on
the file of every schema that the validation can read. -/

namespace M5DayLog.Contract

section Keywords

/-- `_SCHEMA_KEYS`. -/
def schemaKeys : List PyStr :=
  ["$schema", "title", "$defs", "type", "required", "properties", "const", "format", "minLength", "$ref", "pattern", "minimum", "enum",
    "items"].map text

/-- The schemas that stand by name under a keyword. -/
def assertNamed (assert : Json → PyStr → Except ContractExc Unit) (path : PyStr) (keyword : String) :
    Option Json → Except ContractExc Unit
  | none => .ok ()
  | some (.dict children) => allOk (fun p => assert p.2 (path ++ text ("." ++ keyword ++ ".") ++ p.1)) children
  | some _ => contractError path keyword

def assertItems (assert : Json → PyStr → Except ContractExc Unit) (path : PyStr) : Option Json → Except ContractExc Unit
  | none => .ok ()
  | some items => assert items (path ++ text ".items")

def assertSupportedSchema : (frames : ℕ) → Json → PyStr → Except ContractExc Unit
  | 0, _, _ => .error .recursion
  | frames + 1, .dict keywords, path => do
    check (keywords.all fun p => schemaKeys.contains p.1) path "unsupported-schema-keyword"
    assertNamed (assertSupportedSchema frames) path "$defs" (keywords.lookup (text "$defs"))
    assertNamed (assertSupportedSchema frames) path "properties" (keywords.lookup (text "properties"))
    assertItems (assertSupportedSchema frames) path (keywords.lookup (text "items"))
  | _ + 1, _, path => contractError path "schema"

def JsonType.name : JsonType → String
  | .object => "object"
  | .array => "array"
  | .string => "string"
  | .integer => "integer"

def keyword (name : String) (value : Option Json) : List (PyStr × Json) := (value.map fun v => (text name, v)).toList

def nonNil {α : Type} (f : List α → Json) (xs : List α) : Option Json := if xs.isEmpty then none else some (f xs)

mutual

/-- The keywords of a schema, as they stand in its file. -/
def Schema.keywords : Schema → List (PyStr × Json)
  | .mk ref type const enum minLength minimum pattern format required properties items =>
    keyword "$ref" (ref.map fun name => .str (text "#/$defs/" ++ name)) ++ (keyword "type" (type.map fun t => .str (text t.name)) ++
      (keyword "const" (const.map .int) ++ (keyword "enum" (enum.map fun names => .list (names.map .str)) ++
      (keyword "minLength" (minLength.map fun n => .int n) ++ (keyword "minimum" (minimum.map .int) ++
      (keyword "pattern" (pattern.map .str) ++ (keyword "format" (format.map .str) ++
      (keyword "required" (nonNil (fun names => .list (names.map .str)) required) ++
      (keyword "properties" (nonNil .dict (propertiesToJson properties)) ++ keyword "items" (itemsToJson items))))))))))

def propertiesToJson : List (PyStr × Schema) → List (PyStr × Json)
  | [] => []
  | p :: properties => propertyToJson p :: propertiesToJson properties

def propertyToJson : PyStr × Schema → PyStr × Json
  | (name, schema) => (name, .dict schema.keywords)

def itemsToJson : Option Schema → Option Json
  | none => none
  | some schema => some (.dict schema.keywords)

end

/-- The file of a schema, without its annotations. -/
def SchemaFile.toJson (file : SchemaFile) : Json := .dict (keyword "$defs" (nonNil .dict (propertiesToJson file.defs)) ++ file.root.keywords)

/-- The schema is at most `n` schemas deep, references aside. -/
def Nested : ℕ → Schema → Prop
  | 0, _ => False
  | n + 1, schema => (∀ p ∈ schema.properties, Nested n p.2) ∧ ∀ item ∈ schema.items, Nested n item

theorem Supported.nested {defs : List (PyStr × Schema)} {n : ℕ} {schema : Schema} (h : Supported defs n schema) : Nested n schema := by
  induction n generalizing schema with
  | zero => exact h
  | succ n ih => exact ⟨fun p hp => ih (h.2.2.1 p hp), fun item hitem => ih (h.2.2.2 item hitem)⟩

theorem keyword_lookup (name key : String) (value : Option Json) :
    (keyword name value).lookup (text key) = if text name = text key then value else none := by
  cases value with
  | none => simp [keyword]
  | some v =>
    by_cases h : text name = text key
    · simp [keyword, h]
    · simp [keyword, List.lookup_cons, h, beq_eq_false_iff_ne.mpr (Ne.symm h)]

theorem keyword_known {name : String} (h : text name ∈ schemaKeys) (value : Option Json) :
    ∀ p ∈ keyword name value, p.1 ∈ schemaKeys := by
  cases value with
  | none => exact List.forall_mem_nil _
  | some v => exact List.forall_mem_singleton.mpr h

theorem mem_propertiesToJson {properties : List (PyStr × Schema)} {q : PyStr × Json} (h : q ∈ propertiesToJson properties) :
    ∃ p ∈ properties, q = (p.1, .dict p.2.keywords) := by
  induction properties with
  | nil => cases h
  | cons p properties ih =>
    rcases List.mem_cons.mp h with rfl | h
    · exact ⟨p, List.mem_cons_self, by rw [propertyToJson]⟩
    · obtain ⟨p', hp', hq⟩ := ih h
      exact ⟨p', List.mem_cons_of_mem _ hp', hq⟩

theorem Schema.keywords_known (schema : Schema) : ∀ p ∈ schema.keywords, p.1 ∈ schemaKeys := by
  obtain ⟨ref, type, const, enum, minLength, minimum, pattern, format, required, properties, items⟩ := schema
  simp only [Schema.keywords, List.forall_mem_append]
  refine ⟨?_, ?_, ?_, ?_, ?_, ?_, ?_, ?_, ?_, ?_, ?_⟩ <;> exact keyword_known (by decide) _

theorem Schema.keywords_lookup (schema : Schema) :
    schema.keywords.lookup (text "$defs") = none ∧
      schema.keywords.lookup (text "properties") = nonNil .dict (propertiesToJson schema.properties) ∧
      schema.keywords.lookup (text "items") = itemsToJson schema.items := by
  obtain ⟨ref, type, const, enum, minLength, minimum, pattern, format, required, properties, items⟩ := schema
  refine ⟨?_, ?_, ?_⟩ <;> simp +decide only [Schema.keywords, Schema.properties, Schema.items, List.lookup_append, keyword_lookup, if_false, if_true, Option.or_none, Option.none_or]

theorem assertNamed_properties {assert : Json → PyStr → Except ContractExc Unit} {properties : List (PyStr × Schema)}
    (h : ∀ p ∈ properties, ∀ path, assert (.dict p.2.keywords) path = .ok ()) (path : PyStr) (keyword : String) :
    assertNamed assert path keyword (nonNil .dict (propertiesToJson properties)) = .ok () := by
  have hall : ∀ qs : List (PyStr × Json), (∀ q ∈ qs, ∀ path, assert q.2 path = .ok ()) →
      allOk (fun q => assert q.2 (path ++ text ("." ++ keyword ++ ".") ++ q.1)) qs = .ok () := by
    intro qs hqs
    induction qs with
    | nil => rfl
    | cons q qs ih =>
      obtain ⟨hq, hqs⟩ := List.forall_mem_cons.mp hqs
      rw [allOk, hq, ih hqs]
      rfl
  rw [nonNil]
  split
  · rfl
  · refine hall _ fun q hq path => ?_
    obtain ⟨p, hp, rfl⟩ := mem_propertiesToJson hq
    exact h p hp path

/-- A schema passes if its keywords are known and the schemas under them pass. -/
theorem assertSupportedSchema_dict {frames : ℕ} {keywords : List (PyStr × Json)} (defs properties : List (PyStr × Schema))
    (items : Option Schema) {path : PyStr} (hknown : ∀ p ∈ keywords, p.1 ∈ schemaKeys)
    (hdefs : keywords.lookup (text "$defs") = nonNil .dict (propertiesToJson defs))
    (hproperties : keywords.lookup (text "properties") = nonNil .dict (propertiesToJson properties))
    (hitems : keywords.lookup (text "items") = itemsToJson items)
    (hnamed : ∀ p ∈ defs ++ properties, ∀ path, assertSupportedSchema frames (.dict p.2.keywords) path = .ok ())
    (hitem : ∀ item ∈ items, ∀ path, assertSupportedSchema frames (.dict item.keywords) path = .ok ()) :
    assertSupportedSchema (frames + 1) (.dict keywords) path = .ok () := by
  have hall : (keywords.all fun p => schemaKeys.contains p.1) = true := by
    simpa only [List.all_eq_true, List.contains_iff_mem] using hknown
  obtain ⟨hdefsOk, hpropertiesOk⟩ := List.forall_mem_append.mp hnamed
  have hitemsOk : assertItems (assertSupportedSchema frames) path (itemsToJson items) = .ok () := by
    cases items with
    | none => rw [itemsToJson, assertItems]
    | some item => rw [itemsToJson, assertItems, hitem item rfl]
  rw [assertSupportedSchema, hall, hdefs, hproperties, hitems, assertNamed_properties hdefsOk, assertNamed_properties hpropertiesOk,
    hitemsOk]
  rfl

theorem assertSupportedSchema_keywords {n frames : ℕ} {schema : Schema} (h : Nested n schema) (hframes : n ≤ frames) (path : PyStr) :
    assertSupportedSchema frames (.dict schema.keywords) path = .ok () := by
  induction n generalizing frames schema path with
  | zero => exact h.elim
  | succ n ih =>
    obtain ⟨frames, rfl⟩ := Nat.exists_eq_add_of_le' (Nat.le_of_add_left_le hframes)
    have hle := Nat.le_of_succ_le_succ hframes
    obtain ⟨hdefs, hproperties, hitems⟩ := schema.keywords_lookup
    exact assertSupportedSchema_dict [] schema.properties schema.items schema.keywords_known hdefs hproperties hitems
      (fun p hp => ih (h.1 p hp) hle) fun item hitem => ih (h.2 item hitem) hle

/-- Every file of a schema passes the check of its keywords, with calls enough for its depth. -/
theorem assertSupportedSchema_toJson {n frames : ℕ} {file : SchemaFile} (hdefs : ∀ p ∈ file.defs, Nested n p.2)
    (hroot : Nested (n + 1) file.root) (hframes : n + 1 ≤ frames) (path : PyStr) :
    assertSupportedSchema frames file.toJson path = .ok () := by
  obtain ⟨frames, rfl⟩ := Nat.exists_eq_add_of_le' (Nat.le_of_add_left_le hframes)
  have hle := Nat.le_of_succ_le_succ hframes
  obtain ⟨hnone, hproperties, hitems⟩ := file.root.keywords_lookup
  refine assertSupportedSchema_dict file.defs file.root.properties file.root.items ?_ ?_ ?_ ?_
    (List.forall_mem_append.mpr ⟨fun p hp => ?_, fun p hp => ?_⟩) fun item hitem => ?_
  · exact List.forall_mem_append.mpr ⟨keyword_known (by decide) _, file.root.keywords_known⟩
  · simp +decide only [List.lookup_append, keyword_lookup, if_true, hnone, Option.or_none]
  · simp +decide only [List.lookup_append, keyword_lookup, if_false, Option.none_or, hproperties]
  · simp +decide only [List.lookup_append, keyword_lookup, if_false, Option.none_or, hitems]
  · exact assertSupportedSchema_keywords (hdefs p hp) hle
  · exact assertSupportedSchema_keywords (hroot.1 p hp) hle
  · exact assertSupportedSchema_keywords (hroot.2 item hitem) hle

/-- Both canonical files pass. -/
theorem assertSupportedSchema_canonical {file : SchemaFile} (hfile : file = manifestFile ∨ file = deviceFile) {frames : ℕ}
    (hframes : 6 ≤ frames) (path : PyStr) : assertSupportedSchema frames file.toJson path = .ok () := by
  rcases hfile with rfl | rfl
  · refine assertSupportedSchema_toJson ?_ supported_manifest.nested hframes path
    simp only [manifestFile, List.forall_mem_cons]
    have hdateTime : Supported manifestFile.defs 5 offsetDateTime := supported_offsetDateTime 4
    exact ⟨hdateTime.nested, (supported_recordingSchema 2).nested, List.forall_mem_nil _⟩
  · exact assertSupportedSchema_toJson (List.forall_mem_nil _) supported_device.nested (Nat.le_trans (by decide) hframes) path

end Keywords

end M5DayLog.Contract
