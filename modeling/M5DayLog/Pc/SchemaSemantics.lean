import M5DayLog.Pc.Contract

/-! What a schema says of a document, keyword by keyword: an assertion about strings, numbers, objects or arrays holds of every
value of another type. A validation decides it on every schema that pairs such a keyword with its type. -/

namespace M5DayLog.Contract

/-- What patterns and formats say of a string. -/
structure Reading where
  finds : PyStr → PyStr → Prop
  format : PyStr → PyStr → Prop

namespace Json

/-- The number that a value is; a boolean is none. -/
def number : Json → Option ℚ
  | .int n => some (n : ℚ)
  | .float (.finite q) => some q
  | _ => none

def OfType (value : Json) : JsonType → Prop
  | .object => ∃ fields, value = .dict fields
  | .array => ∃ items, value = .list items
  | .string => ∃ s, value = .str s
  | .integer => ∃ n : ℤ, value.number = some (n : ℚ)

end Json

section Semantics

/-- The keywords that look at the value alone. -/
def Schema.Asserts (r : Reading) (value : Json) : Schema → Prop
  | .mk _ type const enum minLength minimum pattern format _ _ _ =>
    (∀ t ∈ type, value.OfType t) ∧ (∀ n ∈ const, value.number = some (n : ℚ)) ∧ (∀ names ∈ enum, ∃ name ∈ names, value = .str name) ∧
      (∀ n ∈ minLength, ∀ s, value = .str s → n ≤ s.length) ∧ (∀ n ∈ minimum, ∀ q, value.number = some q → (n : ℚ) ≤ q) ∧
      (∀ p ∈ pattern, ∀ s, value = .str s → r.finds p s) ∧ (∀ f ∈ format, ∀ s, value = .str s → r.format f s)

/-- The value satisfies the schema; a reference asks for the definition that it names. -/
inductive Satisfies (r : Reading) (defs : List (PyStr × Schema)) : Schema → Json → Prop
  | mk {schema value} (hasserts : schema.Asserts r value)
    (hresolves : ∀ name ∈ schema.ref, (defs.lookup name).isSome)
    (href : ∀ name ∈ schema.ref, ∀ definition, defs.lookup name = some definition → Satisfies r defs definition value)
    (hrequired : ∀ fields, value = .dict fields → ∀ name ∈ schema.required, (fields.lookup name).isSome)
    (hproperties : ∀ fields, value = .dict fields → ∀ p ∈ schema.properties, ∀ child, fields.lookup p.1 = some child →
      Satisfies r defs p.2 child)
    (hitems : ∀ values, value = .list values → ∀ item ∈ schema.items, ∀ child ∈ values, Satisfies r defs item child) :
    Satisfies r defs schema value

def knownFormats : List PyStr := [text "uuid", text "date-time"]

/-- A keyword about one type stands beside that type, and a format is a known one. -/
def Schema.Guarded : Schema → Prop
  | .mk _ type const enum minLength minimum pattern format _ _ _ =>
    (const ≠ none ∨ minimum ≠ none → type = some .integer) ∧
      (enum ≠ none ∨ minLength ≠ none ∨ pattern ≠ none ∨ format ≠ none → type = some .string) ∧ (∀ f ∈ format, f ∈ knownFormats)

/-- The schema is guarded and resolved down to its leaves, and at most `n` calls deep. -/
def Supported (defs : List (PyStr × Schema)) : ℕ → Schema → Prop
  | 0, _ => False
  | n + 1, schema => schema.Guarded ∧
      (∀ name ∈ schema.ref, ∃ definition, defs.lookup name = some definition ∧ Supported defs n definition) ∧
      (∀ p ∈ schema.properties, Supported defs n p.2) ∧ (∀ item ∈ schema.items, Supported defs n item)

end Semantics

section Decisions

/-- The check passes if the statement holds, and raises a `ContractValidationError` if not. -/
def Decides (x : Except ContractExc Unit) (p : Prop) : Prop := (x = .ok () ∧ p) ∨ ((∃ path keyword, x = .error (.contract path keyword)) ∧ ¬ p)

variable {x y : Except ContractExc Unit} {p q : Prop}

theorem Decides.congr (h : Decides x p) (hpq : p ↔ q) : Decides x q := by
  rwa [Decides, ← hpq]

theorem decides_ok (hp : p) : Decides (.ok ()) p := .inl ⟨rfl, hp⟩

theorem decides_contractError {path : PyStr} {keyword : String} (hp : ¬ p) : Decides (contractError path keyword) p :=
  .inr ⟨⟨path, text keyword, rfl⟩, hp⟩

theorem decides_check {b : Bool} {path : PyStr} {keyword : String} (h : b = true ↔ p) : Decides (check b path keyword) p := by
  cases b with
  | true => exact decides_ok (h.mp rfl)
  | false => exact decides_contractError fun hp => Bool.false_ne_true (h.mpr hp)

/-- Checks in a row decide a conjunction; a check may rely on those before it. -/
theorem Decides.and (hx : Decides x p) (hy : p → Decides y q) : Decides (x >>= fun _ => y) (p ∧ q) := by
  rcases hx with ⟨rfl, hp⟩ | ⟨⟨path, keyword, rfl⟩, hp⟩
  · exact (hy hp).congr ⟨fun hq => ⟨hp, hq⟩, And.right⟩
  · exact .inr ⟨⟨path, keyword, rfl⟩, fun h => hp h.1⟩

theorem decides_allOk {α : Type} {check : α → Except ContractExc Unit} {P : α → Prop} {xs : List α}
    (h : ∀ x ∈ xs, Decides (check x) (P x)) : Decides (allOk check xs) (∀ x ∈ xs, P x) := by
  induction xs with
  | nil => exact decides_ok fun x hx => absurd hx List.not_mem_nil
  | cons x xs ih =>
    have hxs := ih fun y hy => h y (List.mem_cons_of_mem _ hy)
    exact ((h x List.mem_cons_self).and fun _ => hxs).congr List.forall_mem_cons.symm

end Decisions

section Validation

variable {u : Unicode} {search : PyStr → PyStr → Bool} {r : Reading} {defs : List (PyStr × Schema)}

/-- The patterns and the formats of the validation are read as `r` reads them. -/
structure ReadsAs (u : Unicode) (search : PyStr → PyStr → Bool) (r : Reading) : Prop where
  finds : ∀ pattern s, search pattern s = true ↔ r.finds pattern s
  format : ∀ format ∈ knownFormats, ∀ s path, Decides (validateFormat u s format path) (r.format format s)

theorem isInteger_iff {value : Json} : value.isInteger = true ↔ ∃ n : ℤ, value.number = some (n : ℚ) := by
  cases value with
  | int n => exact ⟨fun _ => ⟨n, rfl⟩, fun _ => rfl⟩
  | float x =>
    cases x with
    | finite q =>
      simp only [Json.isInteger, Json.number, Option.some.injEq, decide_eq_true_eq]
      constructor
      · intro h
        exact ⟨q.num, (Rat.coe_int_num_of_den_eq_one h).symm⟩
      · rintro ⟨n, rfl⟩
        rfl
    | infinite | nan => simp [Json.isInteger, Json.number]
  | null | bool | str | list | dict => simp [Json.isInteger, Json.number]

theorem hasType_iff {value : Json} {t : JsonType} : value.hasType t = true ↔ value.OfType t := by
  cases t with
  | integer =>
    have h : value.hasType .integer = value.isInteger := by cases value <;> rfl
    rw [h]
    exact isInteger_iff
  | object | array | string => cases value <;> simp [Json.hasType, Json.OfType]

theorem isOneOf_iff {value : Json} {names : List PyStr} : value.isOneOf names = true ↔ ∃ name ∈ names, value = .str name := by
  cases value <;> simp [Json.isOneOf]

/-- An integer is compared as the number that it is. -/
theorem eqInt_iff {value : Json} {n : ℤ} (h : value.OfType .integer) : value.eqInt n = true ↔ value.number = some (n : ℚ) := by
  obtain ⟨m, hm⟩ := h
  match value, hm with
  | .int k, _ => simp [Json.eqInt, Json.number]
  | .float (.finite q), _ => simp [Json.eqInt, Json.number]

theorem ltInt_of_integer {value : Json} {n : ℤ} (h : value.OfType .integer) :
    ∃ below, value.ltInt n = some below ∧ ((!below) = true ↔ ∀ q, value.number = some q → (n : ℚ) ≤ q) := by
  obtain ⟨m, hm⟩ := h
  match value, hm with
  | .int k, _ => exact ⟨_, rfl, by simp [Json.number]⟩
  | .float (.finite q), _ => exact ⟨_, rfl, by simp [Json.number]⟩

theorem decides_type (value : Json) (path : PyStr) (type : Option JsonType) :
    Decides (check ((type.map value.hasType).getD true) path "type") (∀ t ∈ type, value.OfType t) := by
  refine decides_check ?_
  cases type with
  | none => simp
  | some t => simp [hasType_iff]

theorem decides_scalar (hr : ReadsAs u search r) {schema : Schema} (hguarded : schema.Guarded) (value : Json) (path : PyStr) :
    Decides (validateScalar u search value path schema) (schema.Asserts r value) := by
  obtain ⟨ref, type, const, enum, minLength, minimum, pattern, format, required, properties, items⟩ := schema
  obtain ⟨hinteger, hstring, hknown⟩ := hguarded
  refine (decides_type value path type).and fun htype => ?_
  have ofInteger : const ≠ none ∨ minimum ≠ none → value.OfType .integer := fun h => htype _ (hinteger h)
  have ofString : enum ≠ none ∨ minLength ≠ none ∨ pattern ≠ none ∨ format ≠ none → ∃ s, value = .str s :=
    fun h => htype _ (hstring h)
  refine .and ?_ fun _ => .and ?_ fun _ => .and ?_ fun _ => .and ?_ fun _ => .and ?_ fun _ => ?_
  · refine decides_check ?_
    cases const with
    | none => simp
    | some n => simp [eqInt_iff (ofInteger (by simp))]
  · refine decides_check ?_
    cases enum with
    | none => simp
    | some names => simp [isOneOf_iff]
  · cases minLength with
    | none => exact decides_ok (by simp)
    | some n =>
      obtain ⟨s, rfl⟩ := ofString (by simp)
      exact decides_check (by simp)
  · cases minimum with
    | none => exact decides_ok (by simp)
    | some n =>
      obtain ⟨below, hbelow, hiff⟩ := ltInt_of_integer (n := n) (ofInteger (by simp))
      simp only [validateMinimum, hbelow]
      exact decides_check (by simpa using hiff)
  · cases pattern with
    | none => exact decides_ok (by simp)
    | some p =>
      obtain ⟨s, rfl⟩ := ofString (by simp)
      exact decides_check (by simp [hr.finds])
  · cases format with
    | none => exact decides_ok (by simp)
    | some f =>
      obtain ⟨s, rfl⟩ := ofString (by simp)
      exact (hr.format f (hknown f rfl) s path).congr (by simp)

theorem decides_ref {validate : Json → Schema → PyStr → Except ContractExc Unit} {value : Json} {path : PyStr} {ref : Option PyStr}
    {P : Schema → Prop} (h : ∀ name ∈ ref, ∃ definition, defs.lookup name = some definition ∧ Decides (validate value definition path) (P definition)) :
    Decides (validateRef defs validate value path ref) (∀ name ∈ ref, ∃ definition, defs.lookup name = some definition ∧ P definition) := by
  cases ref with
  | none => exact decides_ok (by simp)
  | some name =>
    obtain ⟨definition, hlookup, h⟩ := h name rfl
    simp only [validateRef, hlookup]
    exact h.congr (by simp [hlookup])

theorem decides_properties {validate : Json → Schema → PyStr → Except ContractExc Unit} {fields : List (PyStr × Json)} {path : PyStr}
    {properties : List (PyStr × Schema)} {P : Schema → Json → Prop}
    (h : ∀ p ∈ properties, ∀ value path, Decides (validate value p.2 path) (P p.2 value)) :
    Decides (validateProperties validate fields path properties)
      (∀ p ∈ properties, ∀ child, fields.lookup p.1 = some child → P p.2 child) := by
  refine decides_allOk fun p hp => ?_
  cases hlookup : fields.lookup p.1 with
  | none => exact decides_ok (by simp)
  | some child => exact (h p hp child _).congr (by simp)

theorem decides_items {validate : Json → Schema → PyStr → Except ContractExc Unit} {values : List Json} {path : PyStr}
    {items : Option Schema} {P : Schema → Json → Prop} (h : ∀ item ∈ items, ∀ value path, Decides (validate value item path) (P item value)) :
    Decides (validateItems validate values path items) (∀ item ∈ items, ∀ child ∈ values, P item child) := by
  cases items with
  | none => exact decides_ok (by simp)
  | some item =>
    refine (decides_allOk fun p _ => h item rfl p.1 _).congr ?_
    simp only [Option.mem_some_iff, forall_eq']
    constructor
    · intro hall child hchild
      obtain ⟨i, hi, rfl⟩ := List.getElem_of_mem hchild
      exact hall _ (List.mk_mem_zipIdx_iff_getElem?.mpr (List.getElem?_eq_getElem hi))
    · intro hall p hp
      exact hall p.1 (List.fst_mem_of_mem_zipIdx hp)

theorem satisfies_iff {schema : Schema} {value : Json} : Satisfies r defs schema value ↔
    (∀ name ∈ schema.ref, ∃ definition, defs.lookup name = some definition ∧ Satisfies r defs definition value) ∧ schema.Asserts r value ∧
      (∀ fields, value = .dict fields → (∀ name ∈ schema.required, (fields.lookup name).isSome) ∧
        ∀ p ∈ schema.properties, ∀ child, fields.lookup p.1 = some child → Satisfies r defs p.2 child) ∧
      ∀ values, value = .list values → ∀ item ∈ schema.items, ∀ child ∈ values, Satisfies r defs item child := by
  constructor
  · rintro ⟨hasserts, hresolves, href, hrequired, hproperties, hitems⟩
    refine ⟨fun name hname => ?_, hasserts, fun fields h => ⟨hrequired fields h, hproperties fields h⟩, hitems⟩
    obtain ⟨definition, hlookup⟩ := Option.isSome_iff_exists.mp (hresolves name hname)
    exact ⟨definition, hlookup, href name hname definition hlookup⟩
  · rintro ⟨href, hasserts, hobject, hitems⟩
    refine .mk hasserts (fun name hname => ?_) (fun name hname definition hlookup => ?_) (fun fields h => (hobject fields h).1)
      (fun fields h => (hobject fields h).2) hitems
    · obtain ⟨definition, hlookup, -⟩ := href name hname
      rw [hlookup, Option.isSome_some]
    · obtain ⟨_, hlookup', h⟩ := href name hname
      obtain rfl := Option.some.inj (hlookup'.symm.trans hlookup)
      exact h

theorem validateValue_succ (fuel : ℕ) (value : Json) (schema : Schema) (path : PyStr) :
    validateValue u search defs (fuel + 1) value schema path = (do
      validateRef defs (validateValue u search defs fuel) value path schema.ref
      validateScalar u search value path schema
      match value with
      | .dict fields =>
        validateRequired fields path schema.required
        validateProperties (validateValue u search defs fuel) fields path schema.properties
      | .list values => validateItems (validateValue u search defs fuel) values path schema.items
      | _ => .ok ()) := by
  cases value <;> rfl

/-- With calls enough for the schema, the validation decides whether the value satisfies it. -/
theorem validateValue_decides (hr : ReadsAs u search r) {n fuel : ℕ} {schema : Schema} (hsupported : Supported defs n schema)
    (hfuel : n ≤ fuel) (value : Json) (path : PyStr) :
    Decides (validateValue u search defs fuel value schema path) (Satisfies r defs schema value) := by
  induction n generalizing fuel schema value path with
  | zero => exact hsupported.elim
  | succ n ih =>
    obtain ⟨fuel, rfl⟩ := Nat.exists_eq_add_of_le' (Nat.le_of_add_left_le hfuel)
    have hle : n ≤ fuel := Nat.le_of_succ_le_succ hfuel
    obtain ⟨hguarded, href, hproperties, hitems⟩ := hsupported
    rw [validateValue_succ]
    refine Decides.congr (.and (decides_ref fun name hname => ?_) fun _ => .and (decides_scalar hr hguarded value path) fun _ => ?_)
      satisfies_iff.symm
    · obtain ⟨definition, hlookup, hdefinition⟩ := href name hname
      exact ⟨definition, hlookup, ih hdefinition hle value path⟩
    · cases value with
      | dict fields =>
        have hrequired : Decides (validateRequired fields path schema.required) (∀ name ∈ schema.required, (fields.lookup name).isSome) :=
          decides_allOk fun name _ => decides_check Iff.rfl
        refine (hrequired.and fun _ => decides_properties fun p hp value path => ih (hproperties p hp) hle value path).congr ?_
        simp
      | list values =>
        refine (decides_items fun item hitem value path => ih (hitems item hitem) hle value path).congr ?_
        simp
      | null | bool | int | float | str => exact decides_ok (by simp)

end Validation

section Canonical

variable {defs : List (PyStr × Schema)}

theorem supported_leaf {schema : Schema} (hguarded : schema.Guarded) (href : schema.ref = none) (hproperties : schema.properties = [])
    (hitems : schema.items = none) (n : ℕ) : Supported defs (n + 1) schema := by
  refine ⟨hguarded, ?_, ?_, ?_⟩
  · simp [href]
  · simp [hproperties]
  · simp [hitems]

theorem supported_reference {n : ℕ} {name : String} {definition : Schema} (hlookup : defs.lookup (text name) = some definition)
    (h : Supported defs n definition) : Supported defs (n + 1) (reference name) := by
  refine ⟨by simp [reference, Schema.Guarded], fun _ hname => ?_, by simp [reference, Schema.properties], by simp [reference, Schema.items]⟩
  obtain rfl := Option.some.inj hname
  exact ⟨definition, hlookup, h⟩

theorem supported_object {n : ℕ} {required : List String} {properties : List (String × Schema)}
    (h : ∀ p ∈ properties, Supported defs n p.2) : Supported defs (n + 1) (object required properties) := by
  refine ⟨by simp [object, Schema.Guarded], by simp [object, Schema.ref], fun p hp => ?_, by simp [object, Schema.items]⟩
  obtain ⟨q, hq, rfl⟩ := List.mem_map.mp hp
  exact h q hq

theorem supported_formatted {format : String} (h : text format ∈ knownFormats) (n : ℕ) : Supported defs (n + 1) (formatted format) :=
  supported_leaf (by simpa [formatted, Schema.Guarded]) rfl rfl rfl n

theorem supported_patterned (pattern : String) (n : ℕ) : Supported defs (n + 1) (patterned pattern) :=
  supported_leaf (by simp [patterned, Schema.Guarded]) rfl rfl rfl n

theorem supported_atLeast (minimum : ℤ) (n : ℕ) : Supported defs (n + 1) (atLeast minimum) :=
  supported_leaf (by simp [atLeast, Schema.Guarded]) rfl rfl rfl n

theorem supported_schemaVersion (n : ℕ) : Supported defs (n + 1) schemaVersion :=
  supported_leaf (by simp [schemaVersion, Schema.Guarded]) rfl rfl rfl n

theorem supported_nonEmpty (n : ℕ) : Supported defs (n + 1) nonEmpty :=
  supported_leaf (by simp [nonEmpty, Schema.Guarded]) rfl rfl rfl n

theorem supported_offsetDateTime (n : ℕ) : Supported defs (n + 1) offsetDateTime :=
  supported_leaf (by simp [offsetDateTime, Schema.Guarded, knownFormats]) rfl rfl rfl n

theorem supported_recordingSchema (n : ℕ) : Supported manifestFile.defs (n + 3) recordingSchema := by
  have huuid : text "uuid" ∈ knownFormats := by simp [knownFormats]
  refine supported_object ?_
  simp only [List.forall_mem_cons]
  exact ⟨supported_formatted huuid _, supported_patterned _ _, supported_reference rfl (supported_offsetDateTime n), supported_atLeast _ _,
    supported_atLeast _ _, supported_patterned _ _, supported_atLeast _ _, supported_atLeast _ _, supported_atLeast _ _,
    supported_leaf (by simp [Schema.Guarded]) rfl rfl rfl _, supported_nonEmpty _, List.forall_mem_nil _⟩

theorem supported_manifest : Supported manifestFile.defs 6 manifestFile.root := by
  have huuid : text "uuid" ∈ knownFormats := by simp [knownFormats]
  refine supported_object ?_
  simp only [List.forall_mem_cons]
  refine ⟨supported_schemaVersion _, supported_formatted huuid _, supported_reference rfl (supported_offsetDateTime 3), ?_,
    List.forall_mem_nil _⟩
  refine ⟨by simp [Schema.Guarded], by simp [Schema.ref], by simp [Schema.properties], fun item hitem => ?_⟩
  obtain rfl := Option.some.inj hitem
  exact supported_reference rfl (supported_recordingSchema 0)

theorem supported_device : Supported deviceFile.defs 2 deviceFile.root := by
  have huuid : text "uuid" ∈ knownFormats := by simp [knownFormats]
  refine supported_object ?_
  simp only [List.forall_mem_cons]
  exact ⟨supported_schemaVersion _, supported_formatted huuid _, supported_nonEmpty _, supported_nonEmpty _,
    supported_leaf (by simp [ofType, Schema.Guarded]) rfl rfl rfl _, List.forall_mem_nil _⟩

end Canonical

end M5DayLog.Contract
