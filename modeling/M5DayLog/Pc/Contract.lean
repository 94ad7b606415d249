import M5DayLog.Pc.Sync

/-! The contract of the metadata files. A document is checked against a canonical schema by walking both: references,
types, constants, bounds, patterns and formats, then the properties of an object and the items of an array. -/

namespace M5DayLog.Contract

section Strings

/-- A string of the host: its code points, lone surrogates among them. -/
abbrev PyStr := List ℕ

def text (s : String) : PyStr := s.toList.map Char.toNat

/-- What the host knows of the characters above ASCII: decimal digits, white space, and upper case. -/
structure Unicode where
  decimal : ℕ → Option (Fin 10)
  space : ℕ → Bool
  upper : ℕ → PyStr

/-- Nothing above ASCII is a digit or white space. -/
def asciiOnly : Unicode := ⟨fun _ => none, fun _ => false, fun c => [c]⟩

/-- `s.replace(pattern, '')`, with `skip` characters of an occurrence still to be left out. -/
def removeFrom (pattern : PyStr) : ℕ → PyStr → PyStr
  | _, [] => []
  | skip + 1, _ :: s => removeFrom pattern skip s
  | 0, c :: s =>
    if pattern.isPrefixOf (c :: s) then removeFrom pattern (pattern.length - 1) s else c :: removeFrom pattern 0 s

def removeText (pattern s : PyStr) : PyStr := removeFrom pattern 0 s

/-- `s.strip(...)` of the characters that meet `p`. -/
def strip (p : ℕ → Bool) (s : PyStr) : PyStr := ((s.dropWhile p).reverse.dropWhile p).reverse

def hexDigit (c : ℕ) : Option ℕ :=
  if 0x30 ≤ c ∧ c ≤ 0x39 then some (c - 0x30)
  else if 0x61 ≤ c ∧ c ≤ 0x66 then some (c - 0x61 + 10)
  else if 0x41 ≤ c ∧ c ≤ 0x46 then some (c - 0x41 + 10)
  else none

def isSpace (c : ℕ) : Bool := c = 0x20 || (0x09 ≤ c && c ≤ 0x0d)

/-- A number is read in ASCII: other white space counts as a blank, other decimal digits as their ASCII ones. -/
def toAscii (u : Unicode) (c : ℕ) : ℕ :=
  if c < 0x80 then c
  else if u.space c then 0x20
  else
    match u.decimal c with
    | some d => 0x30 + d
    | none => 0x3f

def isDigitOrUnderscore (c : ℕ) : Bool := (hexDigit c).isSome || c = 0x5f

def hexValue (s : PyStr) : ℕ := s.foldl (fun n c => match hexDigit c with
  | some d => n * 16 + d
  | none => n) 0

/-- Underscores stand only between two digits. -/
def wellSpaced (s : PyStr) : Bool :=
  s.head? ≠ some 0x5f && s.getLast? ≠ some 0x5f && !(s.zip s.tail).contains (0x5f, 0x5f)

/-- What follows the prefix of a number to the base 16. -/
def afterPrefix (s : PyStr) : PyStr :=
  match s with
  | 0x30 :: x :: rest =>
    if x = 0x78 ∨ x = 0x58 then if rest.head? = some 0x5f then rest.tail else rest
    else s
  | _ => s

/-- `int(s, 16)`. -/
def pyIntHex (u : Unicode) (s : PyStr) : Option ℤ :=
  let s := (s.map (toAscii u)).dropWhile isSpace
  let unsigned := afterPrefix (if s.head? = some 0x2b ∨ s.head? = some 0x2d then s.tail else s)
  let digits := unsigned.takeWhile isDigitOrUnderscore
  if digits = [] ∨ !wellSpaced digits ∨ !(unsigned.dropWhile isDigitOrUnderscore).all isSpace then none
  else if s.head? = some 0x2d then some (-(hexValue digits : ℤ)) else some (hexValue digits : ℤ)

def isBrace (c : ℕ) : Bool := c = 0x7b || c = 0x7d

/-- The literal that `uuid.UUID(value)` reads. -/
def uuidHex (value : PyStr) : PyStr :=
  (strip isBrace (removeText (text "uuid:") (removeText (text "urn:") value))).filter (· ≠ 0x2d)

/-- `uuid.UUID(value)`, as the number it stores. -/
def uuidParse (u : Unicode) (value : PyStr) : Option ℤ :=
  if (uuidHex value).length ≠ 32 then none
  else (pyIntHex u (uuidHex value)).filter fun n => 0 ≤ n ∧ n < 2 ^ 128

/-- `_RFC3339_DATETIME.match(value.upper())`; only ASCII matches. -/
def rfc3339Groups (u : Unicode) (value : PyStr) : Option (ℕ × ℕ × ℕ) :=
  let upper := value.flatMap fun c => if c < 0x80 then [(PcSync.upper c.toUInt8).toNat] else u.upper c
  if upper.all (· < 0x80) then PcSync.rfc3339Date (upper.map Nat.toUInt8) else none

end Strings

section Documents

/-- A floating-point number of the host, as the number it stands for. -/
inductive PyFloat
  | finite (q : ℚ)
  | infinite (negative : Bool)
  | nan
  deriving DecidableEq

/-- A parsed JSON value. -/
inductive Json
  | null
  | bool (b : Bool)
  | int (n : ℤ)
  | float (x : PyFloat)
  | str (s : PyStr)
  | list (items : List Json)
  | dict (fields : List (PyStr × Json))

inductive JsonType
  | object
  | array
  | string
  | integer
  deriving DecidableEq

/-- A schema, with the keywords that the canonical files use. A reference names a definition of the file. -/
inductive Schema
  | mk (ref : Option PyStr) (type : Option JsonType) (const : Option ℤ) (enum : Option (List PyStr)) (minLength : Option ℕ)
    (minimum : Option ℤ) (pattern : Option PyStr) (format : Option PyStr) (required : List PyStr)
    (properties : List (PyStr × Schema)) (items : Option Schema)

namespace Schema

def ref : Schema → Option PyStr
  | .mk ref .. => ref

def required : Schema → List PyStr
  | .mk _ _ _ _ _ _ _ _ required _ _ => required

def properties : Schema → List (PyStr × Schema)
  | .mk _ _ _ _ _ _ _ _ _ properties _ => properties

def items : Schema → Option Schema
  | .mk _ _ _ _ _ _ _ _ _ _ items => items

end Schema

structure SchemaFile where
  defs : List (PyStr × Schema)
  root : Schema

/-- A `ContractValidationError` with its path and keyword, or another exception. -/
inductive ContractExc
  | contract (path keyword : PyStr)
  | typeError
  | recursion
  deriving DecidableEq

namespace Json

def isInteger : Json → Bool
  | .int _ => true
  | .float (.finite q) => q.den = 1
  | _ => false

def hasType : Json → JsonType → Bool
  | .dict _, .object => true
  | .list _, .array => true
  | .str _, .string => true
  | value, .integer => value.isInteger
  | _, _ => false

/-- `value == n`. -/
def eqInt : Json → ℤ → Bool
  | .bool b, n => (if b then 1 else 0) = n
  | .int m, n => m = n
  | .float (.finite q), n => q = n
  | _, _ => false

/-- `value in names`. -/
def isOneOf : Json → List PyStr → Bool
  | .str s, names => s ∈ names
  | _, _ => false

/-- `len(value)`. -/
def len : Json → Option ℕ
  | .str s => some s.length
  | .list items => some items.length
  | .dict fields => some fields.length
  | _ => none

/-- `value < n`. -/
def ltInt : Json → ℤ → Option Bool
  | .bool b, n => some ((if b then 1 else 0) < n)
  | .int m, n => some (m < n)
  | .float (.finite q), n => some (q < n)
  | .float (.infinite negative), _ => some negative
  | .float .nan, _ => some false
  | _, _ => none

/-- `value[name]`, of an object that has it. -/
def get (value : Json) (name : PyStr) : Option Json :=
  match value with
  | .dict fields => fields.lookup name
  | _ => none

end Json

end Documents

section Validation

-- `search pattern value`: whether `re.search` finds the pattern
variable (u : Unicode) (search : PyStr → PyStr → Bool)

def contractError {α : Type} (path : PyStr) (keyword : String) : Except ContractExc α := .error (.contract path (text keyword))

def validateFormat (value format path : PyStr) : Except ContractExc Unit :=
  if format = text "uuid" then
    if uuidParse u value = none then contractError path "format"
    else if [8, 13, 18, 23].all fun position => value[position]? = some 0x2d then .ok ()
    else contractError path "format"
  else if format = text "date-time" then
    match rfc3339Groups u value with
    | none => contractError path "format"
    | some (year, month, day) =>
      if year = 0 ∨ ¬ (1 ≤ day ∧ day ≤ Calendar.monthDays year month) then contractError path "format" else .ok ()
  else contractError path "unsupported-format"

/-- A keyword that is either met or named in the error. -/
def check (ok : Bool) (path : PyStr) (keyword : String) : Except ContractExc Unit :=
  if ok then .ok () else contractError path keyword

def validateMinLength (value : Json) (path : PyStr) : Option ℕ → Except ContractExc Unit
  | none => .ok ()
  | some n =>
    match value.len with
    | none => .error .typeError
    | some k => check (n ≤ k) path "minLength"

def validateMinimum (value : Json) (path : PyStr) : Option ℤ → Except ContractExc Unit
  | none => .ok ()
  | some n =>
    match value.ltInt n with
    | none => .error .typeError
    | some below => check (!below) path "minimum"

def validatePattern (value : Json) (path : PyStr) : Option PyStr → Except ContractExc Unit
  | none => .ok ()
  | some pattern =>
    match value with
    | .str s => check (search pattern s) path "pattern"
    | _ => contractError path "pattern"

def validateStringFormat (value : Json) (path : PyStr) : Option PyStr → Except ContractExc Unit
  | none => .ok ()
  | some format =>
    match value with
    | .str s => validateFormat u s format path
    | _ => contractError path "format"

/-- The keywords that look at the value alone. -/
def validateScalar (value : Json) (path : PyStr) : Schema → Except ContractExc Unit
  | .mk _ type const enum minLength minimum pattern format _ _ _ => do
    check ((type.map value.hasType).getD true) path "type"
    check ((const.map value.eqInt).getD true) path "const"
    check ((enum.map value.isOneOf).getD true) path "enum"
    validateMinLength value path minLength
    validateMinimum value path minimum
    validatePattern search value path pattern
    validateStringFormat u value path format

/-- A check of every element in turn. -/
def allOk {ε α : Type} (check : α → Except ε Unit) : List α → Except ε Unit
  | [] => .ok ()
  | x :: xs => do
    check x
    allOk check xs

def validateRequired (fields : List (PyStr × Json)) (path : PyStr) (required : List PyStr) : Except ContractExc Unit :=
  allOk (fun name => check (fields.lookup name).isSome path "required") required

/-- The definition that a reference names. -/
def validateRef (defs : List (PyStr × Schema)) (validate : Json → Schema → PyStr → Except ContractExc Unit) (value : Json)
    (path : PyStr) : Option PyStr → Except ContractExc Unit
  | none => .ok ()
  | some name =>
    match defs.lookup name with
    | none => contractError (text "$") "$ref"
    | some schema => validate value schema path

/-- The properties that an object has. -/
def validateProperties (validate : Json → Schema → PyStr → Except ContractExc Unit) (fields : List (PyStr × Json)) (path : PyStr)
    (properties : List (PyStr × Schema)) : Except ContractExc Unit :=
  allOk (fun p => match fields.lookup p.1 with
    | none => .ok ()
    | some child => validate child p.2 (path ++ 0x2e :: p.1)) properties

def validateItems (validate : Json → Schema → PyStr → Except ContractExc Unit) (values : List Json) (path : PyStr) :
    Option Schema → Except ContractExc Unit
  | none => .ok ()
  | some schema =>
    allOk (fun p => validate p.1 schema (path ++ 0x5b :: ((Bytes.dec p.2).map UInt8.toNat ++ [0x5d]))) values.zipIdx

def validateValue (defs : List (PyStr × Schema)) : (fuel : ℕ) → Json → Schema → PyStr → Except ContractExc Unit
  | 0, _, _, _ => .error .recursion
  | fuel + 1, value, schema, path => do
    validateRef defs (validateValue defs fuel) value path schema.ref
    validateScalar u search value path schema
    match value with
    | .dict fields =>
      validateRequired fields path schema.required
      validateProperties (validateValue defs fuel) fields path schema.properties
    | .list values => validateItems (validateValue defs fuel) values path schema.items
    | _ => .ok ()

def validateContractDocument (file : SchemaFile) (fuel : ℕ) (document : Json) : Except ContractExc Unit :=
  validateValue u search file.defs fuel document file.root (text "$")

end Validation

section Canonical

/-- A schema of one type that says nothing else. -/
def ofType (type : JsonType) : Schema := .mk none (some type) none none none none none none [] [] none

def formatted (format : String) : Schema := .mk none (some .string) none none none none none (some (text format)) [] [] none

def patterned (pattern : String) : Schema := .mk none (some .string) none none none none (some (text pattern)) none [] [] none

def atLeast (minimum : ℤ) : Schema := .mk none (some .integer) none none none (some minimum) none none [] [] none

def nonEmpty : Schema := .mk none (some .string) none none (some 1) none none none [] [] none

def reference (name : String) : Schema := .mk (some (text name)) none none none none none none none [] [] none

def schemaVersion : Schema := .mk none (some .integer) (some 1) none none none none none [] [] none

def object (required : List String) (properties : List (String × Schema)) : Schema :=
  .mk none (some .object) none none none none none none (required.map text) (properties.map fun p => (text p.1, p.2)) none

def offsetDateTime : Schema :=
  .mk none (some .string) none none none none (some (text "(?:Z|[+-][0-9]\x7b2\x7d:[0-9]\x7b2\x7d)$")) (some (text "date-time")) [] [] none

def recordingSchema : Schema :=
  object ["recordingId", "filename", "startedAt", "durationMs", "sizeBytes", "sha256", "sampleRate", "bitDepth", "channels",
      "state", "firmwareVersion"]
    [("recordingId", formatted "uuid"), ("filename", patterned "^.+\\.wav$"), ("startedAt", reference "offsetDateTime"),
      ("durationMs", atLeast 0), ("sizeBytes", atLeast 0), ("sha256", patterned "^[0-9a-f]\x7b64\x7d$"), ("sampleRate", atLeast 1),
      ("bitDepth", atLeast 1), ("channels", atLeast 1),
      ("state", .mk none (some .string) none (some [text "finalized", text "recovered"]) none none none none [] [] none),
      ("firmwareVersion", nonEmpty)]

/-- `manifest.schema.json`. -/
def manifestFile : SchemaFile where
  defs := [(text "offsetDateTime", offsetDateTime), (text "recording", recordingSchema)]
  root :=
    object ["schemaVersion", "deviceId", "updatedAt", "recordings"]
      [("schemaVersion", schemaVersion), ("deviceId", formatted "uuid"), ("updatedAt", reference "offsetDateTime"),
        ("recordings", .mk none (some .array) none none none none none none [] [] (some (reference "recording")))]

/-- `device.schema.json`. -/
def deviceFile : SchemaFile where
  defs := []
  root :=
    object ["schemaVersion", "deviceId", "model", "firmwareVersion", "audioCapabilities"]
      [("schemaVersion", schemaVersion), ("deviceId", formatted "uuid"), ("model", nonEmpty), ("firmwareVersion", nonEmpty),
        ("audioCapabilities", ofType .object)]

end Canonical

end M5DayLog.Contract
