import AlertFilter.Json.Reader

/-!
# Decoders

A decoder turns a document into a value of some type, from left to right; the first thing wrong is
what it reports. A record may be written as an object or as an array of its fields in order. This
file holds the errors, the decoders of plain values and the steps that records are decoded with.
-/

namespace AlertFilter.Json

inductive Actual where
  | null
  | bool (value : Bool)
  | number (value : Number)
  | text (value : String)
  | array
  | object

def Actual.description : Actual → String
  | .null => "null"
  | .bool b => "boolean `" ++ (if b then "true" else "false") ++ "`"
  | .number (.whole z _) => "integer `" ++ toString z ++ "`"
  | .number (.float x) => "floating point `" ++ x.text ++ "`"
  | .text s => "string \"" ++ s ++ "\""
  | .array => "sequence"
  | .object => "map"

/-- Well-formed text of the wrong shape. -/
inductive ShapeError where
  | invalidType (actual : Actual) (expected : String)
  | missingField (name : String)
  | duplicateField (name : String)
  | invalidLength (length : Nat) (expected : String)
  | unknownVariant (name : String) (known : List String)
  | notSingleKey
  | noVariant (type : String)
  | unknownOperator (code : String)

def listVariants : List String → String
  | [] => "there are no variants"
  | [a] => "expected `" ++ a ++ "`"
  | [a, b] => "expected `" ++ a ++ "` or `" ++ b ++ "`"
  | names => "expected one of " ++ ", ".intercalate (names.map fun n => "`" ++ n ++ "`")

def ShapeError.message : ShapeError → String
  | .invalidType actual expected =>
    "invalid type: " ++ actual.description ++ ", expected " ++ expected
  | .missingField name => "missing field `" ++ name ++ "`"
  | .duplicateField name => "duplicate field `" ++ name ++ "`"
  | .invalidLength n expected => "invalid length " ++ toString n ++ ", expected " ++ expected
  | .unknownVariant name known => "unknown variant `" ++ name ++ "`, " ++ listVariants known
  | .notSingleKey => "invalid value: map, expected map with a single key"
  | .noVariant type => "data did not match any variant of untagged enum " ++ type
  | .unknownOperator code => "Unknown operator: " ++ code

inductive DecodeError where
  | fault (fault : Fault)
  | shape (error : ShapeError)

def DecodeError.message : DecodeError → String
  | .fault f => f.message
  | .shape e => e.message

/-- Where a document comes from. From a text it is read to a limited depth, and what follows the
last field of a record written as an array is not part of it; a value in memory knows its length; so
does what has been set aside while its tag was looked for. -/
inductive Origin where
  | text (depth : Nat)
  | value
  | aside

def Origin.depth : Origin → Depth
  | .text n => some n
  | _ => none

/-- The depth to which a text is read. -/
def Origin.fromText : Origin := .text 127

/-- The origin of what is inside a container. -/
def Origin.enter : Origin → Except DecodeError Origin
  | .text 0 => .error (.fault .nestingTooDeep)
  | .text (n + 1) => .ok (.text n)
  | o => .ok o

abbrev Decoder (α : Type) := Origin → Document → Except DecodeError α

namespace Decoder

def shapeError {α : Type} (e : ShapeError) : Except DecodeError α := .error (.shape e)

/-- Reports a value of another type; a scalar is read to its end for that. -/
def mismatch {α : Type} (expected : String) : Document → Except DecodeError α
  | .null => shapeError (.invalidType .null expected)
  | .bool b => shapeError (.invalidType (.bool b) expected)
  | .number n => shapeError (.invalidType (.number n) expected)
  | .text s => shapeError (.invalidType (.text s) expected)
  | .unusable f => .error (.fault f)
  | .broken f _ => .error (.fault f)
  | .array _ _ => shapeError (.invalidType .array expected)
  | .object _ _ => shapeError (.invalidType .object expected)

def ofFault {α : Type} : Except Fault α → Except DecodeError α
  | .ok a => .ok a
  | .error f => .error (.fault f)

/-- The value of a document as it is. -/
def value : Decoder Json := fun origin d => ofFault (d.whole origin.depth)

def skip (d : Document) : Except DecodeError Unit := ofFault d.skip

def text : Decoder String
  | _, .text s => .ok s
  | _, d => mismatch "a string" d

def bool : Decoder Bool
  | _, .bool b => .ok b
  | _, d => mismatch "a boolean" d

def optional {α : Type} (decode : Decoder α) : Decoder (Option α)
  | _, .null => .ok none
  | origin, d => (decode origin d).map some

/-- The end of a container whose content is used. -/
def atEnd : Option Break → Except DecodeError Unit
  | none => .ok ()
  | some b => .error (.fault b.used)

def items {α : Type} (decode : Decoder α) (origin : Origin) :
    List Document → Except DecodeError (List α)
  | [] => .ok []
  | d :: rest => do
    let a ← decode origin d
    let as ← items decode origin rest
    return a :: as

def list {α : Type} (decode : Decoder α) : Decoder (List α)
  | origin, .array ds ending => do
    let origin ← origin.enter
    let as ← items decode origin ds
    atEnd ending
    return as
  | _, d => mismatch "a sequence" d

/-! ### Records as objects -/

/-- Fills a slot, once. -/
def fill {α : Type} (slot : Option α) (name : String) (a : Except DecodeError α) :
    Except DecodeError (Option α) :=
  match slot with
  | some _ => shapeError (.duplicateField name)
  | none => a.map some

def foldMembers {σ : Type} (take : σ → String → Document → Except DecodeError σ) (s : σ) :
    Document.Members → Except DecodeError σ
  | [] => .ok s
  | (name, d) :: rest => do
    let name ← ofFault name
    let s ← take s name d
    foldMembers take s rest

def required {α : Type} (slot : Option α) (name : String) : Except DecodeError α :=
  match slot with
  | some a => .ok a
  | none => shapeError (.missingField name)

/-! ### Records as arrays -/

structure Cursor where
  items : List Document
  ending : Option Break
  taken : Nat

def Cursor.start (items : List Document) (ending : Option Break) : Cursor := ⟨items, ending, 0⟩

/-- The next field, or `default` if the array has come to its end. -/
def Cursor.next {α : Type} (c : Cursor) (origin : Origin) (decode : Decoder α)
    (default : Except DecodeError α) : Except DecodeError (α × Cursor) :=
  match c.items with
  | d :: rest => do
    let a ← decode origin d
    return (a, { c with items := rest, taken := c.taken + 1 })
  | [] => do
    atEnd c.ending
    let a ← default
    return (a, c)

def Cursor.require {α : Type} (c : Cursor) (origin : Origin) (decode : Decoder α)
    (record : String) : Except DecodeError (α × Cursor) :=
  c.next origin decode (shapeError (.invalidLength c.taken record))

def countItems (n : Nat) : String :=
  if n = 1 then "1 element in sequence" else toString n ++ " elements in sequence"

/-- After the last field the array must end. -/
def Cursor.finish (c : Cursor) (origin : Origin) : Except DecodeError Unit :=
  match c.items, c.ending with
  | [], none => .ok ()
  | [], some b => .error (.fault b.ended)
  | _ :: _, _ =>
    match origin with
    | .text _ => .error (.fault .trailingCharacters)
    | .value => shapeError (.invalidLength (c.taken + c.items.length) "fewer elements in array")
    | .aside => shapeError (.invalidLength (c.taken + c.items.length) (countItems c.taken))

end Decoder

def decodeText {α : Type} (decode : Decoder α) (s : String) : Except DecodeError α := do
  let reading := read s
  let a ← decode .fromText reading.document
  if reading.trailing then .error (.fault .trailingCharacters) else return a

def decodeValue {α : Type} (decode : Decoder α) (v : Json) : Except DecodeError α :=
  decode .value (.ofJson v)

end AlertFilter.Json
