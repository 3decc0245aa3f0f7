import AlertFilter.Step.Patch

/-!
# Steps on the wire

A step is stored as one flat object: its own fields, and those of its kind beside them. Older
records spell some fields differently, put the ends of a range beside the step, and leave the tag of
the kind out; all of them are read, and a step is always written in the current form.
-/

namespace AlertFilter

open Json

def orNull {α : Type} (f : α → Json) : Option α → Json
  | some a => f a
  | none => .null

/-- A member that is left out when there is nothing to write. -/
def memberIf {α : Type} (name : String) (f : α → Json) : Option α → Members
  | some a => [(name, f a)]
  | none => []

def Operator.codeJson (o : Operator) : Json := .text o.code

def FilterId.toJson (id : FilterId) : Json := .text id.text

namespace Bounds

def toJson (b : Bounds) : Json :=
  .object [("min", orNull Literal.toJson b.min), ("max", orNull Literal.toJson b.max)]

structure Slots where
  min : Option (Option Literal)
  max : Option (Option Literal)

def take (origin : Origin) (s : Slots) (name : String) (d : Document) :
    Except DecodeError Slots :=
  match name with
  | "min" => do
    return { s with min := ← Decoder.fill s.min "min" (Decoder.optional Literal.decode origin d) }
  | "max" => do
    return { s with max := ← Decoder.fill s.max "max" (Decoder.optional Literal.decode origin d) }
  | _ => do
    Decoder.skip d
    return s

def decode : Decoder Bounds
  | origin, .object members ending => do
    let origin ← origin.enter
    let s ← Decoder.foldMembers (take origin) ⟨none, none⟩ members
    Decoder.atEnd ending
    return ⟨s.min.getD none, s.max.getD none⟩
  | origin, .array items ending => do
    let inner ← origin.enter
    let c := Decoder.Cursor.start items ending
    let (min, c) ← c.next inner (Decoder.optional Literal.decode) (.ok none)
    let (max, c) ← c.next inner (Decoder.optional Literal.decode) (.ok none)
    c.finish origin
    return ⟨min, max⟩
  | _, d => Decoder.mismatch "struct RangeBounds" d

end Bounds

namespace StepKind

def members (k : StepKind) : Members :=
  ("kind", .text k.name) ::
    match k with
    | range r =>
      [("hasAbs", .bool r.hasAbs), ("useAbs", .bool r.useAbs)] ++
        memberIf "bounds" Bounds.toJson r.bounds
    | array operation => memberIf "operation" .text operation
    | computed operands operation =>
      [("operands", .array (operands.map .text))] ++
        memberIf "operation" Operator.codeJson operation
    | reference r =>
      [("filterId", r.filter.toJson)] ++
        memberIf "parentOperator" Operator.codeJson r.parentOperator ++
        memberIf "parentValue" Literal.toJson r.parentValue ++ [("isBoolean", .bool r.isBoolean)]
    | element | evaluation | generic => []

def toJson (k : StepKind) : Json := .object k.members

/-- The tags that name a kind with a meaning of its own. -/
inductive Tag where
  | range
  | array
  | element
  | evaluation
  | computed
  | reference
  | generic
deriving DecidableEq

/-- Every other tag stands for the generic kind. -/
def Tag.ofName : String → Tag
  | "range" => .range
  | "array" => .array
  | "element" => .element
  | "evaluation" => .evaluation
  | "computed" => .computed
  | "customFilterRef" => .reference
  | _ => .generic

def decodeTag : Decoder Tag
  | _, .text s => .ok (.ofName s)
  | _, d => Decoder.mismatch "variant identifier" d

structure RangeSlots where
  hasAbs : Option Bool
  useAbs : Option Bool
  bounds : Option (Option Bounds)

def takeRange (s : RangeSlots) (name : String) (d : Document) : Except DecodeError RangeSlots :=
  match name with
  | "hasAbs" => do
    return { s with hasAbs := ← Decoder.fill s.hasAbs "hasAbs" (Decoder.bool .aside d) }
  | "useAbs" => do
    return { s with useAbs := ← Decoder.fill s.useAbs "useAbs" (Decoder.bool .aside d) }
  | "bounds" => do
    let bounds ← Decoder.fill s.bounds "bounds" (Decoder.optional Bounds.decode .aside d)
    return { s with bounds }
  | _ => return s

def takeArray (s : Option (Option String)) (name : String) (d : Document) :
    Except DecodeError (Option (Option String)) :=
  match name with
  | "operation" => Decoder.fill s "operation" (Decoder.optional Decoder.text .aside d)
  | _ => return s

structure ComputedSlots where
  operands : Option (List String)
  operation : Option (Option Operator)

def takeComputed (s : ComputedSlots) (name : String) (d : Document) :
    Except DecodeError ComputedSlots :=
  match name with
  | "operands" => do
    let operands ← Decoder.fill s.operands "operands" (Decoder.list Decoder.text .aside d)
    return { s with operands }
  | "operation" => do
    let operation ←
      Decoder.fill s.operation "operation" (Decoder.optional Operator.decode .aside d)
    return { s with operation }
  | _ => return s

structure ReferenceSlots where
  filter : Option FilterId
  parentOperator : Option (Option Operator)
  parentValue : Option (Option Literal)
  isBoolean : Option Bool

def takeReference (s : ReferenceSlots) (name : String) (d : Document) :
    Except DecodeError ReferenceSlots :=
  match name with
  | "filterId" | "fieldReference" => do
    return { s with filter := ← Decoder.fill s.filter "filterId" (FilterId.decode .aside d) }
  | "parentOperator" => do
    let parentOperator ←
      Decoder.fill s.parentOperator "parentOperator" (Decoder.optional Operator.decode .aside d)
    return { s with parentOperator }
  | "parentValue" => do
    let parentValue ←
      Decoder.fill s.parentValue "parentValue" (Decoder.optional Literal.decode .aside d)
    return { s with parentValue }
  | "isBoolean" => do
    return { s with isBoolean := ← Decoder.fill s.isBoolean "isBoolean" (Decoder.bool .aside d) }
  | _ => return s

/-- A kind from its tag and the members beside it. -/
def ofMembers (members : Document.Members) : Tag → Except DecodeError StepKind
  | .range => do
    let s ← Decoder.foldMembers takeRange ⟨none, none, none⟩ members
    return range ⟨s.hasAbs.getD false, s.useAbs.getD false, s.bounds.getD none⟩
  | .array => do
    let s ← Decoder.foldMembers takeArray none members
    return array (s.getD none)
  | .computed => do
    let s ← Decoder.foldMembers takeComputed ⟨none, none⟩ members
    return computed (s.operands.getD []) (s.operation.getD none)
  | .reference => do
    let s ← Decoder.foldMembers takeReference ⟨none, none, none, none⟩ members
    let filter ← Decoder.required s.filter "filterId"
    return reference
      ⟨filter, s.parentOperator.getD none, s.parentValue.getD none, s.isBoolean.getD false⟩
  | .element => return element
  | .evaluation => return evaluation
  | .generic => return generic

/-- A kind from its tag and the items behind it. -/
def ofItems (items : List Document) (tag : Tag) : Except DecodeError StepKind := do
  let c := Decoder.Cursor.start items none
  match tag with
  | .range =>
    let (hasAbs, c) ← c.next .aside Decoder.bool (.ok false)
    let (useAbs, c) ← c.next .aside Decoder.bool (.ok false)
    let (bounds, c) ← c.next .aside (Decoder.optional Bounds.decode) (.ok none)
    c.finish .aside
    return range ⟨hasAbs, useAbs, bounds⟩
  | .array =>
    let (operation, c) ← c.next .aside (Decoder.optional Decoder.text) (.ok none)
    c.finish .aside
    return array operation
  | .computed =>
    let (operands, c) ← c.next .aside (Decoder.list Decoder.text) (.ok [])
    let (operation, c) ← c.next .aside (Decoder.optional Operator.decode) (.ok none)
    c.finish .aside
    return computed operands operation
  | .reference =>
    let (filter, c) ←
      c.require .aside FilterId.decode "struct variant StepKind::CustomFilterRef with 4 elements"
    let (parentOperator, c) ← c.next .aside (Decoder.optional Operator.decode) (.ok none)
    let (parentValue, c) ← c.next .aside (Decoder.optional Literal.decode) (.ok none)
    let (isBoolean, c) ← c.next .aside Decoder.bool (.ok false)
    c.finish .aside
    return reference ⟨filter, parentOperator, parentValue, isBoolean⟩
  | .element =>
    c.finish .aside
    return element
  | .evaluation =>
    c.finish .aside
    return evaluation
  | .generic =>
    c.finish .aside
    return generic

end StepKind

/-! ### Tagged records -/

/-- What has been read of a tagged object: its tag, and the other members set aside. -/
structure Tagged (τ : Type) where
  tag : Option τ
  members : Members

/-- The tag is decoded when it is met, all else is set aside as it is. -/
def Tagged.take {τ : Type} (tagName : String) (decodeTag : Decoder τ) (origin : Origin)
    (t : Tagged τ) (name : String) (d : Document) : Except DecodeError (Tagged τ) :=
  if name = tagName then do
    return { t with tag := ← Decoder.fill t.tag tagName (decodeTag origin d) }
  else do
    let v ← Decoder.value origin d
    return { t with members := t.members ++ [(name, v)] }

/-- A record whose form depends on a tag: an object with the tag under a name, or an array that
begins with it. -/
def decodeTagged {τ α : Type} (tagName type : String) (decodeTag : Decoder τ)
    (ofMembers : Document.Members → τ → Except DecodeError α)
    (ofItems : List Document → τ → Except DecodeError α) : Decoder α
  | origin, .object members ending => do
    let origin ← origin.enter
    let t ← Decoder.foldMembers (Tagged.take tagName decodeTag origin) ⟨none, []⟩ members
    Decoder.atEnd ending
    let tag ← Decoder.required t.tag tagName
    ofMembers (Document.ofMembers t.members) tag
  | origin, .array items ending => do
    let origin ← origin.enter
    let c := Decoder.Cursor.start items ending
    let (tag, c) ← c.next origin decodeTag (Decoder.shapeError (.missingField tagName))
    let rest ← Decoder.items Decoder.value origin c.items
    Decoder.atEnd c.ending
    ofItems (Document.ofItems rest) tag
  | _, d => Decoder.mismatch ("internally tagged enum " ++ type) d

def StepKind.decode : Decoder StepKind :=
  decodeTagged "kind" "StepKind" StepKind.decodeTag StepKind.ofMembers StepKind.ofItems

/-! ### Whole steps -/

namespace StepValue

/-- Blank values are none. A value marked as a field is a path, if no text then its JSON text. -/
def ofWire (value : Option Literal) (isField : Bool) : StepValue :=
  match value with
  | none => empty
  | some l =>
    if l.isBlank then empty
    else if isField then
      match l with
      | .text path => field path
      | l => field l.toJson.compact
    else literal l

def toWire : StepValue → Json × Bool
  | empty => (.null, false)
  | literal l => (l.toJson, false)
  | field path => (.text path, true)

end StepValue

namespace Step

def toJson (s : Step) : Json :=
  .object ([("id", .text s.id.text), ("label", .text s.label), ("fieldName", .text s.fieldName),
    ("operator", orNull Operator.codeJson s.operator), ("value", s.value.toWire.1),
    ("isValueField", .bool s.value.toWire.2)] ++ s.kind.members)

/-- The fields of a stored step as they are met; what is not known is kept for the kind. -/
structure Slots where
  id : Option StepId := none
  label : Option String := none
  fieldName : Option String := none
  operator : Option (Option Operator) := none
  value : Option (Option Literal) := none
  isValueField : Option Bool := none
  kind : Option (Option String) := none
  minValue : Option (Option Literal) := none
  maxValue : Option (Option Literal) := none
  rest : Members := []

def take (origin : Origin) (s : Slots) (name : String) (d : Document) : Except DecodeError Slots :=
  match name with
  | "id" => do
    return { s with id := ← Decoder.fill s.id "id" (StepId.decode origin d) }
  | "label" => do
    return { s with label := ← Decoder.fill s.label "label" (Decoder.text origin d) }
  | "fieldName" | "field" => do
    return { s with fieldName := ← Decoder.fill s.fieldName "fieldName" (Decoder.text origin d) }
  | "operator" => do
    let operator ←
      Decoder.fill s.operator "operator" (Decoder.optional Operator.decode origin d)
    return { s with operator }
  | "value" => do
    let value ← Decoder.fill s.value "value" (Decoder.optional Literal.decode origin d)
    return { s with value }
  | "isValueField" => do
    let isValueField ← Decoder.fill s.isValueField "isValueField" (Decoder.bool origin d)
    return { s with isValueField }
  | "kind" | "type" => do
    return { s with kind := ← Decoder.fill s.kind "kind" (Decoder.optional Decoder.text origin d) }
  | "minValue" => do
    let minValue ←
      Decoder.fill s.minValue "minValue" (Decoder.optional Literal.decode origin d)
    return { s with minValue }
  | "maxValue" => do
    let maxValue ←
      Decoder.fill s.maxValue "maxValue" (Decoder.optional Literal.decode origin d)
    return { s with maxValue }
  | name => do
    let v ← Decoder.value origin d
    return { s with rest := s.rest ++ [(name, v)] }

/-- The tag that a stored step means: references have an older spelling, and no tag is generic. -/
def kindTag (kind : Option String) : String :=
  match kind.map Text.trim with
  | none => "generic"
  | some "" => "generic"
  | some "customFilter" => "customFilterRef"
  | some tag => tag

/-- The members that the kind is read from. Ends of a range written beside the step count when it
has no bounds of its own. -/
def kindMembers (s : Slots) : Members :=
  let rest := sortMembers (canonicalMembers s.rest)
  let min := s.minValue.getD none
  let max := s.maxValue.getD none
  let rest :=
    if (lookup "bounds" rest).isNone && (min.isSome || max.isSome) then
      insertMember "bounds" (canonical (Bounds.toJson ⟨min, max⟩)) rest
    else rest
  insertMember "kind" (.text (kindTag (s.kind.getD none))) rest

def ofSlots (s : Slots) : Except DecodeError Step := do
  let id ← Decoder.required s.id "id"
  let kind ← decodeValue StepKind.decode (.object (kindMembers s))
  return {
    id
    label := s.label.getD ""
    fieldName := s.fieldName.getD ""
    operator := s.operator.getD none
    value := .ofWire (s.value.getD none) (s.isValueField.getD false)
    kind }

def decode : Decoder Step
  | origin, .object members ending => do
    let origin ← origin.enter
    let s ← Decoder.foldMembers (take origin) {} members
    Decoder.atEnd ending
    ofSlots s
  | _, d => Decoder.mismatch "struct RawStep" d

end Step

end AlertFilter
