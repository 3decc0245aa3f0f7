import AlertFilter.Step.Record

/-!
# Patches on the wire

An editor sends a patch as an object of the fields to overwrite. A source of values is a record
tagged by `type`.
-/

namespace AlertFilter

open Json

namespace ValueSource

inductive Tag where
  | field
  | filter

def decodeTag : Decoder Tag
  | _, .text "field" => .ok .field
  | _, .text "customFilter" => .ok .filter
  | _, .text s => Decoder.shapeError (.unknownVariant s ["field", "customFilter"])
  | _, d => Decoder.mismatch "variant identifier" d

structure FieldSlots where
  path : Option String
  label : Option (Option String)

def takeField (s : FieldSlots) (name : String) (d : Document) : Except DecodeError FieldSlots :=
  match name with
  | "field" => do
    return { s with path := ← Decoder.fill s.path "field" (Decoder.text .aside d) }
  | "label" => do
    let label ← Decoder.fill s.label "label" (Decoder.optional Decoder.text .aside d)
    return { s with label }
  | _ => return s

structure FilterSlots where
  id : Option FilterId
  label : Option String
  isBoolean : Option Bool

def takeFilter (s : FilterSlots) (name : String) (d : Document) : Except DecodeError FilterSlots :=
  match name with
  | "id" | "_id" => do
    return { s with id := ← Decoder.fill s.id "id" (FilterId.decode .aside d) }
  | "label" => do
    return { s with label := ← Decoder.fill s.label "label" (Decoder.text .aside d) }
  | "isBoolean" => do
    return { s with isBoolean := ← Decoder.fill s.isBoolean "isBoolean" (Decoder.bool .aside d) }
  | _ => return s

def ofMembers (members : Document.Members) : Tag → Except DecodeError ValueSource
  | .field => do
    let s ← Decoder.foldMembers takeField ⟨none, none⟩ members
    let path ← Decoder.required s.path "field"
    return field path (s.label.getD none)
  | .filter => do
    let s ← Decoder.foldMembers takeFilter ⟨none, none, none⟩ members
    let id ← Decoder.required s.id "id"
    let label ← Decoder.required s.label "label"
    return filter id label (s.isBoolean.getD false)

def ofItems (items : List Document) (tag : Tag) : Except DecodeError ValueSource := do
  let c := Decoder.Cursor.start items none
  match tag with
  | .field =>
    let (path, c) ←
      c.require .aside Decoder.text "struct variant ValueSource::Field with 2 elements"
    let (label, c) ← c.next .aside (Decoder.optional Decoder.text) (.ok none)
    c.finish .aside
    return field path label
  | .filter =>
    let record := "struct variant ValueSource::CustomFilter with 3 elements"
    let (id, c) ← c.require .aside FilterId.decode record
    let (label, c) ← c.require .aside Decoder.text record
    let (isBoolean, c) ← c.next .aside Decoder.bool (.ok false)
    c.finish .aside
    return filter id label isBoolean

def decode : Decoder ValueSource := decodeTagged "type" "ValueSource" decodeTag ofMembers ofItems

def toJson : ValueSource → Json
  | field path label =>
    .object [("type", .text "field"), ("field", .text path), ("label", orNull .text label)]
  | filter id label isBoolean =>
    .object [("type", .text "customFilter"), ("id", id.toJson), ("label", .text label),
      ("isBoolean", .bool isBoolean)]

end ValueSource

namespace StepPatch

structure Slots where
  label : Option (Option String) := none
  fieldName : Option (Option String) := none
  operator : Option (Option Operator) := none
  value : Option (Option Literal) := none
  clearValue : Option Bool := none
  valueSource : Option (Option ValueSource) := none
  useAbs : Option (Option Bool) := none
  bounds : Option (Option Bounds) := none

def take (origin : Origin) (s : Slots) (name : String) (d : Document) : Except DecodeError Slots :=
  match name with
  | "label" => do
    let label ← Decoder.fill s.label "label" (Decoder.optional Decoder.text origin d)
    return { s with label }
  | "fieldName" => do
    let fieldName ←
      Decoder.fill s.fieldName "fieldName" (Decoder.optional Decoder.text origin d)
    return { s with fieldName }
  | "operator" => do
    let operator ←
      Decoder.fill s.operator "operator" (Decoder.optional Operator.decode origin d)
    return { s with operator }
  | "value" => do
    let value ← Decoder.fill s.value "value" (Decoder.optional Literal.decode origin d)
    return { s with value }
  | "clearValue" => do
    return { s with clearValue := ← Decoder.fill s.clearValue "clearValue" (Decoder.bool origin d) }
  | "valueSource" => do
    let valueSource ←
      Decoder.fill s.valueSource "valueSource" (Decoder.optional ValueSource.decode origin d)
    return { s with valueSource }
  | "useAbs" => do
    let useAbs ← Decoder.fill s.useAbs "useAbs" (Decoder.optional Decoder.bool origin d)
    return { s with useAbs }
  | "bounds" => do
    let bounds ← Decoder.fill s.bounds "bounds" (Decoder.optional Bounds.decode origin d)
    return { s with bounds }
  | _ => do
    Decoder.skip d
    return s

def decode : Decoder StepPatch
  | origin, .object members ending => do
    let origin ← origin.enter
    let s ← Decoder.foldMembers (take origin) {} members
    Decoder.atEnd ending
    return {
      label := s.label.getD none
      fieldName := s.fieldName.getD none
      operator := s.operator.getD none
      value := s.value.getD none
      clearValue := s.clearValue.getD false
      valueSource := s.valueSource.getD none
      useAbs := s.useAbs.getD none
      bounds := s.bounds.getD none }
  | origin, .array items ending => do
    let inner ← origin.enter
    let c := Decoder.Cursor.start items ending
    let (label, c) ← c.next inner (Decoder.optional Decoder.text) (.ok none)
    let (fieldName, c) ← c.next inner (Decoder.optional Decoder.text) (.ok none)
    let (operator, c) ← c.next inner (Decoder.optional Operator.decode) (.ok none)
    let (value, c) ← c.next inner (Decoder.optional Literal.decode) (.ok none)
    let (clearValue, c) ← c.next inner Decoder.bool (.ok false)
    let (valueSource, c) ← c.next inner (Decoder.optional ValueSource.decode) (.ok none)
    let (useAbs, c) ← c.next inner (Decoder.optional Decoder.bool) (.ok none)
    let (bounds, c) ← c.next inner (Decoder.optional Bounds.decode) (.ok none)
    c.finish origin
    return { label, fieldName, operator, value, clearValue, valueSource, useAbs, bounds }
  | _, d => Decoder.mismatch "struct StepPatch" d

end StepPatch

end AlertFilter
