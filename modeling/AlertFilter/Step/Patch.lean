import AlertFilter.Step

/-!
# Patches

An editor changes a step by patches, each a set of fields to overwrite. A field source turns a step
to reference mode, a saved filter as source turns it into a reference that keeps the comparison it
had, unless the filter is itself a condition.
-/

namespace AlertFilter

/-- What the value of a step is taken from. -/
inductive ValueSource where
  | field (path : String) (label : Option String)
  | filter (id : FilterId) (label : String) (isBoolean : Bool)
deriving DecidableEq

structure StepPatch where
  label : Option String
  fieldName : Option String
  operator : Option Operator
  value : Option Literal
  clearValue : Bool
  valueSource : Option ValueSource
  useAbs : Option Bool
  bounds : Option Bounds

namespace StepPatch

def empty : StepPatch := ⟨none, none, none, none, false, none, none, none⟩

def ofOperator (o : Operator) : StepPatch := { empty with operator := some o }

def ofValue (l : Literal) : StepPatch := { empty with value := some l }

def ofSource (source : ValueSource) : StepPatch := { empty with valueSource := some source }

def clear : StepPatch := { empty with clearValue := true }

def ofUseAbs (enabled : Bool) : StepPatch := { empty with useAbs := some enabled }

end StepPatch

namespace Step

def mapReference (s : Step) (f : Reference → Reference) : Step :=
  match s.kind with
  | .reference r => { s with kind := .reference (f r) }
  | _ => s

def mapRange (s : Step) (f : RangeSettings → RangeSettings) : Step :=
  match s.kind with
  | .range r => { s with kind := .range (f r) }
  | _ => s

/-- The first operator of a step clears a field value. A reference compares by the operator too. -/
def setOperator (s : Step) (o : Operator) : Step :=
  let value := match s.operator, s.value with
    | none, .field _ => .empty
    | _, v => v
  { s with operator := some o, value }.mapReference fun r => { r with parentOperator := some o }

/-- A reference compares with the literal too. -/
def setLiteral (s : Step) (l : Literal) : Step :=
  { s with value := .literal l }.mapReference fun r => { r with parentValue := some l }

def clearValue (s : Step) : Step := { s with value := .empty }

/-- Takes the value from another field, or makes the step a reference to a saved filter. -/
def setSource (s : Step) : ValueSource → Step
  | .field path _ => { s with value := .field path }
  | .filter id label isBoolean =>
    let r : Reference :=
      if isBoolean then ⟨id, none, none, true⟩ else ⟨id, s.operator, s.value.literal?, false⟩
    { s with kind := .reference r, label, value := .empty }

def setUseAbs (s : Step) (enabled : Bool) : Step := s.mapRange fun r => { r with useAbs := enabled }

def setBounds (s : Step) (bounds : Bounds) : Step :=
  s.mapRange fun r => { r with bounds := some bounds }

def change {α : Type} (s : Step) (f : Step → α → Step) : Option α → Step
  | some a => f s a
  | none => s

def patched (s : Step) (p : StepPatch) : Step :=
  let s := s.change withLabel p.label
  let s := s.change (fun s fieldName => { s with fieldName }) p.fieldName
  let s := s.change setOperator p.operator
  let s := s.change setLiteral p.value
  let s := if p.clearValue then s.clearValue else s
  let s := s.change setSource p.valueSource
  let s := s.change setUseAbs p.useAbs
  s.change setBounds p.bounds

end Step

end AlertFilter
