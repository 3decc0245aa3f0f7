import AlertFilter.Field
import AlertFilter.Identifier
import AlertFilter.Literal
import AlertFilter.Operator

/-!
# Steps

A step is one condition of a pipeline: a field, an operator and a value to compare with. Its kind
decides how it is compiled; one kind stands for a whole saved filter.
-/

namespace AlertFilter

structure Bounds where
  min : Option Literal
  max : Option Literal
deriving DecidableEq, BEq

namespace Bounds

def isGiven : Option Literal → Bool
  | some l => !l.isBlank
  | none => false

def isComplete (b : Bounds) : Bool := isGiven b.min && isGiven b.max

end Bounds

structure RangeSettings where
  hasAbs : Bool
  useAbs : Bool
  bounds : Option Bounds
deriving DecidableEq, BEq

/-- The use of a saved filter, and what its result is compared with. -/
structure Reference where
  filter : FilterId
  parentOperator : Option Operator
  parentValue : Option Literal
  isBoolean : Bool
deriving DecidableEq, BEq

inductive StepKind where
  | range (settings : RangeSettings)
  | array (operation : Option String)
  | element
  | evaluation
  | computed (operands : List String) (operation : Option Operator)
  | reference (target : Reference)
  | generic
deriving DecidableEq, BEq

/-- What a step compares with: nothing yet, a literal or another field. -/
inductive StepValue where
  | empty
  | literal (value : Literal)
  | field (path : String)
deriving DecidableEq, BEq

/-- What an editor asks for: a literal to type in or a reference to show. -/
inductive ValueMode where
  | awaitingLiteral
  | reference
deriving DecidableEq

structure Step where
  id : StepId
  label : String
  fieldName : String
  operator : Option Operator
  value : StepValue
  kind : StepKind
deriving DecidableEq, BEq

namespace StepKind

def plainRange : StepKind := range ⟨false, false, none⟩

def expectsNumber : StepKind → Bool
  | range _ | computed _ _ => true
  | _ => false

def name : StepKind → String
  | range _ => "range"
  | array _ => "array"
  | element => "element"
  | evaluation => "evaluation"
  | computed _ _ => "computed"
  | reference _ => "customFilterRef"
  | generic => "generic"

end StepKind

namespace StepValue

def mode : StepValue → ValueMode
  | field _ => .reference
  | _ => .awaitingLiteral

/-- There is nothing to compare with: no value, or a blank one. -/
def isMissing : StepValue → Bool
  | empty => true
  | literal l => l.isBlank
  | field path => Text.isBlank path

def literal? : StepValue → Option Literal
  | literal l => some l
  | _ => none

end StepValue

namespace Step

/-- A step without operator and value, labelled by its field. -/
def new (id : StepId) (fieldName : String) (kind : StepKind) : Step :=
  { id, label := fieldName, fieldName, operator := none, value := .empty, kind }

def range (id : StepId) (fieldName : String) : Step := new id fieldName .plainRange

/-- A range step for a field of the palette. -/
def ofField (id : StepId) (field : Field) : Step :=
  { new id field.path (.range ⟨field.hasAbs, false, none⟩) with label := field.label }

/-- A step that stands for a saved filter. -/
def ofFilter (id : StepId) (filter : FilterId) (label : String) (isBoolean : Bool) : Step :=
  { new id "" (.reference ⟨filter, none, none, isBoolean⟩) with label }

def withLabel (s : Step) (label : String) : Step := { s with label }

def withOperator (s : Step) (o : Operator) : Step := { s with operator := some o }

def withLiteral (s : Step) (l : Literal) : Step := { s with value := .literal l }

def withFieldValue (s : Step) (path : String) : Step := { s with value := .field path }

def reference? (s : Step) : Option Reference :=
  match s.kind with
  | .reference r => some r
  | _ => none

def isReference (s : Step) : Bool := s.reference?.isSome

/-- The step has all it needs. The lower and upper end of a range stand in for the value when the
operator is `between`; a computed step needs no value; a reference is always complete. -/
def isComplete (s : Step) : Bool :=
  match s.kind, s.operator with
  | .reference _, _ => true
  | _, none => false
  | kind, some o =>
    if Text.isBlank s.fieldName then false
    else if o = .between then
      match kind with
      | .range ⟨_, _, some b⟩ => b.isComplete
      | _ => false
    else
      match kind with
      | .computed _ _ => true
      | _ => !o.takesValue || !s.value.isMissing

/-- The step yields a truth value, rather than a number to compute with. -/
def yieldsBoolean (s : Step) : Bool :=
  match s.kind with
  | .reference ⟨_, some o, _, _⟩ => o.isComparison
  | .reference ⟨_, none, _, isBoolean⟩ => isBoolean
  | _ =>
    match s.operator with
    | some o => o.isComparison && !s.value.isMissing
    | none => false

end Step

end AlertFilter
