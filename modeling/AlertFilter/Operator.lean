import AlertFilter.Json.Decoder
import AlertFilter.Json.Printer
import AlertFilter.Text.LowerCase

/-!
# Operators

The operators a step can use, in palette order. Each has an entry in the catalog that says to which
family it belongs, how many operands it takes and what its right operand has to be.
-/

namespace AlertFilter

inductive OperatorFamily where
  | comparison
  | array
  | element
  | evaluation
  | math
deriving DecidableEq

inductive Arity where
  | unary
  | binary
  | ternary
  | variadic
deriving DecidableEq

/-- What the right operand of an operator is read as. -/
inductive RightOperand where
  | none
  | number
  | integer
  | list
  | any
deriving DecidableEq

inductive Operator where
  | equal
  | notEqual
  | greater
  | greaterOrEqual
  | less
  | lessOrEqual
  | between
  | within
  | notWithin
  | containsAll
  | present
  | typeOf
  | modulo
  | matchesPattern
  | add
  | subtract
  | multiply
  | divide
deriving DecidableEq

/-- An operator's entry in the catalog. -/
structure OperatorEntry where
  code : String
  family : OperatorFamily
  arity : Arity
  right : RightOperand
  symbol : String
  label : String
  description : String

namespace OperatorFamily

def all : List OperatorFamily := [comparison, array, element, evaluation, math]

def name : OperatorFamily → String
  | comparison => "comparison"
  | array => "array"
  | element => "element"
  | evaluation => "evaluation"
  | math => "math"

def ofName? (s : String) : Option OperatorFamily := all.find? (·.name = s)

end OperatorFamily

namespace Arity

def name : Arity → String
  | unary => "unary"
  | binary => "binary"
  | ternary => "ternary"
  | variadic => "variadic"

end Arity

namespace RightOperand

def name : RightOperand → String
  | none => "none"
  | number => "number"
  | integer => "integer"
  | list => "list"
  | any => "any"

end RightOperand

namespace Operator

def all : List Operator :=
  [equal, notEqual, greater, greaterOrEqual, less, lessOrEqual,
    between, within, notWithin, containsAll, present, typeOf,
    modulo, matchesPattern, add, subtract, multiply, divide]

def entry : Operator → OperatorEntry
  | equal => ⟨"eq", .comparison, .binary, .number, "$eq", "=", "Equals"⟩
  | notEqual => ⟨"ne", .comparison, .binary, .number, "$ne", "≠", "Not Equal"⟩
  | greater => ⟨"gt", .comparison, .binary, .number, "$gt", ">", "Greater Than"⟩
  | greaterOrEqual => ⟨"gte", .comparison, .binary, .number, "$gte", "≥", "Greater Than or Equal"⟩
  | less => ⟨"lt", .comparison, .binary, .number, "$lt", "<", "Less Than"⟩
  | lessOrEqual => ⟨"lte", .comparison, .binary, .number, "$lte", "≤", "Less Than or Equal"⟩
  | between => ⟨"between", .comparison, .ternary, .number, "$and", "between", "Between Two Bounds"⟩
  | within => ⟨"in", .array, .binary, .list, "$in", "in", "In Array"⟩
  | notWithin => ⟨"nin", .array, .binary, .list, "$nin", "not in", "Not In Array"⟩
  | containsAll => ⟨"all", .array, .binary, .list, "$all", "all", "All Elements Match"⟩
  | present => ⟨"exists", .element, .unary, .none, "$ifNull", "exists", "Field Exists"⟩
  | typeOf => ⟨"type", .element, .unary, .none, "$type", "type", "Type Check"⟩
  | modulo => ⟨"mod", .evaluation, .binary, .integer, "$mod", "mod", "Modulo"⟩
  | matchesPattern =>
    ⟨"regex", .evaluation, .binary, .any, "$regexMatch", "regex", "Regular Expression"⟩
  | add => ⟨"add", .math, .variadic, .number, "$add", "+", "Addition"⟩
  | subtract => ⟨"subtract", .math, .variadic, .number, "$subtract", "-", "Subtraction"⟩
  | multiply => ⟨"multiply", .math, .variadic, .number, "$multiply", "×", "Multiplication"⟩
  | divide => ⟨"divide", .math, .variadic, .number, "$divide", "÷", "Division"⟩

def code (o : Operator) : String := o.entry.code

def family (o : Operator) : OperatorFamily := o.entry.family

def symbol (o : Operator) : String := o.entry.symbol

def isComparison (o : Operator) : Bool := o.family = .comparison

def isMath (o : Operator) : Bool := o.family = .math

def takesValue (o : Operator) : Bool := o.entry.arity ≠ .unary

def ofCode? (s : String) : Option Operator := all.find? (·.code = s)

def inFamily (f : OperatorFamily) : List Operator := all.filter (·.family = f)

def search (query : String) : List Operator :=
  all.filter fun o =>
    Text.matchesQuery query o.entry.label || Text.matchesQuery query o.entry.description

theorem mem_all (o : Operator) : o ∈ all := by
  cases o <;> decide

theorem ofCode?_code (o : Operator) : ofCode? o.code = some o := by
  cases o <;> rfl

open Json

def toJson (o : Operator) : Json :=
  .object [("code", .text o.code), ("family", .text o.family.name),
    ("arity", .text o.entry.arity.name), ("symbol", .text o.symbol), ("label", .text o.entry.label),
    ("description", .text o.entry.description), ("right", .text o.entry.right.name)]

/-- The code in a wire value: a text, or an object as the palette sends it, which holds the code
under `operator`. -/
def wireCode? : Json → Option String
  | .text s => some s
  | .object members =>
    match members.filter (·.1 = "operator") with
    | [(_, .text s)] => some s
    | _ => none
  | _ => none

def decode : Decoder Operator := fun origin d => do
  let v ← Decoder.value origin d
  match wireCode? v with
  | none => Decoder.shapeError (.noVariant "RawOperator")
  | some code =>
    match ofCode? code with
    | some o => return o
    | none => Decoder.shapeError (.unknownOperator code)

end Operator

namespace OperatorFamily

open Json

def ofNameOrError (s : String) : Except DecodeError OperatorFamily :=
  match ofName? s with
  | some f => .ok f
  | none => Decoder.shapeError (.unknownVariant s (all.map name))

def unit : Document → Except DecodeError Unit
  | .null => .ok ()
  | d => Decoder.mismatch "unit" d

/-- A family by its name, or an object with that name as its only key and null under it. -/
def decode : Decoder OperatorFamily
  | _, .text s => ofNameOrError s
  | .text depth, .object members ending => do
    let _ ← Origin.enter (.text depth)
    match members with
    | [] =>
      match ending with
      | none => .error (.fault .expectedValue)
      | some b => .error (.fault b.used)
    | (name, d) :: rest =>
      let name ← Decoder.ofFault name
      let f ← ofNameOrError name
      unit d
      match rest, ending with
      | [], none => return f
      | [], some b =>
        .error (.fault (if b.used = .endInObject then .endInObject else .expectedValue))
      | _ :: _, _ => .error (.fault .expectedValue)
  | _, .object members _ =>
    match members with
    | [(name, d)] => do
      let name ← Decoder.ofFault name
      let f ← ofNameOrError name
      unit d
      return f
    | _ => Decoder.shapeError .notSingleKey
  | _, d => Decoder.mismatch "string or map" d

end OperatorFamily

end AlertFilter
