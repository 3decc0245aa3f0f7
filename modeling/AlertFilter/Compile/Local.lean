import AlertFilter.Compile.Coercion
import AlertFilter.Expression
import AlertFilter.Step
import AlertFilter.Store.Error

/-!
# Compiling a single step

A step on its own compiles to an expression, to nothing while it is incomplete, or to an error. The
kind of the step decides on the form, the operator on what its right operand is coerced to.
-/

namespace AlertFilter

inductive Unsupported where
  | betweenOutsideRange (step : StepId) (kind : String)
  | notMath (step : StepId) (operator : Operator)
  | needsSource (step : StepId)

def Unsupported.message : Unsupported → String
  | .betweenOutsideRange step kind =>
    "'between' needs a range step, '" ++ step.text ++ "' is " ++ kind
  | .notMath step operator =>
    "computed step '" ++ step.text ++ "' combines operands with non-math operator '" ++
      operator.code ++ "'"
  | .needsSource step => "saved filter reference '" ++ step.text ++ "' needs a resolver"

inductive CompileError where
  | fetch (id : FilterId) (source : StoreError)
  | cyclic (chain : List FilterId)
  | coercion (error : CoercionError)
  | unsupported (reason : Unsupported)

def CompileError.message : CompileError → String
  | .fetch id source => "Failed to fetch custom filter " ++ id.text ++ ": " ++ source.message
  | .cyclic chain =>
    "Cyclic custom filter reference: " ++ " -> ".intercalate (chain.map FilterId.text)
  | .coercion e => "Invalid operand: " ++ e.message
  | .unsupported reason => "Unsupported step: " ++ reason.message

/-- What a literal on the right of an operator becomes. -/
inductive Coercion where
  | raw
  | number
  | integer
  | list
deriving DecidableEq

namespace Coercion

/-- An array step wants a list whatever its operator; a generic step tries a number for every
operator that does not want an integer. -/
def ofStep (kind : StepKind) (o : Operator) : Coercion :=
  match kind, o.entry.right with
  | .array _, _ => list
  | _, .integer => integer
  | .generic, _ => number
  | _, .list => list
  | kind, .number => if kind.expectsNumber then number else raw
  | _, _ => raw

def apply : Coercion → Literal → Literal
  | raw, l => l
  | number, l => l.numberOrRaw
  | integer, l => l.integerOrRaw
  | list, l => l.asList

end Coercion

/-- The right operand, unless the value is missing. -/
def StepValue.operand? (v : StepValue) (c : Coercion) : Option Expression :=
  match v with
  | .field path => if Text.isBlank path then none else some (.field (Text.trim path))
  | .literal l => if l.isBlank then none else some (.literal (c.apply l))
  | .empty => none

namespace Operator

def binary (o : Operator) (left right : Expression) : Expression := .call o.symbol [left, right]

/-- An operator without a right operand. A field is present when it does not fall back to false. -/
def apply (o : Operator) (subject : Expression) : Expression :=
  match o with
  | present => .call o.symbol [subject, .literal (.bool false)]
  | _ => .unary o.symbol subject

end Operator

def givenLiteral? : Option Literal → Option Literal
  | some l => if l.isBlank then none else some l
  | none => none

/-- The subject lies between two numbers, ends included. -/
def compileBetween (subject : Expression) (bounds : Option Bounds) :
    Except CompileError (Option Expression) :=
  match givenLiteral? (bounds.bind (·.min)), givenLiteral? (bounds.bind (·.max)) with
  | some min, some max =>
    match min.coerceNumber, max.coerceNumber with
    | .ok a, .ok b =>
      .ok (some (.call Operator.between.symbol
        [.call Operator.greaterOrEqual.symbol [subject, .literal (.number a)],
          .call Operator.lessOrEqual.symbol [subject, .literal (.number b)]]))
    | .error e, _ => .error (.coercion e)
    | _, .error e => .error (.coercion e)
  | _, _ => .ok none

/-- Computes with fields and compares the result if there is a value. -/
def compileComputed (step : Step) (field : String) (o : Operator) (operands : List String)
    (operation : Option Operator) (c : Coercion) : Except CompileError (Option Expression) :=
  let math := operation.getD o
  if math.isMath then
    let paths := if operands.isEmpty then [field] else operands.map Text.trim
    let e : Expression := .call math.symbol (paths.map .field)
    .ok (some (match step.value.operand? c with
      | some right => o.binary e right
      | none => e))
  else .error (.unsupported (.notMath step.id math))

/-- The field, under the operation of an array step if one is named; the name may carry dollar
signs. -/
def arraySubject (field : String) (operation : Option String) : Expression :=
  match operation.map Text.trim with
  | some op =>
    if op.isEmpty then .field field
    else .call ("$" ++ String.ofList (op.toList.dropWhile (· = '$'))) [.field field]
  | none => .field field

/-- A comparison of a subject with the value of a step, or nothing while there is none. -/
def compileValue (step : Step) (o : Operator) (subject : Expression) (c : Coercion) :
    Option Expression :=
  (step.value.operand? c).map (o.binary subject)

/-- The same for operators that may do without a value. -/
def compileSubject (step : Step) (o : Operator) (subject : Expression) (c : Coercion) :
    Option Expression :=
  if o.takesValue then compileValue step o subject c else some (o.apply subject)

def Step.compileLocal (step : Step) : Except CompileError (Option Expression) :=
  match step.operator with
  | none => .ok none
  | some o =>
    let field := Text.trim step.fieldName
    let c := Coercion.ofStep step.kind o
    if field.isEmpty then .ok none
    else match step.kind with
      | .range r =>
        if o = .between then compileBetween (.field field) r.bounds
        else
          let subject : Expression :=
            if r.hasAbs || r.useAbs then .unary "$abs" (.field field) else .field field
          .ok (compileSubject step o subject c)
      | kind =>
        if o = .between then .error (.unsupported (.betweenOutsideRange step.id kind.name))
        else match kind with
          | .computed operands operation => compileComputed step field o operands operation c
          | .array operation => .ok (compileValue step o (arraySubject field operation) c)
          | .reference _ => .error (.unsupported (.needsSource step.id))
          | .evaluation =>
            if o = .matchesPattern then
              .ok ((step.value.operand? c).map fun pattern =>
                .named o.symbol [("input", .field field), ("regex", pattern)])
            else .ok (compileSubject step o (.field field) c)
          | _ => .ok (compileSubject step o (.field field) c)

end AlertFilter
