import AlertFilter.Json.Printer
import AlertFilter.Literal

/-!
# Aggregation expressions

An expression is a field path, a literal, or an operator applied to one operand, to a list of
operands or to named ones. It is written as an object with the operator's symbol as its only key.
-/

namespace AlertFilter

inductive Expression where
  | field (path : String)
  | literal (value : Literal)
  | unary (symbol : String) (operand : Expression)
  | call (symbol : String) (operands : List Expression)
  | named (symbol : String) (operands : List (String × Expression))
deriving Inhabited

namespace Expression

def symbol? : Expression → Option String
  | unary symbol _ | call symbol _ | named symbol _ => some symbol
  | _ => none

mutual

/-- The expression as a JSON value. Named operands are sorted; of one name the last counts. -/
def toJson : Expression → Json
  | field path => .text ("$" ++ path)
  | literal l => l.toJson
  | unary symbol operand => .object [(symbol, toJson operand)]
  | call symbol operands => .object [(symbol, .array (toJsonItems operands))]
  | named symbol operands => .object [(symbol, .object (toJsonNamed [] operands))]

def toJsonItems : List Expression → List Json
  | [] => []
  | e :: rest => toJson e :: toJsonItems rest

/-- Adds named operands to members that are sorted. -/
def toJsonNamed (done : Json.Members) : List (String × Expression) → Json.Members
  | [] => done
  | (name, e) :: rest => toJsonNamed (Json.insertMember name (toJson e) done) rest

end

mutual

/-- The expression as it is written out: named operands in their order, all of them. -/
def written : Expression → Json
  | field path => .text ("$" ++ path)
  | literal l => l.toJson
  | unary symbol operand => .object [(symbol, written operand)]
  | call symbol operands => .object [(symbol, .array (writtenItems operands))]
  | named symbol operands => .object [(symbol, .object (writtenNamed operands))]

def writtenItems : List Expression → List Json
  | [] => []
  | e :: rest => written e :: writtenItems rest

def writtenNamed : List (String × Expression) → Json.Members
  | [] => []
  | (name, e) :: rest => (name, written e) :: writtenNamed rest

end

/-- The text that is sent. -/
def text (e : Expression) : String := e.written.compact

/-- The text that is shown. -/
def display (e : Expression) : String := e.toJson.compact

end Expression

/-- An aggregation query: at most one stage, which keeps the documents that match. -/
structure Query where
  stages : List Expression

namespace Query

def empty : Query := ⟨[]⟩

def matching (e : Expression) : Query := ⟨[e]⟩

def ofExpression? : Option Expression → Query
  | some e => matching e
  | none => empty

def isEmpty (q : Query) : Bool := q.stages.isEmpty

def expression? (q : Query) : Option Expression := q.stages.head?

def toJson (q : Query) : Json :=
  .array (q.stages.map fun e => .object [("$match", .object [("$expr", e.written)])])

end Query

end AlertFilter
