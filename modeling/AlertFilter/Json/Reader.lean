import AlertFilter.Json.Token

/-!
# Reading JSON text

Tokens are put together by a pushdown automaton: the stack holds the containers that are open and
the state says what may come next. A fault closes all open containers around what was read.
-/

namespace AlertFilter.Json

namespace Token

def isSpace (c : Char) : Bool := c = ' ' || c = '\n' || c = '\t' || c = '\r'

/-- All tokens of a text, up to the first piece that cannot be one. -/
def ofChars : List Char → List Token
  | [] => []
  | c :: rest =>
    if isSpace c then ofChars rest
    else (cutAt c rest).token :: ofChars (cutAt c rest).rest
termination_by cs => cs.length
decreasing_by
  · simp
  · exact Nat.lt_succ_of_le (length_cutAt c rest)

end Token

namespace Document

/-- A container that is open, what it holds last one first. -/
inductive Frame where
  | array (items : List Document)
  | object (members : Members)
  | member (name : Except Fault String) (members : Members)

/-- Puts a value into the container on top; the value is the result when none is open. -/
def place (d : Document) : List Frame → Document ⊕ List Frame
  | [] => .inl d
  | .array items :: stack => .inr (.array (d :: items) :: stack)
  | .member name members :: stack => .inr (.object ((name, d) :: members) :: stack)
  | .object _ :: _ => .inl d

/-- Closes every open container around a value that breaks off. -/
def unwind (d : Document) : List Frame → Document
  | [] => d
  | .array items :: stack => unwind (.array (d :: items).reverse none) stack
  | .member name members :: stack => unwind (.object ((name, d) :: members).reverse none) stack
  | .object _ :: stack => unwind d stack

inductive Expecting where
  | value
  | firstItem
  | nextItem
  | firstName
  | nextName
  | colon
  | separator

/-- The document at the front of the tokens, and the tokens behind it. -/
abbrev Parsed := Document × List Token

def stop (d : Document) (stack : List Frame) : Parsed := (unwind d stack, [])

/-- Breaks off the container on top, by the faults of that place. -/
def breakOff (b : Break) : List Frame → Parsed
  | .array items :: stack => stop (.array items.reverse (some b)) stack
  | .object members :: stack => stop (.object members.reverse (some b)) stack
  | stack => stop (.broken b.used b.skipped) stack

mutual

/-- Goes on behind a complete value. -/
def deliver (d : Document) (stack : List Frame) (rest : List Token) : Parsed :=
  match place d stack with
  | .inl d => (d, rest)
  | .inr stack => parse .separator stack rest
termination_by (rest.length, 1)

def parse (expecting : Expecting) (stack : List Frame) (tokens : List Token) : Parsed :=
  match expecting, tokens with
  | .firstItem, .closeArray :: rest =>
    match stack with
    | .array items :: stack => deliver (.array items.reverse none) stack rest
    | _ => stop (.broken .expectedValue .expectedValue) stack
  | .firstItem, [] => breakOff (.same .endInArray) stack
  | .nextItem, .closeArray :: _ => breakOff ⟨.trailingComma, .expectedValue, .trailingComma⟩ stack
  | .nextItem, [] => breakOff ⟨.endInValue, .endInValue, .trailingCharacters⟩ stack
  | .firstName, .closeObject :: rest =>
    match stack with
    | .object members :: stack => deliver (.object members.reverse none) stack rest
    | _ => stop (.broken .expectedValue .expectedValue) stack
  | .firstName, [] => breakOff (.same .endInObject) stack
  | .nextName, .closeObject :: _ => breakOff ⟨.trailingComma, .nameNotString, .trailingComma⟩ stack
  | .nextName, [] => breakOff ⟨.endInValue, .endInObject, .trailingCharacters⟩ stack
  | .firstName, token :: rest | .nextName, token :: rest =>
    match token, stack with
    | .string name, .object members :: stack => parse .colon (.member name members :: stack) rest
    | .cutString used skipped, stack => breakOff ⟨used, skipped, used⟩ stack
    | _, stack => breakOff (.same .nameNotString) stack
  | .colon, .colon :: rest => parse .value stack rest
  | .colon, [] => stop (.broken .endInObject .endInObject) stack
  | .colon, _ => stop (.broken .expectedColon .expectedColon) stack
  | .separator, tokens =>
    match stack, tokens with
    | .array _ :: _, .comma :: rest => parse .nextItem stack rest
    | .array items :: stack, .closeArray :: rest => deliver (.array items.reverse none) stack rest
    | .array _ :: _, [] => breakOff (.same .endInArray) stack
    | .array _ :: _, _ =>
      breakOff ⟨.expectedItemEnd, .expectedItemEnd, .trailingCharacters⟩ stack
    | .object _ :: _, .comma :: rest => parse .nextName stack rest
    | .object members :: stack, .closeObject :: rest =>
      deliver (.object members.reverse none) stack rest
    | .object _ :: _, [] => breakOff (.same .endInObject) stack
    | _, _ => breakOff ⟨.expectedMemberEnd, .expectedMemberEnd, .trailingCharacters⟩ stack
  | _, token :: rest =>
    match token with
    | .scalar (.broken used skipped) => stop (.broken used skipped) stack
    | .scalar d => deliver d stack rest
    | .string (.ok s) => deliver (.text s) stack rest
    | .string (.error f) => deliver (.unusable f) stack rest
    | .cutString used skipped => stop (.broken used skipped) stack
    | .openArray => parse .firstItem (.array [] :: stack) rest
    | .openObject => parse .firstName (.object [] :: stack) rest
    | _ => stop (.broken .expectedValue .expectedValue) stack
  | .value, [] => stop (.broken .endInValue .endInValue) stack
termination_by (tokens.length, 0)

end

end Document

/-- A text as read: its document, and whether more than blanks follows it. -/
structure Reading where
  document : Document
  trailing : Bool

def read (s : String) : Reading :=
  let (document, rest) := Document.parse .value [] (Token.ofChars s.toList)
  ⟨document, !rest.isEmpty⟩

def parse (depth : Depth) (s : String) : Except Fault Json := do
  let reading := read s
  let value ← reading.document.whole depth
  if reading.trailing then .error .trailingCharacters else .ok value

end AlertFilter.Json
