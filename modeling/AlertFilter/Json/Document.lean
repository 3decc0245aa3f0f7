import AlertFilter.Json.Fault
import AlertFilter.Json.Value

/-!
# Documents

A document is a value as far as its text could be read. What was read before a fault stands, so a
decoder that goes from left to right meets a wrong shape and a fault in the order of the text. A
value that is skipped is held to fewer rules than one that is used, hence two faults in places.
-/

namespace AlertFilter.Json

/-- Where a container breaks off: the fault for a reader that uses its content, for one that skips
it, and for one that wants it to end there. -/
structure Break where
  used : Fault
  skipped : Fault
  ended : Fault

def Break.same (f : Fault) : Break := ⟨f, f, f⟩

inductive Document where
  | null
  | bool (value : Bool)
  | number (value : Number)
  | text (value : String)
  /-- A number or string that can be skipped but not used. -/
  | unusable (fault : Fault)
  /-- Nothing that could be read to its end. -/
  | broken (used skipped : Fault)
  | array (items : List Document) (ending : Option Break)
  | object (members : List (Except Fault String × Document)) (ending : Option Break)
deriving Inhabited

namespace Document

abbrev Members := List (Except Fault String × Document)

mutual

def ofJson : Json → Document
  | .null => .null
  | .bool b => .bool b
  | .number n => .number n
  | .text s => .text s
  | .array items => .array (ofItems items) none
  | .object members => .object (ofMembers members) none

def ofItems : List Json → List Document
  | [] => []
  | v :: rest => ofJson v :: ofItems rest

def ofMembers : Json.Members → Members
  | [] => []
  | (name, v) :: rest => (.ok name, ofJson v) :: ofMembers rest

end

mutual

/-- Passes over a value: containers may nest as deep as they like, numbers and escapes need only be
well formed. -/
def skip : Document → Except Fault Unit
  | .broken _ f => .error f
  | .array items ending => do
    skipItems items
    match ending with
    | some b => .error b.skipped
    | none => .ok ()
  | .object members ending => do
    skipMembers members
    match ending with
    | some b => .error b.skipped
    | none => .ok ()
  | _ => .ok ()

def skipItems : List Document → Except Fault Unit
  | [] => .ok ()
  | d :: rest => do
    skip d
    skipItems rest

def skipMembers : Members → Except Fault Unit
  | [] => .ok ()
  | (_, d) :: rest => do
    skip d
    skipMembers rest

end

end Document

/-- How many containers may still be opened inside each other; `none` when there is no limit. -/
abbrev Depth := Option Nat

def Depth.enter : Depth → Except Fault Depth
  | none => .ok none
  | some 0 => .error .nestingTooDeep
  | some (n + 1) => .ok (some n)

namespace Document

mutual

/-- The value of a document, every part of it used. -/
def whole (depth : Depth) : Document → Except Fault Json
  | .null => .ok .null
  | .bool b => .ok (.bool b)
  | .number n => .ok (.number n)
  | .text s => .ok (.text s)
  | .unusable f => .error f
  | .broken f _ => .error f
  | .array items ending => do
    let depth ← depth.enter
    let items ← wholeItems depth items
    match ending with
    | some b => .error b.used
    | none => .ok (.array items)
  | .object members ending => do
    let depth ← depth.enter
    let members ← wholeMembers depth members
    match ending with
    | some b => .error b.used
    | none => .ok (.object members)

def wholeItems (depth : Depth) : List Document → Except Fault (List Json)
  | [] => .ok []
  | d :: rest => do
    let v ← whole depth d
    let vs ← wholeItems depth rest
    .ok (v :: vs)

def wholeMembers (depth : Depth) : Members → Except Fault Json.Members
  | [] => .ok []
  | (name, d) :: rest => do
    let name ← name
    let v ← whole depth d
    let vs ← wholeMembers depth rest
    .ok ((name, v) :: vs)

end

mutual

/-- Without a depth limit, the value of a whole document is the value it was made from. -/
@[simp] theorem whole_ofJson : ∀ v : Json, whole none (ofJson v) = .ok v
  | .null => rfl
  | .bool _ => rfl
  | .number _ => rfl
  | .text _ => rfl
  | .array items => by
    simp only [ofJson, whole, Depth.enter, bind, Except.bind]
    rw [wholeItems_ofItems items]
  | .object members => by
    simp only [ofJson, whole, Depth.enter, bind, Except.bind]
    rw [wholeMembers_ofMembers members]

theorem wholeItems_ofItems : ∀ vs : List Json, wholeItems none (ofItems vs) = .ok vs
  | [] => rfl
  | v :: rest => by
    simp only [ofItems, wholeItems, bind, Except.bind]
    rw [whole_ofJson v, wholeItems_ofItems rest]

theorem wholeMembers_ofMembers :
    ∀ vs : Json.Members, wholeMembers none (ofMembers vs) = .ok vs
  | [] => rfl
  | (name, v) :: rest => by
    simp only [ofMembers, wholeMembers, bind, Except.bind]
    rw [whole_ofJson v, wholeMembers_ofMembers rest]

end

end Document

end AlertFilter.Json
