import AlertFilter.Number

/-!
# JSON values

An object is a list of members in the order they were written, repeated names included. Its
canonical form is sorted by name and keeps the last of several members with one name.
-/

namespace AlertFilter

inductive Json where
  | null
  | bool (value : Bool)
  | number (value : Number)
  | text (value : String)
  | array (items : List Json)
  | object (members : List (String × Json))
deriving Inhabited

namespace Json

abbrev Members := List (String × Json)

/-- Puts a member at its place among sorted ones, in place of one that has its name. -/
def insertMember (name : String) (value : Json) : Members → Members
  | [] => [(name, value)]
  | (n, v) :: rest =>
    if name < n then (name, value) :: (n, v) :: rest
    else if name = n then (name, value) :: rest
    else (n, v) :: insertMember name value rest

/-- Members sorted by name, the last of each name. -/
def sortMembers (members : Members) : Members :=
  members.foldl (fun done m => insertMember m.1 m.2 done) []

mutual

/-- Sorts the members of every object in a value. -/
def canonical : Json → Json
  | .array items => .array (canonicalItems items)
  | .object members => .object (sortMembers (canonicalMembers members))
  | v => v

def canonicalItems : List Json → List Json
  | [] => []
  | v :: rest => canonical v :: canonicalItems rest

def canonicalMembers : Members → Members
  | [] => []
  | (name, v) :: rest => (name, canonical v) :: canonicalMembers rest

end

def lookup (name : String) (members : Members) : Option Json :=
  (members.reverse.find? (·.1 = name)).map (·.2)

end Json

end AlertFilter
