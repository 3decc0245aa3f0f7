import AlertFilter.Text.CaseTable
import AlertFilter.Text.Blank

/-!
# Lower case

Searches ignore letter case: both sides are lower-cased and compared. One letter, the capital I
with a dot, becomes two characters, and a capital sigma becomes the final form where a word ends.
-/

namespace AlertFilter.Text

def CaseShift.covers (r : CaseShift) (n : Nat) : Bool :=
  r.first ≤ n && n ≤ r.last && (n - r.first) % r.stride == 0

def inRanges (table : List (Nat × Nat)) (c : Char) : Bool :=
  table.any fun r => r.1 ≤ c.toNat && c.toNat ≤ r.2

def isCased (c : Char) : Bool := inRanges casedRanges c

def isCaseIgnorable (c : Char) : Bool := inRanges caseIgnorableRanges c

def lowerChar (c : Char) : List Char :=
  if c.toNat = 0x130 then ['i', Char.ofNat 0x307]
  else match lowerShifts.find? (·.covers c.toNat) with
    | some r => [Char.ofNat (c.toNat + r.shift).toNat]
    | none => [c]

def capitalSigma : Char := 'Σ'

/-- Whether the nearest character that is not looked through has case. -/
def startsCased (cs : List Char) : Bool :=
  match cs.dropWhile isCaseIgnorable with
  | [] => false
  | c :: _ => isCased c

/-- Lower-cases what follows `before`, which is kept nearest character first. A capital sigma that
closes a word takes its final form. -/
def lowerFrom (before : List Char) : List Char → List Char
  | [] => []
  | c :: rest =>
    let lowered :=
      if c = capitalSigma then
        if startsCased before && !startsCased rest then ['ς'] else ['σ']
      else lowerChar c
    lowered ++ lowerFrom (c :: before) rest

def lower (s : String) : String := String.ofList (lowerFrom [] s.toList)

/-- Whether `part` occurs in `whole` as a contiguous run. -/
def occursIn (part whole : List Char) : Bool :=
  match whole with
  | [] => part.isEmpty
  | _ :: rest => part.isPrefixOf whole || occursIn part rest

/-- The trimmed query, lower-cased; a text is searched for it in lower case. -/
def needle (query : String) : String := lower (trim query)

/-- A blank query finds every text. -/
def matchesQuery (query text : String) : Bool :=
  (needle query).isEmpty || occursIn (needle query).toList (lower text).toList

end AlertFilter.Text
