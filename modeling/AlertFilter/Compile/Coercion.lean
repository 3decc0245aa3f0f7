import AlertFilter.Literal

/-!
# Coercion of literals

Values are typed in as text. Where an operator wants a number, a text that reads as one becomes it;
what cannot be coerced is either an error or passed through as it is, depending on the place.
-/

namespace AlertFilter

inductive CoercionError where
  | notNumeric (literal : Literal)
  | notInteger (literal : Literal)

def CoercionError.message : CoercionError → String
  | .notNumeric l => "Literal " ++ l.display ++ " is not a number"
  | .notInteger l => "Literal " ++ l.display ++ " is not an integer"

/-- A whole number of 64 bits with a sign. -/
abbrev Signed := { z : Int // FitsSigned z }

def Signed.clamp (z : Int) : Signed :=
  if h : FitsSigned z then ⟨z, h⟩
  else if z < 0 then ⟨-9223372036854775808, by decide⟩
  else ⟨9223372036854775807, by decide⟩

def Number.ofSigned (z : Signed) : Number := .whole z.val z.property.fitsWord

namespace Literal

/-- A number as it is, or the number that a text stands for. -/
def coerceNumber (l : Literal) : Except CoercionError Number :=
  match l with
  | number n => .ok n
  | text s =>
    match Number.ofText? (Text.trim s) with
    | some n => .ok n
    | none => .error (.notNumeric l)
  | _ => .error (.notNumeric l)

/-- A whole number in the signed range as it is; any other number is taken as a floating-point
number and cut off at the point, if it does not lie beyond `2 ^ 63` on either side. -/
def coerceInteger (l : Literal) : Except CoercionError Signed :=
  match l.coerceNumber with
  | .error _ => .error (.notInteger l)
  | .ok n =>
    match n.toSigned? with
    | some z => .ok (.clamp z)
    | none =>
      match n.toBinary64? with
      | some x =>
        let z := x.truncate
        if -9223372036854775808 ≤ z ∧ z ≤ 9223372036854775808 then .ok (.clamp z)
        else .error (.notInteger l)
      | none => .error (.notInteger l)

def numberOrRaw (l : Literal) : Literal :=
  match l.coerceNumber with
  | .ok n => number n
  | .error _ => l

def integerOrRaw (l : Literal) : Literal :=
  match l.coerceInteger with
  | .ok z => number (.ofSigned z)
  | .error _ => l

/-- A list as it is, anything else as a list of its own. -/
def asList : Literal → Literal
  | list items => list items
  | l => list [l]

end Literal

end AlertFilter
