import AlertFilter.Number.Decimal
import AlertFilter.Number.Shortest

/-!
# Numbers

A number of a document is whole, in the range of 64 bits signed or unsigned, or a finite
floating-point number. The two kinds stay apart: `5` and `5.0` are different numbers.
-/

namespace AlertFilter

/-- Whole numbers that 64 bits hold, with a sign or without. -/
def FitsWord (z : Int) : Prop := -9223372036854775808 ≤ z ∧ z < 18446744073709551616

instance (z : Int) : Decidable (FitsWord z) := inferInstanceAs (Decidable (_ ∧ _))

/-- Whole numbers that 64 bits hold with a sign. -/
def FitsSigned (z : Int) : Prop := -9223372036854775808 ≤ z ∧ z < 9223372036854775808

instance (z : Int) : Decidable (FitsSigned z) := inferInstanceAs (Decidable (_ ∧ _))

theorem FitsSigned.fitsWord {z : Int} (h : FitsSigned z) : FitsWord z :=
  ⟨h.1, by have := h.2; omega⟩

inductive Number where
  | whole (value : Int) (fits : FitsWord value)
  | float (value : Binary64)
deriving DecidableEq

/-- Where floating-point numbers are written positionally: from `10 ^ least` up to `10 ^ bound`. -/
structure FloatNotation where
  least : Int
  bound : Int
  plusSign : Bool

/-- Positional from `0.00001` up to sixteen digits before the point; beyond that one digit before
the point and an exponent with its sign. -/
def floatNotation : FloatNotation := ⟨-5, 16, true⟩

/-- The digits with a point, or zeros, such that `digits * 10 ^ exponent` is meant. -/
def plainText (d : DecimalDigits) : String :=
  let cs := Nat.toDigits 10 d.digits
  if 0 ≤ d.exponent then String.ofList (cs ++ List.replicate d.exponent.toNat '0')
  else
    let places := (-d.exponent).toNat
    let padded := List.replicate (places + 1 - cs.length) '0' ++ cs
    String.ofList (padded.take (padded.length - places)) ++ "." ++
      String.ofList (padded.drop (padded.length - places))

/-- The same with a point in any case. -/
def positionalText (d : DecimalDigits) : String :=
  if 0 ≤ d.exponent then plainText d ++ ".0" else plainText d

/-- One digit, the others behind a point if there are any, and the exponent. -/
def scientificText (n : FloatNotation) (d : DecimalDigits) (leading : Int) : String :=
  let cs := Nat.toDigits 10 d.digits
  let mantissa := match cs with
    | [] => ""
    | [c] => String.ofList [c]
    | c :: rest => String.ofList (c :: '.' :: rest)
  let sign := if leading < 0 then "-" else if n.plusSign then "+" else ""
  mantissa ++ "e" ++ sign ++ toString leading.natAbs

def Binary64.text (x : Binary64) : String :=
  let sign := if x.negative then "-" else ""
  if x.mantissa = 0 then sign ++ "0.0"
  else
    let d := x.shortest
    let leading := d.exponent + Decimal.digitCount d.digits - 1
    if floatNotation.least ≤ leading ∧ leading < floatNotation.bound then sign ++ positionalText d
    else sign ++ scientificText floatNotation d leading

/-- The number without an exponent, and without a point if it is whole. -/
def Binary64.plainText (x : Binary64) : String :=
  (if x.negative then "-" else "") ++
    if x.mantissa = 0 then "0" else AlertFilter.plainText x.shortest

inductive FloatValue where
  | finite (value : Binary64)
  | infinite (negative : Bool)
  | nan

/-- A number in decimal or scientific form, rounded to the nearest, or the name of a value that is
not finite, in any case of letters. -/
def FloatValue.ofText? (s : String) : Option FloatValue :=
  let (negative, cs) := Decimal.splitSign s.toList
  let name := String.ofList (cs.map Char.toLower)
  if name = "inf" ∨ name = "infinity" then some (.infinite negative)
  else if name = "nan" then some .nan
  else (Decimal.readScientific? s.toList).map fun x =>
    match x.toBinary64? with
    | some y => .finite y
    | none => .infinite negative

/-- Numbers compare by value: the two zeros are equal. -/
instance : BEq Binary64 where
  beq x y := x.mantissa == y.mantissa && x.exponent == y.exponent &&
    (x.mantissa == 0 || x.negative == y.negative)

instance : BEq Number where
  beq
    | .whole a _, .whole b _ => a == b
    | .float a, .float b => a == b
    | _, _ => false

namespace Number

def ofInt (z : Int) : Option Number :=
  if h : FitsWord z then some (.whole z h) else none

def text : Number → String
  | .whole z _ => toString z
  | .float x => x.text

def toSigned? : Number → Option Int
  | .whole z _ => if FitsSigned z then some z else none
  | .float _ => none

/-- The nearest floating-point number; every number has one. -/
def toBinary64? : Number → Option Binary64
  | .whole z _ => Binary64.ofRatio? (z < 0) ⟨z.natAbs, 1⟩
  | .float x => some x

/-- A text that is a signed whole number of 64 bits is that number; one in decimal or scientific
form is the nearest floating-point number, if that is finite. Nothing else is a number. -/
def ofText? (s : String) : Option Number :=
  match (Decimal.readInt? s).filter (FitsSigned ·) with
  | some z => ofInt z
  | none =>
    match FloatValue.ofText? s with
    | some (.finite x) => some (.float x)
    | _ => none

end Number

end AlertFilter
