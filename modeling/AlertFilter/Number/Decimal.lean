import AlertFilter.Number.Binary64

/-!
# Decimal numbers as text

Two readings of digits. A value typed as text is read exactly and rounded once. A number token of a
document is read the quick way: the leading digits that fit in 64 bits become a floating-point
number, which is then multiplied or divided by a power of ten.
-/

namespace AlertFilter.Decimal

def digitValue (c : Char) : Nat := c.toNat - '0'.toNat

def natOfDigits (cs : List Char) : Nat := cs.foldl (fun n c => n * 10 + digitValue c) 0

def spanDigits (cs : List Char) : List Char × List Char :=
  (cs.takeWhile Char.isDigit, cs.dropWhile Char.isDigit)

/-- An optional sign at the front: whether it is a minus, and what follows it. -/
def splitSign : List Char → Bool × List Char
  | '-' :: rest => (true, rest)
  | '+' :: rest => (false, rest)
  | cs => (false, cs)

/-- A sign, if any, and at least one digit; nothing else. -/
def readInt? (s : String) : Option Int :=
  let (negative, digits) := splitSign s.toList
  if digits.isEmpty || !digits.all Char.isDigit then none
  else
    let n := natOfDigits digits
    some (if negative then -(n : Int) else n)

/-- As `readInt?`, for a number that is not below zero: a minus is refused even before zero. -/
def readNat? (s : String) : Option Nat :=
  let digits := match s.toList with
    | '+' :: rest => rest
    | cs => cs
  if digits.isEmpty || !digits.all Char.isDigit then none else some (natOfDigits digits)

/-- The number `± significand * 10 ^ exponent`. -/
structure Scientific where
  negative : Bool
  significand : Nat
  exponent : Int

/-- An optional exponent that takes all that is left: `e`, a sign if any, and digits. -/
def readExponent? : List Char → Option Int
  | [] => some 0
  | c :: rest =>
    if c = 'e' ∨ c = 'E' then readInt? (String.ofList rest) else none

/-- A sign, digits with a point anywhere among or beside them, and an exponent. -/
def readScientific? (cs : List Char) : Option Scientific :=
  let (negative, cs) := splitSign cs
  let (whole, cs) := spanDigits cs
  let (fraction, cs) := match cs with
    | '.' :: rest => spanDigits rest
    | cs => ([], cs)
  if whole.isEmpty && fraction.isEmpty then none
  else (readExponent? cs).map fun e =>
    ⟨negative, natOfDigits (whole ++ fraction), e - fraction.length⟩

def digitCount (n : Nat) : Nat := (Nat.toDigits 10 n).length

/-- The nearest floating-point number, `none` when it is not finite. A number far outside the range
is settled by its order of magnitude alone. -/
def Scientific.toBinary64? (x : Scientific) : Option Binary64 :=
  if x.significand = 0 then some (.zero x.negative)
  else
    let order := x.exponent + digitCount x.significand
    if 310 < order then none
    else if order < -330 then some (.zero x.negative)
    else if 0 ≤ x.exponent then
      Binary64.ofRatio? x.negative ⟨x.significand * Nat.pow 10 x.exponent.toNat, 1⟩
    else Binary64.ofRatio? x.negative ⟨x.significand, Nat.pow 10 (-x.exponent).toNat⟩

/-- The largest power of ten that is a finite floating-point number has this exponent. -/
def maxPower : Nat := 308

def power? (k : Nat) : Option Binary64 := Binary64.ofNat? (Nat.pow 10 k)

/-- Divides by the largest power of ten so many times, or until nothing is left. -/
def shrink (x : Binary64) : Nat → Option Binary64
  | 0 => some x
  | k + 1 =>
    if x.mantissa = 0 then some x
    else match (power? maxPower).bind x.div? with
      | some y => shrink y k
      | none => none

/-- `x * 10 ^ exponent` by one product or quotient with a power of ten, after as many divisions by
the largest such power as a very small exponent takes. -/
def shiftByPower? (x : Binary64) (exponent : Int) : Option Binary64 :=
  if x.mantissa = 0 then some x
  else if 0 ≤ exponent then
    if exponent ≤ maxPower then (power? exponent.toNat).bind x.mul? else none
  else
    let places := (-exponent).toNat
    let steps := (places - 1) / maxPower
    (shrink x steps).bind fun y =>
      if y.mantissa = 0 then some y else (power? (places - steps * maxPower)).bind y.div?

/-- Takes the digits one by one while the number they make fits in 64 bits, and counts the ones
taken. -/
def absorb (significand : Nat) : List Char → Nat × Nat
  | [] => (significand, 0)
  | c :: rest =>
    let next := significand * 10 + digitValue c
    if next < 18446744073709551616 then
      let (s, taken) := absorb next rest
      (s, taken + 1)
    else (significand, 0)

/-- The quick reading of a token's digits before the point, behind it, and its exponent. -/
def quickBinary64? (negative : Bool) (whole fraction : List Char) (exponent : Int) :
    Option Binary64 :=
  let (s, taken) := absorb 0 whole
  let (s, behind) := absorb s fraction
  let shift := ((whole.length - taken : Nat) : Int) - behind + exponent
  ((Binary64.ofNat? s).bind (shiftByPower? · shift)).map fun x => if negative then x.neg else x

end AlertFilter.Decimal
