/-!
# Finite binary64 numbers

A finite floating-point number is kept as sign, mantissa and exponent, so its value is exact and
every operation is integer arithmetic followed by one rounding to nearest, ties to even. `none`
stands for a result too large to be finite.
-/

namespace AlertFilter

/-- Each finite value has one mantissa and exponent: 53 bits, `9007199254740992` being the power of
two above them, and all used unless the value is so small that the exponent is the least one. -/
def Binary64.Canonical (mantissa : Nat) (exponent : Int) : Prop :=
  mantissa < 9007199254740992 ∧ -1074 ≤ exponent ∧ exponent ≤ 971 ∧
    (4503599627370496 ≤ mantissa ∨ exponent = -1074)

instance (m : Nat) (e : Int) : Decidable (Binary64.Canonical m e) :=
  inferInstanceAs (Decidable (_ ∧ _ ∧ _ ∧ _))

/-- The number `± mantissa * 2 ^ exponent`. -/
structure Binary64 where
  negative : Bool
  mantissa : Nat
  exponent : Int
  canonical : Binary64.Canonical mantissa exponent
deriving DecidableEq

namespace Binary64

structure Ratio where
  num : Nat
  den : Nat

/-- The fraction `n * 2 ^ e / d`. -/
def Ratio.scaled (n d : Nat) (e : Int) : Ratio :=
  if 0 ≤ e then ⟨n * Nat.pow 2 e.toNat, d⟩ else ⟨n, d * Nat.pow 2 (-e).toNat⟩

/-- The nearest whole number to `n / d`; a half goes to the even neighbour. -/
def roundHalfEven (n d : Nat) : Nat :=
  let q := n / d
  let r := n % d
  if 2 * r < d then q else if d < 2 * r then q + 1 else if q % 2 = 0 then q else q + 1

/-- The whole `k` with `2 ^ k ≤ n / d < 2 ^ (k + 1)`, for `n` and `d` above zero. -/
def Ratio.log2 (r : Ratio) : Int :=
  let k : Int := (r.num.log2 : Int) - r.den.log2
  let s := Ratio.scaled r.num r.den (-k)
  if s.num < s.den then k - 1 else k

def zero (negative : Bool) : Binary64 := ⟨negative, 0, -1074, by decide⟩

/-- The number with this mantissa and exponent, if they are canonical. -/
def ofParts? (negative : Bool) (mantissa : Nat) (exponent : Int) : Option Binary64 :=
  if h : Canonical mantissa exponent then some ⟨negative, mantissa, exponent, h⟩ else none

def ofRatio? (negative : Bool) (r : Ratio) : Option Binary64 :=
  if r.num = 0 then some (zero negative)
  else
    let exponent := max (r.log2 - 52) (-1074)
    let s := Ratio.scaled r.num r.den (-exponent)
    let m := roundHalfEven s.num s.den
    if m = 9007199254740992 then ofParts? negative 4503599627370496 (exponent + 1)
    else ofParts? negative m exponent

def ofNat? (n : Nat) : Option Binary64 := ofRatio? false ⟨n, 1⟩

def magnitude (x : Binary64) : Ratio := Ratio.scaled x.mantissa 1 x.exponent

def neg (x : Binary64) : Binary64 := { x with negative := !x.negative }

def mul? (x y : Binary64) : Option Binary64 :=
  let a := x.magnitude
  let b := y.magnitude
  ofRatio? (x.negative != y.negative) ⟨a.num * b.num, a.den * b.den⟩

/-- Division by a number that is not zero. -/
def div? (x y : Binary64) : Option Binary64 :=
  let a := x.magnitude
  let b := y.magnitude
  ofRatio? (x.negative != y.negative) ⟨a.num * b.den, a.den * b.num⟩

/-- The part before the point: rounding toward zero. -/
def truncate (x : Binary64) : Int :=
  let r := x.magnitude
  let n : Int := (r.num / r.den : Nat)
  if x.negative then -n else n

end Binary64

end AlertFilter
