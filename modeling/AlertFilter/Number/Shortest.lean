import AlertFilter.Number.Binary64

/-!
# The shortest decimal that reads back

Among the decimals that round to a given floating-point number, the ones with the fewest digits are
taken, and of these the nearest to the number; a tie goes to the even last digit.
-/

namespace AlertFilter

/-- The number `digits * 10 ^ exponent`. -/
structure DecimalDigits where
  digits : Nat
  exponent : Int

namespace Binary64

/-- The reals that round to a number, as multiples of one unit: the ends of the interval and the
number itself, with the unit's fraction. The ends belong to it when the mantissa is even. -/
structure RoundingInterval where
  low : Nat
  value : Nat
  high : Nat
  unit : Ratio
  closed : Bool

/-- Below a power of two the neighbour is half as far as above it. -/
def roundingInterval (x : Binary64) : RoundingInterval :=
  let tight := x.mantissa = 4503599627370496 ∧ x.exponent ≠ -1074
  { low := 4 * x.mantissa - (if tight then 1 else 2)
    value := 4 * x.mantissa
    high := 4 * x.mantissa + 2
    unit := Ratio.scaled 1 1 (x.exponent - 2)
    closed := x.mantissa % 2 = 0 }

/-- Whether `d * 10 ^ e` rounds to the number. -/
def RoundingInterval.holds (i : RoundingInterval) (d : Nat) (e : Int) : Bool :=
  let n := if 0 ≤ e then d * Nat.pow 10 e.toNat * i.unit.den else d * i.unit.den
  let u := if 0 ≤ e then i.unit.num else i.unit.num * Nat.pow 10 (-e).toNat
  if i.closed then i.low * u ≤ n && n ≤ i.high * u else i.low * u < n && n < i.high * u

/-- The number as a multiple of `10 ^ e`, rounded down, and the doubled remainder against the
divisor: which of the two neighbours on that grid is nearer. -/
def RoundingInterval.onGrid (i : RoundingInterval) (e : Int) : Nat × Ordering :=
  let n := if 0 ≤ e then i.value * i.unit.num else i.value * i.unit.num * Nat.pow 10 (-e).toNat
  let d := if 0 ≤ e then i.unit.den * Nat.pow 10 e.toNat else i.unit.den
  (n / d, compare (2 * (n % d)) d)

/-- The neighbour on the grid `10 ^ e` that rounds to the number, the nearer one if both do. -/
def RoundingInterval.gridPoint? (i : RoundingInterval) (e : Int) : Option Nat :=
  let (below, side) := i.onGrid e
  match i.holds below e, i.holds (below + 1) e with
  | false, false => none
  | true, false => some below
  | false, true => some (below + 1)
  | true, true => some <| match side with
    | .lt => below
    | .gt => below + 1
    | .eq => if below % 2 = 0 then below else below + 1

/-- The exponent of the leading decimal digit, found by trying upward from a lower bound. -/
def leadingExponent (r : Ratio) : Nat → Int → Int
  | 0, e => e
  | k + 1, e =>
    let reached := if 0 ≤ e + 1 then r.den * Nat.pow 10 (e + 1).toNat ≤ r.num
      else r.den ≤ r.num * Nat.pow 10 (-(e + 1)).toNat
    if reached then leadingExponent r k (e + 1) else e

/-- A lower bound on the decimal order, at most two below it: `log10 2` lies between `1233 / 4096`
and `1234 / 4096`. -/
def orderEstimate (r : Ratio) : Int :=
  let k := r.log2
  (if 0 ≤ k then k * 1233 / 4096 else k * 1234 / 4096) - 1

/-- The first grid, from one digit up to seventeen, that has a point which rounds to the number. -/
def firstGrid (i : RoundingInterval) (order : Int) : Nat → Option DecimalDigits
  | 0 => none
  | k + 1 =>
    let e := order - (16 - (k : Int))
    match i.gridPoint? e with
    | some d => some ⟨d, e⟩
    | none => firstGrid i order k

def stripZeros (d : Nat) (e : Int) : DecimalDigits :=
  if h : d ≠ 0 ∧ d % 10 = 0 then stripZeros (d / 10) (e + 1) else ⟨d, e⟩
termination_by d
decreasing_by omega

def shortest (x : Binary64) : DecimalDigits :=
  let r := x.magnitude
  let order := leadingExponent r 4 (orderEstimate r)
  match firstGrid x.roundingInterval order 17 with
  | some d => stripZeros d.digits d.exponent
  | none => ⟨x.mantissa, 0⟩

end Binary64

end AlertFilter
