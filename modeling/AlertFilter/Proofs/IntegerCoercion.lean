import AlertFilter.Compile.Coercion
import Mathlib.Algebra.Order.Field.Power
import Mathlib.Data.Rat.Floor
import Mathlib.Tactic.Linarith
import Mathlib.Tactic.Positivity

/-!
# Numbers coerced to whole numbers

A number has an exact value, and where a whole number is wanted the part of it before the point is
to be taken, or the number refused. Within the signed range that is what happens. Beyond it a number
is held, as a floating-point number, against the end of the range, which rounds to `2 ^ 63`: what
rounds to `2 ^ 63` itself is let through, and becomes the largest signed number.
-/

namespace AlertFilter

/-- The part of a number before the point: it is cut off toward zero. -/
def wholePart (q : ℚ) : ℤ := if 0 ≤ q then ⌊q⌋ else ⌈q⌉

@[simp] lemma wholePart_intCast (z : ℤ) : wholePart z = z := by
  unfold wholePart
  split
  · exact Int.floor_intCast z
  · exact Int.ceil_intCast z

lemma wholePart_natCast_div (n d : ℕ) : wholePart (n / d) = (n / d : ℕ) := by
  have hnonneg : (0 : ℚ) ≤ n / d := by positivity
  rw [wholePart, if_pos hnonneg, Rat.floor_natCast_div_natCast, Int.natCast_ediv]

lemma wholePart_neg {q : ℚ} (h : 0 ≤ q) : wholePart (-q) = -wholePart q := by
  rcases h.eq_or_lt with rfl | hpos
  · rfl
  · rw [wholePart, wholePart, if_pos h, if_neg (by linarith), Int.ceil_neg]

namespace Binary64

lemma Ratio.value_scaled (n d : ℕ) (e : ℤ) :
    ((scaled n d e).num : ℚ) / (scaled n d e).den = n / d * 2 ^ e := by
  unfold scaled
  by_cases he : 0 ≤ e
  · obtain ⟨k, rfl⟩ := Int.eq_ofNat_of_zero_le he
    rw [if_pos he]
    simp only [Int.toNat_natCast, Nat.pow_eq, Nat.cast_mul, Nat.cast_pow, Nat.cast_ofNat,
      zpow_natCast]
    ring
  · obtain ⟨k, rfl⟩ : ∃ k : ℕ, e = -k := ⟨(-e).toNat, by omega⟩
    rw [if_neg he]
    simp only [neg_neg, Int.toNat_natCast, Nat.pow_eq, Nat.cast_mul, Nat.cast_pow,
      Nat.cast_ofNat, zpow_neg, zpow_natCast]
    ring

/-- The exact value of a floating-point number. -/
def value (x : Binary64) : ℚ :=
  let magnitude : ℚ := x.mantissa * 2 ^ x.exponent
  if x.negative then -magnitude else magnitude

theorem truncate_eq (x : Binary64) : x.truncate = wholePart x.value := by
  have hscaled := Ratio.value_scaled x.mantissa 1 x.exponent
  have hvalue : (x.magnitude.num : ℚ) / x.magnitude.den = x.mantissa * 2 ^ x.exponent := by
    rw [magnitude, hscaled, Nat.cast_one, div_one]
  have hnonneg : (0 : ℚ) ≤ x.mantissa * 2 ^ x.exponent := by positivity
  have hpart : wholePart (x.mantissa * 2 ^ x.exponent) =
      (x.magnitude.num / x.magnitude.den : ℕ) := by
    rw [← hvalue, wholePart_natCast_div]
  cases hsign : x.negative with
  | false => simp [truncate, value, hsign, hpart]
  | true => simp [truncate, value, hsign, wholePart_neg hnonneg, hpart]

/-- The part of a magnitude before the point is a multiple of 2048 where it takes more than 63
bits. -/
lemma dvd_or_le_magnitude (x : Binary64) :
    2048 ∣ x.magnitude.num / x.magnitude.den ∨
      x.magnitude.num / x.magnitude.den ≤ 9223372036854775808 := by
  have hm : x.mantissa ≤ 9007199254740992 := x.canonical.1.le
  unfold magnitude Ratio.scaled
  by_cases he : 0 ≤ x.exponent
  · rw [if_pos he, Nat.div_one, Nat.pow_eq]
    by_cases hlarge : 11 ≤ x.exponent.toNat
    · exact .inl ((pow_dvd_pow 2 hlarge).mul_left x.mantissa)
    · refine .inr ?_
      calc x.mantissa * 2 ^ x.exponent.toNat
          ≤ 9007199254740992 * 2 ^ 10 := by gcongr <;> omega
        _ = 9223372036854775808 := by norm_num
  · rw [if_neg he]
    exact .inr ((Nat.div_le_self _ _).trans (hm.trans (by norm_num)))

/-- No floating-point number lies just beyond `2 ^ 63`. -/
lemma truncate_beyond {x : Binary64} (h : 9223372036854775808 < x.truncate) :
    9223372036854777856 ≤ x.truncate := by
  have hcases := x.dvd_or_le_magnitude
  have htruncate : x.truncate = if x.negative then -((x.magnitude.num / x.magnitude.den : ℕ) : ℤ)
      else (x.magnitude.num / x.magnitude.den : ℕ) := rfl
  generalize x.magnitude.num / x.magnitude.den = q at hcases htruncate
  split at htruncate
  · omega
  · omega

lemma ofParts?_whole {m e : ℕ} (h : Canonical m e) :
    ∃ x, ofParts? false m e = some x ∧ x.truncate = m * 2 ^ e := by
  refine ⟨_, dif_pos h, ?_⟩
  have hscaled : Ratio.scaled m 1 e = ⟨m * 2 ^ e, 1⟩ := if_pos (Int.natCast_nonneg e)
  simp [truncate, magnitude, hscaled]

/-- Whole numbers of 64 bits are rounded to multiples of 2048, a half to the even one. -/
lemma roundHalfEven_beyond {n : ℕ} (hlow : 9223372036854775808 ≤ n)
    (hhigh : n < 18446744073709551616) :
    4503599627370496 ≤ roundHalfEven n 2048 ∧ roundHalfEven n 2048 ≤ 9007199254740992 ∧
      (roundHalfEven n 2048 = 4503599627370496 ↔ n ≤ 9223372036854776832) := by
  unfold roundHalfEven
  dsimp only
  split_ifs <;> omega

lemma ofRatio?_beyond {n : ℕ} (hlow : 9223372036854775808 ≤ n)
    (hhigh : n < 18446744073709551616) :
    ofRatio? false ⟨n, 1⟩ =
      if roundHalfEven n 2048 = 9007199254740992 then ofParts? false 4503599627370496 12
      else ofParts? false (roundHalfEven n 2048) 11 := by
  have hn : n ≠ 0 := by omega
  have hlog : n.log2 = 63 := (Nat.log2_eq_iff hn).mpr ⟨hlow, hhigh⟩
  have hratio : (Ratio.mk n 1).log2 = 63 := by
    have hone : Nat.log2 1 = 0 := rfl
    have hscaled : Ratio.scaled n 1 (-(63 - 0)) = ⟨n, 9223372036854775808⟩ := rfl
    simp only [Ratio.log2, hlog, hone, Nat.cast_ofNat, Nat.cast_zero, hscaled]
    rw [if_neg (by omega)]
    rfl
  have hexponent : max ((63 : ℤ) - 52) (-1074) = 11 := rfl
  have hscaled : Ratio.scaled n 1 (-11) = ⟨n, 2048⟩ := rfl
  simp only [ofRatio?, if_neg hn, hratio, hexponent, hscaled]
  rfl

end Binary64

/-- What the signed range leaves out of 64 bits lies above it. -/
lemma FitsWord.beyond {z : ℤ} (hz : FitsWord z) (h : ¬ FitsSigned z) : 9223372036854775808 ≤ z := by
  have hlow := hz.1
  unfold FitsSigned at h
  omega

namespace Number

/-- The exact value of a number. -/
def value : Number → ℚ
  | whole z _ => z
  | float x => x.value

/-- A whole number beyond the signed range is still so when it is rounded, and the least such number
is what the next 1024 are rounded to as well. -/
lemma toBinary64?_beyond {z : ℤ} (hz : FitsWord z) (h : 9223372036854775808 ≤ z) :
    ∃ x, (whole z hz).toBinary64? = some x ∧ 9223372036854775808 ≤ x.truncate ∧
      (x.truncate = 9223372036854775808 ↔ z ≤ 9223372036854776832) := by
  obtain ⟨n, rfl⟩ := Int.eq_ofNat_of_zero_le (show 0 ≤ z by omega)
  have hlow : 9223372036854775808 ≤ n := by omega
  have hhigh : n < 18446744073709551616 := by have := hz.2; omega
  obtain ⟨hleast, hmost, hround⟩ := Binary64.roundHalfEven_beyond hlow hhigh
  have hneg : ¬ ((n : ℤ) < 0) := by omega
  rw [toBinary64?, decide_eq_false hneg, Int.natAbs_natCast, Binary64.ofRatio?_beyond hlow hhigh]
  by_cases hcarry : Binary64.roundHalfEven n 2048 = 9007199254740992
  · obtain ⟨x, hx, htruncate⟩ :=
      Binary64.ofParts?_whole (show Binary64.Canonical 4503599627370496 (12 : ℕ) by decide)
    rw [if_pos hcarry]
    exact ⟨x, hx, by omega, by omega⟩
  · have hcanonical : Binary64.Canonical (Binary64.roundHalfEven n 2048) (11 : ℕ) :=
      ⟨by omega, by decide, by decide, .inl hleast⟩
    obtain ⟨x, hx, htruncate⟩ := Binary64.ofParts?_whole hcanonical
    rw [if_neg hcarry]
    exact ⟨x, hx, by omega, by omega⟩

end Number

/-- Beyond the signed range by so little that the nearest floating-point number is `2 ^ 63`. -/
def RoundsToEnd (z : ℤ) : Prop := 9223372036854775808 ≤ z ∧ z ≤ 9223372036854776832

instance (z : ℤ) : Decidable (RoundsToEnd z) := inferInstanceAs (Decidable (_ ∧ _))

lemma roundsToEnd_truncate_iff {x : Binary64} :
    RoundsToEnd x.truncate ↔ x.truncate = 9223372036854775808 := by
  constructor
  · rintro ⟨hlow, hhigh⟩
    by_contra hne
    have hbeyond := Binary64.truncate_beyond (x := x) (by omega)
    omega
  · intro h
    rw [h]
    decide

lemma clamp_of_fits {z : ℤ} (h : FitsSigned z) : Signed.clamp z = ⟨z, h⟩ := dif_pos h

namespace Literal

/-- A number that is no signed whole number is taken as a floating-point number. -/
lemma coerceInteger_of_float {l : Literal} {n : Number} {x : Binary64}
    (hl : l.coerceNumber = .ok n) (hn : n.toSigned? = none) (hx : n.toBinary64? = some x) :
    l.coerceInteger.map Subtype.val =
      if FitsSigned x.truncate then .ok x.truncate
      else if x.truncate = 9223372036854775808 then .ok 9223372036854775807
      else .error (.notInteger l) := by
  unfold coerceInteger
  simp only [hl, hn, hx]
  by_cases hfits : FitsSigned x.truncate
  · have hrange : -9223372036854775808 ≤ x.truncate ∧ x.truncate ≤ 9223372036854775808 :=
      ⟨hfits.1, hfits.2.le⟩
    rw [if_pos hrange, if_pos hfits, clamp_of_fits hfits]
    rfl
  · rw [if_neg hfits]
    by_cases hend : x.truncate = 9223372036854775808
    · rw [if_pos hend, hend]
      rfl
    · have hrange : ¬ (-9223372036854775808 ≤ x.truncate ∧ x.truncate ≤ 9223372036854775808) := by
        rintro ⟨hlow, hhigh⟩
        exact hfits ⟨hlow, by omega⟩
      rw [if_neg hend, if_neg hrange]
      rfl

/-- A literal that is a number, whole or not, is coerced to the part of its exact value before the
point where that is a signed whole number of 64 bits, and is refused otherwise, but for the numbers
from `2 ^ 63` on that round to `2 ^ 63`: these become the largest signed number. A literal that is
no number is refused. -/
theorem coerceInteger_eq_wholePart (l : Literal) :
    l.coerceInteger.map Subtype.val =
      match l.coerceNumber with
      | .error _ => .error (.notInteger l)
      | .ok n =>
        if FitsSigned (wholePart n.value) then .ok (wholePart n.value)
        else if RoundsToEnd (wholePart n.value) then .ok 9223372036854775807
        else .error (.notInteger l) := by
  cases hl : l.coerceNumber with
  | error e =>
    rw [coerceInteger, hl]
    rfl
  | ok n =>
    dsimp only
    cases n with
    | float x =>
      have hpart : wholePart (Number.float x).value = x.truncate := x.truncate_eq.symm
      rw [coerceInteger_of_float hl rfl rfl, hpart]
      simp only [roundsToEnd_truncate_iff]
    | whole z hz =>
      have hpart : wholePart (Number.whole z hz).value = z := wholePart_intCast z
      rw [hpart]
      by_cases hfits : FitsSigned z
      · have hsigned : (Number.whole z hz).toSigned? = some z := if_pos hfits
        simp only [coerceInteger, hl, hsigned]
        rw [if_pos hfits, clamp_of_fits hfits]
        rfl
      · have hsigned : (Number.whole z hz).toSigned? = none := if_neg hfits
        have hlarge := hz.beyond hfits
        obtain ⟨x, hx, hbeyond, hround⟩ := Number.toBinary64?_beyond hz hlarge
        have hnot : ¬ FitsSigned x.truncate := fun hsmall => absurd hsmall.2 (not_lt.mpr hbeyond)
        have hend : x.truncate = 9223372036854775808 ↔ RoundsToEnd z :=
          hround.trans ⟨fun hz => ⟨hlarge, hz⟩, And.right⟩
        rw [coerceInteger_of_float hl hsigned hx, if_neg hfits, if_neg hnot]
        simp only [hend]

/-- The first number beyond the range is not refused. -/
theorem beyond_the_range_is_clamped :
    let n : Number := .whole 9223372036854775808 (by decide)
    wholePart n.value = 9223372036854775808 ∧
      (number n).coerceInteger.map Subtype.val = .ok 9223372036854775807 := by
  intro n
  obtain ⟨x, hx, -, hround⟩ :=
    Number.toBinary64?_beyond (show FitsWord 9223372036854775808 by decide) le_rfl
  have htruncate : x.truncate = 9223372036854775808 := hround.mpr (by decide)
  refine ⟨wholePart_intCast _, ?_⟩
  rw [coerceInteger_of_float (n := n) rfl rfl hx, htruncate]
  rfl

end Literal

end AlertFilter
