import AlertFilter.Proofs.DecodedSteps
import AlertFilter.Proofs.IntegerCoercion
import AlertFilter.Proofs.LetterCase
import AlertFilter.Proofs.LocalForms
import Mathlib.Data.List.TakeWhile

/-!
# Numbers typed as text

A whole number that is typed into an editor arrives as a text, with white space around it perhaps,
and is to mean the same as the number itself. It does in the signed range of 64 bits. Beyond it the
text is no longer read as a whole number but as the nearest floating-point number, while the number
sent as a number stays what it is.
-/

namespace AlertFilter

namespace Text

lemma trimChars_of_not_blank {cs : List Char} (h : ∀ c ∈ cs, isBlankChar c = false) :
    trimChars cs = cs := by
  have hkept {ds : List Char} (hds : ∀ c ∈ ds, isBlankChar c = false) :
      ds.dropWhile isBlankChar = ds := by
    rw [List.dropWhile_eq_self_iff]
    intro hl
    simp [hds _ (List.getElem_mem hl)]
  rw [trimChars, hkept h, hkept (by simpa using h), List.reverse_reverse]

lemma trim_padded {before word after : String} (hbefore : isBlank before = true)
    (hafter : isBlank after = true) (hword : ∀ c ∈ word.toList, isBlankChar c = false) :
    trim (before ++ word ++ after) = word := by
  have hleft : ∀ c ∈ before.toList, isBlankChar c = true := by
    simpa [isBlank] using hbefore
  have hright : ∀ c ∈ after.toList, isBlankChar c = true := by
    simpa [isBlank] using hafter
  rw [trim, String.toList_append, String.toList_append, trimChars_padded hleft hright,
    trimChars_of_not_blank hword, String.ofList_toList]

end Text

namespace Decimal

lemma natOfDigits_toDigits (n : ℕ) : natOfDigits (Nat.toDigits 10 n) = n := by
  have hfold : natOfDigits (Nat.toDigits 10 n) = Nat.ofDigitChars 10 (Nat.toDigits 10 n) 0 := by
    unfold natOfDigits Nat.ofDigitChars
    congr 1
    funext m c
    rw [digitValue, Nat.mul_comm]
  rw [hfold, Nat.ofDigitChars_ten_toDigits]

lemma all_isDigit_toDigits (n : ℕ) : (Nat.toDigits 10 n).all Char.isDigit = true :=
  List.all_eq_true.mpr fun _ hc => Nat.isDigit_of_mem_toDigits (by decide) (by decide) hc

lemma exists_toDigits (n : ℕ) :
    ∃ c rest, Nat.toDigits 10 n = c :: rest ∧ c.isDigit = true := by
  obtain ⟨c, rest, hdigits⟩ := List.exists_cons_of_ne_nil (Nat.toDigits_ne_nil (n := n) (b := 10))
  refine ⟨c, rest, hdigits, ?_⟩
  exact Nat.isDigit_of_mem_toDigits (by decide) (by decide) (hdigits ▸ List.mem_cons_self)

lemma splitSign_of_isDigit {c : Char} (h : c.isDigit = true) (rest : List Char) :
    splitSign (c :: rest) = (false, c :: rest) := by
  unfold splitSign
  split
  · next heq =>
    obtain rfl := (List.cons.inj heq).1
    cases h
  · next heq =>
    obtain rfl := (List.cons.inj heq).1
    cases h
  · rfl

lemma splitSign_toDigits (n : ℕ) : splitSign (Nat.toDigits 10 n) = (false, Nat.toDigits 10 n) := by
  obtain ⟨c, rest, hdigits, hc⟩ := exists_toDigits n
  rw [hdigits, splitSign_of_isDigit hc]

lemma isEmpty_toDigits (n : ℕ) : (Nat.toDigits 10 n).isEmpty = false := by
  obtain ⟨c, rest, hdigits, -⟩ := exists_toDigits n
  rw [hdigits]
  rfl

/-- The decimal text of a whole number is its digits, behind a minus if it is below zero. -/
lemma toList_intText (z : ℤ) :
    (toString z).toList =
      if z < 0 then '-' :: Nat.toDigits 10 z.natAbs else Nat.toDigits 10 z.natAbs := by
  cases z with
  | ofNat n =>
    rw [if_neg (by simp)]
    exact Nat.toList_repr
  | negSucc n =>
    rw [if_pos (Int.negSucc_lt_zero n)]
    change ("-" ++ (n + 1).repr).toList = _
    rw [String.toList_append, Nat.toList_repr]
    rfl

/-- A whole number is read back from its decimal text. -/
theorem readInt?_intText (z : ℤ) : readInt? (toString z) = some z := by
  rw [readInt?, toList_intText]
  by_cases hz : z < 0
  · have hneg : -(z.natAbs : ℤ) = z := by omega
    rw [if_pos hz, ← hneg]
    simp [splitSign, isEmpty_toDigits, all_isDigit_toDigits, natOfDigits_toDigits]
  · have hpos : (z.natAbs : ℤ) = z := by omega
    rw [if_neg hz, splitSign_toDigits, ← hpos]
    simp [isEmpty_toDigits, all_isDigit_toDigits, natOfDigits_toDigits]

/-- A number of digits alone is read as what they say. -/
lemma readScientific?_toDigits (n : ℕ) :
    readScientific? (Nat.toDigits 10 n) = some ⟨false, n, 0⟩ := by
  have hspan : spanDigits (Nat.toDigits 10 n) = (Nat.toDigits 10 n, []) := by
    have hall := List.all_eq_true.mp (all_isDigit_toDigits n)
    rw [spanDigits, List.takeWhile_eq_self_iff.mpr hall, List.dropWhile_eq_nil_iff.mpr hall]
  rw [readScientific?, splitSign_toDigits]
  simp only [hspan, isEmpty_toDigits]
  simp [readExponent?, natOfDigits_toDigits]

/-- A whole number of 64 bits is not settled by its order of magnitude. -/
lemma toBinary64?_whole {n : ℕ} (hpos : n ≠ 0) (h : n < 18446744073709551616) :
    (Scientific.mk false n 0).toBinary64? = Binary64.ofRatio? false ⟨n, 1⟩ := by
  have hcount : digitCount n ≤ 20 :=
    (Nat.length_toDigits_le_iff (by decide) (by decide)).mpr (h.trans (by norm_num))
  have hlarge : ¬ (310 : ℤ) < 0 + digitCount n := by omega
  have hsmall : ¬ (0 : ℤ) + digitCount n < -330 := by omega
  rw [Scientific.toBinary64?, if_neg hpos]
  dsimp only
  rw [if_neg hlarge, if_neg hsmall, if_pos le_rfl]
  simp

end Decimal

/-- Letter case does not matter to digits. -/
lemma map_toLower_toDigits (n : ℕ) :
    (Nat.toDigits 10 n).map Char.toLower = Nat.toDigits 10 n := by
  have hlower : ∀ c ∈ Nat.toDigits 10 n, c.toLower = id c := by
    intro c hc
    have hc : c.isDigit = true := List.all_eq_true.mp (Decimal.all_isDigit_toDigits n) c hc
    have hdigit := Char.isDigit_iff_toNat.mp hc
    exact Text.toLower_of_not_capital fun hcapital => absurd (hcapital.1.trans hdigit.2) (by decide)
  rw [List.map_congr_left hlower, List.map_id]

lemma FloatValue.ofText?_natText {n : ℕ} {x : Binary64} (hpos : n ≠ 0)
    (h : n < 18446744073709551616) (hx : Binary64.ofRatio? false ⟨n, 1⟩ = some x) :
    FloatValue.ofText? n.repr = some (.finite x) := by
  have hname : String.ofList ((Nat.toDigits 10 n).map Char.toLower) = n.repr := by
    rw [map_toLower_toDigits, ← Nat.toList_repr, String.ofList_toList]
  have hne : ∀ name : String, name.toList.all Char.isDigit = false → n.repr ≠ name := by
    rintro name hname rfl
    rw [Nat.toList_repr, Decimal.all_isDigit_toDigits] at hname
    cases hname
  rw [ofText?, Nat.toList_repr, Decimal.splitSign_toDigits]
  dsimp only
  rw [hname, if_neg (not_or.mpr ⟨hne "inf" (by decide), hne "infinity" (by decide)⟩),
    if_neg (hne "nan" (by decide)), Decimal.readScientific?_toDigits, Option.map_some,
    Decimal.toBinary64?_whole hpos h, hx]

namespace Number

/-- Within the signed range the text of a whole number is read as that number. -/
theorem ofText?_of_fits {z : ℤ} (h : FitsSigned z) :
    ofText? (toString z) = some (whole z h.fitsWord) := by
  rw [ofText?, Decimal.readInt?_intText, Option.filter_some, if_pos (decide_eq_true h)]
  exact dif_pos h.fitsWord

/-- Beyond the signed range it is read as the nearest floating-point number. -/
theorem ofText?_beyond {z : ℤ} (hz : FitsWord z) (h : ¬ FitsSigned z) :
    ∃ x, (whole z hz).toBinary64? = some x ∧ ofText? (toString z) = some (float x) := by
  have hlarge := hz.beyond h
  obtain ⟨x, hx, -⟩ := toBinary64?_beyond hz hlarge
  refine ⟨x, hx, ?_⟩
  obtain ⟨n, rfl⟩ := Int.eq_ofNat_of_zero_le (show 0 ≤ z by omega)
  have hhigh : n < 18446744073709551616 := by have := hz.2; omega
  have hratio : Binary64.ofRatio? false ⟨n, 1⟩ = some x := by
    rwa [toBinary64?, decide_eq_false (by omega), Int.natAbs_natCast] at hx
  have htext : FloatValue.ofText? (toString (n : ℤ)) = some (.finite x) :=
    FloatValue.ofText?_natText (by omega) hhigh hratio
  rw [ofText?, Decimal.readInt?_intText, Option.filter_some, if_neg (by simpa using h)]
  dsimp only
  rw [htext]

end Number

/-! ### Literals and steps -/

/-- The text of a whole number with white space around it. -/
def Literal.typed (before : String) (z : ℤ) (after : String) : Literal :=
  .text (before ++ toString z ++ after)

/-- The places of a range step that take a number. -/
inductive NumberPlace where
  | value
  | lower
  | upper

/-- A range step with a literal in one of these places. -/
def Step.typedAt (s : Step) (r : RangeSettings) : NumberPlace → Literal → Step
  | .value, l => { s with kind := .range r, value := .literal l }
  | .lower, l => { s with kind := .range { r with bounds := some ⟨l, r.bounds.bind (·.max)⟩ } }
  | .upper, l => { s with kind := .range { r with bounds := some ⟨r.bounds.bind (·.min), l⟩ } }

lemma Text.isBlankChar_intText (z : ℤ) : ∀ c ∈ (toString z).toList, isBlankChar c = false := by
  have hdigits : ∀ c ∈ Nat.toDigits 10 z.natAbs, isBlankChar c = false := fun c hc =>
    not_isBlankChar_of_isDigit (List.all_eq_true.mp (Decimal.all_isDigit_toDigits _) c hc)
  rw [Decimal.toList_intText]
  split
  · exact List.forall_mem_cons.mpr ⟨by decide, hdigits⟩
  · exact hdigits

lemma Literal.isBlank_typed (before : String) (z : ℤ) (after : String) :
    (typed before z after).isBlank = false := by
  rw [typed, isBlank, Text.isBlank_append, Text.isBlank_append, Text.isBlank_intText,
    Bool.and_false, Bool.false_and]

lemma Literal.coerceNumber_typed {z : ℤ} {before after : String}
    (hbefore : Text.isBlank before = true) (hafter : Text.isBlank after = true) {n : Number}
    (hn : Number.ofText? (toString z) = some n) : (typed before z after).coerceNumber = .ok n := by
  rw [typed, coerceNumber, Text.trim_padded hbefore hafter (Text.isBlankChar_intText z), hn]

lemma Step.coercion_of_comparison {s : Step} {o : Operator} {r : RangeSettings}
    (hkind : s.kind = .range r) (ho : o.isComparison = true) : s.coercion o = .number := by
  rw [coercion, hkind]
  cases o <;> first | rfl | cases ho

lemma Step.compileLocal_of_range {s : Step} {o : Operator} {r : RangeSettings}
    (hkind : s.kind = .range r) (ho : s.operator = some o)
    (hfield : Text.isBlank s.fieldName = false) :
    s.compileLocal =
      if o = .between then compileBetween (.field s.path) r.bounds
      else .ok (if o.takesValue then s.compared o else some (o.apply (s.subject o))) := by
  rw [compileLocal_eq ho hfield, hkind]

/-- Only the numbers that the ends of a range are read as matter to it. -/
lemma compileBetween_congr (subject : Expression) {min min' max max' : Option Literal}
    (hmin : (givenLiteral? min).map Literal.coerceNumber =
      (givenLiteral? min').map Literal.coerceNumber)
    (hmax : (givenLiteral? max).map Literal.coerceNumber =
      (givenLiteral? max').map Literal.coerceNumber) :
    compileBetween subject (some ⟨min, max⟩) = compileBetween subject (some ⟨min', max'⟩) := by
  simp only [compileBetween, Option.bind_some]
  cases hleast : givenLiteral? min <;> cases hleast' : givenLiteral? min' <;>
    cases hgreatest : givenLiteral? max <;> cases hgreatest' : givenLiteral? max' <;>
      simp_all

section OfNumber

variable {l : Literal} {n : Number} (hblank : l.isBlank = false) (hl : l.coerceNumber = .ok n)

include hblank hl

lemma StepValue.operand?_of_number :
    (literal l).operand? .number = some (.literal (.number n)) := by
  rw [operand?, hblank, Coercion.apply, Literal.numberOrRaw, hl]
  rfl

lemma coerceNumber_given : (givenLiteral? (some l)).map Literal.coerceNumber =
    (givenLiteral? (some (.number n))).map Literal.coerceNumber := by
  have hgiven : givenLiteral? (some l) = some l := by rw [givenLiteral?, hblank]; rfl
  rw [hgiven, Option.map_some, hl]
  rfl

namespace Step

variable {s : Step} {o : Operator} (hcomparison : o.isComparison = true) (r : RangeSettings)
  (place : NumberPlace)

include hcomparison

lemma compared_typedAt :
    (s.typedAt r place l).compared o = (s.typedAt r place (.number n)).compared o := by
  have hcoercion : ∀ l, (s.typedAt r place l).coercion o = .number := by
    intro l
    cases place <;> exact coercion_of_comparison rfl hcomparison
  unfold compared
  rw [hcoercion, hcoercion]
  cases place with
  | value =>
    rw [typedAt, StepValue.operand?_of_number hblank hl]
    rfl
  | lower | upper => rfl

/-- Of a literal that is a number, a range step compares with that number. -/
theorem compileLocal_typedAt (ho : s.operator = some o) :
    (s.typedAt r place l).compileLocal = (s.typedAt r place (.number n)).compileLocal := by
  cases hfield : Text.isBlank s.fieldName with
  | true =>
    have hlocal : ∀ l, (s.typedAt r place l).compileLocal = .ok none := by
      intro l
      cases place <;> exact compileLocal_of_blank hfield
    rw [hlocal, hlocal]
  | false =>
    have hcompared := compared_typedAt (s := s) hblank hl hcomparison r place
    cases place with
    | value =>
      rw [compileLocal_of_range (s := s.typedAt r .value l) rfl ho hfield,
        compileLocal_of_range (s := s.typedAt r .value (.number n)) rfl ho hfield, hcompared]
      rfl
    | lower =>
      rw [compileLocal_of_range (s := s.typedAt r .lower l) rfl ho hfield,
        compileLocal_of_range (s := s.typedAt r .lower (.number n)) rfl ho hfield, hcompared,
        compileBetween_congr _ (coerceNumber_given hblank hl) rfl]
      rfl
    | upper =>
      rw [compileLocal_of_range (s := s.typedAt r .upper l) rfl ho hfield,
        compileLocal_of_range (s := s.typedAt r .upper (.number n)) rfl ho hfield, hcompared,
        compileBetween_congr _ rfl (coerceNumber_given hblank hl)]
      rfl

end Step

end OfNumber

/-- A whole number of 64 bits that is typed as text, with any white space around it, is the same
number as one that is sent as a number if it lies in the signed range, and a range step then
compares with the same number, be it the value or an end of the range. Beyond the signed range, and
only there, the text becomes another number: the nearest floating-point number. -/
theorem typed_number {z : ℤ} (hz : FitsWord z) {before after : String}
    (hbefore : Text.isBlank before = true) (hafter : Text.isBlank after = true) :
    let typed := Literal.typed before z after
    let sent := Literal.number (.whole z hz)
    (typed.coerceNumber = sent.coerceNumber ↔ FitsSigned z) ∧
      (FitsSigned z → typed.coerceNumber = .ok (.whole z hz) ∧
        ∀ (s : Step) (r : RangeSettings) (place : NumberPlace) (o : Operator),
          s.operator = some o → o.isComparison = true →
            (s.typedAt r place typed).compileLocal = (s.typedAt r place sent).compileLocal) ∧
      (¬ FitsSigned z → ∃ x, (Number.whole z hz).toBinary64? = some x ∧
        typed.coerceNumber = .ok (.float x)) := by
  intro typed sent
  have hwhole : FitsSigned z → typed.coerceNumber = .ok (.whole z hz) := fun hfits =>
    Literal.coerceNumber_typed hbefore hafter (Number.ofText?_of_fits hfits)
  have hfloat : ¬ FitsSigned z → ∃ x, (Number.whole z hz).toBinary64? = some x ∧
      typed.coerceNumber = .ok (.float x) := by
    intro hfits
    obtain ⟨x, hx, hread⟩ := Number.ofText?_beyond hz hfits
    exact ⟨x, hx, Literal.coerceNumber_typed hbefore hafter hread⟩
  refine ⟨⟨fun hsame => ?_, hwhole⟩,
    fun hfits => ⟨hwhole hfits, fun s r place o ho hcomparison => ?_⟩, hfloat⟩
  · by_contra hfits
    obtain ⟨x, -, htyped⟩ := hfloat hfits
    rw [htyped] at hsame
    cases hsame
  · exact Step.compileLocal_typedAt (Literal.isBlank_typed before z after) (hwhole hfits)
      hcomparison r place ho

/-- The least signed number, typed as an end of a range among white space of two kinds. -/
theorem typed_number_least :
    let z : ℤ := -9223372036854775808
    let typed := Literal.text "\u3000 -9223372036854775808\t"
    let sent := Literal.number (.whole z (by decide))
    let s := (Step.range ⟨"a"⟩ "candid").withOperator .between
    let r : RangeSettings := ⟨false, true, some ⟨none, some (.text "0")⟩⟩
    FitsWord z ∧ Text.isBlank "\u3000 " = true ∧ Text.isBlank "\t" = true ∧ FitsSigned z ∧
      typed.coerceNumber = .ok (.whole z (by decide)) ∧
      (s.typedAt r .lower typed).compileLocal = (s.typedAt r .lower sent).compileLocal := by
  intro z typed sent s r
  have htyped : typed = .typed "\u3000 " z "\t" := by decide +kernel
  have hz : FitsWord z := by decide
  have hbefore : Text.isBlank "\u3000 " = true := by decide
  have hafter : Text.isBlank "\t" = true := by decide
  have hfits : FitsSigned z := by decide
  obtain ⟨-, hsigned, -⟩ := typed_number hz hbefore hafter
  obtain ⟨hnumber, hstep⟩ := hsigned hfits
  rw [htyped]
  exact ⟨hz, hbefore, hafter, hfits, hnumber, hstep s r .lower .between rfl rfl⟩

/-- Beyond the signed range a typed number and the number itself are no longer the same. -/
theorem typed_text_is_rounded :
    (Literal.text "9223372036854775809").coerceNumber ≠
      (Literal.number (.whole 9223372036854775809 (by decide))).coerceNumber := by
  have htyped : Literal.text "9223372036854775809" = .typed "" 9223372036854775809 "" := by
    decide +kernel
  have hz : FitsWord 9223372036854775809 := by decide
  obtain ⟨x, -, hread⟩ := Number.ofText?_beyond hz (by decide)
  rw [htyped, Literal.coerceNumber_typed rfl rfl hread]
  intro h
  cases h

end AlertFilter
