import AlertFilter.Compile.Local
import AlertFilter.Proofs.ExpressionJson

/-!
# Texts with a dollar sign

A text with a dollar sign before it is no number, so no coercion changes it but the one into
a list. It stays a text that is written like the field path behind the dollar sign.
-/

namespace AlertFilter

open Expression

lemma splitSign_dollar (cs : List Char) : Decimal.splitSign ('$' :: cs) = (false, '$' :: cs) := rfl

lemma floatOfText?_dollar (cs : List Char) :
    FloatValue.ofText? (String.ofList ('$' :: cs)) = none := by
  have hscientific : Decimal.readScientific? ('$' :: cs) = none := by
    have hdigit : Char.isDigit '$' = false := by decide
    simp [Decimal.readScientific?, splitSign_dollar, Decimal.spanDigits, hdigit]
  have hname : ∀ name : String, name.toList.head? ≠ some '$' →
      String.ofList (('$' :: cs).map Char.toLower) ≠ name := by
    rintro name hne rfl
    rw [String.toList_ofList] at hne
    exact hne rfl
  rw [FloatValue.ofText?, String.toList_ofList, splitSign_dollar]
  dsimp only
  rw [if_neg (not_or.mpr ⟨hname "inf" (by decide), hname "infinity" (by decide)⟩),
    if_neg (hname "nan" (by decide)), hscientific, Option.map_none]

lemma trimChars_dollar (cs : List Char) : ∃ rest, Text.trimChars ('$' :: cs) = '$' :: rest := by
  have hblank : Text.isBlankChar '$' = false := by decide
  rw [Text.trimChars, List.dropWhile_cons_of_neg (by rw [hblank]; exact Bool.false_ne_true),
    List.reverse_cons, List.dropWhile_append]
  split
  · exact ⟨[], by simp [hblank]⟩
  · exact ⟨_, by rw [List.reverse_append]; rfl⟩

/-- A text with a dollar sign before it is no number. -/
lemma ofText?_dollar (cs : List Char) : Number.ofText? (String.ofList ('$' :: cs)) = none := by
  have hint : Decimal.readInt? (String.ofList ('$' :: cs)) = none := by
    have hdigit : Char.isDigit '$' = false := by decide
    rw [Decimal.readInt?, String.toList_ofList, splitSign_dollar]
    simp [hdigit]
  rw [Number.ofText?, hint, floatOfText?_dollar]
  rfl

lemma coerceNumber_dollar (path : String) :
    (Literal.text ("$" ++ path)).coerceNumber = .error (.notNumeric (.text ("$" ++ path))) := by
  obtain ⟨rest, hrest⟩ := trimChars_dollar path.toList
  have htrim : Text.trim ("$" ++ path) = String.ofList ('$' :: rest) := by
    rw [Text.trim, String.toList_append]
    exact congrArg _ hrest
  unfold Literal.coerceNumber
  dsimp only
  rw [htrim, ofText?_dollar]

lemma Coercion.apply_dollar {c : Coercion} (hc : c ≠ .list) (path : String) :
    c.apply (.text ("$" ++ path)) = .text ("$" ++ path) := by
  cases c with
  | raw => rfl
  | number => rw [apply, Literal.numberOrRaw, coerceNumber_dollar]
  | integer => rw [apply, Literal.integerOrRaw, Literal.coerceInteger, coerceNumber_dollar]
  | list => exact absurd rfl hc

/-- A coerced text is that text, or it is no text any more. -/
lemma Coercion.apply_text_cases (c : Coercion) (t : String) :
    c.apply (.text t) = .text t ∧ c ≠ .list ∨ ∀ s, c.apply (.text t) ≠ .text s := by
  cases c with
  | raw => exact .inl ⟨rfl, by decide⟩
  | number =>
    rw [apply, Literal.numberOrRaw]
    split
    · exact .inr fun s => by simp
    · exact .inl ⟨rfl, by decide⟩
  | integer =>
    rw [apply, Literal.integerOrRaw]
    split
    · exact .inr fun s => by simp
    · exact .inl ⟨rfl, by decide⟩
  | list => exact .inr fun s => by simp [apply, Literal.asList]

lemma ofText_eq_field_iff {s path : String} : ofText s = field path ↔ s = "$" ++ path := by
  constructor
  · intro h
    have hjson := congrArg toJson h
    rw [toJson_ofText, toJson] at hjson
    exact Json.text.inj hjson
  · rintro rfl
    exact ofText_append path

/-- What a typed text becomes is read as a field path if it is the path with a dollar sign
and not put into a list. -/
lemma asRead_literal_eq_field_iff {c : Coercion} {t path : String} :
    (literal (c.apply (.text t))).asRead = field path ↔ c ≠ .list ∧ t = "$" ++ path := by
  constructor
  · intro h
    rcases c.apply_text_cases t with ⟨htext, hc⟩ | hne
    · rw [htext, asRead, ofText_eq_field_iff] at h
      exact ⟨hc, h⟩
    · cases hl : c.apply (.text t) with
      | text s => exact absurd hl (hne s)
      | _ => rw [hl] at h; cases h
  · rintro ⟨hc, rfl⟩
    rw [Coercion.apply_dollar hc, asRead, ofText_append]

end AlertFilter
