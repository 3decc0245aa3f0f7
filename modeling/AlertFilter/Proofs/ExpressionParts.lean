import AlertFilter.Proofs.ExpressionJson
import AlertFilter.Proofs.LocalForms

/-!
# Parts of an expression

What a step by itself compiles to is made of a few kinds of parts: the field paths that the step
names, literals that are not blank, operators of the catalog, an absolute value, the operation of an
array step, and the two bounds of a range. `LocalPart` lists them, so that what is to be shown of
every part is shown kind by kind.
-/

namespace AlertFilter

namespace Expression

@[simp] lemma mem_subexpressions_field {x : Expression} {path : String} :
    x ∈ (field path).subexpressions ↔ x = field path := List.mem_singleton

@[simp] lemma mem_subexpressions_literal {x : Expression} {l : Literal} :
    x ∈ (literal l).subexpressions ↔ x = literal l := List.mem_singleton

@[simp] lemma mem_subexpressions_unary {x : Expression} {symbol : String} {e : Expression} :
    x ∈ (unary symbol e).subexpressions ↔ x = unary symbol e ∨ x ∈ e.subexpressions :=
  List.mem_cons

lemma mem_subexpressionsOf {x : Expression} {es : List Expression} :
    x ∈ subexpressionsOf es ↔ ∃ e ∈ es, x ∈ e.subexpressions := by
  induction es with
  | nil => simp [subexpressionsOf]
  | cons e rest ih => simp [subexpressionsOf, ih]

@[simp] lemma mem_subexpressions_call {x : Expression} {symbol : String} {es : List Expression} :
    x ∈ (call symbol es).subexpressions ↔
      x = call symbol es ∨ ∃ e ∈ es, x ∈ e.subexpressions := by
  rw [subexpressions, List.mem_cons, mem_subexpressionsOf]

lemma mem_subexpressionsOfNamed {x : Expression} {operands : List (String × Expression)} :
    x ∈ subexpressionsOfNamed operands ↔ ∃ m ∈ operands, x ∈ m.2.subexpressions := by
  induction operands with
  | nil => simp [subexpressionsOfNamed]
  | cons m rest ih => simp [subexpressionsOfNamed, ih]

@[simp] lemma mem_subexpressions_named {x : Expression} {symbol : String}
    {operands : List (String × Expression)} : x ∈ (named symbol operands).subexpressions ↔
      x = named symbol operands ∨ ∃ m ∈ operands, x ∈ m.2.subexpressions := by
  rw [subexpressions, List.mem_cons, mem_subexpressionsOfNamed]

lemma mem_subexpressions_self (e : Expression) : e ∈ e.subexpressions := by
  cases e <;> simp

end Expression

namespace StepKind

/-- The name of the operation of an array step, without the dollar signs before it. -/
def operationName? : StepKind → Option String
  | .array (some operation) =>
    if Text.isBlank operation then none
    else some (String.ofList ((Text.trim operation).toList.dropWhile (· = '$')))
  | _ => none

end StepKind

lemma arraySubject_eq (field : String) (operation : Option String) :
    arraySubject field operation =
      match (StepKind.array operation).operationName? with
      | some name => .call ("$" ++ name) [.field field]
      | none => .field field := by
  cases operation with
  | none => rfl
  | some operation =>
    have hempty : (Text.trim operation).isEmpty = Text.isBlank operation := by
      rw [Bool.eq_iff_iff, String.isEmpty_iff, Text.isBlank_iff_trim_eq_empty]
    rw [arraySubject, Option.map_some, StepKind.operationName?]
    dsimp only
    rw [hempty]
    cases Text.isBlank operation <;> rfl

namespace Step

open Expression

variable {s : Step} {o : Operator} {x e : Expression}

/-- The parts of what a step by itself compiles to. -/
inductive LocalPart (s : Step) : Expression → Prop
  /-- The field of the step. -/
  | subject : Text.isBlank s.fieldName = false → LocalPart s (field s.path)
  /-- A field to compare with. -/
  | comparand {path : String} : s.value = .field path → Text.isBlank path = false →
    LocalPart s (field (Text.trim path))
  /-- A field to compute with. -/
  | operand {operands : List String} {operation : Option Operator} {path : String} :
    s.kind = .computed operands operation → path ∈ operands → LocalPart s (field (Text.trim path))
  | literal {l : Literal} : l.isBlank = false → LocalPart s (literal l)
  | operator {o : Operator} {x : Expression} : o ≠ .between → x.symbol? = some o.symbol →
    LocalPart s x
  | absolute : LocalPart s (unary "$abs" (field s.path))
  | operation {name : String} : s.kind.operationName? = some name →
    LocalPart s (call ("$" ++ name) [field s.path])
  /-- The two comparisons of a range. -/
  | bounds {r : RangeSettings} {a b : Number} : s.kind = .range r → s.operator = some .between →
    LocalPart s (call Operator.between.symbol
      [call Operator.greaterOrEqual.symbol [field s.path, literal (.number a)],
        call Operator.lessOrEqual.symbol [field s.path, literal (.number b)]])

lemma localPart_of_subject (hfield : Text.isBlank s.fieldName = false)
    (hmath : ∀ operands operation, s.kind = .computed operands operation →
      (operation.getD o).isMath = true) (hx : x ∈ (s.subject o).subexpressions) :
    s.LocalPart x := by
  unfold subject at hx
  split at hx
  · split at hx
    · obtain rfl | rfl : x = unary "$abs" (field s.path) ∨ x = field s.path := by simpa using hx
      · exact .absolute
      · exact .subject hfield
    · obtain rfl : x = field s.path := by simpa using hx
      exact .subject hfield
  · next operation hkind =>
    rw [arraySubject_eq, ← hkind] at hx
    split at hx
    · next name hname =>
      obtain rfl | rfl : x = call ("$" ++ name) [field s.path] ∨ x = field s.path := by
        simpa using hx
      · exact .operation hname
      · exact .subject hfield
    · obtain rfl : x = field s.path := by simpa using hx
      exact .subject hfield
  · next operands operation hkind =>
    rw [mem_subexpressions_call] at hx
    obtain rfl | ⟨e, he, hx⟩ := hx
    · refine .operator ?_ rfl
      intro hbetween
      have hb := hmath operands operation hkind
      rw [hbetween] at hb
      cases hb
    · obtain ⟨path, hpath, rfl⟩ := List.mem_map.mp he
      obtain rfl : x = field path := by simpa using hx
      split at hpath
      · rw [List.mem_singleton.mp hpath]
        exact .subject hfield
      · obtain ⟨p, hp, rfl⟩ := List.mem_map.mp hpath
        exact .operand hkind hp
  · obtain rfl : x = field s.path := by simpa using hx
    exact .subject hfield

/-- A literal that is not blank stays so under every coercion. -/
lemma isBlank_apply {c : Coercion} {l : Literal} (h : l.isBlank = false) :
    (c.apply l).isBlank = false := by
  cases c with
  | raw => exact h
  | number =>
    rw [Coercion.apply, Literal.numberOrRaw]
    split
    · rfl
    · exact h
  | integer =>
    rw [Coercion.apply, Literal.integerOrRaw]
    split
    · rfl
    · exact h
  | list => cases l <;> first | exact h | rfl

lemma localPart_of_operand? {c : Coercion} {right : Expression}
    (hright : s.value.operand? c = some right) (hx : x ∈ right.subexpressions) :
    s.LocalPart x := by
  unfold StepValue.operand? at hright
  split at hright
  · next path hvalue =>
    split at hright
    · cases hright
    · next hpath =>
      cases hright
      obtain rfl : x = field (Text.trim path) := by simpa using hx
      exact .comparand hvalue (by simpa using hpath)
  · next l _ =>
    split at hright
    · cases hright
    · next hl =>
      cases hright
      obtain rfl : x = literal (c.apply l) := by simpa using hx
      exact .literal (isBlank_apply (by simpa using hl))
  · cases hright

lemma subject_of_evaluation (h : s.kind = .evaluation) (o : Operator) :
    s.subject o = field s.path := by
  rw [subject, h]

lemma mem_subexpressions_compare {right : Expression} :
    x ∈ (s.compare o right).subexpressions ↔
      x = s.compare o right ∨ x ∈ (s.subject o).subexpressions ∨ x ∈ right.subexpressions := by
  by_cases h : s.kind = .evaluation ∧ o = .matchesPattern
  · obtain ⟨hkind, rfl⟩ := h
    rw [compare_pattern hkind, subject_of_evaluation hkind]
    simp
  · rw [compare_of_ne fun hkind ho => h ⟨hkind, ho⟩, Operator.binary]
    simp

lemma symbol?_compare (right : Expression) : (s.compare o right).symbol? = some o.symbol :=
  s.compare_induction o (P := fun f => (f right).symbol? = some o.symbol) rfl rfl

lemma mem_subexpressions_apply {subject : Expression} : x ∈ (o.apply subject).subexpressions ↔
    x = o.apply subject ∨ x ∈ subject.subexpressions ∨
      (o = .present ∧ x = literal (.bool false)) := by
  cases o <;> simp [Operator.apply]

lemma symbol?_apply (o : Operator) (subject : Expression) :
    (o.apply subject).symbol? = some o.symbol := by
  cases o <;> rfl

/-- Only a mathematical operation compiles in a computed step. -/
lemma isMath_of_compileLocal (ho : s.operator = some o) (he : s.compileLocal = .ok (some e))
    {operands : List String} {operation : Option Operator}
    (hkind : s.kind = .computed operands operation) : (operation.getD o).isMath = true := by
  obtain ⟨-, -, hfield, -⟩ := localForm_of_compileLocal he
  rw [compileLocal_eq ho hfield, hkind] at he
  by_contra hmath
  split at he
  · cases he
  · dsimp only at he
    rw [if_neg hmath] at he
    cases he

/-- There is nothing else in what a step by itself compiles to. -/
theorem localPart_of_compileLocal (he : s.compileLocal = .ok (some e))
    (hx : x ∈ e.subexpressions) : s.LocalPart x := by
  obtain ⟨o, ho, hfield, hform⟩ := localForm_of_compileLocal he
  have hsubject : ∀ y ∈ (s.subject o).subexpressions, s.LocalPart y := fun y hy =>
    localPart_of_subject hfield (fun _ _ hkind => isMath_of_compileLocal ho he hkind) hy
  cases hform with
  | @bounded r min max a b hkind hbetween =>
    have hfields := LocalPart.subject hfield
    simp only [mem_subexpressions_call, mem_subexpressions_field, mem_subexpressions_literal,
      List.mem_cons, List.not_mem_nil, or_false, exists_eq_or_imp, exists_eq_left] at hx
    rcases hx with rfl | (rfl | rfl | rfl) | rfl | rfl | rfl
    · exact .bounds hkind (hbetween ▸ ho)
    · exact .operator (o := .greaterOrEqual) (by decide) rfl
    · exact hfields
    · exact .literal rfl
    · exact .operator (o := .lessOrEqual) (by decide) rfl
    · exact hfields
    · exact .literal rfl
  | compared hk hright =>
    rcases mem_subexpressions_compare.mp hx with rfl | hx | hx
    · exact .operator (ne_between_of_compares hk) (symbol?_compare _)
    · exact hsubject x hx
    · exact localPart_of_operand? hright hx
  | computed => exact hsubject x hx
  | alone _ htakes =>
    have hb : o ≠ .between := by
      rintro rfl
      cases htakes
    rcases mem_subexpressions_apply.mp hx with rfl | hx | ⟨-, rfl⟩
    · exact .operator hb (symbol?_apply o _)
    · exact hsubject x hx
    · exact .literal rfl

/-- Between two bounds only a range step compiles, to the comparisons with the numbers that both
bounds read as. -/
lemma bounded_of_compileLocal (ho : s.operator = some .between)
    (he : s.compileLocal = .ok (some e)) :
    ∃ r min max a b, s.kind = .range r ∧ givenLiteral? (r.bounds.bind (·.min)) = some min ∧
      givenLiteral? (r.bounds.bind (·.max)) = some max ∧ min.coerceNumber = .ok a ∧
      max.coerceNumber = .ok b ∧
      e = .call "$and" [.call "$gte" [.field s.path, .literal (.number a)],
        .call "$lte" [.field s.path, .literal (.number b)]] := by
  obtain ⟨-, -, hfield, -⟩ := localForm_of_compileLocal he
  rw [compileLocal_eq ho hfield, if_pos rfl] at he
  split at he
  · next r hkind =>
    cases LocalForm.of_compileBetween hkind he with
    | @bounded r' min max a b hkind' _ hmin hmax ha hb =>
      exact ⟨r', min, max, a, b, hkind', hmin, hmax, ha, hb, rfl⟩
    | compared hk => exact absurd rfl (ne_between_of_compares hk)
    | computed hcomputed =>
      rw [hkind] at hcomputed
      cases hcomputed
    | alone _ htakes => cases htakes
  · cases he

/-- The parts of the left operand are parts, unless a range lies between two bounds. -/
lemma mem_subexpressions_of_subject (ho : s.operator = some o) (hb : o ≠ .between)
    (he : s.compileLocal = .ok (some e)) (hx : x ∈ (s.subject o).subexpressions) :
    x ∈ e.subexpressions := by
  obtain ⟨o', ho', -, hform⟩ := localForm_of_compileLocal he
  obtain rfl : o' = o := Option.some.inj (ho'.symm.trans ho)
  cases hform with
  | bounded _ hbetween => exact absurd hbetween hb
  | compared => exact mem_subexpressions_compare.mpr (.inr (.inl hx))
  | computed => exact hx
  | alone => exact mem_subexpressions_apply.mpr (.inr (.inl hx))

end Step

end AlertFilter
