import AlertFilter.Compile.Local
import Mathlib.Tactic.Lemma

/-!
# What a single step compiles to

A step by itself compiles to one of four forms: the two comparisons of a range, a comparison
with its value, a computation without one, or an operator that takes no value. The kind and
the operator settle whether the step is compared with its value at all.
-/

namespace AlertFilter

/-- The operator compares a step of this kind with its value. -/
def StepKind.compares (k : StepKind) (o : Operator) : Bool :=
  match k with
  | .reference _ => false
  | .array _ => o ≠ .between
  | .computed _ operation => o ≠ .between && (operation.getD o).isMath
  | _ => o ≠ .between && o.takesValue

/-- Of what is neither a reference nor computed only an operator without a value is left. -/
lemma StepKind.takesValue_of_not_compares {k : StepKind} {o : Operator}
    (h : k.compares o = false) (hb : o ≠ .between) (hreference : ∀ r, k ≠ .reference r)
    (hcomputed : ∀ operands operation, k ≠ .computed operands operation) :
    o.takesValue = false := by
  cases k with
  | reference r => exact absurd rfl (hreference r)
  | computed operands operation => exact absurd rfl (hcomputed operands operation)
  | array operation => exact absurd hb (by simpa [compares] using h)
  | _ => simpa [compares, hb] using h

namespace Step

/-- The path of the field that a step is about. -/
def path (s : Step) : String := Text.trim s.fieldName

/-- What a literal to compare with becomes. -/
def coercion (s : Step) (o : Operator) : Coercion := .ofStep s.kind o

/-- The left operand: the field, its absolute value, or what an operation makes of it. -/
def subject (s : Step) (o : Operator) : Expression :=
  match s.kind with
  | .range r => if r.hasAbs || r.useAbs then .unary "$abs" (.field s.path) else .field s.path
  | .array operation => arraySubject s.path operation
  | .computed operands operation =>
    .call (operation.getD o).symbol
      ((if operands.isEmpty then [s.path] else operands.map Text.trim).map .field)
  | _ => .field s.path

/-- The comparison of the left operand with a right one. -/
def compare (s : Step) (o : Operator) (right : Expression) : Expression :=
  match s.kind, o with
  | .evaluation, .matchesPattern =>
    .named o.symbol [("input", .field s.path), ("regex", right)]
  | _, _ => o.binary (s.subject o) right

/-- What there is without a value to compare with. -/
def uncompared (s : Step) (o : Operator) : Option Expression :=
  match s.kind with
  | .computed _ _ => some (s.subject o)
  | _ => none

def withValue (s : Step) (v : StepValue) : Step := { s with value := v }

/-- What the step compiles to depends on its value. -/
def readsValue (s : Step) : Bool :=
  match s.operator with
  | some o => !Text.isBlank s.fieldName && s.kind.compares o
  | none => false

variable {s : Step} {o : Operator}

lemma exists_of_readsValue (h : s.readsValue = true) : ∃ o, s.operator = some o ∧
    Text.isBlank s.fieldName = false ∧ s.kind.compares o = true := by
  unfold readsValue at h
  split at h
  · next o ho => exact ⟨o, ho, by simpa using h⟩
  · cases h

lemma compileLocal_of_blank (h : Text.isBlank s.fieldName = true) :
    s.compileLocal = .ok none := by
  unfold compileLocal
  rw [Text.isBlank_iff_trim_eq_empty.mp h]
  cases s.operator <;> rfl

lemma compileLocal_of_none (h : s.operator = none) : s.compileLocal = .ok none := by
  unfold compileLocal
  rw [h]

/-- The comparison with a right operand, or what there is without one. -/
def comparedTo (s : Step) (o : Operator) : Option Expression → Option Expression
  | some right => some (s.compare o right)
  | none => s.uncompared o

def compared (s : Step) (o : Operator) : Option Expression :=
  s.comparedTo o (s.value.operand? (s.coercion o))

lemma path_isEmpty (h : Text.isBlank s.fieldName = false) : s.path.isEmpty = false := by
  rw [← Bool.not_eq_true, String.isEmpty_iff, path, ← Text.isBlank_iff_trim_eq_empty, h]
  exact Bool.false_ne_true

/-- The left operand is a field, its absolute value or a call of fields. -/
lemma subject_induction {P : Expression → Prop} (s : Step) (o : Operator)
    (field : ∀ path, P (.field path)) (abs : ∀ path, P (.unary "$abs" (.field path)))
    (call : ∀ symbol (paths : List String), P (.call symbol (paths.map .field))) :
    P (s.subject o) := by
  unfold subject
  split
  · split
    · exact abs _
    · exact field _
  · unfold arraySubject
    split
    · split
      · exact field _
      · exact call _ [s.path]
    · exact field _
  · exact call _ _
  · exact field _

lemma compare_of_ne (h : s.kind = .evaluation → o ≠ .matchesPattern) (right : Expression) :
    s.compare o right = o.binary (s.subject o) right := by
  unfold compare
  split
  · next hkind => exact absurd rfl (h hkind)
  · rfl

lemma compare_pattern (h : s.kind = .evaluation) (pattern : Expression) :
    s.compare .matchesPattern pattern =
      .named Operator.matchesPattern.symbol [("input", .field s.path), ("regex", pattern)] := by
  unfold compare
  rw [h]

/-- A comparison is a pair, or a pattern with its input. -/
lemma compare_induction {P : (Expression → Expression) → Prop} (s : Step) (o : Operator)
    (binary : P fun right => .call o.symbol [s.subject o, right])
    (pattern : P fun right => .named o.symbol [("input", .field s.path), ("regex", right)]) :
    P (s.compare o) := by
  by_cases h : s.kind = .evaluation ∧ o = .matchesPattern
  · obtain ⟨hkind, rfl⟩ := h
    rwa [← funext (compare_pattern hkind)] at pattern
  · have hbinary := funext (compare_of_ne fun hkind ho => h ⟨hkind, ho⟩)
    exact hbinary ▸ binary

lemma compared_eq_compileValue (h : s.kind = .evaluation → o ≠ .matchesPattern)
    (hnone : s.uncompared o = none) :
    compileValue s o (s.subject o) (s.coercion o) = s.compared o := by
  unfold compileValue compared
  cases s.value.operand? (s.coercion o) with
  | none => exact hnone.symm
  | some right => exact congrArg some (compare_of_ne h right).symm

lemma compared_pattern (h : s.kind = .evaluation) :
    s.compared .matchesPattern = (s.value.operand? (s.coercion .matchesPattern)).map fun pattern =>
      .named Operator.matchesPattern.symbol [("input", .field s.path), ("regex", pattern)] := by
  unfold compared
  cases s.value.operand? (s.coercion .matchesPattern) with
  | none => rw [comparedTo, uncompared, h, Option.map_none]
  | some pattern => exact congrArg some (compare_pattern h pattern)

/-- The compilation of a step that has a field and an operator, by its operator and kind. -/
theorem compileLocal_eq (ho : s.operator = some o) (hfield : Text.isBlank s.fieldName = false) :
    s.compileLocal =
      if o = .between then
        match s.kind with
        | .range r => compileBetween (.field s.path) r.bounds
        | k => .error (.unsupported (.betweenOutsideRange s.id k.name))
      else
        match s.kind with
        | .reference _ => .error (.unsupported (.needsSource s.id))
        | .computed _ operation =>
          if (operation.getD o).isMath then .ok (s.compared o)
          else .error (.unsupported (.notMath s.id (operation.getD o)))
        | .array _ => .ok (s.compared o)
        | _ => .ok (if o.takesValue then s.compared o else some (o.apply (s.subject o))) := by
  have hempty := path_isEmpty hfield
  obtain ⟨id, label, fieldName, operator, value, kind⟩ := s
  obtain rfl : operator = some o := ho
  rw [path] at hempty
  simp only [compileLocal, hempty, if_neg Bool.false_ne_true]
  by_cases hb : o = .between
  · subst hb
    cases kind <;> rfl
  · rw [if_neg hb]
    cases kind with
    | reference r => exact if_neg hb
    | array operation =>
      rw [← compared_eq_compileValue (by simp) rfl]
      exact if_neg hb
    | computed operands operation =>
      simp only [if_neg hb, compileComputed, compared, coercion]
      split
      · cases value.operand? (.ofStep (.computed operands operation) o) <;> rfl
      · rfl
    | evaluation =>
      -- A pattern is the one comparison with named operands.
      simp only [if_neg hb]
      by_cases hp : o = .matchesPattern
      · subst hp
        have htakes : Operator.matchesPattern.takesValue = true := rfl
        rw [if_pos rfl, if_pos htakes, compared_pattern rfl]
        rfl
      · rw [if_neg hp, ← compared_eq_compileValue (fun _ => hp) rfl]
        rfl
    | _ =>
      rw [← compared_eq_compileValue (by simp) rfl]
      exact if_neg hb

lemma ne_between_of_compares (h : s.kind.compares o = true) : o ≠ .between := by
  rintro rfl
  unfold StepKind.compares at h
  split at h <;> simp at h

/-- A step that is compared with its value never fails. -/
theorem compileLocal_of_compares (ho : s.operator = some o)
    (hfield : Text.isBlank s.fieldName = false) (h : s.kind.compares o = true) :
    s.compileLocal = .ok (s.compared o) := by
  rw [compileLocal_eq ho hfield, if_neg (ne_between_of_compares h)]
  unfold StepKind.compares at h
  split at h <;> simp_all

/-- A step that is not compared with its value compiles without looking at it. -/
theorem compileLocal_of_not_compares (ho : s.operator = some o)
    (hfield : Text.isBlank s.fieldName = false) (h : s.kind.compares o = false) :
    s.compileLocal =
      if o = .between then
        match s.kind with
        | .range r => compileBetween (.field s.path) r.bounds
        | k => .error (.unsupported (.betweenOutsideRange s.id k.name))
      else
        match s.kind with
        | .reference _ => .error (.unsupported (.needsSource s.id))
        | .computed _ operation => .error (.unsupported (.notMath s.id (operation.getD o)))
        | _ => .ok (some (o.apply (s.subject o))) := by
  rw [compileLocal_eq ho hfield]
  by_cases hb : o = .between
  · rw [if_pos hb, if_pos hb]
  · rw [if_neg hb, if_neg hb]
    unfold StepKind.compares at h
    split at h <;> simp_all

theorem compileLocal_withValue (h : s.readsValue = false) (v : StepValue) :
    (s.withValue v).compileLocal = s.compileLocal := by
  cases hfield : Text.isBlank s.fieldName with
  | true => rw [compileLocal_of_blank hfield, compileLocal_of_blank (s := s.withValue v) hfield]
  | false =>
    cases ho : s.operator with
    | none =>
      have hv : (s.withValue v).operator = none := ho
      rw [compileLocal_of_none ho, compileLocal_of_none hv]
    | some o =>
      have hk : s.kind.compares o = false := by simpa [readsValue, ho, hfield] using h
      rw [compileLocal_of_not_compares ho hfield hk,
        compileLocal_of_not_compares (s := s.withValue v) ho hfield hk]
      rfl

/-- The forms of an expression that a step by itself compiles to. -/
inductive LocalForm (s : Step) (o : Operator) : Expression → Prop
  /-- A range between two bounds. -/
  | bounded {r : RangeSettings} {min max : Literal} {a b : Number} :
    s.kind = .range r → o = .between → givenLiteral? (r.bounds.bind (·.min)) = some min →
      givenLiteral? (r.bounds.bind (·.max)) = some max → min.coerceNumber = .ok a →
      max.coerceNumber = .ok b →
      LocalForm s o (.call Operator.between.symbol
        [.call Operator.greaterOrEqual.symbol [.field s.path, .literal (.number a)],
          .call Operator.lessOrEqual.symbol [.field s.path, .literal (.number b)]])
  /-- A comparison with the value. -/
  | compared {right : Expression} : s.kind.compares o = true →
    s.value.operand? (s.coercion o) = some right → LocalForm s o (s.compare o right)
  /-- A computation without a value. -/
  | computed {operands : List String} {operation : Option Operator} :
    s.kind = .computed operands operation → (operation.getD o).isMath = true →
      s.value.operand? (s.coercion o) = none → LocalForm s o (s.subject o)
  /-- An operator that takes no value. -/
  | alone : s.kind.compares o = false → o.takesValue = false →
    LocalForm s o (o.apply (s.subject o))

lemma LocalForm.of_compileBetween {r : RangeSettings} {e : Expression} (hkind : s.kind = .range r)
    (h : compileBetween (.field s.path) r.bounds = .ok (some e)) : LocalForm s .between e := by
  unfold compileBetween at h
  split at h
  · next min max hmin hmax =>
    split at h
    · next a b ha hb =>
      cases h
      exact .bounded hkind rfl hmin hmax ha hb
    · cases h
    · cases h
  · cases h

lemma LocalForm.of_compared {e : Expression} (hk : s.kind.compares o = true)
    (h : s.compared o = some e) : LocalForm s o e := by
  unfold Step.compared at h
  cases hright : s.value.operand? (s.coercion o) with
  | some right =>
    rw [hright] at h
    cases h
    exact .compared hk hright
  | none =>
    rw [hright, comparedTo, uncompared] at h
    split at h
    · next operands operation hkind =>
      cases h
      have hmath : (operation.getD o).isMath = true := by
        rw [hkind, StepKind.compares, Bool.and_eq_true] at hk
        exact hk.2
      exact .computed hkind hmath hright
    · cases h

/-- A step that compiles has a field and an operator, and the expression is of one of the
four forms. -/
theorem localForm_of_compileLocal {e : Expression} (h : s.compileLocal = .ok (some e)) :
    ∃ o, s.operator = some o ∧ Text.isBlank s.fieldName = false ∧ LocalForm s o e := by
  cases hfield : Text.isBlank s.fieldName with
  | true =>
    rw [compileLocal_of_blank hfield] at h
    cases h
  | false =>
    cases ho : s.operator with
    | none =>
      rw [compileLocal_of_none ho] at h
      cases h
    | some o =>
      refine ⟨o, rfl, rfl, ?_⟩
      cases hk : s.kind.compares o with
      | true =>
        rw [compileLocal_of_compares ho hfield hk] at h
        exact .of_compared hk (Except.ok.inj h)
      | false =>
        rw [compileLocal_of_not_compares ho hfield hk] at h
        by_cases hb : o = .between
        · rw [if_pos hb] at h
          subst hb
          split at h
          · next r hkind => exact .of_compileBetween hkind h
          · cases h
        · rw [if_neg hb] at h
          split at h
          · cases h
          · cases h
          · next hreference hcomputed =>
            cases h
            exact .alone hk (StepKind.takesValue_of_not_compares hk hb hreference hcomputed)

end Step

end AlertFilter
