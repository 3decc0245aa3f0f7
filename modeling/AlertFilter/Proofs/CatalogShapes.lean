import AlertFilter.Proofs.LocalForms

/-!
# Shapes that the catalog declares

The catalog says of each operator what stands on its right. Here that is read off what steps
compile to: a pattern is named beside its input, an operator on collections has a list on its right
whatever literal was typed in, and an operator that takes no value compiles the same beside any. A
generic step is the exception by design: it looks for a number in every literal, and never makes a
list of it.
-/

namespace AlertFilter

namespace Literal

/-- The members of a list; any other literal is its own only member. -/
def members : Literal → List Literal
  | list items => items
  | l => [l]

lemma asList_eq (l : Literal) : l.asList = list l.members := by
  cases l <;> rfl

/-- What is no number stays as it is, so only a list is coerced to a list. -/
lemma numberOrRaw_eq_list_iff {l : Literal} {items : List Literal} :
    l.numberOrRaw = list items ↔ l = list items := by
  cases l with
  | text t =>
    unfold numberOrRaw
    split <;> simp
  | _ => simp [numberOrRaw, coerceNumber]

end Literal

namespace Operator

/-- The operators whose right operand is a collection. -/
def ofCollections : List Operator := [within, notWithin, containsAll]

/-- The operators that test a field alone. -/
def ofFields : List Operator := [present, typeOf]

variable {o : Operator}

lemma right_of_mem_ofCollections (h : o ∈ ofCollections) : o.entry.right = .list := by
  revert o
  decide

lemma takesValue_of_mem_ofCollections (h : o ∈ ofCollections) : o.takesValue = true := by
  revert o
  decide

lemma ne_of_mem_ofCollections (h : o ∈ ofCollections) : o ≠ between ∧ o ≠ matchesPattern := by
  revert o
  decide

lemma takesValue_of_mem_ofFields (h : o ∈ ofFields) : o.takesValue = false := by
  revert o
  decide

lemma ne_between_of_mem_ofFields (h : o ∈ ofFields) : o ≠ between := by
  revert o
  decide

end Operator

namespace Step

variable {s : Step} {o : Operator} {e : Expression}

lemma compileLocal_pattern (hkind : s.kind = .evaluation) (ho : s.operator = some .matchesPattern)
    (he : s.compileLocal = .ok (some e)) :
    ∃ pattern, s.value.operand? .raw = some pattern ∧
      e = .named "$regexMatch" [("input", .field s.path), ("regex", pattern)] := by
  obtain ⟨o, ho', -, hform⟩ := localForm_of_compileLocal he
  obtain rfl : .matchesPattern = o := Option.some.inj (ho.symm.trans ho')
  cases hform with
  | bounded _ hbetween => cases hbetween
  | @compared pattern _ hpattern =>
    have hraw : s.coercion .matchesPattern = .raw := by rw [coercion, hkind]; rfl
    rw [hraw] at hpattern
    exact ⟨pattern, hpattern, compare_pattern hkind pattern⟩
  | computed hcomputed => rw [hkind] at hcomputed; cases hcomputed
  | alone _ htakes => cases htakes

/-- A generic step tries a number even where a list is declared. -/
lemma coercion_of_list (h : o.entry.right = .list) :
    s.coercion o = if s.kind = .generic then .number else .list := by
  rw [coercion]
  cases hkind : s.kind <;> simp [Coercion.ofStep, h]

lemma compileLocal_collection (ho : s.operator = some o) (hcollection : o ∈ Operator.ofCollections)
    {l : Literal} (hl : s.value = .literal l) (he : s.compileLocal = .ok (some e)) :
    (l.isBlank = false → e = o.binary (s.subject o)
      (.literal (if s.kind = .generic then l.numberOrRaw else .list l.members))) ∧
    (l.isBlank = true → ∃ operands operation,
      s.kind = .computed operands operation ∧ e = s.subject o) := by
  obtain ⟨hbetween, hpattern⟩ := Operator.ne_of_mem_ofCollections hcollection
  have htakes := Operator.takesValue_of_mem_ofCollections hcollection
  have hoperand : s.value.operand? (s.coercion o) = if l.isBlank then none else
      some (.literal (if s.kind = .generic then l.numberOrRaw else .list l.members)) := by
    rw [hl, coercion_of_list (Operator.right_of_mem_ofCollections hcollection), ← l.asList_eq]
    split <;> rfl
  obtain ⟨o', ho', -, hform⟩ := localForm_of_compileLocal he
  obtain rfl : o' = o := Option.some.inj (ho'.symm.trans ho)
  cases hform with
  | bounded _ ho => exact absurd ho hbetween
  | @compared right _ hright =>
    rw [hoperand] at hright
    cases hblank : l.isBlank with
    | true => simp [hblank] at hright
    | false =>
      rw [hblank, if_neg Bool.false_ne_true, Option.some_inj] at hright
      refine ⟨fun _ => ?_, (nomatch ·)⟩
      rw [compare_of_ne fun _ => hpattern, ← hright]
  | @computed operands operation hkind _ hnone =>
    rw [hoperand] at hnone
    cases hblank : l.isBlank with
    | true => exact ⟨(nomatch ·), fun _ => ⟨operands, operation, hkind, rfl⟩⟩
    | false => simp [hblank] at hnone
  | alone _ halone => rw [htakes] at halone; cases halone

lemma compileLocal_field (ho : s.operator = some o) (hfield : o ∈ Operator.ofFields)
    (harray : ∀ operation, s.kind ≠ .array operation)
    (hcomputed : ∀ operands operation, s.kind ≠ .computed operands operation)
    (he : s.compileLocal = .ok (some e)) :
    e = o.apply (s.subject o) ∧ ∀ v, (s.withValue v).compileLocal = .ok (some e) := by
  have htakes := Operator.takesValue_of_mem_ofFields hfield
  have hcompares : s.kind.compares o = false := by
    unfold StepKind.compares
    split
    · rfl
    · next hkind => exact absurd hkind (harray _)
    · next hkind => exact absurd hkind (hcomputed _ _)
    · rw [htakes, Bool.and_false]
  have hreads : s.readsValue = false := by simp [readsValue, ho, hcompares]
  refine ⟨?_, fun v => (compileLocal_withValue hreads v).trans he⟩
  obtain ⟨o', ho', -, hform⟩ := localForm_of_compileLocal he
  obtain rfl : o' = o := Option.some.inj (ho'.symm.trans ho)
  cases hform with
  | bounded _ ho => exact absurd ho (Operator.ne_between_of_mem_ofFields hfield)
  | compared hk => rw [hcompares] at hk; cases hk
  | computed hkind => exact absurd hkind (hcomputed _ _)
  | alone => rfl

/-- What a step by itself compiles to has the shape that the catalog declares for its operator. An
evaluation step names its pattern beside its input. An operator on collections has a list on its
right, the literal itself or what is made of it, but for a generic step, which keeps the literal or
the number that it reads as, so there it is a list exactly if a list was typed in; without a literal
to compare with, only a computation is left. An operator on the field alone compiles the same
beside every value, unless the step is an array step or computed. -/
theorem catalog_shapes (ho : s.operator = some o) (he : s.compileLocal = .ok (some e)) :
    (s.kind = .evaluation → o = .matchesPattern →
      ∃ pattern, s.value.operand? .raw = some pattern ∧
        e = .named "$regexMatch" [("input", .field s.path), ("regex", pattern)]) ∧
    (o ∈ Operator.ofCollections → ∀ l, s.value = .literal l →
      (l.isBlank = false →
        (s.kind ≠ .generic → e = .call o.symbol [s.subject o, .literal (.list l.members)]) ∧
        (s.kind = .generic → e = .call o.symbol [s.subject o, .literal l.numberOrRaw] ∧
          ∀ items, l.numberOrRaw = .list items ↔ l = .list items)) ∧
      (l.isBlank = true → ∃ operands operation,
        s.kind = .computed operands operation ∧ e = s.subject o)) ∧
    (o ∈ Operator.ofFields → (∀ operation, s.kind ≠ .array operation) →
      (∀ operands operation, s.kind ≠ .computed operands operation) →
      e = o.apply (s.subject o) ∧ ∀ v, (s.withValue v).compileLocal = .ok (some e)) := by
  refine ⟨?_, fun hcollection l hl => ?_, fun hfield harray hcomputed => ?_⟩
  · rintro hkind rfl
    exact compileLocal_pattern hkind ho he
  · obtain ⟨hgiven, hblank⟩ := compileLocal_collection ho hcollection hl he
    refine ⟨fun hl => ⟨fun hkind => ?_, fun hkind => ⟨?_, fun items => ?_⟩⟩, hblank⟩
    · rw [hgiven hl, if_neg hkind, Operator.binary]
    · rw [hgiven hl, if_pos hkind, Operator.binary]
    · exact Literal.numberOrRaw_eq_list_iff
  · exact compileLocal_field ho hfield harray hcomputed he

/-- A range step that is looked up in a text, a pattern, and a test for presence with a text beside
it. -/
theorem catalog_shapes_beside_text :
    let two : Literal := .text "2"
    let member := ((Step.range ⟨"a"⟩ "fid").withOperator .within).withLiteral two
    let pattern := ((Step.new ⟨"b"⟩ "fid" .evaluation).withOperator .matchesPattern).withLiteral two
    let known := ((Step.new ⟨"c"⟩ "fid" .element).withOperator .present).withLiteral two
    (∃ e, member.operator = some .within ∧ member.compileLocal = .ok (some e) ∧
      Operator.within ∈ Operator.ofCollections ∧ member.value = .literal two ∧
      two.isBlank = false ∧ member.kind ≠ .generic ∧
      e = .call "$in" [.field member.path, .literal (.list [two])]) ∧
    (∃ e, pattern.operator = some .matchesPattern ∧ pattern.compileLocal = .ok (some e) ∧
      pattern.kind = .evaluation ∧ ∃ right, pattern.value.operand? .raw = some right ∧
        e = .named "$regexMatch" [("input", .field pattern.path), ("regex", right)]) ∧
    ∃ e, known.operator = some .present ∧ known.compileLocal = .ok (some e) ∧
      Operator.present ∈ Operator.ofFields ∧ (∀ operation, known.kind ≠ .array operation) ∧
      (∀ operands operation, known.kind ≠ .computed operands operation) ∧
      e = .call "$ifNull" [.field known.path, .literal (.bool false)] ∧
      ∀ v, (known.withValue v).compileLocal = .ok (some e) := by
  intro two member pattern known
  have hfid : Text.isBlank "fid" = false := by decide
  have htwo : two.isBlank = false := by decide
  have hmember : member.compileLocal =
      .ok (some (.call "$in" [.field member.path, .literal (.list [two])])) := by
    rw [compileLocal_of_compares rfl hfid rfl]
    rfl
  have hpattern : pattern.compileLocal = .ok (some
      (.named "$regexMatch" [("input", .field pattern.path), ("regex", .literal two)])) := by
    rw [compileLocal_of_compares rfl hfid rfl]
    rfl
  have hknown : known.compileLocal =
      .ok (some (.call "$ifNull" [.field known.path, .literal (.bool false)])) := by
    rw [compileLocal_of_not_compares rfl hfid rfl]
    rfl
  have hwithin : Operator.within ∈ Operator.ofCollections := by decide
  have hpresent : Operator.present ∈ Operator.ofFields := by decide
  have hrange : member.kind ≠ .generic := by decide
  have harray : ∀ operation, known.kind ≠ .array operation := fun _ h => nomatch h
  have hcomputed : ∀ operands operation, known.kind ≠ .computed operands operation :=
    fun _ _ h => nomatch h
  obtain ⟨-, hcollections, -⟩ := catalog_shapes (o := .within) rfl hmember
  obtain ⟨hpatterns, -, -⟩ := catalog_shapes (o := .matchesPattern) rfl hpattern
  obtain ⟨-, -, hfields⟩ := catalog_shapes (o := .present) rfl hknown
  exact ⟨⟨_, rfl, hmember, hwithin, rfl, htwo, hrange,
      ((hcollections hwithin two rfl).1 htwo).1 hrange⟩,
    ⟨_, rfl, hpattern, rfl, hpatterns rfl rfl⟩,
    ⟨_, rfl, hknown, hpresent, harray, hcomputed, hfields hpresent harray hcomputed⟩⟩

/-- A generic step is looked up in a text that is no list, a pattern outside of an evaluation step
is not named, and an array step that tests for presence depends on its value. -/
theorem kinds_outweigh_catalog :
    let star : Literal := .text "star"
    let member := ((Step.new ⟨"a"⟩ "tags" .generic).withOperator .within).withLiteral star
    let pattern := ((Step.range ⟨"b"⟩ "tags").withOperator .matchesPattern).withLiteral star
    let known := ((Step.new ⟨"c"⟩ "tags" (.array none)).withOperator .present).withLiteral star
    member.compileLocal =
        .ok (some (.call "$in" [.field member.path, .literal (.text "star")])) ∧
      pattern.compileLocal =
        .ok (some (.call "$regexMatch" [.field pattern.path, .literal star])) ∧
      known.compileLocal = .ok (some
        (.call "$ifNull" [.field known.path, .literal (.list [.text "star"])])) ∧
      (known.withLiteral (.bool true)).compileLocal = .ok (some
        (.call "$ifNull" [.field known.path, .literal (.list [.bool true])])) := by
  intro star member pattern known
  have htags : Text.isBlank "tags" = false := by decide
  refine ⟨?_, ?_, ?_, ?_⟩
  · rw [compileLocal_of_compares rfl htags rfl]
    rfl
  · rw [compileLocal_of_compares rfl htags rfl]
    rfl
  · rw [compileLocal_of_compares rfl htags rfl]
    rfl
  · rw [compileLocal_of_compares (s := known.withLiteral (.bool true)) rfl htags rfl]
    rfl

end Step

end AlertFilter
