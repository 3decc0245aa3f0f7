import AlertFilter.Proofs.CompiledExpressions
import AlertFilter.Proofs.DollarTexts
import AlertFilter.Store.Memory

/-!
# Which expressions share their JSON

All that the compiler returns keeps to the shapes that JSON tells apart. What it does not
tell apart is a literal text with a dollar sign before it and the field path that it
spells: such a text is left as it was typed, and is read as a path by whoever runs the
query.
-/

namespace AlertFilter

open Expression

lemma regular_pair {symbol : String} {e e' : Expression} (h : e.Regular) (h' : e'.Regular) :
    (call symbol [e, e']).Regular :=
  .call (List.forall_mem_cons.mpr ⟨h, List.forall_mem_singleton.mpr h'⟩)

lemma regular_pattern {symbol path : String} {pattern : Expression} (h : pattern.Regular) :
    (named symbol [("input", field path), ("regex", pattern)]).Regular := by
  have hsorted : "input" < "regex" := by decide
  refine .named ?_ (List.pairwise_pair.mpr hsorted) (Nat.le_refl 2)
  exact List.forall_mem_cons.mpr ⟨.field path, List.forall_mem_singleton.mpr h⟩

namespace Step

variable {s : Step} {o : Operator}

lemma regular_subject (s : Step) (o : Operator) : (s.subject o).Regular := by
  refine s.subject_induction o .field (fun _ => .unary (.field _) (by simp)) fun _ paths => ?_
  refine .call fun e he => ?_
  obtain ⟨path, -, rfl⟩ := List.mem_map.mp he
  exact .field path

lemma subject_ne_literal (s : Step) (o : Operator) (l : Literal) : s.subject o ≠ .literal l := by
  apply s.subject_induction o (P := (· ≠ .literal l)) <;> simp

lemma asRead_subject (s : Step) (o : Operator) : (s.subject o).asRead = s.subject o :=
  s.subject_induction o (P := fun e => e.asRead = e) (fun _ => rfl) (fun _ => rfl)
    fun _ paths => by rw [asRead, asReadItems_fields]

lemma regular_compare {right : Expression} (h : right.Regular) :
    (s.compare o right).Regular :=
  s.compare_induction o (P := fun f => (f right).Regular) (regular_pair (regular_subject s o) h)
    (regular_pattern h)

lemma asRead_compare (right : Expression) :
    (s.compare o right).asRead = s.compare o right.asRead := by
  refine s.compare_induction o (P := fun f => (f right).asRead = f right.asRead) ?_ rfl
  dsimp only
  rw [asRead, asReadItems, asRead_subject]
  rfl

lemma compare_injective : Function.Injective (s.compare o) := by
  refine s.compare_induction o (P := Function.Injective) ?_ ?_
  · intro a b h
    simpa using h
  · intro a b h
    simpa using h

lemma regular_of_operand? {v : StepValue} {c : Coercion} {right : Expression}
    (h : v.operand? c = some right) : right.Regular := by
  unfold StepValue.operand? at h
  split at h
  · split at h <;> cases h
    exact .field _
  · split at h <;> cases h
    exact .literal _
  · cases h

lemma LocalForm.regular {e : Expression} (h : LocalForm s o e) : e.Regular := by
  cases h with
  | bounded =>
    exact regular_pair (regular_pair (.field _) (.literal _)) (regular_pair (.field _) (.literal _))
  | compared _ hright => exact regular_compare (regular_of_operand? hright)
  | computed => exact regular_subject s o
  | alone =>
    unfold Operator.apply
    split
    · exact regular_pair (regular_subject s _) (.literal _)
    · exact .unary (regular_subject s o) (subject_ne_literal s o)

end Step

lemma keptByCompiling_regular : KeptByCompiling Regular where
  join _ _ _ h h' := regular_pair h h'
  wrap r e h := by
    unfold Reference.wrap
    split
    · exact h
    · split
      · exact .call (List.forall_mem_singleton.mpr h)
      · exact regular_pair h (.literal _)

/-- All that the compiler returns is regular. -/
theorem Compiled.regular {e : Expression} (h : Compiled e) : e.Regular := by
  refine h.induction keptByCompiling_regular fun s e hs => ?_
  obtain ⟨o, -, -, hform⟩ := Step.localForm_of_compileLocal hs
  exact hform.regular

/-- Two queries of regular expressions are the same exactly when these are read alike. -/
lemma query_toJson_eq_iff {a b : Option Expression} (ha : ∀ e ∈ a, e.Regular)
    (hb : ∀ e ∈ b, e.Regular) :
    (Query.ofExpression? a).toJson = (Query.ofExpression? b).toJson ↔
      a.map asRead = b.map asRead := by
  cases a with
  | none => cases b <;> simp [Query.ofExpression?, Query.toJson, Query.empty, Query.matching]
  | some e =>
    cases b with
    | none => simp [Query.ofExpression?, Query.toJson, Query.empty, Query.matching]
    | some e' =>
      have he := ha e rfl
      have he' := hb e' rfl
      simp [Query.ofExpression?, Query.toJson, Query.matching, he.written_eq, he'.written_eq,
        he.toJson_eq_iff he']

/-! ### The value of a step in its query -/

lemma operand?_text_eq_field_iff {c : Coercion} {t p : String} :
    ((StepValue.literal (.text t)).operand? c).map asRead =
        ((StepValue.field p).operand? c).map asRead ↔
      (Text.isBlank t = true ∧ Text.isBlank p = true) ∨
        (Text.isBlank p = false ∧ t = "$" ++ Text.trim p ∧ c ≠ .list) := by
  have hdollar : t = "$" ++ Text.trim p → Text.isBlank t = false := by
    rintro rfl
    have hblank : Text.isBlankChar '$' = false := by decide
    simp [Text.isBlank, hblank]
  have htext : (StepValue.literal (.text t)).operand? c =
      if Text.isBlank t then none else some (.literal (c.apply (.text t))) := rfl
  have hfield : (StepValue.field p).operand? c =
      if Text.isBlank p then none else some (.field (Text.trim p)) := rfl
  rw [htext, hfield]
  cases ht : Text.isBlank t with
  | true =>
    cases hp : Text.isBlank p with
    | true => exact iff_of_true rfl (.inl ⟨rfl, rfl⟩)
    | false =>
      refine iff_of_false (by simp) ?_
      rintro (⟨-, h⟩ | ⟨-, h, -⟩)
      · cases h
      · exact absurd ht (hdollar h ▸ Bool.false_ne_true)
  | false =>
    cases hp : Text.isBlank p with
    | true => exact iff_of_false (by simp) (by simp)
    | false => simp [asRead_literal_eq_field_iff, asRead, and_comm]

namespace Step

variable {s : Step} {o : Operator}

/-- A comparison is never read as what there is without one, which is a part of it. -/
lemma map_asRead_uncompared_ne (right : Expression) :
    (s.uncompared o).map asRead ≠ some (s.compare o right) := by
  unfold uncompared
  split
  · next hkind =>
    rw [Option.map_some, asRead_subject, compare_of_ne (by simp [hkind])]
    -- No expression is an operand of itself.
    intro h
    have hsize := congrArg sizeOf (Option.some.inj h)
    simp [Operator.binary] at hsize
    omega
  · simp

/-- The right operand can be read from a comparison. -/
lemma map_asRead_comparedTo_iff {a b : Option Expression} :
    (s.comparedTo o a).map asRead = (s.comparedTo o b).map asRead ↔
      a.map asRead = b.map asRead := by
  cases a with
  | none =>
    cases b with
    | none => exact iff_of_true rfl rfl
    | some right =>
      rw [comparedTo, comparedTo, Option.map_some, asRead_compare]
      exact iff_of_false (map_asRead_uncompared_ne _) (by simp)
  | some left =>
    cases b with
    | none =>
      rw [comparedTo, comparedTo, Option.map_some, asRead_compare]
      exact iff_of_false (map_asRead_uncompared_ne _).symm (by simp)
    | some right =>
      rw [comparedTo, comparedTo, Option.map_some, Option.map_some, Option.map_some,
        Option.map_some, asRead_compare, asRead_compare, Option.some_inj, Option.some_inj]
      exact compare_injective.eq_iff

end Step

namespace FilterSource

/-- A step makes the same query with a typed text as with a field exactly if it looks at
neither, if both are blank, or if the text spells the path and is not put into a list. -/
theorem query_text_eq_query_field_iff (source : FilterSource) (s : Step) (t p : String) :
    (Query.ofExpression? (source.compileStep (s.withLiteral (.text t)))).toJson =
        (Query.ofExpression? (source.compileStep (s.withFieldValue p))).toJson ↔
      s.readsValue = false ∨ (Text.isBlank t = true ∧ Text.isBlank p = true) ∨
        (Text.isBlank p = false ∧ t = "$" ++ Text.trim p ∧
          ∀ o ∈ s.operator, s.coercion o ≠ .list) := by
  rw [query_toJson_eq_iff (fun _ h => (Compiled.step h).regular) fun _ h =>
    (Compiled.step h).regular]
  cases hreads : s.readsValue with
  | false =>
    refine iff_of_true (congrArg _ ?_) (.inl rfl)
    change source.compileStep (s.withValue _) = source.compileStep (s.withValue _)
    rw [compileStep_eq, compileStep_eq, node_withValue hreads, node_withValue hreads]
  | true =>
    obtain ⟨o, ho, hfield, hk⟩ := Step.exists_of_readsValue hreads
    have hv (v : StepValue) : source.compileStep (s.withValue v) =
        s.comparedTo o (v.operand? (s.coercion o)) :=
      compileStep_of_compares (s := s.withValue v) ho hfield hk
    change (source.compileStep (s.withValue _)).map asRead =
      (source.compileStep (s.withValue _)).map asRead ↔ _
    rw [hv, hv, Step.map_asRead_comparedTo_iff, operand?_text_eq_field_iff, ho]
    simp

end FilterSource

/-- An element step compares its field with its value as that is. -/
lemma compileStep_element (source : FilterSource) (id : StepId) {name : String}
    (hname : Text.isBlank name = false) (v : StepValue) :
    source.compileStep (((Step.new id name .element).withOperator .equal).withValue v) =
      (v.operand? .raw).map (Operator.equal.binary (.field (Text.trim name))) := by
  rw [FilterSource.compileStep_of_compares (o := .equal) rfl hname rfl]
  change Step.comparedTo _ .equal (v.operand? .raw) = _
  cases v.operand? .raw <;> rfl

/-- Two expressions that the compiler returns have the same JSON exactly when they are read
alike, so they are the same if no literal text in them spells a field path. A literal has
the JSON of a field path if it is the text that spells the path. So a step makes the same
query with a typed text as with a field exactly if it looks at neither, if both are blank,
or if the text spells the path and is not put into a list. -/
theorem compiled_toJson_eq_iff :
    (∀ e e' : Expression, Compiled e → Compiled e' →
      (e.toJson = e'.toJson ↔ e.asRead = e'.asRead) ∧
      (NoneSpellsField e.subexpressions → NoneSpellsField e'.subexpressions →
        e.toJson = e'.toJson → e = e')) ∧
    (∀ (l : Literal) (path : String),
      (literal l).toJson = (field path).toJson ↔ l = .text ("$" ++ path)) ∧
    ∀ (source : FilterSource) (s : Step) (t p : String),
      (Query.ofExpression? (source.compileStep (s.withLiteral (.text t)))).toJson =
          (Query.ofExpression? (source.compileStep (s.withFieldValue p))).toJson ↔
        s.readsValue = false ∨ (Text.isBlank t = true ∧ Text.isBlank p = true) ∨
          (Text.isBlank p = false ∧ t = "$" ++ Text.trim p ∧
            ∀ o ∈ s.operator, s.coercion o ≠ .list) := by
  refine ⟨fun e e' he he' => ?_, fun l path => ?_, FilterSource.query_text_eq_query_field_iff⟩
  · have hiff := he.regular.toJson_eq_iff he'.regular
    refine ⟨hiff, fun hnone hnone' h => ?_⟩
    have hread := hiff.mp h
    rwa [asRead_eq_self e hnone, asRead_eq_self e' hnone'] at hread
  · cases l <;> simp [toJson, Literal.toJson]

/-- A text without a dollar sign is told from the field of its name. -/
theorem compiled_toJson_eq_iff_plain_text :
    let source := FilterStore.empty.source
    let s := (Step.new ⟨"a"⟩ "rb" .element).withOperator .equal
    let typed : Expression := .call "$eq" [.field "rb", .literal (.text "drb")]
    let named : Expression := .call "$eq" [.field "rb", .field "drb"]
    Compiled typed ∧ Compiled named ∧ NoneSpellsField typed.subexpressions ∧
      NoneSpellsField named.subexpressions ∧ typed.toJson ≠ named.toJson ∧
      (Query.ofExpression? (source.compileStep (s.withLiteral (.text "drb")))).toJson ≠
        (Query.ofExpression? (source.compileStep (s.withFieldValue "drb"))).toJson := by
  intro source s typed named
  have hname : Text.isBlank "rb" = false := by decide
  have htyped : source.compileStep (s.withLiteral (.text "drb")) = some typed :=
    compileStep_element source ⟨"a"⟩ hname (.literal (.text "drb"))
  have hnamed : source.compileStep (s.withFieldValue "drb") = some named :=
    compileStep_element source ⟨"a"⟩ hname (.field "drb")
  have hnone : NoneSpellsField typed.subexpressions := by
    intro t ht
    obtain rfl : t = "drb" := by simpa [typed, subexpressions, subexpressionsOf] using ht
    decide
  have hnone' : NoneSpellsField named.subexpressions := by
    intro t ht
    simp [named, subexpressions, subexpressionsOf] at ht
  obtain ⟨hexpressions, -, hqueries⟩ := compiled_toJson_eq_iff
  have hsame := (hexpressions typed named (.step htyped) (.step hnamed)).2 hnone hnone'
  refine ⟨.step htyped, .step hnamed, hnone, hnone', fun h => ?_, fun h => ?_⟩
  · simpa [typed, named] using hsame h
  · have hcases := (hqueries source s "drb" "drb").mp h
    revert hcases
    decide

/-- A typed text with a dollar sign and the field that it spells make two expressions with
the same JSON, and the same query. -/
theorem dollar_text_shares_json :
    let source := FilterStore.empty.source
    let s := (Step.new ⟨"a"⟩ "rb" .element).withOperator .equal
    let typed : Expression := .call "$eq" [.field "rb", .literal (.text "$drb")]
    let named : Expression := .call "$eq" [.field "rb", .field "drb"]
    source.compileStep (s.withLiteral (.text "$drb")) = some typed ∧
      source.compileStep (s.withFieldValue "drb") = some named ∧
      typed ≠ named ∧ typed.toJson = named.toJson ∧
      (Query.ofExpression? (source.compileStep (s.withLiteral (.text "$drb")))).toJson =
        (Query.ofExpression? (source.compileStep (s.withFieldValue "drb"))).toJson := by
  intro source s typed named
  have hname : Text.isBlank "rb" = false := by decide
  have htyped : source.compileStep (s.withLiteral (.text "$drb")) = some typed :=
    compileStep_element source ⟨"a"⟩ hname (.literal (.text "$drb"))
  have hnamed : source.compileStep (s.withFieldValue "drb") = some named :=
    compileStep_element source ⟨"a"⟩ hname (.field "drb")
  refine ⟨htyped, hnamed, by simp [typed, named], rfl, ?_⟩
  rw [htyped, hnamed]
  rfl

end AlertFilter
