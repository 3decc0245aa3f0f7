import AlertFilter.Proofs.CompleteSteps

/-!
# Pipelines with a boolean result

A pipeline is flagged as boolean when some step is a comparison with a value. For a pipeline of
comparisons and computations that all compile, this is so exactly when some step with a value
compiles to a comparison. A step between two bounds compiles to one too, but keeps its bounds
apart from the value: if such a step is the only comparison, the flag misses it.
-/

namespace AlertFilter

namespace Operator

theorem symbol_injective : Function.Injective symbol := by
  have hall : ∀ a ∈ all, ∀ b ∈ all, a.symbol = b.symbol → a = b := by decide
  exact fun a b h => hall a (mem_all a) b (mem_all b) h

/-- Comparisons and computations alike need a value. -/
lemma takesValue_of_comparison_or_math {o : Operator}
    (h : o.isComparison = true ∨ o.isMath = true) : o.takesValue = true := by
  revert h
  cases o <;> decide

lemma isComparison_of_isMath {o : Operator} (h : o.isMath = true) : o.isComparison = false := by
  revert h
  cases o <;> decide

end Operator

namespace Expression

/-- The root is the symbol of a comparison, or the two comparisons of a range are joined. -/
def IsComparison (e : Expression) : Prop :=
  (∃ o : Operator, o.isComparison = true ∧ o ≠ .between ∧ e.symbol? = some o.symbol) ∨
  ∃ subject a b, e = .call Operator.between.symbol
    [.call Operator.greaterOrEqual.symbol [subject, .literal (.number a)],
      .call Operator.lessOrEqual.symbol [subject, .literal (.number b)]]

/-- A call of another operator than `between` is a comparison if the operator is. -/
lemma isComparison_call_iff {o : Operator} (h : o ≠ .between) (operands : List Expression) :
    (call o.symbol operands).IsComparison ↔ o.isComparison = true := by
  constructor
  · rintro (⟨o', hcomparison, -, hsymbol⟩ | ⟨subject, a, b, he⟩)
    · rwa [Operator.symbol_injective (Option.some.inj hsymbol)]
    · exact absurd (Operator.symbol_injective (call.inj he).1) h
  · exact fun hcomparison => .inl ⟨o, hcomparison, h, rfl⟩

end Expression

namespace Step

variable {s : Step} {o : Operator} {e : Expression}

lemma yieldsBoolean_eq (hlocal : s.reference? = none) (ho : s.operator = some o) :
    s.yieldsBoolean = (o.isComparison && !s.value.isMissing) := by
  unfold yieldsBoolean
  split
  · next hkind => exact absurd hkind (kind_ne_reference hlocal)
  · next hkind => exact absurd hkind (kind_ne_reference hlocal)
  · rw [ho]

/-- What a comparison or a computation compiles to is a comparison if the step is flagged, and
otherwise only between bounds without a value. -/
theorem yieldsBoolean_iff (hlocal : s.reference? = none) (ho : s.operator = some o)
    (hfamily : o.isComparison = true ∨ o.isMath = true) (h : s.compileLocal = .ok (some e)) :
    s.yieldsBoolean = true ↔ e.IsComparison ∧ (o = .between → s.value.isMissing = false) := by
  obtain ⟨o', ho', -, hform⟩ := localForm_of_compileLocal h
  obtain rfl : o' = o := Option.some.inj (ho'.symm.trans ho)
  rw [yieldsBoolean_eq hlocal ho]
  cases hform with
  | bounded hkind hbetween =>
    subst hbetween
    have hflag : (Operator.between.isComparison && !s.value.isMissing) = !s.value.isMissing := rfl
    rw [hflag, Bool.not_eq_true']
    exact ⟨fun hvalue => ⟨.inr ⟨_, _, _, rfl⟩, fun _ => hvalue⟩, fun h => h.2 rfl⟩
  | compared hk hright =>
    have hb := ne_between_of_compares hk
    have hpattern : o' ≠ .matchesPattern := by
      rintro rfl
      revert hfamily
      decide
    have hvalue : s.value.isMissing = false := by
      rw [← Bool.not_eq_true, ← StepValue.operand?_eq_none_iff (c := s.coercion o'), hright]
      exact Option.some_ne_none _
    rw [compare_of_ne (fun _ => hpattern), Operator.binary, Expression.isComparison_call_iff hb]
    simp [hvalue]
  | @computed operands operation hkind hmath hnone =>
    have hmissing := StepValue.operand?_eq_none_iff.mp hnone
    have hb : operation.getD o' ≠ .between := by
      intro hb
      rw [hb] at hmath
      cases hmath
    rw [subject, hkind, Expression.isComparison_call_iff hb,
      Operator.isComparison_of_isMath hmath]
    simp [hmissing]
  | alone hk htakes =>
    rw [Operator.takesValue_of_comparison_or_math hfamily] at htakes
    cases htakes

end Step

namespace FilterSource

variable {source : FilterSource} {p : Pipeline} {label : String}

/-- Every step of a valid pipeline of comparisons and computations compiles, unless an issue
is reported. -/
lemma exists_compileLocal (hvalid : p.validate label = .ok ())
    (hclean : (source.compile p).isClean = true) {s : Step} (hs : s ∈ p.steps)
    (hlocal : s.reference? = none)
    (hfamily : ∀ o, s.operator = some o → o.isComparison = true ∨ o.isMath = true) :
    ∃ o e, s.operator = some o ∧ s.compileLocal = .ok (some e) := by
  have hcomplete := Pipeline.isComplete_of_validate hvalid s hs
  obtain ⟨o, ho, -⟩ := Step.exists_of_isComplete hlocal hcomplete
  obtain ⟨i, hi⟩ := List.mem_iff_getElem?.mp hs
  cases h : s.compileLocal with
  | error e =>
    obtain ⟨issue, hissue, -⟩ := (exists_issue_iff source hi hlocal).mpr ⟨e, h⟩
    rw [Report.isClean, List.isEmpty_iff] at hclean
    simp [hclean] at hissue
  | ok result =>
    cases result with
    | some e => exact ⟨o, e, ho, rfl⟩
    | none =>
      have hbare := (Step.compileLocal_eq_none_iff hlocal hcomplete).mp h
      have htakes := Operator.takesValue_of_comparison_or_math (hfamily o ho)
      unfold Step.isBareArray at hbare
      rw [ho] at hbare
      cases hkind : s.kind <;> simp [hkind, htakes] at hbare

/-- A pipeline of comparisons and computations that is valid and compiles without an issue is
flagged as boolean, and saved as such, exactly if one of its steps compiles to a comparison and
is not a range between bounds that has no value. So the flag tells whether some step compiles
to a comparison if each range between bounds has a value. -/
theorem isBoolean_iff (hvalid : p.validate label = .ok ())
    (hlocal : ∀ s ∈ p.steps, s.reference? = none)
    (hfamily : ∀ s ∈ p.steps, ∀ o, s.operator = some o → o.isComparison = true ∨ o.isMath = true)
    (hclean : (source.compile p).isClean = true) :
    (∃ draft, FilterDraft.ofPipeline label p = .ok draft ∧ draft.isBoolean = p.isBoolean) ∧
    (p.isBoolean = true ↔ ∃ s ∈ p.steps, ∃ e, source.compileStep s = some e ∧ e.IsComparison ∧
      (s.operator = some .between → s.value.isMissing = false)) ∧
    ((∀ s ∈ p.steps, s.operator = some .between → s.value.isMissing = false) →
      (p.isBoolean = true ↔
        ∃ s ∈ p.steps, ∃ e, source.compileStep s = some e ∧ e.IsComparison)) := by
  have hstep : ∀ s ∈ p.steps, (s.yieldsBoolean = true ↔ ∃ e, source.compileStep s = some e ∧
      e.IsComparison ∧ (s.operator = some .between → s.value.isMissing = false)) := by
    intro s hs
    obtain ⟨o, e, ho, he⟩ :=
      exists_compileLocal hvalid hclean hs (hlocal s hs) (hfamily s hs)
    rw [Step.yieldsBoolean_iff (hlocal s hs) ho (hfamily s hs o ho) he,
      compileStep_of_plain source (hlocal s hs), he, ho]
    simp
  have hflag : p.isBoolean = true ↔ ∃ s ∈ p.steps, ∃ e, source.compileStep s = some e ∧
      e.IsComparison ∧ (s.operator = some .between → s.value.isMissing = false) := by
    rw [Pipeline.isBoolean, List.any_eq_true]
    exact exists_congr fun s => and_congr_right (hstep s)
  refine ⟨?_, hflag, fun hbetween => hflag.trans ?_⟩
  · rw [FilterDraft.ofPipeline, hvalid]
    exact ⟨_, rfl, rfl⟩
  · refine exists_congr fun s => and_congr_right fun hs => exists_congr fun e => ?_
    exact ⟨fun ⟨he, h, _⟩ => ⟨he, h⟩, fun ⟨he, h⟩ => ⟨he, h, hbetween s hs⟩⟩

/-- A sum that is compared with nothing, and a comparison with a number. -/
theorem isBoolean_iff_sum_and_comparison :
    let source := FilterStore.empty.source
    let sum := (Step.new ⟨"a"⟩ "rb" (.computed ["rb", "drb"] none)).withOperator .add
    let above := ((Step.range ⟨"b"⟩ "jd").withOperator .greater).withLiteral
      (.number (.whole 1 (by decide)))
    let p := Pipeline.ofParts [sum, above] [.or]
    p.validate "mixed" = .ok () ∧ (∀ s ∈ p.steps, s.reference? = none) ∧
      (∀ s ∈ p.steps, ∀ o, s.operator = some o → o.isComparison = true ∨ o.isMath = true) ∧
      (source.compile p).isClean = true ∧ sum.yieldsBoolean = false ∧
      ∃ s ∈ p.steps, ∃ e, source.compileStep s = some e ∧ e.IsComparison := by
  intro source sum above p
  have hvalid : p.validate "mixed" = .ok () := by decide
  have hlocal : ∀ s ∈ p.steps, s.reference? = none := by decide
  have hfamily : ∀ s ∈ p.steps, ∀ o, s.operator = some o →
      o.isComparison = true ∨ o.isMath = true := by
    intro s hs o ho
    obtain rfl | rfl : s = sum ∨ s = above := by simpa [p, Pipeline.ofParts] using hs
    · obtain rfl : Operator.add = o := Option.some.inj ho
      exact .inr rfl
    · obtain rfl : Operator.greater = o := Option.some.inj ho
      exact .inl rfl
  have hclean : (source.compile p).isClean = true := by
    rw [compile_of_plain source hlocal]
    decide
  obtain ⟨-, hflag, -⟩ := isBoolean_iff hvalid hlocal hfamily hclean
  obtain ⟨s, hs, e, he, hcomparison, -⟩ := hflag.mp (by decide)
  exact ⟨hvalid, hlocal, hfamily, hclean, by decide, s, hs, e, he, hcomparison⟩

/-- A range between two bounds is a valid pipeline and compiles to a comparison, but is not
flagged as boolean. -/
theorem range_is_not_flagged :
    let source := FilterStore.empty.source
    let zero : Literal := .number (.whole 0 (by decide))
    let s := (Step.new ⟨"a"⟩ "rb" (.range ⟨false, false, some ⟨some zero, some zero⟩⟩)).withOperator
      .between
    let p := Pipeline.ofParts [s] []
    p.validate "window" = .ok () ∧ (∀ s ∈ p.steps, s.reference? = none) ∧
      (∀ s ∈ p.steps, ∀ o, s.operator = some o → o.isComparison = true ∨ o.isMath = true) ∧
      (source.compile p).isClean = true ∧
      (∃ s ∈ p.steps, ∃ e, source.compileStep s = some e ∧ e.IsComparison) ∧
      p.isBoolean = false ∧
      ∃ draft, FilterDraft.ofPipeline "window" p = .ok draft ∧ draft.isBoolean = false := by
  intro source zero s p
  have hrb : Text.isBlank "rb" = false := by decide
  have hvalid : p.validate "window" = .ok () := by decide
  have hlocal : ∀ s ∈ p.steps, s.reference? = none := by decide
  have hstep : source.compileStep s = some (.call Operator.between.symbol
      [.call Operator.greaterOrEqual.symbol [.field s.path, .literal zero],
        .call Operator.lessOrEqual.symbol [.field s.path, .literal zero]]) := by
    rw [compileStep_of_plain source rfl, Step.compileLocal_of_not_compares rfl hrb rfl]
    rfl
  refine ⟨hvalid, hlocal, ?_, ?_, ⟨s, .head _, _, hstep, .inr ⟨_, _, _, rfl⟩⟩, by decide, ?_⟩
  · intro s' hs' o ho
    obtain rfl : s' = s := List.mem_singleton.mp hs'
    obtain rfl : Operator.between = o := Option.some.inj ho
    exact .inl rfl
  · rw [compile_of_plain source hlocal]
    decide
  · rw [FilterDraft.ofPipeline, hvalid]
    exact ⟨_, rfl, rfl⟩

end FilterSource

end AlertFilter
