import AlertFilter.Proofs.Locality
import AlertFilter.Proofs.PatchRuns

/-!
# What references are compared with

A reference may compare the result of its filter with a literal. A filter that is a condition is
taken without a comparison, but an operator or a literal that is set later is put beside it all the
same, so along a run of patches it carries exactly what was set since it was taken. A filter that
is none takes over the operator and the literal of the step. The literal is moved, not copied: the
next filter that is dropped in its place finds the operator only.
-/

namespace AlertFilter

open StepPatch

/-- Only without an operator is the result of a filter left as it is. -/
lemma Reference.wrap_eq_self_iff {r : Reference} {e : Expression} :
    r.wrap e = e ↔ r.parentOperator = none := by
  refine ⟨fun h => ?_, fun h => FilterSource.wrap_of_none h e⟩
  unfold wrap at h
  split at h
  · next ho => exact ho
  · -- with an operator the expression would be a part of itself
    split at h <;> exact absurd (congrArg sizeOf h) (by simp +arith)

namespace Step

/-- The steps an editor starts with. -/
inductive Start : Step → Prop
  | ofField (id : StepId) (field : Field) : Start (.ofField id field)
  | range (id : StepId) (fieldName : String) : Start (.range id fieldName)
  | new (id : StepId) (fieldName : String) {kind : StepKind} (h : ∀ r, kind ≠ .reference r) :
    Start (.new id fieldName kind)
  | ofFilter (id : StepId) (filter : FilterId) (label : String) (isBoolean : Bool) :
    Start (.ofFilter id filter label isBoolean)

variable {s : Step} {r : Reference} {patches : List StepPatch}

lemma Start.comparison_eq_none (h : s.Start) (hr : s.reference? = some r) :
    r.parentOperator = none ∧ r.parentValue = none := by
  cases h with
  | ofField => cases hr
  | range => cases hr
  | @new id fieldName kind h =>
    cases kind with
    | reference target => exact absurd rfl (h target)
    | _ => cases hr
  | ofFilter =>
    cases hr
    exact ⟨rfl, rfl⟩

/-- A reference to a condition carries the comparison that was set since its filter was taken. -/
lemma Start.comparison_of_isBoolean (h : s.Start)
    (hr : (s.patchedBy patches).reference? = some r) (hb : r.isBoolean = true) :
    r.parentOperator = lastSet StepPatch.operator (sinceFilter patches) ∧
      r.parentValue = lastSet StepPatch.value (sinceFilter patches) := by
  induction patches using List.reverseRecOn generalizing r with
  | nil => exact h.comparison_eq_none hr
  | append_singleton patches p ih =>
    rw [patchedBy_concat] at hr
    rw [sinceFilter_concat]
    cases hp : p.takesFilter with
    | true =>
      obtain ⟨r', hkind, hnone⟩ := patchedKind_of_takesFilter (s := s.patchedBy patches) hp
      rw [patched_eq, reference?, hkind] at hr
      obtain rfl : r' = r := Option.some.inj hr
      exact hnone hb
    | false =>
      rw [reference?_patched hp, Option.map_eq_some_iff] at hr
      obtain ⟨r', hr', rfl⟩ := hr
      obtain ⟨hoperator, hvalue⟩ := ih hr' hb
      rw [if_neg Bool.false_ne_true, lastSet_concat, lastSet_concat, ← hoperator, ← hvalue]
      exact ⟨rfl, rfl⟩

/-- Along a run of patches a reference to a condition is compared with what was set since it took
its filter: with nothing if neither an operator nor a literal was. It compiles to the expression of
its filter as it is exactly if no operator was, or if there is no expression. -/
theorem Start.boolean_reference (h : s.Start) (patches : List StepPatch)
    (hr : (s.patchedBy patches).reference? = some r) (hb : r.isBoolean = true) :
    let since := sinceFilter patches
    r.parentOperator = lastSet StepPatch.operator since ∧
    r.parentValue = lastSet StepPatch.value since ∧
    (r.parentOperator = none ∧ r.parentValue = none ↔
      ∀ p ∈ since, p.operator = none ∧ p.value = none) ∧
    ∀ (source : FilterSource) (f : SavedFilter),
      (s.patchedBy patches).liveReference? = some r → source.lookup r.filter = .ok f →
      let inner := (source.compileWithin [r.filter] f.steps f.connectors).expression
      source.compileStep (s.patchedBy patches) = inner ↔
        inner = none ∨ ∀ p ∈ since, p.operator = none := by
  obtain ⟨hoperator, hvalue⟩ := h.comparison_of_isBoolean hr hb
  refine ⟨hoperator, hvalue, ?_, fun source f hlive hf => ?_⟩
  · rw [hoperator, hvalue, lastSet_eq_none_iff, lastSet_eq_none_iff]
    exact forall₂_and.symm
  · have hfetch : source.fetch [] r.filter = .ok f :=
      FilterSource.fetch_eq_ok_iff.mpr ⟨List.not_mem_nil, hf⟩
    rw [FilterSource.compileStep_eq, FilterSource.expression?_of_ok hlive hfetch,
      List.nil_append, ← lastSet_eq_none_iff, ← hoperator]
    cases (source.compileWithin [r.filter] f.steps f.connectors).expression with
    | none => simp
    | some e => simp [Reference.wrap_eq_self_iff]

/-- A condition that is dropped onto a comparison and left alone after that. -/
theorem Start.boolean_reference_dropped :
    let bright : SavedFilter :=
      ⟨⟨"f"⟩, "bright", none, [(Step.new ⟨"t"⟩ "rb" .element).withOperator .present], [], true⟩
    let source := (FilterStore.ofList [bright]).source
    let s := Step.range ⟨"a"⟩ "rb"
    let patches : List StepPatch := [.ofOperator .greater, .ofValue (.text "3"),
      .ofSource (.filter ⟨"f"⟩ "bright" true), .clear, .ofUseAbs true]
    let r : Reference := ⟨⟨"f"⟩, none, none, true⟩
    s.Start ∧ (s.patchedBy patches).reference? = some r ∧ r.isBoolean = true ∧
      (s.patchedBy patches).liveReference? = some r ∧ source.lookup r.filter = .ok bright ∧
      source.compileStep (s.patchedBy patches) =
        some (.call "$ifNull" [.field "rb", .literal (.bool false)]) := by
  intro bright source s patches r
  have hr : (s.patchedBy patches).reference? = some r := by decide
  have hlive : (s.patchedBy patches).liveReference? = some r := by decide
  obtain ⟨-, -, -, hcompile⟩ := (Start.range ⟨"a"⟩ "rb").boolean_reference patches hr rfl
  refine ⟨.range _ _, hr, rfl, hlive, rfl, ?_⟩
  rw [(hcompile source bright hlive rfl).mpr (.inr (by decide)),
    FilterSource.compileWithin_singleton, FilterSource.node_of_plain rfl]
  rfl

/-- An operator and a literal that are set on a reference to a condition are put beside it, and
the truth value is compared with a number. -/
theorem boolean_reference_is_compared :
    let bright : SavedFilter :=
      ⟨⟨"f"⟩, "bright", none, [(Step.new ⟨"t"⟩ "rb" .element).withOperator .present], [], true⟩
    let source := (FilterStore.ofList [bright]).source
    let s := Step.ofFilter ⟨"c"⟩ ⟨"f"⟩ "bright" true
    let ten : Literal := .number (.whole 10 (by decide))
    let patches : List StepPatch := [.ofOperator .greater, .ofValue ten]
    let truth : Expression := .call "$ifNull" [.field "rb", .literal (.bool false)]
    s.Start ∧ (s.patchedBy patches).reference? = some ⟨⟨"f"⟩, some .greater, some ten, true⟩ ∧
      source.compileStep s = some truth ∧
      source.compileStep (s.patchedBy patches) = some (.call "$gt" [truth, .literal ten]) := by
  intro bright source s ten patches truth
  have hinner : (source.compileWithin [⟨"f"⟩] bright.steps []).expression = some truth := by
    rw [FilterSource.compileWithin_singleton, FilterSource.node_of_plain rfl]
    rfl
  have hfetch : source.fetch [] ⟨"f"⟩ = .ok bright := rfl
  have hplain : s.liveReference? = some ⟨⟨"f"⟩, none, none, true⟩ := by decide
  have hcompared : (s.patchedBy patches).liveReference? =
      some ⟨⟨"f"⟩, some .greater, some ten, true⟩ := by decide
  refine ⟨.ofFilter _ _ _ _, reference?_of_liveReference? hcompared, ?_, ?_⟩
  · rw [FilterSource.compileStep_eq, FilterSource.expression?_of_ok hplain hfetch,
      List.nil_append, hinner]
    rfl
  · rw [FilterSource.compileStep_eq, FilterSource.expression?_of_ok hcompared hfetch,
      List.nil_append, hinner]
    rfl

/-- What the step is compared with: for a reference it stands beside the filter. -/
def comparison (s : Step) : Option Operator × Option Literal :=
  match s.reference? with
  | some r => (r.parentOperator, r.parentValue)
  | none => (s.operator, s.value.literal?)

/-- Drops a filter that is no condition, with its label, onto a step. -/
def dropFilter (filter : FilterId × String) : StepPatch :=
  .ofSource (.filter filter.1 filter.2 false)

lemma patched_dropFilter (s : Step) (filter : FilterId × String) :
    s.patched (dropFilter filter) =
      { s with
        label := filter.2
        value := .empty
        kind := .reference ⟨filter.1, s.operator, s.value.literal?, false⟩ } :=
  patched_eq s _

/-- Of filters dropped one after the other the first takes the literal along and the last stays. -/
lemma patchedBy_dropFilter (s : Step) (drops : List (FilterId × String))
    (last : FilterId × String) :
    s.patchedBy ((drops ++ [last]).map dropFilter) =
      { s with
        label := last.2
        value := .empty
        kind := .reference
          ⟨last.1, s.operator, if drops.isEmpty then s.value.literal? else none, false⟩ } := by
  induction drops using List.reverseRecOn generalizing last with
  | nil => exact patched_dropFilter s last
  | append_singleton drops d ih =>
    rw [List.map_append, List.map_singleton, patchedBy_concat, ih d, patched_dropFilter]
    simp [StepValue.literal?]

/-- A filter that is no condition becomes what the step refers to, the last one if several are
dropped. The operator of the step is what it is compared with, but the literal only if it is the
first that is dropped. So the comparison of a plain step is kept by the first filter, and by later
ones, which then could as well be dropped at once, exactly if it has no literal; a reference
keeps it if it stands in its operator and value as well. -/
theorem dropped_filters (s : Step) (drops : List (FilterId × String))
    (last : FilterId × String) :
    let t := s.patchedBy ((drops ++ [last]).map dropFilter)
    let literal? := if drops.isEmpty then s.value.literal? else none
    t = { s with
      label := last.2
      value := .empty
      kind := .reference ⟨last.1, s.operator, literal?, false⟩ } ∧
    (t.comparison = s.comparison ↔ (s.operator, literal?) = s.comparison) ∧
    (s.reference? = none →
      (t.comparison = s.comparison ↔ drops = [] ∨ s.value.literal? = none)) ∧
    (t = s.patched (dropFilter last) ↔ drops = [] ∨ s.value.literal? = none) := by
  intro t literal?
  have ht : t = _ := patchedBy_dropFilter s drops last
  have hcomparison : t.comparison = (s.operator, literal?) := by
    rw [ht]
    rfl
  have hliteral : literal? = s.value.literal? ↔ drops = [] ∨ s.value.literal? = none := by
    cases drops with
    | nil => simp [literal?]
    | cons d rest => simp [literal?, eq_comm]
  refine ⟨ht, by rw [hcomparison], fun hplain => ?_, ?_⟩
  · rw [hcomparison, comparison, hplain, ← hliteral]
    simp
  · rw [ht, patched_dropFilter, ← hliteral]
    simp [literal?]

/-- One filter that is dropped onto a comparison, and one onto a reference that was read with a
comparison but without an operator and a value of its own. -/
theorem dropped_filters_once :
    let three : Literal := .text "3"
    let sum : FilterId × String := (⟨"f"⟩, "sum of scores")
    let s := ((Step.range ⟨"a"⟩ "rb").withOperator .greater).withLiteral three
    let read : Step := { s with
      operator := none
      value := .empty
      kind := .reference ⟨⟨"g"⟩, some .less, some three, false⟩ }
    s.reference? = none ∧
      (s.patchedBy [dropFilter sum]).reference? = some ⟨⟨"f"⟩, some .greater, some three, false⟩ ∧
      (s.patchedBy [dropFilter sum]).comparison = s.comparison ∧
      (read.patchedBy [dropFilter sum]).comparison ≠ read.comparison := by
  intro three sum s read
  have hplain : s.reference? = none := rfl
  obtain ⟨heq, -, hkept, -⟩ := dropped_filters s [] sum
  obtain ⟨-, hread, -, -⟩ := dropped_filters read [] sum
  exact ⟨hplain, congrArg reference? heq, (hkept hplain).mpr (.inl rfl), mt hread.mp (by decide)⟩

/-- Dropped twice onto a comparison, a filter is compared without a literal. -/
theorem second_drop_loses_literal :
    let three : Literal := .text "3"
    let sum : FilterId × String := (⟨"f"⟩, "sum of scores")
    let s := ((Step.range ⟨"a"⟩ "rb").withOperator .greater).withLiteral three
    s.reference? = none ∧ s.comparison = (some .greater, some three) ∧
      (s.patchedBy [dropFilter sum]).reference? = some ⟨⟨"f"⟩, some .greater, some three, false⟩ ∧
      (s.patchedBy [dropFilter sum, dropFilter sum]).reference? =
        some ⟨⟨"f"⟩, some .greater, none, false⟩ ∧
      s.patchedBy [dropFilter sum, dropFilter sum] ≠ s.patchedBy [dropFilter sum] := by
  decide

end Step

end AlertFilter
