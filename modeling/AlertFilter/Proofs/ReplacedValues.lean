import AlertFilter.Proofs.Locality
import AlertFilter.Proofs.PatchRuns

/-!
# Literals that are replaced

A patch that clears the value of a step, or puts a field in its place, leaves nothing of a literal
that was typed in before, as long as the step is no reference. A reference keeps the literal a
second time, beside its filter, where only another literal replaces it. So two literals that were
typed in before still make a difference to what a reference compiles to, exactly if it is compared
by an operator, its filter has an expression, and they are not the same number.
-/

namespace AlertFilter

/-- The patch decides on the value of a plain step, whatever it was. -/
def StepPatch.replacesValue (q : StepPatch) : Bool :=
  match q.valueSource with
  | none => q.clearValue
  | some (.field _ _) => true
  | some (.filter _ _ _) => false

namespace Reference

def beside (r : Reference) (l : Literal) : Reference := { r with parentValue := some l }

/-- A literal beside a reference is seen through the operator, as the number it stands for. -/
lemma wrap_beside_iff {r : Reference} {l₁ l₂ : Literal} {e : Expression} :
    (r.beside l₁).wrap e = (r.beside l₂).wrap e ↔
      r.parentOperator = none ∨ l₁.numberOrRaw = l₂.numberOrRaw := by
  obtain ⟨filter, parentOperator, parentValue, isBoolean⟩ := r
  cases parentOperator <;> simp [wrap, beside]

end Reference

namespace Step

def withReference (s : Step) (r : Reference) : Step := { s with kind := .reference r }

variable {s : Step} {q : StepPatch}

lemma takesFilter_of_replacesValue (h : q.replacesValue = true) : q.takesFilter = false := by
  unfold StepPatch.replacesValue at h
  unfold StepPatch.takesFilter
  generalize q.valueSource = source at h ⊢
  rcases source with _ | ⟨path, name⟩ | ⟨id, name, isBoolean⟩
  · rfl
  · rfl
  · cases h

lemma patchedValue_of_replacesValue (h : q.replacesValue = true) (s s' : Step) :
    s.patchedValue q = s'.patchedValue q := by
  unfold StepPatch.replacesValue at h
  unfold patchedValue
  generalize q.valueSource = source at h ⊢
  rcases source with _ | ⟨path, name⟩ | ⟨id, name, isBoolean⟩
  · exact (if_pos h).trans (if_pos h).symm
  · rfl
  · cases h

/-- A literal that is typed in and then replaced is left beside a reference and nowhere else. -/
lemma patched_ofValue_patched (h : q.replacesValue = true) (s : Step) (l : Literal) :
    (s.patched (.ofValue l)).patched q =
      { s.patched q with
        kind := (s.kind.withComparison q.operator (q.value.or (some l))).withRange
          q.useAbs q.bounds } := by
  have hfilter := takesFilter_of_replacesValue h
  rw [patched_eq (s.patched (.ofValue l)), patchedKind_of_not_takesFilter hfilter,
    patchedValue_of_replacesValue h _ s, patched_eq s q, patched_eq s (.ofValue l)]
  obtain ⟨id, label, fieldName, operator, value, kind⟩ := s
  cases kind <;> cases q.value <;> rfl

lemma patched_ofValue_of_plain (h : q.replacesValue = true) (hs : s.reference? = none)
    (l : Literal) : (s.patched (.ofValue l)).patched q = s.patched q := by
  have hfilter := takesFilter_of_replacesValue h
  rw [patched_ofValue_patched h, patched_eq s q, patchedKind_of_not_takesFilter hfilter]
  obtain ⟨id, label, fieldName, operator, value, kind⟩ := s
  cases kind with
  | reference r => cases hs
  | _ => rfl

lemma patched_ofValue_of_reference (h : q.replacesValue = true) {r : Reference}
    (hs : s.reference? = some r) (l : Literal) :
    (s.patched (.ofValue l)).patched q = (s.patched q).withReference
      ⟨r.filter, q.operator.or r.parentOperator, q.value.or (some l), r.isBoolean⟩ := by
  rw [patched_ofValue_patched h, withReference]
  obtain ⟨id, label, fieldName, operator, value, kind⟩ := s
  cases kind with
  | reference target =>
    cases hs
    cases q.value <;> rfl
  | _ => cases hs

end Step

namespace FilterSource

/-- Two literals beside the same reference. -/
lemma compile_beside_iff (source : FilterSource) (trail : Trail) (t : Step) (r : Reference)
    (l₁ l₂ : Literal) :
    (source.node trail (t.withReference (r.beside l₁))).compile =
        (source.node trail (t.withReference (r.beside l₂))).compile ↔
      r.parentOperator = none ∨ l₁.numberOrRaw = l₂.numberOrRaw ∨
        (source.node trail (t.withReference (r.beside l₁))).expression? = none := by
  have hr : ∀ l, (t.withReference (r.beside l)).reference? = some (r.beside l) := fun _ => rfl
  cases hblank : Text.isBlank t.label && Text.isBlank t.fieldName with
  | true =>
    have hunnamed : ∀ l, (t.withReference (r.beside l)).liveReference? = none :=
      fun _ => if_pos hblank
    rw [node_of_unnamed (hr l₁) (hunnamed l₁), node_of_unnamed (hr l₂) (hunnamed l₂)]
    exact iff_of_true rfl (.inr (.inr rfl))
  | false =>
    have hlive : ∀ l, (t.withReference (r.beside l)).liveReference? = some (r.beside l) :=
      fun _ => if_neg (Bool.eq_false_iff.mp hblank)
    cases hf : source.fetch trail r.filter with
    | error e =>
      rw [node_of_error (hlive l₁) hf, node_of_error (hlive l₂) hf]
      exact iff_of_true rfl (.inr (.inr rfl))
    | ok f =>
      let inner := source.compileWithin (trail ++ [r.filter]) f.steps f.connectors
      have hcompile : ∀ l, (source.node trail (t.withReference (r.beside l))).compile =
          .ok ⟨inner.expression.map (r.beside l).wrap, inner.issues⟩ :=
        fun l => compile_node_of_ok (hlive l) hf
      have hexpression : (source.node trail (t.withReference (r.beside l₁))).expression? =
          inner.expression.map (r.beside l₁).wrap :=
        expression?_of_ok (hlive l₁) hf
      rw [hcompile, hcompile, hexpression]
      cases inner.expression with
      | none => simp
      | some e => simp [Reference.wrap_beside_iff]

/-- A literal is typed in, and a patch clears the value or puts a field in its place. A plain step
is then what the patch makes of it, whatever the literal was. What a reference compiles to does
not depend on the literal either if it is compared by no operator, if the patch sets a literal of
its own, or if its filter has no expression; otherwise it depends on the number that the literal
stands for. -/
theorem replaced_literal {q : StepPatch} (h : q.replacesValue = true) (source : FilterSource)
    (trail : Trail) (s : Step) (l₁ l₂ : Literal) :
    let typed (l : Literal) : Step := (s.patched (.ofValue l)).patched q
    (s.reference? = none → ∀ l, typed l = s.patched q) ∧
    ((source.node trail (typed l₁)).compile = (source.node trail (typed l₂)).compile ↔
      (∀ r, (typed l₁).reference? = some r → r.parentOperator = none) ∨ q.value ≠ none ∨
        l₁.numberOrRaw = l₂.numberOrRaw ∨ (source.node trail (typed l₁)).expression? = none) := by
  intro typed
  refine ⟨fun hs l => Step.patched_ofValue_of_plain h hs l, ?_⟩
  cases hs : s.reference? with
  | none =>
    have htyped : ∀ l, typed l = s.patched q := Step.patched_ofValue_of_plain h hs
    have hplain : (s.patched q).reference? = none := by
      rw [Step.reference?_patched (Step.takesFilter_of_replacesValue h), hs, Option.map_none]
    rw [htyped, htyped]
    refine iff_of_true rfl (.inl fun r hr => ?_)
    rw [hplain] at hr
    cases hr
  | some r =>
    have htyped : ∀ l, typed l = (s.patched q).withReference
        ⟨r.filter, q.operator.or r.parentOperator, q.value.or (some l), r.isBoolean⟩ :=
      Step.patched_ofValue_of_reference h hs
    rw [htyped, htyped]
    cases hv : q.value with
    | some v => exact iff_of_true rfl (.inr (.inl (Option.some_ne_none v)))
    | none =>
      have hbeside := compile_beside_iff source trail (s.patched q)
        ⟨r.filter, q.operator.or r.parentOperator, none, r.isBoolean⟩ l₁ l₂
      refine hbeside.trans (or_congr ?_ ?_)
      · simp [Step.withReference, Step.reference?]
      · exact (or_iff_right (not_not_intro rfl)).symm

/-- A patch that clears the value and types in another literal at once. -/
theorem replaced_literal_cleared :
    let sum : SavedFilter := ⟨⟨"f"⟩, "sum", none,
      [(Step.new ⟨"t"⟩ "rb" (.computed ["rb", "drb"] none)).withOperator .add], [], false⟩
    let source := (FilterStore.ofList [sum]).source
    let plain := (Step.range ⟨"a"⟩ "rb").withOperator .greater
    let reference := (Step.ofFilter ⟨"c"⟩ ⟨"f"⟩ "sum" false).patched (.ofOperator .greater)
    let q : StepPatch := { StepPatch.clear with value := some (.text "3") }
    let typed (s : Step) (text : String) : Step := (s.patched (.ofValue (.text text))).patched q
    q.replacesValue = true ∧ plain.reference? = none ∧ typed plain "5" = plain.patched q ∧
      typed reference "5" ≠ reference ∧
      (source.node [] (typed reference "5")).compile =
        (source.node [] (typed reference "7")).compile := by
  intro sum source plain reference q typed
  have hq : q.replacesValue = true := rfl
  have hplain : plain.reference? = none := rfl
  obtain ⟨hsame, -⟩ := replaced_literal hq source [] plain (.text "5") (.text "7")
  obtain ⟨-, hcompile⟩ := replaced_literal hq source [] reference (.text "5") (.text "7")
  exact ⟨hq, hplain, hsame hplain _, by decide,
    hcompile.mpr (.inr (.inl (Option.some_ne_none _)))⟩

/-- The value of a reference is cleared, or a field is put in its place: the literal that was typed
in before is still what the result of the filter is compared with. -/
theorem cleared_literal_is_compiled :
    let sum : SavedFilter := ⟨⟨"f"⟩, "sum", none,
      [(Step.new ⟨"t"⟩ "rb" (.computed ["rb", "drb"] none)).withOperator .add], [], false⟩
    let source := (FilterStore.ofList [sum]).source
    let s := (Step.ofFilter ⟨"c"⟩ ⟨"f"⟩ "sum" false).patched (.ofOperator .greater)
    let five : Literal := .number (.whole 5 (by decide))
    let seven : Literal := .number (.whole 7 (by decide))
    let added : Expression := .call "$add" [.field "rb", .field "drb"]
    s.reference? = some ⟨⟨"f"⟩, some .greater, none, false⟩ ∧
      ∀ q ∈ [StepPatch.clear, .ofSource (.field "jd" none)], q.replacesValue = true ∧
        (∀ l ∈ [five, seven], source.compileStep ((s.patched (.ofValue l)).patched q) =
          some (.call "$gt" [added, .literal l])) ∧
        (source.node [] ((s.patched (.ofValue five)).patched q)).compile ≠
          (source.node [] ((s.patched (.ofValue seven)).patched q)).compile := by
  intro sum source s five seven added
  have hinner : (source.compileWithin [⟨"f"⟩] sum.steps []).expression = some added := by
    rw [compileWithin_singleton, node_of_plain rfl]
    rfl
  have hlive : ∀ q ∈ [StepPatch.clear, .ofSource (.field "jd" none)], ∀ l ∈ [five, seven],
      ((s.patched (.ofValue l)).patched q).liveReference? =
        some ⟨⟨"f"⟩, some .greater, some l, false⟩ := by decide
  refine ⟨rfl, fun q hq => ?_⟩
  have hexpression : ∀ l ∈ [five, seven],
      (source.node [] ((s.patched (.ofValue l)).patched q)).expression? =
        some (.call "$gt" [added, .literal l]) := by
    intro l hl
    rw [expression?_of_ok (f := sum) (hlive q hq l hl) rfl, List.nil_append, hinner,
      Option.map_some]
    rcases List.mem_pair.mp hl with rfl | rfl <;> rfl
  refine ⟨?_, fun l hl => (compileStep_eq source _).trans (hexpression l hl), fun h => ?_⟩
  · rcases List.mem_pair.mp hq with rfl | rfl <;> rfl
  · have hsame : some (Expression.call "$gt" [added, .literal five]) =
        some (.call "$gt" [added, .literal seven]) := by
      rw [← hexpression five (by simp), ← hexpression seven (by simp), Node.expression?, h]
      rfl
    have hne : five ≠ seven := by decide
    simp [hne] at hsame

end FilterSource

end AlertFilter
