import AlertFilter.Pipeline.Validation
import AlertFilter.Proofs.LeftToRight

/-!
# Complete steps and what they compile to

Whether a step is complete is decided without compiling it. A step that compiles to an
expression is complete, and a complete step compiles to an expression or fails, with one
exception: an array step is compared with its value even by an operator that takes none, so
without a value it is complete and still compiles to nothing. No other step by itself gets
lost from a valid pipeline without an issue.
-/

namespace AlertFilter

lemma StepValue.operand?_eq_none_iff {v : StepValue} {c : Coercion} :
    v.operand? c = none ↔ v.isMissing = true := by
  cases v with
  | empty => exact iff_of_true rfl rfl
  | literal l => cases h : l.isBlank <;> simp [operand?, isMissing, h]
  | field path => cases h : Text.isBlank path <;> simp [operand?, isMissing, h]

lemma isSome_givenLiteral? (l : Option Literal) :
    (givenLiteral? l).isSome = Bounds.isGiven l := by
  cases l with
  | none => rfl
  | some l => cases h : l.isBlank <;> simp [givenLiteral?, Bounds.isGiven, h]

/-- A range that is not bounded on both sides compiles to nothing, and no other does. -/
lemma compileBetween_eq_none_iff {subject : Expression} {bounds : Option Bounds} :
    compileBetween subject bounds = .ok none ↔ bounds.any Bounds.isComplete = false := by
  have hcomplete : bounds.any Bounds.isComplete =
      ((givenLiteral? (bounds.bind (·.min))).isSome &&
        (givenLiteral? (bounds.bind (·.max))).isSome) := by
    rw [isSome_givenLiteral?, isSome_givenLiteral?]
    cases bounds <;> rfl
  rw [hcomplete]
  unfold compileBetween
  cases givenLiteral? (bounds.bind (·.min)) with
  | none => exact iff_of_true rfl rfl
  | some min =>
    cases givenLiteral? (bounds.bind (·.max)) with
    | none => exact iff_of_true rfl rfl
    | some max =>
      refine iff_of_false (fun h => ?_) (by simp)
      dsimp only at h
      split at h <;> cases h

namespace Step

variable {s : Step} {o : Operator}

lemma kind_ne_reference (hlocal : s.reference? = none) {r : Reference} : s.kind ≠ .reference r := by
  intro hkind
  simp [reference?, hkind] at hlocal

/-- Completeness of a step that has a field and an operator, by its operator and kind. -/
lemma isComplete_eq (ho : s.operator = some o) (hfield : Text.isBlank s.fieldName = false) :
    s.isComplete =
      if o = .between then
        match s.kind with
        | .range r => r.bounds.any Bounds.isComplete
        | .reference _ => true
        | _ => false
      else
        match s.kind with
        | .reference _ | .computed _ _ => true
        | _ => !o.takesValue || !s.value.isMissing := by
  unfold isComplete
  rw [ho, hfield]
  by_cases hb : o = .between
  · rw [if_pos hb]
    cases s.kind with
    | range r =>
      obtain ⟨hasAbs, useAbs, bounds⟩ := r
      cases bounds <;> simp [hb]
    | _ => simp [hb]
  · rw [if_neg hb]
    cases s.kind <;> simp [hb]

/-- A complete step that is no reference has a field and an operator. -/
lemma exists_of_isComplete (hlocal : s.reference? = none) (h : s.isComplete = true) :
    ∃ o, s.operator = some o ∧ Text.isBlank s.fieldName = false := by
  unfold isComplete at h
  split at h
  · next hkind => exact absurd hkind (kind_ne_reference hlocal)
  · cases h
  · next o ho _ =>
    refine ⟨o, ho, ?_⟩
    by_contra hfield
    simp [hfield] at h

/-- An array step without a value, whose operator takes none. -/
def isBareArray (s : Step) : Bool :=
  match s.kind, s.operator with
  | .array _, some o => !o.takesValue && s.value.isMissing
  | _, _ => false

lemma compared_eq_none_iff (h : s.uncompared o = none) :
    s.compared o = none ↔ s.value.isMissing = true := by
  rw [← StepValue.operand?_eq_none_iff (c := s.coercion o), compared]
  cases s.value.operand? (s.coercion o) with
  | none => exact iff_of_true h rfl
  | some right => exact iff_of_false (Option.some_ne_none _) (Option.some_ne_none _)

theorem isComplete_of_compileLocal {e : Expression} (h : s.compileLocal = .ok (some e)) :
    s.isComplete = true := by
  obtain ⟨o, ho, hfield, -⟩ := localForm_of_compileLocal h
  rw [compileLocal_eq ho hfield] at h
  rw [isComplete_eq ho hfield]
  by_cases hb : o = .between
  · rw [if_pos hb] at h ⊢
    cases hkind : s.kind with
    | range r =>
      simp only [hkind] at h ⊢
      by_contra hbounds
      rw [compileBetween_eq_none_iff.mpr (by simpa using hbounds)] at h
      cases h
    | reference r => rfl
    | _ => simp [hkind] at h
  · rw [if_neg hb] at h ⊢
    have hvalue (hnone : s.uncompared o = none) (hc : s.compared o = some e) :
        s.value.isMissing = false := by
      by_contra hmissing
      rw [(compared_eq_none_iff hnone).mpr (by simpa using hmissing)] at hc
      cases hc
    cases hkind : s.kind with
    | reference r => rfl
    | computed operands operation => rfl
    | array operation =>
      simp only [hkind, Except.ok.injEq] at h
      simp [hvalue (by simp [uncompared, hkind]) h]
    | _ =>
      simp only [hkind, Except.ok.injEq] at h
      by_cases htakes : o.takesValue = true
      · rw [if_pos htakes] at h
        simp [hvalue (by simp [uncompared, hkind]) h]
      · simp [htakes]

/-- A complete step compiles to nothing only as an array step that has no value and needs
none. -/
theorem compileLocal_eq_none_iff (hlocal : s.reference? = none) (h : s.isComplete = true) :
    s.compileLocal = .ok none ↔ s.isBareArray = true := by
  obtain ⟨o, ho, hfield⟩ := exists_of_isComplete hlocal h
  rw [isComplete_eq ho hfield] at h
  rw [compileLocal_eq ho hfield, isBareArray, ho]
  by_cases hb : o = .between
  · rw [if_pos hb] at h ⊢
    cases hkind : s.kind with
    | range r =>
      simp only [hkind] at h ⊢
      simp [compileBetween_eq_none_iff, h]
    | reference r => exact absurd hkind (kind_ne_reference hlocal)
    | _ => simp [hkind] at h
  · rw [if_neg hb] at h ⊢
    cases hkind : s.kind with
    | reference r => exact absurd hkind (kind_ne_reference hlocal)
    | array operation =>
      simp only [hkind, Except.ok.injEq] at h ⊢
      rw [compared_eq_none_iff (by simp [uncompared, hkind])]
      cases hmissing : s.value.isMissing <;> simp_all
    | computed operands operation =>
      have hsome : s.compared o ≠ none := by
        rw [compared]
        cases s.value.operand? (s.coercion o) <;> simp [comparedTo, uncompared, hkind]
      by_cases hmath : (operation.getD o).isMath = true
      · simp [hmath, hsome]
      · simp [hmath]
    | _ =>
      simp only [hkind, Except.ok.injEq] at h ⊢
      by_cases htakes : o.takesValue = true
      · rw [if_pos htakes, compared_eq_none_iff (by simp [uncompared, hkind])]
        simp_all
      · simp [htakes]

end Step

lemma Pipeline.isComplete_of_validate {p : Pipeline} {label : String}
    (h : p.validate label = .ok ()) : ∀ s ∈ p.steps, s.isComplete = true :=
  (validate_eq_ok_iff.mp h).2.2

namespace FilterSource

variable {source : FilterSource}

/-- Only the issues of the outermost steps name no filter. -/
lemma eq_nil_of_mem_issues {trail : Trail} {steps : List Step} {connectors : List Connector}
    {i : Issue} (h : i ∈ (source.compileWithin trail steps connectors).issues)
    (hnone : i.filter = none) : trail = [] := by
  induction trail using source.trail_induction generalizing steps connectors with
  | step trail ih =>
    obtain ⟨k, s, hs, hi⟩ := mem_issues_iff.mp h
    obtain ⟨e, rfl, -⟩ | ⟨r, f, -, hf, hi⟩ := mem_issues_cases hi
    · exact List.getLast?_eq_none_iff.mp hnone
    · simpa using ih r.filter f hf hi

/-- An outermost step has an issue of its own exactly if it fails. -/
lemma exists_own_issue_iff (source : FilterSource) {p : Pipeline} {i : Nat} {s : Step}
    (hs : p.step? i = some s) :
    (∃ issue ∈ (source.compile p).issues, issue.filter = none ∧ issue.index = i) ↔
      ∃ e, (source.node [] s).compile = .error e := by
  constructor
  · rintro ⟨issue, hissue, hnone, rfl⟩
    obtain ⟨k, s', hs', hi⟩ := mem_issues_iff.mp hissue
    obtain ⟨e, rfl, hfails⟩ | ⟨r, f, -, -, hi⟩ := mem_issues_cases hi
    · obtain rfl : s = s' := Option.some.inj (hs.symm.trans hs')
      refine ⟨e, ?_⟩
      rcases hfails with ⟨hlocal, he⟩ | ⟨r, hl, hf⟩
      · rw [node_of_plain hlocal, Node.compile, he]
        rfl
      · rw [node_of_error hl hf, Node.compile]
    · simpa using eq_nil_of_mem_issues hi hnone
  · rintro ⟨e, he⟩
    refine ⟨⟨s.id, i, none, e⟩, mem_issues_iff.mpr ⟨i, s, hs, ?_⟩, rfl, rfl⟩
    simp [Node.issues, he]

/-- An outermost step that is no reference has an issue of its own exactly if it fails. -/
lemma exists_issue_iff (source : FilterSource) {p : Pipeline} {i : Nat} {s : Step}
    (hs : p.step? i = some s) (hlocal : s.reference? = none) :
    (∃ issue ∈ (source.compile p).issues, issue.filter = none ∧ issue.index = i) ↔
      ∃ e, s.compileLocal = .error e := by
  rw [exists_own_issue_iff source hs, node_of_plain hlocal, Node.compile]
  cases s.compileLocal <;> simp [Except.map]

/-- A step that is no reference is complete whenever it compiles to an expression, and a
complete one compiles to nothing only as an array step that has no value and needs none. So
these are the steps that a valid pipeline loses without an issue. -/
theorem complete_steps_compile {s : Step} (hlocal : s.reference? = none) :
    (∀ e, s.compileLocal = .ok (some e) → s.isComplete = true) ∧
    (s.isComplete = true → (s.compileLocal = .ok none ↔ s.isBareArray = true)) ∧
    ∀ (source : FilterSource) (p : Pipeline) (label : String) (i : Nat),
      p.validate label = .ok () → p.step? i = some s →
        ((i ∉ expressedIndices source.compileStep p.steps ∧
          ∀ issue ∈ (source.compile p).issues, issue.filter = none → issue.index ≠ i) ↔
          s.isBareArray = true) := by
  refine ⟨fun e => Step.isComplete_of_compileLocal, Step.compileLocal_eq_none_iff hlocal, ?_⟩
  intro source p label i hvalid hs
  have hcomplete := Pipeline.isComplete_of_validate hvalid s (List.mem_of_getElem? hs)
  have hindex : i ∉ expressedIndices source.compileStep p.steps ↔
      source.compileStep s = none := by
    rw [mem_expressedIndices, show p.steps[i]? = some s from hs]
    simp
  have hissue : (∀ issue ∈ (source.compile p).issues, issue.filter = none → issue.index ≠ i) ↔
      ¬∃ e, s.compileLocal = .error e := by
    rw [← exists_issue_iff source hs hlocal]
    simp
  rw [hindex, hissue, compileStep_of_plain source hlocal,
    ← Step.compileLocal_eq_none_iff hlocal hcomplete]
  cases s.compileLocal with
  | ok e => simp
  | error e => simp

/-- A range whose bounds are no numbers is complete, and its failure is reported. -/
theorem complete_steps_compile_bad_bounds :
    let source := FilterStore.empty.source
    let low : Literal := .text "low"
    let s := (Step.new ⟨"a"⟩ "rb" (.range ⟨false, false, some ⟨some low, some low⟩⟩)).withOperator
      .between
    let p := Pipeline.ofParts [s] []
    s.reference? = none ∧ s.isComplete = true ∧ s.compileLocal ≠ .ok none ∧
      p.validate "window" = .ok () ∧ p.step? 0 = some s ∧
      (0 ∈ expressedIndices source.compileStep p.steps ∨
        ∃ issue ∈ (source.compile p).issues, issue.filter = none ∧ issue.index = 0) := by
  intro source low s p
  have hcomplete : s.isComplete = true := by decide
  have hvalid : p.validate "window" = .ok () := by decide
  have hbare : ¬s.isBareArray = true := by decide
  obtain ⟨-, hnone, hlost⟩ := complete_steps_compile (s := s) rfl
  refine ⟨rfl, hcomplete, mt (hnone hcomplete).mp hbare, hvalid, rfl, ?_⟩
  have hkept := mt (hlost source p "window" 0 hvalid rfl).mp hbare
  by_contra hneither
  obtain ⟨hindex, hissue⟩ := not_or.mp hneither
  exact hkept ⟨hindex, fun issue hi hfilter h => hissue ⟨issue, hi, hfilter, h⟩⟩

/-- Whether an array is present: a valid pipeline of one complete step, which compiles to
nothing and has no issue. -/
theorem present_array_is_lost :
    let source := FilterStore.empty.source
    let s := (Step.new ⟨"a"⟩ "rb" (.array none)).withOperator .present
    let p := Pipeline.ofParts [s] []
    s.reference? = none ∧ s.isComplete = true ∧ s.compileLocal = .ok none ∧
      p.validate "flagged" = .ok () ∧ (source.compile p).expression = none ∧
      (source.compile p).isClean = true := by
  intro source s p
  have hcomplete : s.isComplete = true := by decide
  have hlocal : s.compileLocal = .ok none := (Step.compileLocal_eq_none_iff rfl hcomplete).mpr rfl
  have hreport : source.compile p = ⟨none, []⟩ := by
    rw [compile_of_plain source (by decide)]
    change reportNodes none [] [.plain s] = _
    rw [reportNodes, compileNodes, Node.compile, hlocal]
    rfl
  exact ⟨rfl, hcomplete, hlocal, by decide, by rw [hreport], by rw [hreport]; rfl⟩

end FilterSource

end AlertFilter
