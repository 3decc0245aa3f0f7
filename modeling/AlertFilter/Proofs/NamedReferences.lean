import AlertFilter.Proofs.CompleteSteps

/-!
# References of valid pipelines

A pipeline is valid whatever it refers to, but a reference is looked up only if it has a name: a
label or a field that is not blank. So a reference with a name whose filter has an expression
compiles to that expression, with the comparison beside it. One without a name is taken for a step
that is still to be filled in: it is lost from a valid pipeline without a look-up and without an
issue.
-/

namespace AlertFilter

namespace Step

/-- The step has a label or a field. -/
def isNamed (s : Step) : Bool := !(Text.isBlank s.label && Text.isBlank s.fieldName)

variable {s : Step} {r : Reference}

lemma liveReference?_eq (s : Step) :
    s.liveReference? = if s.isNamed then s.reference? else none := by
  unfold liveReference? isNamed
  cases Text.isBlank s.label && Text.isBlank s.fieldName <;> rfl

lemma isComplete_of_reference (h : s.reference? = some r) : s.isComplete = true := by
  unfold reference? at h
  split at h
  · next hkind => simp [isComplete, hkind]
  · cases h

end Step

/-- Whether a pipeline is valid is not asked of its references. -/
lemma Pipeline.validate_eq_ok_iff_plain {p : Pipeline} {label : String} :
    p.validate label = .ok () ↔ Text.isBlank label = false ∧ p.steps ≠ [] ∧
      ∀ s ∈ p.steps, s.reference? = none → s.isComplete = true := by
  rw [validate_eq_ok_iff]
  refine and_congr_right' (and_congr_right' (forall₂_congr fun s _ => ?_))
  cases hr : s.reference? with
  | none => simp
  | some r => simp [Step.isComplete_of_reference hr]

namespace FilterSource

variable {source : FilterSource} {p : Pipeline} {i : Nat} {s : Step} {r : Reference}

/-- The step at an index has neither an expression nor an issue of its own. -/
def Loses (source : FilterSource) (p : Pipeline) (i : Nat) : Prop :=
  i ∉ expressedIndices source.compileStep p.steps ∧
    ∀ issue ∈ (source.compile p).issues, issue.filter = none → issue.index ≠ i

lemma loses_iff (hs : p.step? i = some s) :
    source.Loses p i ↔ ∃ issues, (source.node [] s).compile = .ok ⟨none, issues⟩ := by
  have hindex : i ∉ expressedIndices source.compileStep p.steps ↔
      (source.node [] s).expression? = none := by
    rw [mem_expressedIndices, show p.steps[i]? = some s from hs, ← compileStep_eq]
    simp
  have hissue : (∀ issue ∈ (source.compile p).issues, issue.filter = none → issue.index ≠ i) ↔
      ¬∃ e, (source.node [] s).compile = .error e := by
    rw [← exists_own_issue_iff source hs]
    simp
  rw [Loses, hindex, hissue, Node.expression?]
  rcases (source.node [] s).compile with e | ⟨expression, issues⟩
  · simp
  · simp

/-- A reference is lost if it has no name or if its filter compiles to nothing. -/
lemma loses_reference_iff (hs : p.step? i = some s) (hr : s.reference? = some r) :
    source.Loses p i ↔ s.isNamed = false ∨ ∃ f, source.lookup r.filter = .ok f ∧
      (source.compileWithin [r.filter] f.steps f.connectors).expression = none := by
  rw [loses_iff hs]
  have hlive := s.liveReference?_eq
  rw [hr] at hlive
  cases hnamed : s.isNamed with
  | false =>
    rw [hnamed, if_neg Bool.false_ne_true] at hlive
    rw [node_of_unnamed hr hlive, Node.compile]
    exact iff_of_true ⟨[], rfl⟩ (.inl rfl)
  | true =>
    rw [hnamed, if_pos rfl] at hlive
    have hfetch : source.fetch [] r.filter = (source.lookup r.filter).mapError (.fetch r.filter) :=
      fetch_of_notMem List.not_mem_nil
    cases hf : source.lookup r.filter with
    | error e =>
      rw [hf] at hfetch
      rw [node_of_error hlive hfetch, Node.compile]
      simp
    | ok f =>
      rw [hf] at hfetch
      rw [compile_node_of_ok hlive hfetch]
      simp

lemma compileStep_of_named {f : SavedFilter} {e : Expression} (hr : s.reference? = some r)
    (hf : source.lookup r.filter = .ok f)
    (he : (source.compileWithin [r.filter] f.steps f.connectors).expression = some e)
    (hnamed : s.isNamed = true) : source.compileStep s = some (r.wrap e) := by
  have hlive : s.liveReference? = some r := by rw [s.liveReference?_eq, if_pos hnamed, hr]
  rw [compileStep_of_found hlive hf, he, Option.map_some]

lemma fetches_of_unnamed (hr : s.reference? = some r) (hnamed : s.isNamed = false)
    (trail : Trail) : (source.node trail s).fetches = [] := by
  have hlive : s.liveReference? = none := by
    rw [s.liveReference?_eq, hnamed, if_neg Bool.false_ne_true]
  rw [node_of_unnamed hr hlive, Node.fetches]

/-- A pipeline is valid under a label that is not blank if it has steps and all those that are no
references are complete, so references are accepted as they are. A reference with a name whose
filter is found and has an expression compiles to that, compared as the reference says. A reference
is lost without an issue of its own exactly if it has no name, and then its filter is not looked
up, or if its filter is found and compiles to nothing. -/
theorem references_of_valid_pipelines (source : FilterSource) (p : Pipeline) :
    (∀ label, p.validate label = .ok () ↔ Text.isBlank label = false ∧ p.steps ≠ [] ∧
      ∀ s ∈ p.steps, s.reference? = none → s.isComplete = true) ∧
    ∀ i s r, p.step? i = some s → s.reference? = some r →
      (∀ f e, source.lookup r.filter = .ok f →
        (source.compileWithin [r.filter] f.steps f.connectors).expression = some e →
        s.isNamed = true → source.compileStep s = some (r.wrap e)) ∧
      (s.isNamed = false → (source.node [] s).fetches = []) ∧
      (source.Loses p i ↔ s.isNamed = false ∨ ∃ f, source.lookup r.filter = .ok f ∧
        (source.compileWithin [r.filter] f.steps f.connectors).expression = none) := by
  refine ⟨fun label => Pipeline.validate_eq_ok_iff_plain, fun i s r hs hr => ⟨?_, ?_, ?_⟩⟩
  · exact fun f e hf he hnamed => compileStep_of_named hr hf he hnamed
  · exact fun hnamed => fetches_of_unnamed hr hnamed []
  · exact loses_reference_iff hs hr

/-- A reference whose label is blank, named by its field and compared with a number. -/
theorem references_of_valid_pipelines_by_field :
    let five : Literal := .number (.whole 5 (by decide))
    let sum := (Step.new ⟨"a"⟩ "rb" (.computed ["rb", "drb"] none)).withOperator .add
    let scores : SavedFilter := ⟨⟨"f"⟩, "sum of scores", none, [sum], [], false⟩
    let source := (FilterStore.ofList [scores]).source
    let r : Reference := ⟨scores.id, some .greater, some five, false⟩
    let s : Step := ⟨⟨"c"⟩, " ", "score", none, .empty, .reference r⟩
    let p := Pipeline.ofParts [s] []
    let added : Expression := .call "$add" [.field "rb", .field "drb"]
    p.validate "high scores" = .ok () ∧ p.step? 0 = some s ∧ s.reference? = some r ∧
      source.lookup r.filter = .ok scores ∧ s.isNamed = true ∧
      (source.compileWithin [r.filter] scores.steps scores.connectors).expression = some added ∧
      source.compileStep s = some (.call "$gt" [added, .literal five]) ∧ ¬source.Loses p 0 := by
  intro five sum scores source r s p added
  have hsum : sum.compileLocal = .ok (some added) := by
    rw [Step.compileLocal_eq rfl (by decide)]
    rfl
  have hname : s.isNamed = true := by decide
  obtain ⟨hvalid, hreferences⟩ := references_of_valid_pipelines source p
  obtain ⟨hnamed, -, hloses⟩ := hreferences 0 s r rfl rfl
  have hinner : (source.compileWithin [r.filter] scores.steps scores.connectors).expression =
      some added := by
    rw [compileWithin_singleton, node_of_plain rfl, Node.expression?, Node.compile, hsum]
    rfl
  refine ⟨(hvalid "high scores").mpr ⟨by decide, by decide, by decide⟩, rfl, rfl, rfl, hname,
    hinner, hnamed scores added rfl hinner hname, ?_⟩
  rw [hloses]
  rintro (hunnamed | ⟨f, hf, hnone⟩)
  · exact Bool.false_ne_true (hunnamed.symm.trans hname)
  · obtain rfl : scores = f := Except.ok.inj hf
    cases hinner.symm.trans hnone

/-- A reference that is read from a record with neither a label nor a field: the pipeline is valid
and its filter has an expression, but it compiles to nothing, and no issue tells of it. -/
theorem unnamed_reference_is_lost :
    let real : SavedFilter :=
      ⟨⟨"f"⟩, "real", none, [(Step.new ⟨"t"⟩ "rb" .element).withOperator .present], [], true⟩
    let source := (FilterStore.ofList [real]).source
    let s := Step.ofFilter ⟨"c"⟩ real.id "" false
    let p := Pipeline.ofParts [s] []
    let record : Json := .object [("steps", .array [.object
      [("id", .text "c"), ("kind", .text "customFilterRef"), ("filterId", .text "f")]])]
    Json.decodeValue Pipeline.decode record = .ok p ∧ p.validate "detections" = .ok () ∧
      s.reference? = some ⟨real.id, none, none, false⟩ ∧ source.lookup real.id = .ok real ∧
      (source.compileWithin [real.id] real.steps real.connectors).expression =
        some (.call "$ifNull" [.field "rb", .literal (.bool false)]) ∧
      source.compileStep s = none ∧ (source.compile p).expression = none ∧
      (source.compile p).isClean = true := by
  intro real source s p record
  have hread : Json.decodeValue Pipeline.decode record = .ok p := rfl
  have hinner : (source.compileWithin [real.id] real.steps real.connectors).expression =
      some (.call "$ifNull" [.field "rb", .literal (.bool false)]) := by
    rw [compileWithin_singleton, node_of_plain rfl]
    rfl
  have hnode : source.node [] s = .unnamed s := node_of_unnamed rfl (by decide)
  have hreport : source.compile p = ⟨none, []⟩ := by
    rw [compile, compileSteps, compileWithin, unfold_eq_map]
    change reportNodes none [] [source.node [] s] = _
    rw [hnode]
    rfl
  refine ⟨hread, by decide, rfl, rfl, hinner, ?_, by rw [hreport], by rw [hreport]; rfl⟩
  rw [compileStep_eq, hnode]
  rfl

end FilterSource

end AlertFilter
