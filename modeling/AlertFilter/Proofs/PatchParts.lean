import AlertFilter.Proofs.PatchRuns

/-!
# Parts of a patch

A patch that sets several fields does what its parts do, one field each, in the order in which a
patch looks at its fields. No change looks at the step as it was before the patch, and none looks at
a field of the patch that is not its own. So every run of patches is a run of parts. Over a run a
step keeps its identifier and never loses its operator, and only a filter that is dropped on it
makes it a step of another kind.
-/

namespace AlertFilter

namespace StepPatch

def ofLabel (label : String) : StepPatch := { empty with label := some label }

def ofFieldName (fieldName : String) : StepPatch := { empty with fieldName := some fieldName }

def ofBounds (bounds : Bounds) : StepPatch := { empty with bounds := some bounds }

/-- Patches of one field each, for the fields that are set. -/
def parts (p : StepPatch) : List StepPatch :=
  (p.label.map ofLabel).toList ++ (p.fieldName.map ofFieldName).toList ++
    (p.operator.map ofOperator).toList ++ (p.value.map ofValue).toList ++
    (if p.clearValue then [clear] else []) ++ (p.valueSource.map ofSource).toList ++
    (p.useAbs.map ofUseAbs).toList ++ (p.bounds.map ofBounds).toList

/-- A part sets one field. -/
lemma parts_of_mem {p q : StepPatch} (h : q ∈ p.parts) : q.parts = [q] := by
  simp only [parts, List.mem_append, Option.mem_toList, Option.map_eq_some_iff,
    List.mem_ite_nil_right, List.mem_singleton] at h
  obtain ((((((⟨_, -, rfl⟩ | ⟨_, -, rfl⟩) | ⟨_, -, rfl⟩) | ⟨_, -, rfl⟩) | ⟨-, rfl⟩) |
    ⟨_, -, rfl⟩) | ⟨_, -, rfl⟩) | ⟨_, -, rfl⟩ := h <;> rfl

end StepPatch

namespace Step

open StepPatch

variable {α : Type} {s : Step}

lemma patchedBy_toList (part : α → StepPatch) (f : Step → α → Step)
    (h : ∀ s a, s.patched (part a) = f s a) (s : Step) (o : Option α) :
    s.patchedBy (o.map part).toList = s.change f o := by
  cases o with
  | none => rfl
  | some a => exact h s a

lemma patchedBy_clear (s : Step) (clears : Bool) :
    s.patchedBy (if clears then [clear] else []) = if clears then s.clearValue else s := by
  cases clears <;> rfl

theorem patched_eq_parts (s : Step) (p : StepPatch) : s.patched p = s.patchedBy p.parts := by
  have hlabel := patchedBy_toList ofLabel withLabel fun _ _ => rfl
  have hfieldName := patchedBy_toList ofFieldName (fun s fieldName => { s with fieldName })
    fun _ _ => rfl
  have hoperator := patchedBy_toList ofOperator setOperator fun _ _ => rfl
  have hvalue := patchedBy_toList ofValue setLiteral fun _ _ => rfl
  have hsource := patchedBy_toList ofSource setSource fun _ _ => rfl
  have huseAbs := patchedBy_toList ofUseAbs setUseAbs fun _ _ => rfl
  have hbounds := patchedBy_toList ofBounds setBounds fun _ _ => rfl
  simp only [parts, patchedBy_append, hlabel, hfieldName, hoperator, hvalue, patchedBy_clear,
    hsource, huseAbs, hbounds]
  rfl

lemma patched_of_range?_eq_none (h : s.range? = none) (useAbs : Option Bool)
    (bounds : Option Bounds) : s.patched { StepPatch.empty with useAbs, bounds } = s := by
  have hkind : s.kind.withRange useAbs bounds = s.kind := by
    unfold range? at h
    cases hs : s.kind with
    | range r =>
      rw [hs] at h
      cases h
    | _ => rfl
  exact (change_range s useAbs bounds).trans (congrArg (fun kind => { s with kind }) hkind)

lemma operator_patched (s : Step) (p : StepPatch) :
    (s.patched p).operator = p.operator.or s.operator :=
  congrArg operator (patched_eq s p)

lemma kind_name_patched (s : Step) (p : StepPatch) :
    (s.patched p).kind.name = if p.takesFilter then "customFilterRef" else s.kind.name := by
  rw [patched_eq]
  cases h : p.takesFilter with
  | true =>
    obtain ⟨r, hkind, -⟩ := patchedKind_of_takesFilter (s := s) h
    exact congrArg StepKind.name hkind
  | false =>
    refine (congrArg StepKind.name (patchedKind_of_not_takesFilter h)).trans ?_
    cases s.kind <;> rfl

lemma isReference_iff : s.isReference = true ↔ s.kind.name = "customFilterRef" := by
  rw [isReference, reference?]
  cases s.kind <;> simp [StepKind.name]

theorem patchedBy_parts (s : Step) (patches : List StepPatch) :
    s.patchedBy (patches.flatMap parts) = s.patchedBy patches := by
  induction patches generalizing s with
  | nil => rfl
  | cons p rest ih => rw [List.flatMap_cons, patchedBy_append, ← patched_eq_parts, ih]; rfl

lemma id_patchedBy (s : Step) (patches : List StepPatch) : (s.patchedBy patches).id = s.id := by
  induction patches using List.reverseRecOn with
  | nil => rfl
  | append_singleton patches p ih => rw [patchedBy_concat, patched_eq, ih]

lemma operator_patchedBy (s : Step) (patches : List StepPatch) :
    (s.patchedBy patches).operator = (lastSet StepPatch.operator patches).or s.operator := by
  induction patches using List.reverseRecOn with
  | nil => rfl
  | append_singleton patches p ih =>
    rw [patchedBy_concat, operator_patched, ih, lastSet_concat, Option.or_assoc]

lemma kind_name_patchedBy (s : Step) (patches : List StepPatch) :
    (s.patchedBy patches).kind.name =
      if patches.any takesFilter then "customFilterRef" else s.kind.name := by
  induction patches using List.reverseRecOn with
  | nil => rfl
  | append_singleton patches p ih =>
    rw [patchedBy_concat, kind_name_patched, ih, List.any_append, List.any_cons, List.any_nil,
      Bool.or_false]
    cases p.takesFilter <;> cases patches.any takesFilter <;> rfl

/-- A patch does what its parts do one after the other, and an empty one does nothing. Nor does one
that sets only the switch and the bounds of a range, to a step that is no range. Over a run, in
which each patch can be replaced by its parts, a step keeps its identifier, and a range offers what
it offered. The last operator that is set counts, so none is ever lost. A reference stays one, and a
step of another kind becomes one exactly if some patch takes a filter. -/
theorem patched_in_parts (s : Step) :
    (∀ p, s.patched p = s.patchedBy p.parts ∧ ∀ q ∈ p.parts, q.parts = [q]) ∧
    s.patched .empty = s ∧
    (s.range? = none → ∀ useAbs bounds,
      s.patched { StepPatch.empty with useAbs, bounds } = s) ∧
    ∀ patches, let t := s.patchedBy patches
      t = s.patchedBy (patches.flatMap parts) ∧ t.id = s.id ∧
      (∀ r r', s.range? = some r → t.range? = some r' → r'.hasAbs = r.hasAbs) ∧
      t.operator = (lastSet StepPatch.operator patches).or s.operator ∧
      (s.operator ≠ none → t.operator ≠ none) ∧
      (s.isReference = true → t.isReference = true) ∧
      t.kind.name = if patches.any takesFilter then "customFilterRef" else s.kind.name := by
  refine ⟨fun p => ⟨patched_eq_parts s p, fun q => parts_of_mem⟩, rfl,
    patched_of_range?_eq_none, fun patches => ?_⟩
  intro t
  have hoperator : t.operator = (lastSet StepPatch.operator patches).or s.operator :=
    operator_patchedBy s patches
  have hname := kind_name_patchedBy s patches
  refine ⟨(patchedBy_parts s patches).symm, id_patchedBy s patches, fun r r' hr hr' => ?_,
    hoperator, fun ho => ?_, fun hs => ?_, hname⟩
  · rw [range?_patchedBy, hr] at hr'
    split at hr'
    · cases hr'
    · cases hr'
      rfl
  · rw [hoperator]
    exact fun hnone => ho (Option.or_eq_none_iff.mp hnone).2
  · rw [isReference_iff] at hs ⊢
    rw [hname, hs]
    exact ite_self _

/-- A range step, and a reference that takes no notice of the switch and the bounds. -/
theorem patched_in_parts_of_two_steps :
    let bounds : Bounds := ⟨some (.text "3"), some (.text "5")⟩
    let p : StepPatch := ⟨some "score", none, some .between, none, true, none, some true, some bounds⟩
    let s : Step := ⟨⟨"a"⟩, "rb", "rb", some .greater, .empty, .range ⟨true, false, none⟩⟩
    let r := Step.ofFilter ⟨"b"⟩ ⟨"f"⟩ "bright" true
    s.patched p = s.patchedBy
        [ofLabel "score", ofOperator .between, clear, ofUseAbs true, ofBounds bounds] ∧
      s.range? = some ⟨true, false, none⟩ ∧
      (∃ r', (s.patchedBy [p]).range? = some r' ∧ r'.hasAbs = true) ∧
      (s.patchedBy [p]).operator = some .between ∧ (s.patchedBy [p]).operator ≠ none ∧
      (s.patchedBy [p]).kind.name = "range" ∧
      r.range? = none ∧ r.patched { StepPatch.empty with useAbs := some true, bounds } = r ∧
      r.isReference = true ∧ (r.patchedBy [p]).isReference = true := by
  intro bounds p s r
  obtain ⟨hparts, -, -, hrun⟩ := patched_in_parts s
  obtain ⟨-, -, hhasAbs, hoperator, hkept, -, hname⟩ := hrun [p]
  obtain ⟨-, -, hsame, hrun'⟩ := patched_in_parts r
  obtain ⟨-, -, -, -, -, hreference, -⟩ := hrun' [p]
  exact ⟨(hparts p).1, rfl, ⟨_, rfl, hhasAbs _ _ rfl rfl⟩, hoperator, hkept (by decide), hname, rfl,
    hsame rfl (some true) bounds, rfl, hreference rfl⟩

end Step

end AlertFilter
