import AlertFilter.Step.Patch
import Mathlib.Data.List.Induction
import Mathlib.Tactic.Lemma

/-!
# Runs of patches

A patch changes a step field by field, and each change may look at what the ones before it left.
Here the step that a patch leaves is read off part by part from the step and the patch alone. Over
a run of patches the last one that sets a field decides on it, as far as the step stays of its kind:
a range keeps what it can do, and a reference keeps the comparison that was set beside it since it
took its filter.
-/

namespace AlertFilter

namespace StepKind

/-- Sets what a reference is compared with; other kinds have no place for it. -/
def withComparison (k : StepKind) (o : Option Operator) (l : Option Literal) : StepKind :=
  match k with
  | .reference r =>
    .reference { r with
      parentOperator := o.or r.parentOperator
      parentValue := l.or r.parentValue }
  | k => k

/-- Sets the switch and the bounds of a range; other kinds have neither. -/
def withRange (k : StepKind) (useAbs : Option Bool) (bounds : Option Bounds) : StepKind :=
  match k with
  | .range r =>
    .range { r with
      useAbs := useAbs.getD r.useAbs
      bounds := bounds.or r.bounds }
  | k => k

lemma withComparison_withComparison (k : StepKind) (o : Option Operator) (l : Option Literal) :
    (k.withComparison o none).withComparison none l = k.withComparison o l := by
  cases k <;> rfl

end StepKind

namespace StepPatch

/-- The patch makes the step a reference to a filter, whatever it was. -/
def takesFilter (p : StepPatch) : Bool :=
  match p.valueSource with
  | some (.filter _ _ _) => true
  | _ => false

end StepPatch

namespace Step

def range? (s : Step) : Option RangeSettings :=
  match s.kind with
  | .range r => some r
  | _ => none

lemma kind_of_range? {s : Step} {r : RangeSettings} (h : s.range? = some r) :
    s.kind = .range r := by
  unfold range? at h
  split at h
  · next r' hkind => rwa [Option.some.inj h] at hkind
  · cases h

/-- The value beside a new operator: the first operator of a step drops a field. -/
def valueUnder (s : Step) (o : Option Operator) : StepValue :=
  match o with
  | none => s.value
  | some _ =>
    match s.operator, s.value with
    | none, .field _ => .empty
    | _, v => v

/-- The value that is typed in before a source is looked at. -/
def typedValue (s : Step) (p : StepPatch) : StepValue :=
  if p.clearValue then .empty
  else (p.value.map StepValue.literal).getD (s.valueUnder p.operator)

def patchedLabel (s : Step) (p : StepPatch) : String :=
  match p.valueSource with
  | some (.filter _ label _) => label
  | _ => p.label.getD s.label

def patchedValue (s : Step) (p : StepPatch) : StepValue :=
  match p.valueSource with
  | some (.field path _) => .field path
  | some (.filter _ _ _) => .empty
  | none => s.typedValue p

/-- A filter that is no condition takes over the operator and the literal of the step. -/
def patchedKind (s : Step) (p : StepPatch) : StepKind :=
  match p.valueSource with
  | some (.filter id _ true) => .reference ⟨id, none, none, true⟩
  | some (.filter id _ false) =>
    .reference ⟨id, p.operator.or s.operator, (s.typedValue p).literal?, false⟩
  | _ => (s.kind.withComparison p.operator p.value).withRange p.useAbs p.bounds

variable {s : Step}

lemma change_withLabel (s : Step) (label : Option String) :
    s.change withLabel label = { s with label := label.getD s.label } := by
  cases label <;> rfl

lemma change_fieldName (s : Step) (fieldName : Option String) :
    s.change (fun s fieldName => { s with fieldName }) fieldName =
      { s with fieldName := fieldName.getD s.fieldName } := by
  cases fieldName <;> rfl

lemma change_setOperator (s : Step) (o : Option Operator) :
    s.change setOperator o =
      { s with
        operator := o.or s.operator
        value := s.valueUnder o
        kind := s.kind.withComparison o none } := by
  obtain ⟨id, label, fieldName, operator, value, kind⟩ := s
  cases o with
  | none => cases kind <;> rfl
  | some o => cases kind <;> rfl

lemma change_setLiteral (s : Step) (l : Option Literal) :
    s.change setLiteral l =
      { s with
        value := (l.map StepValue.literal).getD s.value
        kind := s.kind.withComparison none l } := by
  obtain ⟨id, label, fieldName, operator, value, kind⟩ := s
  cases l <;> cases kind <;> rfl

lemma change_range (s : Step) (useAbs : Option Bool) (bounds : Option Bounds) :
    (s.change setUseAbs useAbs).change setBounds bounds =
      { s with kind := s.kind.withRange useAbs bounds } := by
  obtain ⟨id, label, fieldName, operator, value, kind⟩ := s
  cases useAbs <;> cases bounds <;> cases kind <;> rfl

/-- What a patch leaves of a step, part by part. -/
theorem patched_eq (s : Step) (p : StepPatch) :
    s.patched p =
      { id := s.id
        label := s.patchedLabel p
        fieldName := p.fieldName.getD s.fieldName
        operator := p.operator.or s.operator
        value := s.patchedValue p
        kind := s.patchedKind p } := by
  dsimp only [patched]
  rw [change_withLabel, change_fieldName, change_setOperator, change_setLiteral, change_range,
    StepKind.withComparison_withComparison]
  obtain ⟨label, fieldName, operator, value, clear, source, useAbs, bounds⟩ := p
  cases clear <;> rcases source with _ | ⟨path, name⟩ | ⟨id, name, _ | _⟩ <;> rfl

variable {p : StepPatch}

lemma patchedKind_of_takesFilter (h : p.takesFilter = true) :
    ∃ r, s.patchedKind p = .reference r ∧
      (r.isBoolean = true → r.parentOperator = none ∧ r.parentValue = none) := by
  unfold StepPatch.takesFilter at h
  unfold patchedKind
  generalize p.valueSource = source at h ⊢
  rcases source with _ | ⟨path, name⟩ | ⟨id, name, _ | _⟩
  · cases h
  · cases h
  · exact ⟨_, rfl, fun hb => nomatch hb⟩
  · exact ⟨_, rfl, fun _ => ⟨rfl, rfl⟩⟩

lemma patchedKind_of_not_takesFilter (h : p.takesFilter = false) :
    s.patchedKind p = (s.kind.withComparison p.operator p.value).withRange p.useAbs p.bounds := by
  unfold StepPatch.takesFilter at h
  unfold patchedKind
  generalize p.valueSource = source at h ⊢
  rcases source with _ | ⟨path, name⟩ | ⟨id, name, isBoolean⟩
  · rfl
  · rfl
  · cases h

/-- A patch leaves a range step a range step unless it takes a filter. -/
lemma range?_patched (s : Step) (p : StepPatch) :
    (s.patched p).range? =
      if p.takesFilter then none
      else s.range?.map fun r => ⟨r.hasAbs, p.useAbs.getD r.useAbs, p.bounds.or r.bounds⟩ := by
  rw [patched_eq]
  cases h : p.takesFilter with
  | true =>
    obtain ⟨r, hkind, -⟩ := patchedKind_of_takesFilter (s := s) h
    rw [hkind]
    rfl
  | false =>
    rw [patchedKind_of_not_takesFilter h]
    unfold range?
    cases s.kind <;> rfl

/-- Without a filter to take, a reference stays what it is and is compared with what is set. -/
lemma reference?_patched (h : p.takesFilter = false) :
    (s.patched p).reference? = s.reference?.map fun r =>
      ⟨r.filter, p.operator.or r.parentOperator, p.value.or r.parentValue, r.isBoolean⟩ := by
  rw [patched_eq, patchedKind_of_not_takesFilter h]
  unfold reference?
  cases s.kind <;> rfl

end Step

namespace StepPatch

variable {α : Type} {field : StepPatch → Option α} {patches : List StepPatch} {p : StepPatch}

/-- What the last patch of a run that sets a field sets it to. -/
def lastSet (field : StepPatch → Option α) (patches : List StepPatch) : Option α :=
  patches.reverse.findSome? field

lemma lastSet_concat : lastSet field (patches ++ [p]) = (field p).or (lastSet field patches) := by
  rw [lastSet, List.reverse_concat, List.findSome?_cons]
  cases field p <;> rfl

lemma lastSet_eq_none_iff : lastSet field patches = none ↔ ∀ p ∈ patches, field p = none := by
  simp [lastSet]

/-- The patches of a run behind the last one that takes a filter. -/
def sinceFilter (patches : List StepPatch) : List StepPatch :=
  (patches.reverse.takeWhile (!·.takesFilter)).reverse

lemma sinceFilter_concat :
    sinceFilter (patches ++ [p]) = if p.takesFilter then [] else sinceFilter patches ++ [p] := by
  rw [sinceFilter, List.reverse_concat, List.takeWhile_cons]
  cases p.takesFilter <;> simp [sinceFilter]

end StepPatch

namespace Step

open StepPatch

def patchedBy (s : Step) (patches : List StepPatch) : Step := patches.foldl patched s

lemma patchedBy_append (s : Step) (patches others : List StepPatch) :
    s.patchedBy (patches ++ others) = (s.patchedBy patches).patchedBy others :=
  List.foldl_append

lemma patchedBy_concat (s : Step) (patches : List StepPatch) (p : StepPatch) :
    s.patchedBy (patches ++ [p]) = (s.patchedBy patches).patched p :=
  patchedBy_append s patches [p]

/-- A range step stays one unless a filter is taken; of its switch and its bounds the last ones
count, and what it offers never changes. -/
theorem range?_patchedBy (s : Step) (patches : List StepPatch) :
    (s.patchedBy patches).range? =
      if patches.any takesFilter then none
      else s.range?.map fun r =>
        ⟨r.hasAbs, (lastSet useAbs patches).getD r.useAbs,
          (lastSet bounds patches).or r.bounds⟩ := by
  induction patches using List.reverseRecOn with
  | nil => simp [patchedBy, lastSet]
  | append_singleton patches p ih =>
    have hany : (patches ++ [p]).any takesFilter = (patches.any takesFilter || p.takesFilter) := by
      rw [List.any_append, List.any_cons, List.any_nil, Bool.or_false]
    rw [patchedBy_concat, range?_patched, ih, lastSet_concat, lastSet_concat, hany]
    cases p.takesFilter <;> cases patches.any takesFilter <;> cases s.range? <;>
      simp [Option.or_assoc, Option.getD_or]

end Step

end AlertFilter
