import AlertFilter.Pipeline.Edit
import Mathlib.Data.List.Basic
import Mathlib.Tactic.Lemma

/-!
# Runs of edits

An edit inserts into the lists of a pipeline, removes from them and sets their members, and then
fits the connectors to the steps. Here each access to a list is checked, and one outside the list
ends the run. No edit makes such an access, whatever the lists. Steps and connectors that fit each
other still do after every edit, and an insertion or a removal leaves nothing to be fitted.
-/

namespace AlertFilter

section Lists

variable {α : Type}

def insertAt? (l : List α) (i : Nat) (a : α) : Option (List α) :=
  if i ≤ l.length then some (l.insertIdx i a) else none

def removeAt? (l : List α) (i : Nat) : Option (List α) :=
  if i < l.length then some (l.eraseIdx i) else none

def setAt? (l : List α) (i : Nat) (a : α) : Option (List α) :=
  if i < l.length then some (l.set i a) else none

end Lists

/-- An edit of a pipeline, at any position. -/
inductive Edit where
  | insert (i : Nat) (step : Step)
  | push (step : Step)
  | remove (i : Nat)
  | update (i : Nat) (patch : StepPatch)
  | connect (i : Nat) (connector : Connector)
  | clear

namespace Pipeline

def edited (p : Pipeline) : Edit → Pipeline
  | .insert i s => p.insertStep i s
  | .push s => p.pushStep s
  | .remove i => p.removeStep i
  | .update i patch => p.updateStep i patch
  | .connect i c => p.updateConnector i c
  | .clear => p.clear

def run (p : Pipeline) (edits : List Edit) : Pipeline := edits.foldl edited p

end Pipeline

/-- Steps and connectors of any lengths, as they are in the midst of an edit. -/
structure Parts where
  steps : List Step
  connectors : List Connector
deriving DecidableEq

def Pipeline.parts (p : Pipeline) : Parts := ⟨p.steps, p.connectors⟩

namespace Parts

/-- There is one connector between each two neighbours. -/
def Fits (d : Parts) : Prop :=
  (d.connectors.length : Int) = max ((d.steps.length : Int) - 1) 0

def fitted (d : Parts) : Parts :=
  ⟨d.steps, fitConnectors (expectedConnectors d.steps.length) d.connectors⟩

def inserted? (d : Parts) (i : Nat) (s : Step) : Option Parts := do
  let i := min i d.steps.length
  let steps ← insertAt? d.steps i s
  if 1 < steps.length then
    let connectors ← insertAt? d.connectors (min (i - 1) d.connectors.length) .and
    return ⟨steps, connectors⟩
  else return ⟨steps, d.connectors⟩

def removed? (d : Parts) (i : Nat) : Option Parts := do
  let steps ← removeAt? d.steps i
  if 0 < i ∧ i - 1 < d.connectors.length then
    let connectors ← removeAt? d.connectors (i - 1)
    return ⟨steps, connectors⟩
  else if d.connectors.isEmpty then return ⟨steps, d.connectors⟩
  else
    let connectors ← removeAt? d.connectors 0
    return ⟨steps, connectors⟩

def updated? (d : Parts) (i : Nat) (patch : StepPatch) : Option Parts :=
  match d.steps[i]? with
  | some s => do
    let steps ← setAt? d.steps i (s.patched patch)
    return ⟨steps, d.connectors⟩
  | none => return d

def connected? (d : Parts) (i : Nat) (c : Connector) : Option Parts := do
  if i < d.connectors.length then
    let connectors ← setAt? d.connectors i c
    return ⟨d.steps, connectors⟩
  else if i = d.connectors.length then return ⟨d.steps, d.connectors ++ [c]⟩
  else return d

/-- What an edit leaves, or nothing if it reaches outside a list. -/
def edited? (d : Parts) : Edit → Option Parts
  | .insert i s => (d.inserted? i s).map fitted
  | .push s => (d.inserted? d.steps.length s).map fitted
  | .remove i => if i < d.steps.length then (d.removed? i).map fitted else return d
  | .update i patch => d.updated? i patch
  | .connect i c => (d.connected? i c).map fitted
  | .clear => return ⟨[], []⟩

def run? (d : Parts) (edits : List Edit) : Option Parts := edits.foldlM edited? d

variable {d : Parts} {i : Nat}

lemma inserted?_eq (d : Parts) (i : Nat) (s : Step) :
    d.inserted? i s =
      let i := min i d.steps.length
      let steps := d.steps.insertIdx i s
      some ⟨steps, if 1 < steps.length then
        d.connectors.insertIdx (min (i - 1) d.connectors.length) .and else d.connectors⟩ := by
  have hsteps := Nat.min_le_right i d.steps.length
  have hconnectors := Nat.min_le_right (min i d.steps.length - 1) d.connectors.length
  simp only [inserted?, insertAt?, if_pos hsteps, if_pos hconnectors]
  dsimp only [Option.bind_eq_bind, Option.bind_some]
  split <;> rfl

lemma removed?_eq (h : i < d.steps.length) :
    d.removed? i = some ⟨d.steps.eraseIdx i,
      if 0 < i ∧ i - 1 < d.connectors.length then d.connectors.eraseIdx (i - 1)
      else d.connectors.eraseIdx 0⟩ := by
  simp only [removed?, removeAt?, if_pos h]
  dsimp only [Option.bind_eq_bind, Option.bind_some]
  split
  · next hi => rw [if_pos hi.2]; rfl
  · split
    · next hempty => rw [List.isEmpty_iff.mp hempty]; rfl
    · next hempty =>
      have hpos : 0 < d.connectors.length := by
        rw [List.length_pos_iff]
        simpa using hempty
      rw [if_pos hpos]
      rfl

lemma updated?_eq (d : Parts) (i : Nat) (patch : StepPatch) :
    d.updated? i patch = some ⟨d.steps.modify i (·.patched patch), d.connectors⟩ := by
  unfold updated?
  rw [List.modify_eq_set_getElem?]
  cases hi : d.steps[i]? with
  | none => rfl
  | some s =>
    have hlen : i < d.steps.length := (List.getElem?_eq_some_iff.mp hi).1
    simp only [setAt?, if_pos hlen]
    rfl

lemma connected?_eq (d : Parts) (i : Nat) (c : Connector) :
    d.connected? i c = some ⟨d.steps,
      if i < d.connectors.length then d.connectors.set i c
      else if i = d.connectors.length then d.connectors ++ [c]
      else d.connectors⟩ := by
  unfold connected?
  split
  · next hi => simp only [setAt?, if_pos hi]; rfl
  · split <;> rfl

lemma fits_iff : d.Fits ↔ d.connectors.length = expectedConnectors d.steps.length := by
  unfold Fits expectedConnectors
  omega

lemma fits_parts (p : Pipeline) : p.parts.Fits := fits_iff.mpr p.length_connectors

lemma fitted_of_fits (h : d.Fits) : d.fitted = d := by
  unfold fitted
  rw [fitConnectors_of_length (fits_iff.mp h)]

lemma map_fitted {o : Option Parts} {p : Pipeline} (h : o = some p.parts) :
    o.map fitted = some p.parts := by
  rw [h, Option.map_some, fitted_of_fits (fits_parts p)]

/-- A step comes with its own connector: the count is right before it is repaired. -/
theorem inserted?_parts (p : Pipeline) (i : Nat) (s : Step) :
    p.parts.inserted? i s = some (p.insertStep i s).parts := by
  have hcount : p.connectors.length = p.steps.length - 1 := p.length_connectors
  have hsteps : (p.steps.insertIdx (min i p.steps.length) s).length = p.steps.length + 1 :=
    List.length_insertIdx_of_le_length (Nat.min_le_right ..) s
  rw [Pipeline.parts, inserted?_eq]
  refine congrArg some (fitted_of_fits (fits_iff.mpr ?_)).symm
  dsimp only
  rw [hsteps, expectedConnectors]
  split
  · rw [List.length_insertIdx_of_le_length (Nat.min_le_right ..)]
    omega
  · omega

/-- A step goes with a connector of its own. -/
theorem removed?_parts (p : Pipeline) {i : Nat} (h : i < p.steps.length) :
    p.parts.removed? i = some (p.removeStep i).parts := by
  have hcount : p.connectors.length = p.steps.length - 1 := p.length_connectors
  rw [Pipeline.parts, removed?_eq h, Pipeline.removeStep, if_pos h]
  refine congrArg some (fitted_of_fits (fits_iff.mpr ?_)).symm
  dsimp only
  rw [List.length_eraseIdx_of_lt h, expectedConnectors]
  split
  · next hi =>
    rw [List.length_eraseIdx_of_lt hi.2]
    omega
  · rw [List.length_eraseIdx]
    split <;> omega

/-- A checked edit does what the edit does. -/
lemma edited?_parts (p : Pipeline) (e : Edit) : p.parts.edited? e = some (p.edited e).parts := by
  cases e with
  | insert i s => exact map_fitted (inserted?_parts p i s)
  | push s => exact map_fitted (inserted?_parts p p.steps.length s)
  | remove i =>
    by_cases hi : i < p.steps.length
    · have hparts : p.parts.edited? (.remove i) = (p.parts.removed? i).map fitted := if_pos hi
      exact hparts.trans (map_fitted (removed?_parts p hi))
    · have hparts : p.parts.edited? (.remove i) = some p.parts := if_neg hi
      have hsame : p.edited (.remove i) = p := if_neg hi
      rw [hparts, hsame]
  | update i patch => exact updated?_eq p.parts i patch
  | connect i c =>
    -- a connector behind the last one is only cut off when the lists are fitted
    simp only [edited?, connected?_eq, Option.map_some]
    rfl
  | clear => rfl

lemma run?_parts (p : Pipeline) (edits : List Edit) :
    p.parts.run? edits = some (p.run edits).parts := by
  induction edits generalizing p with
  | nil => rfl
  | cons e edits ih =>
    calc p.parts.run? (e :: edits)
        = p.parts.edited? e >>= (run? · edits) := List.foldlM_cons
      _ = (p.edited e).parts.run? edits := by rw [edited?_parts]; rfl
      _ = some (p.run (e :: edits)).parts := ih (p.edited e)

end Parts

namespace Pipeline

variable {p : Pipeline} {i : Nat}

lemma removeStep_of_le (h : p.steps.length ≤ i) : p.removeStep i = p :=
  if_neg (Nat.not_lt.mpr h)

lemma ext_parts {p q : Pipeline} (h : p.parts = q.parts) : p = q := by
  cases p
  cases q
  cases h
  rfl

lemma updateStep_of_le (h : p.steps.length ≤ i) (patch : StepPatch) : p.updateStep i patch = p :=
  ext_parts (congrArg (Parts.mk · p.connectors) (List.modify_eq_self h))

lemma step?_updateStep_of_ne (patch : StepPatch) {j : Nat} (h : j ≠ i) :
    (p.updateStep i patch).step? j = p.step? j :=
  List.getElem?_modify_ne _ _ h.symm

/-- A connector appended behind the last one is cut off again. -/
lemma updateConnector_of_le (h : p.connectors.length ≤ i) (c : Connector) :
    p.updateConnector i c = p := by
  have hcount := p.length_connectors
  refine ext_parts (congrArg (Parts.mk p.steps) ?_)
  simp only [updateConnector, ofParts, if_neg (Nat.not_lt.mpr h), ← hcount]
  split
  · simp [fitConnectors]
  · exact fitConnectors_of_length rfl

end Pipeline

namespace Parts

/-- The lists a pipeline starts with. -/
inductive Start : Parts → Prop
  | empty : Start ⟨[], []⟩
  | parts (steps : List Step) (connectors : List Connector) :
      Start (fitted ⟨steps, connectors⟩)
  | document {origin : Json.Origin} {d : Json.Document} {p : Pipeline}
      (h : Pipeline.decode origin d = .ok p) : Start p.parts

lemma Start.exists_parts {d : Parts} (h : d.Start) : ∃ p : Pipeline, p.parts = d := by
  cases h with
  | empty => exact ⟨.empty, rfl⟩
  | parts steps connectors => exact ⟨.ofParts steps connectors, rfl⟩
  | document _ => exact ⟨_, rfl⟩

/-- A run of edits reaches outside no list and leaves one connector between each two neighbours,
also midway, as the first edits of a run are a run. -/
theorem Start.run_fits {d : Parts} (h : d.Start) (edits : List Edit) :
    ∃ p : Pipeline, p.parts = d ∧
      let q := p.run edits
      d.run? edits = some q.parts ∧ q.parts.Fits ∧
      (∀ i, q.steps.length ≤ i → q.removeStep i = q ∧ ∀ patch, q.updateStep i patch = q) ∧
      (∀ i, q.connectors.length ≤ i → ∀ c, q.updateConnector i c = q) ∧
      (∀ i c, (q.updateConnector i c).steps = q.steps) ∧
      ∀ i patch, (q.updateStep i patch).connectors = q.connectors ∧
        ∀ j ≠ i, (q.updateStep i patch).step? j = q.step? j := by
  obtain ⟨p, rfl⟩ := h.exists_parts
  refine ⟨p, rfl, run?_parts p edits, fits_parts _, ?_, ?_, ?_, ?_⟩
  · exact fun i hi => ⟨Pipeline.removeStep_of_le hi, Pipeline.updateStep_of_le hi⟩
  · exact fun i hi => Pipeline.updateConnector_of_le hi
  · exact fun i c => rfl
  · exact fun i patch => ⟨rfl, fun j => Pipeline.step?_updateStep_of_ne patch⟩

/-- Edits behind the end: an insertion comes in at the end, and the others change nothing. -/
theorem Start.run_fits_behind_the_end :
    let a := Step.new ⟨"a"⟩ "rb" .element
    let b := Step.new ⟨"b"⟩ "jd" .element
    let d := fitted ⟨[a, a], [.or, .or, .or]⟩
    let edits : List Edit := [.insert 9 b, .remove 0, .connect 1 .or, .connect 7 .or, .remove 2,
      .update 2 .clear, .push a, .connect 1 .or]
    d.Start ∧ ∃ q : Pipeline, d.run? edits = some q.parts ∧ q.parts.Fits ∧
      q.parts = ⟨[a, b, a], [.and, .or]⟩ ∧ q.removeStep 3 = q ∧ q.updateConnector 2 .or = q := by
  intro a b d edits
  have hstart : d.Start := .parts [a, a] [.or, .or, .or]
  obtain ⟨p, -, hrun, hfits, hsteps, hconnectors, -⟩ := hstart.run_fits edits
  have hleft : d.run? edits = some ⟨[a, b, a], [.and, .or]⟩ := by decide
  have hparts : (p.run edits).parts = ⟨[a, b, a], [.and, .or]⟩ :=
    Option.some.inj (hrun.symm.trans hleft)
  have hthree : (p.run edits).steps.length = 3 := congrArg (·.steps.length) hparts
  have htwo : (p.run edits).connectors.length = 2 := congrArg (·.connectors.length) hparts
  exact ⟨hstart, p.run edits, hrun, hfits, hparts, (hsteps 3 (Nat.le_of_eq hthree)).1,
    hconnectors 2 (Nat.le_of_eq htwo) .or⟩

end Parts

end AlertFilter
