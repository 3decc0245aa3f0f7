import AlertFilter.Compile.Local
import AlertFilter.SavedFilter

/-!
# Unfolding references

A reference stands for the steps of a saved filter, which may hold references in turn. Unfolding
replaces each by the filter it names, down to the steps that name none. A filter is not unfolded
inside itself: the identifiers passed on the way form the trail, and one that is on it is a cycle.
-/

namespace AlertFilter

/-- Where saved filters come from. Only the listed identifiers can resolve to a filter. -/
structure FilterSource where
  lookup : FilterId → Except StoreError SavedFilter
  ids : List FilterId
  mem_ids : ∀ {id f}, lookup id = .ok f → id ∈ ids

/-- The identifiers of the filters that enclose a step, outermost first. -/
abbrev Trail := List FilterId

/-- A step with the filters that its reference stands for. -/
inductive Node where
  /-- A step that is no reference. -/
  | plain (step : Step)
  /-- A reference without a name, which stands for nothing. -/
  | unnamed (step : Step)
  /-- A reference that could not be resolved. -/
  | unresolved (step : Step) (error : CompileError)
  | expanded (step : Step) (reference : Reference) (connectors : List Connector)
      (nodes : List Node)

namespace Node

def step : Node → Step
  | plain s | unnamed s | unresolved s _ | expanded s _ _ _ => s

end Node

/-- The reference of a step that has a name. -/
def Step.liveReference? (s : Step) : Option Reference :=
  if Text.isBlank s.label && Text.isBlank s.fieldName then none else s.reference?

namespace FilterSource

/-- Fetches a filter, unless it is on the trail. -/
def fetch (source : FilterSource) (trail : Trail) (id : FilterId) :
    Except CompileError SavedFilter :=
  if id ∈ trail then .error (.cyclic (trail ++ [id]))
  else match source.lookup id with
    | .ok f => .ok f
    | .error e => .error (.fetch id e)

def unvisited (source : FilterSource) (trail : Trail) : List FilterId :=
  source.ids.filter (· ∉ trail)

theorem length_unvisited_lt {source : FilterSource} {trail : Trail} {id : FilterId}
    {f : SavedFilter} (h : source.fetch trail id = .ok f) :
    (source.unvisited (trail ++ [id])).length < (source.unvisited trail).length := by
  unfold fetch at h
  split at h
  · cases h
  next hid =>
  split at h
  · next hf =>
    have hmem := source.mem_ids hf
    rw [unvisited, unvisited, show (fun x => decide (x ∉ trail ++ [id])) =
      (fun x => decide (x ≠ id) && decide (x ∉ trail)) by
        funext x
        simp [Bool.and_comm], ← List.filter_filter]
    refine Nat.lt_of_le_of_ne (List.length_filter_le _ _) fun he => ?_
    have := List.length_filter_eq_length_iff.1 he id (by simpa using ⟨hmem, hid⟩)
    simp at this
  · cases h

def unfold (source : FilterSource) (trail : Trail) : List Step → List Node
  | [] => []
  | step :: rest =>
    let node : Node :=
      match step.reference?, step.liveReference? with
      | none, _ => .plain step
      | some _, none => .unnamed step
      | some _, some r =>
        match _ : source.fetch trail r.filter with
        | .error e => .unresolved step e
        | .ok f => .expanded step r f.connectors (source.unfold (trail ++ [r.filter]) f.steps)
    node :: source.unfold trail rest
termination_by steps => ((source.unvisited trail).length, steps.length)
decreasing_by
  · exact Prod.Lex.left _ _ (length_unvisited_lt ‹_›)
  · exact Prod.Lex.right _ (Nat.lt_succ_self _)

end FilterSource

end AlertFilter
