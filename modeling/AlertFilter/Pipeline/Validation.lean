import AlertFilter.Pipeline

/-!
# Validation

A pipeline can be saved under a name when it has steps and all of them are complete.
-/

namespace AlertFilter

inductive ValidationError where
  | missingLabel
  | emptyPipeline
  | incompleteStep (id : StepId)
deriving DecidableEq

def ValidationError.message : ValidationError → String
  | .missingLabel => "Filter name is required"
  | .emptyPipeline => "Cannot save an empty pipeline"
  | .incompleteStep id => "Step '" ++ id.text ++ "' must have a field, operator, and value"

def Pipeline.validate (p : Pipeline) (label : String) : Except ValidationError Unit :=
  if Text.isBlank label then .error .missingLabel
  else if p.isEmpty then .error .emptyPipeline
  else match p.steps.find? (!·.isComplete) with
    | some s => .error (.incompleteStep s.id)
    | none => .ok ()

theorem Pipeline.validate_eq_ok_iff {p : Pipeline} {label : String} :
    p.validate label = .ok () ↔
      Text.isBlank label = false ∧ p.steps ≠ [] ∧ ∀ s ∈ p.steps, s.isComplete = true := by
  unfold validate
  by_cases hlabel : Text.isBlank label = true
  · simp [hlabel]
  · by_cases hempty : p.isEmpty = true
    · simp [hlabel, hempty, List.isEmpty_iff.mp hempty]
    · have hsteps : p.steps ≠ [] := mt List.isEmpty_iff.mpr hempty
      rw [if_neg hlabel, if_neg hempty]
      cases hfind : p.steps.find? (!·.isComplete) with
      | some s =>
        obtain ⟨hs, hmem⟩ : s.isComplete = false ∧ s ∈ p.steps :=
          ⟨by simpa using List.find?_some hfind, List.mem_of_find?_eq_some hfind⟩
        refine iff_of_false (fun h => nomatch h) fun ⟨_, _, hall⟩ => ?_
        exact Bool.false_ne_true (hs.symm.trans (hall s hmem))
      | none => exact iff_of_true rfl ⟨by simpa using hlabel, hsteps, by simpa using hfind⟩

end AlertFilter
