import AlertFilter.Pipeline

/-!
# Editing pipelines

Every edit gives a new pipeline. A new step is joined to its left neighbour by AND, a removed one
takes the connector on its left along, or the one on its right if it was the first. An edit at a
position that does not exist changes nothing, except that a step inserted too far behind goes to the
end.
-/

namespace AlertFilter.Pipeline

/-- Inserts a step before position `i`, or at the end. -/
def insertStep (p : Pipeline) (i : Nat) (s : Step) : Pipeline :=
  let i := min i p.steps.length
  let steps := p.steps.insertIdx i s
  let connectors :=
    if 1 < steps.length then
      p.connectors.insertIdx (min (i - 1) p.connectors.length) .and
    else p.connectors
  ofParts steps connectors

def pushStep (p : Pipeline) (s : Step) : Pipeline := p.insertStep p.steps.length s

def removeStep (p : Pipeline) (i : Nat) : Pipeline :=
  if i < p.steps.length then
    let connectors :=
      if 0 < i ∧ i - 1 < p.connectors.length then p.connectors.eraseIdx (i - 1)
      else p.connectors.eraseIdx 0
    ofParts (p.steps.eraseIdx i) connectors
  else p

def updateStep (p : Pipeline) (i : Nat) (patch : StepPatch) : Pipeline :=
  ⟨p.steps.modify i (·.patched patch), p.connectors, by
    simpa using p.length_connectors⟩

/-- Sets a connector; one behind the last is dropped again. -/
def updateConnector (p : Pipeline) (i : Nat) (c : Connector) : Pipeline :=
  let connectors :=
    if i < p.connectors.length then p.connectors.set i c
    else if i = p.connectors.length then p.connectors ++ [c]
    else p.connectors
  ofParts p.steps connectors

def clear (_ : Pipeline) : Pipeline := empty

end AlertFilter.Pipeline
