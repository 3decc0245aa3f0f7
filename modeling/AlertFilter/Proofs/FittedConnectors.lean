import AlertFilter.Proofs.Links

/-!
# Connectors that are fitted

A reference compiles the record of a saved filter as it is, with too few or too many connectors,
while a pipeline had its connectors fitted to the steps when it was made. Joining takes AND for a
connector that is missing and reads none that is surplus, so both compile alike: the steps
themselves, and every filter that they refer to at any depth.
-/

namespace AlertFilter

/-- The record of a filter with its connectors fitted. -/
def SavedFilter.fitted (f : SavedFilter) : SavedFilter :=
  { f with connectors := f.pipeline.connectors }

namespace FilterSource

def fitted (source : FilterSource) : FilterSource := source.mapFilters SavedFilter.fitted

/-- What joins the steps is not changed by fitting it to them. -/
lemma compileWithin_ofParts (source : FilterSource) (trail : Trail) (steps : List Step)
    (connectors : List Connector) :
    source.compileWithin trail steps (Pipeline.ofParts steps connectors).connectors =
      source.compileWithin trail steps connectors := by
  have hlinks : linkAll (Pipeline.ofParts steps connectors).connectors steps =
      linkAll connectors steps :=
    Pipeline.links_ofParts steps connectors
  apply Report.eq_of_parts
  · rw [compileWithin_expression, compileWithin_expression, hlinks]
  · rfl

lemma compileWithin_fitted (source : FilterSource) (trail : Trail) (steps : List Step)
    (connectors : List Connector) :
    source.fitted.compileWithin trail steps connectors =
      source.compileWithin trail steps connectors :=
  compileWithin_mapFilters
    (fun source trail f => compileWithin_ofParts source trail f.steps f.connectors)
    source trail steps connectors

/-- Lists of any lengths compile, inside the filters of any trail, to the report of the pipeline
that is made of them, and it makes no difference whether the records of the filters they refer to
are made into pipelines. The pipeline has the same steps. It keeps each connector that is in front
of a step, has AND where one was missing, and is the pipeline that is made of its own parts. -/
theorem fitted_connectors (source : FilterSource) (trail : Trail) (steps : List Step)
    (connectors : List Connector) :
    let p := Pipeline.ofParts steps connectors
    source.compileWithin trail p.steps p.connectors =
        source.compileWithin trail steps connectors ∧
      source.fitted.compileWithin trail steps connectors =
        source.compileWithin trail steps connectors ∧
      p.steps = steps ∧
      (∀ i, p.connectors[i]? =
        if i + 1 < steps.length then some (connectors[i]?.getD .and) else none) ∧
      Pipeline.ofParts p.steps p.connectors = p := by
  intro p
  refine ⟨compileWithin_ofParts source trail steps connectors,
    compileWithin_fitted source trail steps connectors, rfl, fun i => ?_, ?_⟩
  · have hlast : i < expectedConnectors steps.length ↔ i + 1 < steps.length := by
      rw [expectedConnectors]
      omega
    exact (Pipeline.getElem?_fitConnectors _ connectors i).trans (if_congr hlast rfl rfl)
  · apply Pipeline.links_injective
    exact Pipeline.links_ofParts p.steps p.connectors

end FilterSource

end AlertFilter
