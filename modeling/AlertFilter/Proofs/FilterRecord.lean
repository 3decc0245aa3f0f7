import AlertFilter.Proofs.StepRecord
import AlertFilter.SavedFilter

/-!
# Saved filters read back from the wire

The record of a saved filter is read back as it was, its steps as they survive the wire.
-/

namespace AlertFilter

open Json

lemma readsAs_connector (c : Connector) : ReadsAs Connector.decode (canonical c.toJson) c := by
  intro origin h
  cases c <;> rfl

lemma readsAs_steps (steps : List Step) :
    ReadsAs (Decoder.list Step.decode) (canonical (.array (steps.map Step.toJson)))
      (steps.map Step.normal) := by
  rw [canonical, canonicalItems_eq_map, List.map_map]
  exact .list fun s _ => s.readsAs

lemma readsAs_connectors (cs : List Connector) :
    ReadsAs (Decoder.list Connector.decode) (canonical (.array (cs.map Connector.toJson))) cs := by
  have h : ReadsAs (Decoder.list Connector.decode)
      (.array (cs.map (canonical ∘ Connector.toJson))) (cs.map id) :=
    .list fun c _ => readsAs_connector c
  rwa [List.map_id, ← List.map_map, ← canonicalItems_eq_map] at h

namespace SavedFilter

lemma foldMembers_take {origin : Origin} {members : Members} {s t : Slots} :
    Decoder.foldMembers (take origin) s (Document.ofMembers members) = .ok t ↔
      Fills ["id", "_id"] FilterId.decode origin s.id members t.id ∧
      Fills ["label"] Decoder.text origin s.label members t.label ∧
      Fills ["description"] (Decoder.optional Decoder.text) origin s.description members
        t.description ∧
      Fills ["steps"] (Decoder.list Step.decode) origin s.steps members t.steps ∧
      Fills ["operators"] (Decoder.list Connector.decode) origin s.connectors members
        t.connectors ∧
      Fills ["isBoolean"] Decoder.bool origin s.isBoolean members t.isBoolean := by
  apply foldMembers_eq_ok_iff
  · intro s t
    simp only [Fills]
    grind [cases Slots]
  · intro s name v rest t
    unfold take
    split
    case h_8 => simp_all [Fills, decoder_skip_ofJson, bind, Except.bind, pure, Except.pure]
    all_goals
      simp only [Fills, set_fill_eq_ok, exists_filled, List.mem_cons, List.not_mem_nil, or_false,
        or_true, String.reduceEq, reduceIte]
      grind

/-- The filter that is left on the wire. -/
def normal (f : SavedFilter) : SavedFilter := { f with steps := f.steps.map Step.normal }

/-- A filter survives the way to the wire and back as far as its steps do. -/
theorem readsAs (f : SavedFilter) : ReadsAs decode (canonical f.toJson) f.normal := by
  obtain ⟨id, label, description, steps, connectors, isBoolean⟩ := f
  refine .of_foldMembers (t := ⟨some id, some label, description.map some,
    some (steps.map Step.normal), some connectors, some isBoolean⟩)
    (fun origin ho => foldMembers_take.mpr ⟨?_, ?_, ?_, ?_, ?_, ?_⟩) ?_ fun _ _ _ => rfl
  · exact .present_canonical "id" id.toJson (by cases description <;> rfl) (readsAs_filterId id) ho
  · exact .present_canonical "label" (.text label) (by cases description <;> rfl)
      (readsAs_text label) ho
  · exact .memberIf_canonical "description" .text (by cases description <;> rfl) readsAs_text
      (fun _ => Json.noConfusion) ho
  · exact .present_canonical "steps" (.array (steps.map Step.toJson))
      (by cases description <;> rfl) (readsAs_steps steps) ho
  · exact .present_canonical "operators" (.array (connectors.map Connector.toJson))
      (by cases description <;> rfl) (readsAs_connectors connectors) ho
  · exact .present_canonical "isBoolean" (.bool isBoolean) (by cases description <;> rfl)
      (readsAs_bool isBoolean) ho
  · cases description <;> rfl

end SavedFilter

end AlertFilter
