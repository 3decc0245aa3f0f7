import AlertFilter.Pipeline.Validation
import AlertFilter.Text.LowerCase

/-!
# Saved filters

A saved filter is a pipeline with a label, kept under an identifier. A draft is a filter about to be
saved: it has no identifier yet and was valid when it was made.
-/

namespace AlertFilter

structure SavedFilter where
  id : FilterId
  label : String
  description : Option String
  steps : List Step
  connectors : List Connector
  isBoolean : Bool
deriving DecidableEq

structure FilterDraft where
  label : String
  description : String
  steps : List Step
  connectors : List Connector
  isBoolean : Bool
deriving DecidableEq

namespace SavedFilter

def pipeline (f : SavedFilter) : Pipeline := .ofParts f.steps f.connectors

def matchesLabel (f : SavedFilter) (query : String) : Bool := Text.matchesQuery query f.label

open Json

def toJson (f : SavedFilter) : Json :=
  .object ([("id", f.id.toJson), ("label", .text f.label)] ++
    memberIf "description" .text f.description ++
    [("steps", .array (f.steps.map Step.toJson)),
      ("operators", .array (f.connectors.map Connector.toJson)), ("isBoolean", .bool f.isBoolean)])

structure Slots where
  id : Option FilterId := none
  label : Option String := none
  description : Option (Option String) := none
  steps : Option (List Step) := none
  connectors : Option (List Connector) := none
  isBoolean : Option Bool := none

def take (origin : Origin) (s : Slots) (name : String) (d : Document) : Except DecodeError Slots :=
  match name with
  | "id" | "_id" => do
    return { s with id := ← Decoder.fill s.id "id" (FilterId.decode origin d) }
  | "label" => do
    return { s with label := ← Decoder.fill s.label "label" (Decoder.text origin d) }
  | "description" => do
    let description ←
      Decoder.fill s.description "description" (Decoder.optional Decoder.text origin d)
    return { s with description }
  | "steps" => do
    return { s with steps := ← Decoder.fill s.steps "steps" (Decoder.list Step.decode origin d) }
  | "operators" => do
    let connectors ←
      Decoder.fill s.connectors "operators" (Decoder.list Connector.decode origin d)
    return { s with connectors }
  | "isBoolean" => do
    return { s with isBoolean := ← Decoder.fill s.isBoolean "isBoolean" (Decoder.bool origin d) }
  | _ => do
    Decoder.skip d
    return s

def decode : Decoder SavedFilter
  | origin, .object members ending => do
    let origin ← origin.enter
    let s ← Decoder.foldMembers (take origin) {} members
    Decoder.atEnd ending
    let id ← Decoder.required s.id "id"
    let label ← Decoder.required s.label "label"
    return {
      id
      label
      description := s.description.getD none
      steps := s.steps.getD []
      connectors := s.connectors.getD []
      isBoolean := s.isBoolean.getD false }
  | origin, .array items ending => do
    let record := "struct CustomFilter with 6 elements"
    let inner ← origin.enter
    let c := Decoder.Cursor.start items ending
    let (id, c) ← c.require inner FilterId.decode record
    let (label, c) ← c.require inner Decoder.text record
    let (description, c) ← c.next inner (Decoder.optional Decoder.text) (.ok none)
    let (steps, c) ← c.next inner (Decoder.list Step.decode) (.ok [])
    let (connectors, c) ← c.next inner (Decoder.list Connector.decode) (.ok [])
    let (isBoolean, c) ← c.next inner Decoder.bool (.ok false)
    c.finish origin
    return { id, label, description, steps, connectors, isBoolean }
  | _, d => Decoder.mismatch "struct CustomFilter" d

end SavedFilter

namespace FilterDraft

/-- The draft of a valid pipeline, under the trimmed label. -/
def ofPipeline (label : String) (p : Pipeline) : Except ValidationError FilterDraft := do
  p.validate label
  return {
    label := Text.trim label
    description := "Filter with " ++ toString p.length ++ " conditions"
    steps := p.steps
    connectors := p.connectors
    isBoolean := p.isBoolean }

def saved (d : FilterDraft) (id : FilterId) : SavedFilter :=
  ⟨id, d.label, some d.description, d.steps, d.connectors, d.isBoolean⟩

open Json

def toJson (d : FilterDraft) : Json :=
  .object [("label", .text d.label), ("description", .text d.description),
    ("steps", .array (d.steps.map Step.toJson)),
    ("operators", .array (d.connectors.map Connector.toJson)), ("isBoolean", .bool d.isBoolean)]

structure Slots where
  label : Option String := none
  description : Option String := none
  steps : Option (List Step) := none
  connectors : Option (List Connector) := none
  isBoolean : Option Bool := none

def take (origin : Origin) (s : Slots) (name : String) (d : Document) : Except DecodeError Slots :=
  match name with
  | "label" => do
    return { s with label := ← Decoder.fill s.label "label" (Decoder.text origin d) }
  | "description" => do
    let description ← Decoder.fill s.description "description" (Decoder.text origin d)
    return { s with description }
  | "steps" => do
    return { s with steps := ← Decoder.fill s.steps "steps" (Decoder.list Step.decode origin d) }
  | "operators" => do
    let connectors ←
      Decoder.fill s.connectors "operators" (Decoder.list Connector.decode origin d)
    return { s with connectors }
  | "isBoolean" => do
    return { s with isBoolean := ← Decoder.fill s.isBoolean "isBoolean" (Decoder.bool origin d) }
  | _ => do
    Decoder.skip d
    return s

def decode : Decoder FilterDraft
  | origin, .object members ending => do
    let origin ← origin.enter
    let s ← Decoder.foldMembers (take origin) {} members
    Decoder.atEnd ending
    let label ← Decoder.required s.label "label"
    let description ← Decoder.required s.description "description"
    let steps ← Decoder.required s.steps "steps"
    let connectors ← Decoder.required s.connectors "operators"
    let isBoolean ← Decoder.required s.isBoolean "isBoolean"
    return { label, description, steps, connectors, isBoolean }
  | origin, .array items ending => do
    let record := "struct NewCustomFilter with 5 elements"
    let inner ← origin.enter
    let c := Decoder.Cursor.start items ending
    let (label, c) ← c.require inner Decoder.text record
    let (description, c) ← c.require inner Decoder.text record
    let (steps, c) ← c.require inner (Decoder.list Step.decode) record
    let (connectors, c) ← c.require inner (Decoder.list Connector.decode) record
    let (isBoolean, c) ← c.require inner Decoder.bool record
    c.finish origin
    return { label, description, steps, connectors, isBoolean }
  | _, d => Decoder.mismatch "struct NewCustomFilter" d

end FilterDraft

end AlertFilter
