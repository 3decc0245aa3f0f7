import AlertFilter.Connector
import AlertFilter.Step.PatchRecord

/-!
# Pipelines

A pipeline is a row of steps with one connector between each two neighbours. Lists of any lengths
are brought into that form: missing connectors become AND, surplus ones are dropped.
-/

namespace AlertFilter

def expectedConnectors (steps : Nat) : Nat := steps - 1

structure Pipeline where
  steps : List Step
  connectors : List Connector
  length_connectors : connectors.length = expectedConnectors steps.length
deriving DecidableEq

instance : BEq Pipeline where
  beq p q := p.steps == q.steps && p.connectors == q.connectors

/-- Exactly `n` connectors: the first ones, and AND where there are too few. -/
def fitConnectors (n : Nat) (cs : List Connector) : List Connector :=
  cs.take n ++ List.replicate (n - cs.length) .and

@[simp] theorem length_fitConnectors (n : Nat) (cs : List Connector) :
    (fitConnectors n cs).length = n := by
  simp only [fitConnectors, List.length_append, List.length_take, List.length_replicate]
  omega

theorem fitConnectors_of_length {n : Nat} {cs : List Connector} (h : cs.length = n) :
    fitConnectors n cs = cs := by
  subst h
  simp [fitConnectors]

namespace Pipeline

def ofParts (steps : List Step) (connectors : List Connector) : Pipeline :=
  ⟨steps, fitConnectors (expectedConnectors steps.length) connectors, length_fitConnectors _ _⟩

def empty : Pipeline := ⟨[], [], rfl⟩

def length (p : Pipeline) : Nat := p.steps.length

def isEmpty (p : Pipeline) : Bool := p.steps.isEmpty

def step? (p : Pipeline) (i : Nat) : Option Step := p.steps[i]?

def isBoolean (p : Pipeline) : Bool := p.steps.any Step.yieldsBoolean

open Json

def toJson (p : Pipeline) : Json :=
  .object [("steps", .array (p.steps.map Step.toJson)),
    ("operators", .array (p.connectors.map Connector.toJson))]

structure Slots where
  steps : Option (List Step) := none
  connectors : Option (List Connector) := none

def take (origin : Origin) (s : Slots) (name : String) (d : Document) : Except DecodeError Slots :=
  match name with
  | "steps" => do
    return { s with steps := ← Decoder.fill s.steps "steps" (Decoder.list Step.decode origin d) }
  | "operators" | "connectors" => do
    let connectors ←
      Decoder.fill s.connectors "operators" (Decoder.list Connector.decode origin d)
    return { s with connectors }
  | _ => do
    Decoder.skip d
    return s

def decode : Decoder Pipeline
  | origin, .object members ending => do
    let origin ← origin.enter
    let s ← Decoder.foldMembers (take origin) {} members
    Decoder.atEnd ending
    return ofParts (s.steps.getD []) (s.connectors.getD [])
  | origin, .array items ending => do
    let inner ← origin.enter
    let c := Decoder.Cursor.start items ending
    let (steps, c) ← c.next inner (Decoder.list Step.decode) (.ok [])
    let (connectors, c) ← c.next inner (Decoder.list Connector.decode) (.ok [])
    c.finish origin
    return ofParts steps connectors
  | _, d => Decoder.mismatch "struct RawPipeline" d

end Pipeline

end AlertFilter
