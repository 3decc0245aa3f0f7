import AlertFilter.Compile.Report

/-!
# Compiling against a service

A service may know any number of filters and may answer the same look-up differently the next time,
so nothing bounds how deep its filters are nested. References are therefore unfolded down to a given
depth, and there is no report if that is not deep enough.
-/

namespace AlertFilter

variable {m : Type → Type} [Monad m] (lookup : FilterId → m (Except StoreError SavedFilter))

/-- Fetches a filter, unless it is on the trail. -/
def fetchThrough (trail : Trail) (id : FilterId) : m (Except CompileError SavedFilter) :=
  if id ∈ trail then return .error (.cyclic (trail ++ [id]))
  else (·.mapError (.fetch id)) <$> lookup id

/-- Unfolds the reference of a step, filter after filter, down to a depth of nested filters. -/
def unfoldThrough : Nat → Trail → Step → OptionT m Node
  | 0, _, _ => failure
  | depth + 1, trail, step =>
    match step.reference?, step.liveReference? with
    | none, _ => return .plain step
    | some _, none => return .unnamed step
    | some _, some r => do
      match ← (fetchThrough lookup trail r.filter : m _) with
      | .error e => return .unresolved step e
      | .ok f => return .expanded step r f.connectors (← f.steps.mapM
          (unfoldThrough depth (trail ++ [r.filter])))

/-- Compiles a pipeline with the filters that a service knows. -/
def compileThrough (depth : Nat) (p : Pipeline) : OptionT m Report := do
  let nodes ← p.steps.mapM (unfoldThrough lookup (depth + 1) [])
  return reportNodes none p.connectors nodes

/-- No trail is longer than what a machine word counts. -/
def nestingLimit : Nat := 18446744073709551616

end AlertFilter
