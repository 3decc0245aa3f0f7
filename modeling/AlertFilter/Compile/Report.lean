import AlertFilter.Compile.Unfolding

/-!
# Compile reports

The steps of a pipeline that compile are joined from left to right by the connectors before them;
the others are left out. Every step that failed, at any depth, is reported once.
-/

namespace AlertFilter

/-- A step that failed: its place in its own list, and the filter that list belongs to. -/
structure Issue where
  stepId : StepId
  index : Nat
  filter : Option FilterId
  error : CompileError

structure Report where
  expression : Option Expression
  issues : List Issue

namespace Issue

def toJson (i : Issue) : Json :=
  .object ([("stepId", .text i.stepId.text),
    ("index", match Number.ofInt i.index with
      | some n => .number n
      | none => .null)] ++
    memberIf "filter" FilterId.toJson i.filter ++ [("message", .text i.error.message)])

end Issue

namespace Report

def isClean (r : Report) : Bool := r.issues.isEmpty

def query (r : Report) : Query := .ofExpression? r.expression

def toJson (r : Report) : Json :=
  .object [("expression", orNull Expression.written r.expression),
    ("issues", .array (r.issues.map Issue.toJson))]

end Report

/-- The connector before the step at an index. -/
def connectorBefore (connectors : List Connector) (i : Nat) : Connector :=
  match i with
  | 0 => .and
  | i + 1 => connectors[i]?.getD .and

/-- Joins the expressions behind the first one from left to right. -/
def joinAfter (connectors : List Connector) (left : Expression) :
    List (Nat × Expression) → Expression
  | [] => left
  | (i, e) :: rest =>
    joinAfter connectors (.call (connectorBefore connectors i).symbol [left, e]) rest

def join (connectors : List Connector) : List (Nat × Expression) → Option Expression
  | [] => none
  | (_, e) :: rest => some (joinAfter connectors e rest)

/-- What becomes of one step: an expression if it has one, and the issues inside it. -/
structure Outcome where
  expression : Option Expression
  issues : List Issue

/-- Compares the result of a filter with the value beside its reference, if an operator is given. -/
def Reference.wrap (r : Reference) (e : Expression) : Expression :=
  match r.parentOperator with
  | none => e
  | some o =>
    match r.parentValue with
    | none => .call o.symbol [e]
    | some l => .call o.symbol [e, .literal l.numberOrRaw]

mutual

def Node.compile : Node → Except CompileError Outcome
  | .plain step => step.compileLocal.map (⟨·, []⟩)
  | .unnamed _ => .ok ⟨none, []⟩
  | .unresolved _ e => .error e
  | .expanded _ r connectors nodes =>
    let (compiled, issues) := compileNodes (some r.filter) 0 nodes
    .ok ⟨(join connectors compiled).map r.wrap, issues⟩

/-- The expressions of a list of steps with their indices, and the issues of all of them. -/
def compileNodes (filter : Option FilterId) (i : Nat) :
    List Node → List (Nat × Expression) × List Issue
  | [] => ([], [])
  | node :: rest =>
    let (compiled, issues) := compileNodes filter (i + 1) rest
    match node.compile with
    | .ok ⟨some e, nested⟩ => ((i, e) :: compiled, nested ++ issues)
    | .ok ⟨none, nested⟩ => (compiled, nested ++ issues)
    | .error e => (compiled, ⟨node.step.id, i, filter, e⟩ :: issues)

end

def reportNodes (filter : Option FilterId) (connectors : List Connector) (nodes : List Node) :
    Report :=
  let (compiled, issues) := compileNodes filter 0 nodes
  ⟨join connectors compiled, issues⟩

mutual

/-- The identifiers that were looked up while a step was unfolded, in order. -/
def Node.fetches : Node → List FilterId
  | .plain _ | .unnamed _ => []
  | .unresolved _ (.fetch id _) => [id]
  | .unresolved _ _ => []
  | .expanded _ r _ nodes => r.filter :: fetchesOf nodes

def fetchesOf : List Node → List FilterId
  | [] => []
  | node :: rest => node.fetches ++ fetchesOf rest

end

namespace FilterSource

/-- Compiles steps inside the filters of a trail. -/
def compileWithin (source : FilterSource) (trail : Trail) (steps : List Step)
    (connectors : List Connector) : Report :=
  reportNodes trail.getLast? connectors (source.unfold trail steps)

/-- Compiles steps with the connectors between them, which may be too few or too many. -/
def compileSteps (source : FilterSource) (steps : List Step) (connectors : List Connector) :
    Report :=
  source.compileWithin [] steps connectors

def compile (source : FilterSource) (p : Pipeline) : Report :=
  source.compileSteps p.steps p.connectors

/-- Compiles one step; an error is no expression. -/
def compileStep (source : FilterSource) (step : Step) : Option Expression :=
  match (source.unfold [] [step]).map Node.compile with
  | [.ok outcome] => outcome.expression
  | _ => none

end FilterSource

end AlertFilter
