import AlertFilter.CommandLine.Menu

/-!
# The commands

Pipelines are compiled and run from files, saved filters are listed, shown, saved and deleted, and
the operators and fields are listed.
-/

namespace AlertFilter

inductive CompileView where
  | expression
  | query
  | report
deriving DecidableEq

inductive FilterCommand where
  | list (search : Option String)
  | get (id : String)
  | save (pipeline label : String)
  | delete (id : String)
deriving DecidableEq

inductive Command where
  | compile (pipeline : String) (view : CompileView)
  | run (pipeline : String)
  | filters (command : FilterCommand)
  | operators (search : Option String)
  | fields (search : Option String)
deriving DecidableEq

namespace Command

def storeUrlOption : OptionEntry :=
  ⟨"store-url", some "STORE_URL", false, "Filter store base URL (overrides FILTER_STORE_URL)"⟩

def pipelineOption : OptionEntry :=
  ⟨"pipeline", some "PIPELINE", true, "Pipeline file path (JSON with steps and operators)"⟩

def queryOption : OptionEntry :=
  ⟨"query", none, false, "Print the full aggregation query instead of the bare expression"⟩

def reportOption : OptionEntry :=
  ⟨"report", none, false, "Print the compile report, including steps that were skipped"⟩

def labelOption : OptionEntry := ⟨"label", some "LABEL", true, "Unique label for the saved filter"⟩

def idOption : OptionEntry := ⟨"id", some "ID", true, "Filter ID"⟩

def searchOption (about : String) : OptionEntry := ⟨"search", some "SEARCH", false, about⟩

def searchCommand (about : String) (make : Option String → Command) : Menu Command :=
  .command [searchOption about] fun given => some (make (given.lookup "search"))

/-- The query and the report exclude each other. -/
def compileCommand : Menu Command :=
  .command [pipelineOption, queryOption, reportOption] fun given => do
    let pipeline ← given.lookup "pipeline"
    match (given.lookup "query").isSome, (given.lookup "report").isSome with
    | true, true => none
    | true, false => some (.compile pipeline .query)
    | false, true => some (.compile pipeline .report)
    | false, false => some (.compile pipeline .expression)

def filterMenu : Menu Command :=
  .group [
    ("list", "", searchCommand "Only filters whose label contains this text" (.filters <| .list ·)),
    ("get", "", .command [idOption] fun given => return .filters (.get (← given.lookup "id"))),
    ("save", "", .command [pipelineOption, labelOption] fun given =>
      return .filters (.save (← given.lookup "pipeline") (← given.lookup "label"))),
    ("delete", "", .command [idOption] fun given =>
      return .filters (.delete (← given.lookup "id")))]

def menu : Menu Command :=
  .group [
    ("compile", "Compile a pipeline file and print the resulting expression", compileCommand),
    ("run", "Compile a pipeline file and run it against the query service",
      .command [pipelineOption] fun given => return .run (← given.lookup "pipeline")),
    ("filters", "Manage saved custom filters", filterMenu),
    ("operators", "List the operator catalog",
      searchCommand "Only operators whose label or description contains this text" .operators),
    ("fields", "List the field palette",
      searchCommand "Only fields whose label or description contains this text" .fields)]

def program : Program Command :=
  { name := "filterbuilder"
    version := "0.1.0"
    about := "Compile and run visual filter pipelines"
    shared := [storeUrlOption]
    menu }

end Command

end AlertFilter
