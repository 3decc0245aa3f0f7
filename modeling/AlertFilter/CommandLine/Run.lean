import AlertFilter.CommandLine.Command
import AlertFilter.CommandLine.Table
import AlertFilter.Compile.Remote
import AlertFilter.Store.Client
import AlertFilter.Store.Executor

/-!
# Running a command

A command reads files, talks to the services and prints one text, or ends with one error. The
machine it runs on is a parameter.
-/

namespace AlertFilter

inductive FileError where
  | missing
  | directory
  | notText
  | other (reason : String)

def FileError.message : FileError → String
  | .missing => "No such file or directory (os error 2)"
  | .directory => "Is a directory (os error 21)"
  | .notText => "stream did not contain valid UTF-8"
  | .other reason => reason

inductive CommandError where
  | file (error : FileError)
  | pipeline (error : Json.DecodeError)
  | invalid (error : ValidationError)
  | store (error : StoreError)
  | query (error : QueryError)
  | tooDeep

def CommandError.message : CommandError → String
  | .file e => "Failed to read the pipeline file: " ++ e.message
  | .pipeline e => "Failed to parse the pipeline file as JSON: " ++ e.message
  | .invalid e => "Pipeline cannot be saved: " ++ e.message
  | .store e => "Filter store error: " ++ e.message
  | .query e => "Query failed: " ++ e.message
  | .tooDeep => "Saved filters are nested too deeply"

/-- What a command needs of the machine. The network gives up a request after a time. -/
structure Machine (m : Type → Type) where
  environment : String → Option String
  file : String → m (Except FileError String)
  network : Duration → Network m

/-- What is seen of a command line when it has been run. -/
structure Ending where
  exitCode : UInt32
  output : String
  error : Option String

def Ending.ofResult : Except CommandError String → Ending
  | .ok output => ⟨0, output, none⟩
  | .error e => ⟨1, "", some e.message⟩

def Json.lines (v : Json) : String := v.pretty ++ "\n"

def Report.view (r : Report) : CompileView → Json
  | .expression => orNull Expression.written r.expression
  | .query => r.query.toJson
  | .report => r.toJson

namespace Machine

variable {m : Type → Type} [Monad m]

/-- A step of a command, whose error ends it. -/
def step {α ε : Type} (kind : ε → CommandError) (x : m (Except ε α)) : ExceptT CommandError m α :=
  ExceptT.mk ((·.mapError kind) <$> x)

def checked {α ε : Type} (kind : ε → CommandError) (x : Except ε α) : ExceptT CommandError m α :=
  ExceptT.mk (pure (x.mapError kind))

variable (machine : Machine m)

def loadPipeline (path : String) : ExceptT CommandError m Pipeline := do
  let text ← step .file (machine.file path)
  checked .pipeline (Json.decodeText Pipeline.decode text)

def compile (config : StoreConfig) (p : Pipeline) : ExceptT CommandError m Report := do
  let client ← checked .store (FilterClient.new? (machine.network config.timeout) config)
  match ← ((compileThrough client.get nestingLimit p).run : m (Option Report)) with
  | some report => return report
  | none => throw .tooDeep

def runFilters (config : StoreConfig) (command : FilterCommand) :
    ExceptT CommandError m String := do
  let client ← checked .store (FilterClient.new? (machine.network config.timeout) config)
  match command with
  | .list search =>
    let filters ← step .store client.list
    return SavedFilter.table (filters.filter (·.matchesLabel (search.getD "")))
  | .get id =>
    let filter ← step .store (client.get ⟨id⟩)
    return filter.toJson.lines
  | .save path label =>
    let pipeline ← machine.loadPipeline path
    let draft ← checked .invalid (FilterDraft.ofPipeline label pipeline)
    let id ← step .store (client.save draft)
    return id.text ++ "\n"
  | .delete id =>
    step .store (client.delete ⟨id⟩)
    return ""

def runCommand (config : StoreConfig) : Command → ExceptT CommandError m String
  | .compile path view => do
    let report ← machine.compile config (← machine.loadPipeline path)
    return (report.view view).lines
  | .run path => do
    let report ← machine.compile config (← machine.loadPipeline path)
    let client ← checked .store (QueryClient.new? (machine.network config.timeout) config)
    let results ← step .query (client.run report.query)
    return (Json.array results).lines
  | .filters command => machine.runFilters config command
  | .operators search => return Operator.table (Operator.search (search.getD ""))
  | .fields search => return Field.table (Field.search (search.getD ""))

/-- The configuration from the environment, with the address of the command line if there is one. -/
def config (shared : GivenOptions) : StoreConfig :=
  let config := StoreConfig.ofVariables machine.environment
  match shared.lookup Command.storeUrlOption.name with
  | some url => config.withBaseUrl url
  | none => config

def run (words : List String) : m Ending :=
  match Command.program.parse words with
  | .command command shared =>
    Ending.ofResult <$> (machine.runCommand (machine.config shared) command).run
  | .help text => return ⟨0, text, none⟩
  | .version text => return ⟨0, text, none⟩
  | .refused => return ⟨2, "", none⟩

end Machine

end AlertFilter
