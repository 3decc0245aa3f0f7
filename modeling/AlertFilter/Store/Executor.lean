import AlertFilter.Expression
import AlertFilter.Store.Config
import AlertFilter.Store.Exchange

/-!
# Running queries

A query is sent once to the service that holds the documents; what comes back is the list of those
that match, their members sorted.
-/

namespace AlertFilter

open Json

structure QueryResponse where
  results : List Json

namespace QueryResponse

def take (origin : Origin) (s : Option (List Json)) (name : String) (d : Document) :
    Except DecodeError (Option (List Json)) :=
  match name with
  | "results" => Decoder.fill s "results" (Decoder.list Decoder.value origin d)
  | _ => do
    Decoder.skip d
    return s

def decode : Decoder QueryResponse
  | origin, .object members ending => do
    let origin ← origin.enter
    let s ← Decoder.foldMembers (take origin) none members
    Decoder.atEnd ending
    return ⟨s.getD []⟩
  | origin, .array items ending => do
    let inner ← origin.enter
    let c := Decoder.Cursor.start items ending
    let (results, c) ← c.next inner (Decoder.list Decoder.value) (.ok [])
    c.finish origin
    return ⟨results⟩
  | _, d => Decoder.mismatch "struct RunQueryResponse" d

end QueryResponse

def Query.request (q : Query) : Json :=
  .object [("query", q.toJson), ("isAggregation", .bool true)]

namespace QueryError

def ofExchange : ExchangeError → QueryError
  | .transport e => .transport e
  | .status code reason => .status code reason

end QueryError

structure QueryClient (m : Type → Type) where
  network : Network m
  url : String

namespace QueryClient

variable {m : Type → Type}

/-- A client, if the configuration has a usable address. -/
def new? (network : Network m) (config : StoreConfig) : Except StoreError (QueryClient m) := do
  config.check
  return ⟨network, config.endpoint "run-query"⟩

def run [Monad m] (c : QueryClient m) (q : Query) : m (Except QueryError (List Json)) := do
  let result ← c.network.exchange .post c.url (some q.request.compact)
  return (result.mapError .ofExchange).bind fun body =>
    match decodeText QueryResponse.decode body with
    | .ok r => .ok (r.results.map Json.canonical)
    | .error e => .error (.decode e)

end QueryClient

end AlertFilter
