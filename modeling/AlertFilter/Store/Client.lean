import AlertFilter.SavedFilter
import AlertFilter.Store.Config
import AlertFilter.Store.Exchange

/-!
# The filter store as a service

Filters are fetched, listed, saved and deleted by requests to a server, each tried again as the
retry policy says.
-/

namespace AlertFilter

open Json

structure SaveResponse where
  success : Bool
  id : Option FilterId
  error : Option String

namespace SaveResponse

structure Slots where
  success : Option Bool := none
  id : Option (Option FilterId) := none
  error : Option (Option String) := none

def take (origin : Origin) (s : Slots) (name : String) (d : Document) : Except DecodeError Slots :=
  match name with
  | "success" => do
    return { s with success := ← Decoder.fill s.success "success" (Decoder.bool origin d) }
  | "id" => do
    return { s with id := ← Decoder.fill s.id "id" (Decoder.optional FilterId.decode origin d) }
  | "error" => do
    let error ← Decoder.fill s.error "error" (Decoder.optional Decoder.text origin d)
    return { s with error }
  | _ => do
    Decoder.skip d
    return s

def decode : Decoder SaveResponse
  | origin, .object members ending => do
    let origin ← origin.enter
    let s ← Decoder.foldMembers (take origin) {} members
    Decoder.atEnd ending
    return ⟨s.success.getD false, s.id.getD none, s.error.getD none⟩
  | origin, .array items ending => do
    let record := "struct SaveResponse with 3 elements"
    let inner ← origin.enter
    let c := Decoder.Cursor.start items ending
    let (success, c) ← c.next inner Decoder.bool (.ok false)
    let (id, c) ← c.require inner (Decoder.optional FilterId.decode) record
    let (error, c) ← c.require inner (Decoder.optional Decoder.text) record
    c.finish origin
    return ⟨success, id, error⟩
  | _, d => Decoder.mismatch "struct SaveResponse" d

end SaveResponse

def StoreError.ofExchange : ExchangeError → StoreError
  | .transport e => .transport e
  | .status code reason => .status code reason

/-- The texts that say a label is taken contain this. -/
def takenMark : String := "already exists"

/-- A missing resource is a missing filter. -/
def StoreError.forFilter (id : FilterId) : StoreError → StoreError
  | .status 404 _ => .notFound id
  | e => e

/-- A save refused by the server: because of the label, or for the reason given. -/
def StoreError.forDraft (label : String) : StoreError → StoreError
  | .status 400 reason =>
    if Text.occursIn takenMark.toList (Text.lower reason).toList then .duplicateLabel label
    else .rejected reason
  | e => e

structure FilterClient (m : Type → Type) where
  network : Network m
  config : StoreConfig

variable {m : Type → Type} [Monad m]

namespace FilterClient

/-- A client, if the configuration has a usable address. -/
def new? (network : Network m) (config : StoreConfig) : Except StoreError (FilterClient m) := do
  config.check
  return ⟨network, config⟩

def attempt (c : FilterClient m) (method : Method) (path : String) (body : Option String) :
    m (Except StoreError String) :=
  (·.mapError .ofExchange) <$> c.network.exchange method (c.config.endpoint path) body

def ofRetryError (c : FilterClient m) : RetryError StoreError → StoreError
  | .fatal e => e
  | .exceeded e =>
    .retriesExhausted (toString c.config.retry.maxAttempts ++ " attempts failed, last error: " ++
      e.message)

def request (c : FilterClient m) (method : Method) (path : String) (body : Option String) :
    m (Except StoreError String) := do
  let result ←
    c.config.retry.run c.network.sleep (c.attempt method path body) StoreError.isTransient
  return result.mapError c.ofRetryError

def decodeBody {α : Type} (decode : Decoder α) (body : String) : Except StoreError α :=
  (decodeText decode body).mapError .decode

def get (c : FilterClient m) (id : FilterId) : m (Except StoreError SavedFilter) := do
  let result ← c.request .get ("get-filter/" ++ id.text) none
  return (result.mapError (.forFilter id)).bind (decodeBody SavedFilter.decode)

def list (c : FilterClient m) : m (Except StoreError (List SavedFilter)) := do
  let result ← c.request .get "get-filters" none
  return result.bind (decodeBody (Decoder.list SavedFilter.decode))

/-- The identifier from the answer to a save, if the save was acknowledged. -/
def savedId (r : SaveResponse) : Except StoreError FilterId :=
  match r.success, r.id with
  | true, some id => .ok id
  | _, _ => .error (.rejected (r.error.getD "save was not acknowledged"))

def save (c : FilterClient m) (draft : FilterDraft) : m (Except StoreError FilterId) := do
  let result ← c.request .post "save-filter" (some draft.toJson.compact)
  let body := result.mapError (.forDraft draft.label)
  return (body.bind (decodeBody SaveResponse.decode)).bind savedId

def delete (c : FilterClient m) (id : FilterId) : m (Except StoreError Unit) := do
  let result ← c.request .delete ("delete-filter/" ++ id.text) none
  return (result.mapError (.forFilter id)).map fun _ => ()

end FilterClient

end AlertFilter
