import AlertFilter.Json.Decoder
import AlertFilter.Store.Address
import AlertFilter.Store.Error
import AlertFilter.Store.Retry
import AlertFilter.Text.Blank

/-!
# Exchanges with a server

An exchange sends one request and takes the body of a good answer. The network is a parameter, so
that the same clients run against a real one and against a model.
-/

namespace AlertFilter

inductive Method where
  | get
  | post
  | delete
deriving DecidableEq

def Method.name : Method → String
  | get => "GET"
  | post => "POST"
  | delete => "DELETE"

structure Request where
  method : Method
  address : Address
  body : Option String

/-- What comes of a request: the status and body of an answer, or none. -/
inductive Reply where
  | answer (status : Nat) (body : String)
  | failure (error : TransportError)

/-- What a client needs of the world. -/
structure Network (m : Type → Type) where
  send : Request → m Reply
  sleep : Duration → m Unit

def Network.unreachable {m : Type → Type} [Monad m] : Network m where
  send r := return .failure (.unanswered r.address.text)
  sleep _ := return

open Json

/-- The reason that an answer gives: the text under `error`, or the whole body. -/
structure ErrorBody where
  error : String

namespace ErrorBody

def take (origin : Origin) (s : Option String) (name : String) (d : Document) :
    Except DecodeError (Option String) :=
  match name with
  | "error" => Decoder.fill s "error" (Decoder.text origin d)
  | _ => do
    Decoder.skip d
    return s

def decode : Decoder ErrorBody
  | origin, .object members ending => do
    let origin ← origin.enter
    let s ← Decoder.foldMembers (take origin) none members
    Decoder.atEnd ending
    let error ← Decoder.required s "error"
    return ⟨error⟩
  | origin, .array items ending => do
    let inner ← origin.enter
    let c := Decoder.Cursor.start items ending
    let (error, c) ← c.require inner Decoder.text "struct ErrorBody with 1 element"
    c.finish origin
    return ⟨error⟩
  | _, d => Decoder.mismatch "struct ErrorBody" d

end ErrorBody

/-- The reason for a refusal, from the body of the answer. -/
def errorReason (body : String) : String :=
  match decodeText ErrorBody.decode body with
  | .ok b => b.error
  | .error _ => Text.trim body

inductive ExchangeError where
  | transport (error : TransportError)
  | status (code : Nat) (reason : String)

/-- A body without the mark of its byte order. -/
def stripMark (body : String) : String :=
  match body.toList with
  | c :: rest => if c.toNat = 0xFEFF then String.ofList rest else body
  | [] => body

namespace Reply

def isSuccess (status : Nat) : Bool := 200 ≤ status && status < 300

def body : Reply → Except ExchangeError String
  | failure e => .error (.transport e)
  | answer status body =>
    if isSuccess status then .ok (stripMark body)
    else .error (.status status (errorReason (stripMark body)))

end Reply

/-- Sends one request and takes the body of the answer. -/
def Network.exchange {m : Type → Type} [Monad m] (network : Network m) (method : Method)
    (url : String) (body : Option String) : m (Except ExchangeError String) :=
  match Address.parse? url with
  | none => return .error (.transport .unsendable)
  | some address => Reply.body <$> network.send ⟨method, address, body⟩

end AlertFilter
