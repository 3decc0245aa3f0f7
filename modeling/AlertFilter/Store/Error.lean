import AlertFilter.Identifier

/-!
# Errors of stores and query executors

An error is transient when the same request may succeed later: the connection failed, or the server
reported a fault of its own.
-/

namespace AlertFilter

inductive TransportError where
  /-- The address cannot be used for a request. -/
  | unsendable
  /-- No answer came from this address. -/
  | unanswered (url : String)
  /-- The body of the answer could not be read. -/
  | unreadable (url : String)
deriving DecidableEq

namespace TransportError

def message : TransportError → String
  | unsendable => "builder error"
  | unanswered url => "error sending request for url (" ++ url ++ ")"
  | unreadable url => "error decoding response body for url (" ++ url ++ ")"

def isTransient : TransportError → Bool
  | unanswered _ => true
  | _ => false

end TransportError

inductive StoreError where
  | notFound (id : FilterId)
  | duplicateLabel (label : String)
  | rejected (reason : String)
  | status (code : Nat) (reason : String)
  | transport (error : TransportError)
  | decode (error : Json.DecodeError)
  | config (reason : String)
  | retriesExhausted (reason : String)

namespace StoreError

def message : StoreError → String
  | notFound id => "Filter not found: " ++ id.text
  | duplicateLabel label => "Filter name already exists: " ++ label
  | rejected reason => "Request rejected by the filter store: " ++ reason
  | status code reason => "Filter store returned status " ++ toString code ++ ": " ++ reason
  | transport e => "Filter store request failed: " ++ e.message
  | decode e => "Failed to decode filter store response: " ++ e.message
  | config reason => "Invalid filter store configuration: " ++ reason
  | retriesExhausted reason => "Retry attempts exhausted: " ++ reason

def isTransient : StoreError → Bool
  | transport e => e.isTransient
  | status code _ => 500 ≤ code
  | _ => false

end StoreError

inductive QueryError where
  | transport (error : TransportError)
  | status (code : Nat) (reason : String)
  | decode (error : Json.DecodeError)

def QueryError.message : QueryError → String
  | .transport e => "Query request failed: " ++ e.message
  | .status code reason => "Query executor returned status " ++ toString code ++ ": " ++ reason
  | .decode e => "Failed to decode query results: " ++ e.message

end AlertFilter
