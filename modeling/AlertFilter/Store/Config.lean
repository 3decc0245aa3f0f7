import AlertFilter.Number
import AlertFilter.Store.Error
import AlertFilter.Store.Retry
import AlertFilter.Text.Blank

/-!
# Store configuration

Where the filter store is, how long to wait for it and how often to try. The settings come from
variables of the environment; one that cannot be read leaves the default in place.
-/

namespace AlertFilter

structure StoreConfig where
  baseUrl : String
  timeout : Duration
  retry : RetryPolicy
deriving DecidableEq

/-- Drops a character from the front of a text as often as it stands there. -/
def dropLeading (c : Char) (s : String) : String := String.ofList (s.toList.dropWhile (· = c))

/-- Drops a character from the end of a text as often as it stands there. -/
def dropTrailing (c : Char) (s : String) : String :=
  String.ofList (s.toList.reverse.dropWhile (· = c)).reverse

namespace StoreConfig

def urlVariable : String := "FILTER_STORE_URL"

def timeoutVariable : String := "FILTER_STORE_TIMEOUT_MS"

def attemptsVariable : String := "FILTER_STORE_MAX_ATTEMPTS"

def variableNames : List String := [urlVariable, timeoutVariable, attemptsVariable]

def standard : StoreConfig := ⟨"http://localhost:5001", .ofMilliseconds 10000, .standard⟩

/-- A number of 64 bits, without the blanks around it. -/
def readWord? (s : String) : Option Nat := (Decimal.readNat? (Text.trim s)).filter (FitsWord ·)

def ofVariables (environment : String → Option String) : StoreConfig :=
  let baseUrl := match environment urlVariable with
    | some url => if Text.isBlank url then standard.baseUrl else Text.trim url
    | none => standard.baseUrl
  let timeout := match (environment timeoutVariable).bind readWord? with
    | some ms => .ofMilliseconds ms
    | none => standard.timeout
  let maxAttempts := match (environment attemptsVariable).bind readWord? with
    | some n => max n 1
    | none => standard.retry.maxAttempts
  ⟨baseUrl, timeout, { standard.retry with maxAttempts }⟩

def withBaseUrl (c : StoreConfig) (baseUrl : String) : StoreConfig := { c with baseUrl }

def withRetry (c : StoreConfig) (retry : RetryPolicy) : StoreConfig := { c with retry }

/-- The address of a resource, with one slash between base and path. -/
def endpoint (c : StoreConfig) (path : String) : String :=
  dropTrailing '/' c.baseUrl ++ "/" ++ dropLeading '/' path

/-- Whether the base address is one that requests can be sent to. -/
def acceptsBase (c : StoreConfig) : Bool :=
  "http://".toList.isPrefixOf c.baseUrl.toList || "https://".toList.isPrefixOf c.baseUrl.toList

/-- Only addresses of the web are accepted. -/
def check (c : StoreConfig) : Except StoreError Unit :=
  if c.acceptsBase then .ok () else .error (.config ("base URL must be http(s): " ++ c.baseUrl))

end StoreConfig

end AlertFilter
