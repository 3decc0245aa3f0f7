/-!
# Retrying

An operation that fails in a way that may pass is tried again, after waits that double from one try
to the next up to a limit. Other failures, and the failure of the last try, are final.
-/

namespace AlertFilter

/-- A span of time: seconds in 64 bits, with nanoseconds. -/
structure Duration where
  nanoseconds : Nat
  fits : nanoseconds < 18446744073709551616000000000
deriving DecidableEq

namespace Duration

/-- Milliseconds are counted in 64 bits; a larger count loses its upper part. -/
def ofMilliseconds (n : Nat) : Duration where
  nanoseconds := n % 18446744073709551616 * 1000000
  fits := by
    omega

def milliseconds (d : Duration) : Nat := d.nanoseconds / 1000000

def zero : Duration := ⟨0, by decide⟩

def isZero (d : Duration) : Bool := d.nanoseconds = 0

end Duration

structure RetryPolicy where
  maxAttempts : Nat
  baseDelay : Duration
  maxDelay : Duration
deriving DecidableEq

inductive RetryError (ε : Type) where
  /-- The failure will not pass. -/
  | fatal (error : ε)
  /-- The last try failed too. -/
  | exceeded (error : ε)

namespace RetryPolicy

def standard : RetryPolicy := ⟨3, .ofMilliseconds 200, .ofMilliseconds 5000⟩

/-- At least one try; waits without a limit are limited to the first. -/
def new (maxAttempts : Nat) (baseDelay maxDelay : Duration) : RetryPolicy :=
  ⟨max maxAttempts 1, baseDelay, if maxDelay.isZero then baseDelay else maxDelay⟩

def none : RetryPolicy := new 1 .zero .zero

/-- The largest number of 128 bits, to which the product of a delay is cut off. -/
def longest : Nat := 340282366920938463463374607431768211455

/-- The wait after the try with this number: it doubles six times at most. -/
def backoff (p : RetryPolicy) (attempt : Nat) : Duration :=
  if p.baseDelay.isZero then .zero
  else
    .ofMilliseconds (min (min (p.baseDelay.milliseconds * Nat.pow 2 (min attempt 6)) longest)
      p.maxDelay.milliseconds)

variable {m : Type → Type} [Monad m] {α ε : Type}

/-- Tries an operation, and again as often as `left` says. -/
def runFrom (p : RetryPolicy) (sleep : Duration → m Unit) (operation : m (Except ε α))
    (isTransient : ε → Bool) (attempt : Nat) : Nat → m (Except (RetryError ε) α)
  | 0 => do
    match ← operation with
    | .ok a => return .ok a
    | .error e => return .error (if isTransient e then .exceeded e else .fatal e)
  | left + 1 => do
    match ← operation with
    | .ok a => return .ok a
    | .error e =>
      if isTransient e then
        sleep (p.backoff attempt)
        p.runFrom sleep operation isTransient (attempt + 1) left
      else return .error (.fatal e)

/-- Tries an operation until it succeeds, fails for good, or was tried as often as the policy
allows. -/
def run (p : RetryPolicy) (sleep : Duration → m Unit) (operation : m (Except ε α))
    (isTransient : ε → Bool) : m (Except (RetryError ε) α) :=
  p.runFrom sleep operation isTransient 0 (p.maxAttempts - 1)

end RetryPolicy

end AlertFilter
