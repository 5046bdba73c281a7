import LedgerClient.Client.Error
import LedgerClient.Task.Basic

/-!
# Retrying

A policy gives the number of attempts and the pauses between them.  Only errors that are
`retryable` lead to another attempt.  Nothing here depends on the unit in which the pauses are
counted; settings give them in milliseconds, and any other span is as many of a smaller unit.
-/

namespace LedgerClient

open Time

/-! ## Pauses -/

/-- How the pauses between attempts are chosen. -/
inductive Backoff where
  | fixed (delay : Millis)
  /-- Each pause is the sum of the two before it, as long as the last is below `max`. -/
  | fibonacci (base max : Millis)
  deriving DecidableEq, Repr

/-- The pauses still to come: the next one, and how the ones after it follow. -/
inductive Schedule where
  | fixed (delay : Millis)
  | growing (current previous max : Millis)
  deriving DecidableEq, Repr

namespace Schedule

/-- The next pause. -/
def delay : Schedule → Millis
  | fixed delay => delay
  | growing current _ _ => current

/-- The schedule after that pause.  A pause that has reached the maximum stays; one below it is
followed by its sum with the pause before, which may be above the maximum. -/
def next : Schedule → Schedule
  | fixed delay => fixed delay
  | growing current previous max =>
    if current < max then growing (current + previous) current max
    else growing current previous max

end Schedule

/-- The schedule before any pause.  The first pause has none before it. -/
def Backoff.start : Backoff → Schedule
  | fixed delay => .fixed delay
  | fibonacci base max => .growing base 0 max

/-! ## Policies -/

/-- How often to try and how long to wait in between. -/
structure RetryPolicy where
  /-- All attempts, the first one included.  Zero counts as one. -/
  maxAttempts : Nat
  backoff : Backoff
  deriving DecidableEq, Repr

/-- The largest number of attempts a policy can hold. -/
def attemptsLimit : Nat := UInt64.size - 1

namespace RetryPolicy

def fixed (delay : Millis) (maxAttempts : Nat) : RetryPolicy := ⟨maxAttempts, .fixed delay⟩

def fibonacci (base max : Millis) (maxAttempts : Nat) : RetryPolicy :=
  ⟨maxAttempts, .fibonacci base max⟩

/-- A fixed pause and a number of attempts that grows with the number of endpoints. -/
def scaledByEndpoints (delay : Millis) (perEndpoint endpoints : Nat) : RetryPolicy :=
  fixed delay (min (perEndpoint * max endpoints 1) attemptsLimit)

end RetryPolicy

/-- The outcome of attempts none of which succeeded. -/
structure RetryFailure where
  attempts : Nat
  /-- The budget ran out; otherwise an error that is not retryable ended the attempts. -/
  exhausted : Bool
  lastError : ClientError
  deriving DecidableEq, Repr

/-- The wording of a failure. -/
def RetryFailure.message (f : RetryFailure) : String :=
  s!"gave up after {f.attempts} attempt(s): {f.lastError.message}"

namespace RetryPolicy

variable {I : Interface} {σ α κ : Type}

/-- Makes one attempt and then at most `retries` more.  `made` attempts were made before; each
attempt passes a value of `κ` on to the next. -/
def attemptUpTo (attempt : κ → Task I σ (Except ClientError α × κ)) (schedule : Schedule)
    (made : Nat) (k : κ) : Nat → Task I σ (Except RetryFailure α)
  | 0 => (attempt k).bind fun
    | (.ok a, _) => .done (.ok a)
    | (.error e, _) => .done (.error ⟨made + 1, e.retryable, e⟩)
  | retries + 1 => (attempt k).bind fun
    | (.ok a, _) => .done (.ok a)
    | (.error e, k) =>
      if e.retryable then
        (Task.sleep schedule.delay).bind fun _ =>
          attemptUpTo attempt schedule.next (made + 1) k retries
      else .done (.error ⟨made + 1, false, e⟩)

/-- Makes attempts until one succeeds, fails with an error that is not retryable, or is the last
one of the budget. -/
def run (p : RetryPolicy) (k : κ) (attempt : κ → Task I σ (Except ClientError α × κ)) :
    Task I σ (Except RetryFailure α) :=
  attemptUpTo attempt p.backoff.start 0 k (p.maxAttempts - 1)

/-- `run` for attempts that pass nothing on, with the last error as the result of a failure. -/
def attempting (p : RetryPolicy) (attempt : Task I σ (Except ClientError α)) :
    Task I σ (Except ClientError α) :=
  (p.run () fun _ => attempt.bind fun r => .done (r, ())).bind fun
    | .ok a => .done (.ok a)
    | .error failure => .done (.error failure.lastError)

end RetryPolicy
end LedgerClient
