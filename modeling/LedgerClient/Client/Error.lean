import LedgerClient.Account.Error
import LedgerClient.Rpc.Status
import LedgerClient.Wire.Fault

/-!
# Errors of the client

Every operation of a client fails with a `ClientError`.  Its constructor is what callers branch
on: only `brokenNetwork` is worth the same request again.
-/

namespace LedgerClient

open Rpc

/-- Why an operation failed. -/
inductive ClientError where
  /-- A fault of the transport. -/
  | brokenNetwork (reason : String)
  /-- The request itself is malformed. -/
  | reconstruct (reason : String)
  /-- Signing failed. -/
  | sign (cause : Account.SignerError)
  /-- No endpoint could be reached within the budget. -/
  | exhaustedPool (attempts : Nat) (lastError : String)
  /-- A status without special meaning. -/
  | rpc (status : Status)
  | poolClosed
  | config (reason : String)
  | decode (what : String) (cause : Wire.DecodeError)
  | invalidResponse (reason : String)
  | cancelled
  deriving DecidableEq, Repr

namespace ClientError

/-- The wording of an error. -/
def message : ClientError → String
  | brokenNetwork reason => s!"broken network: {reason}"
  | reconstruct reason => s!"transaction must be reconstructed: {reason}"
  | sign cause => s!"signing failed: {cause.message}"
  | exhaustedPool attempts lastError =>
    s!"connection pool exhausted after {attempts} attempts: {lastError}"
  | rpc status => s!"rpc failed ({status.code.name}): {status.message}"
  | poolClosed => "connection pool is closed"
  | config reason => s!"invalid configuration: {reason}"
  | decode what cause => s!"failed to decode {what}: {cause.message}"
  | invalidResponse reason => s!"invalid response: {reason}"
  | cancelled => "operation cancelled"

/-- The same request may succeed later. -/
def retryable : ClientError → Bool
  | brokenNetwork _ => true
  | _ => false

/-- The error of a submission that ended with a status.  A fault of the infrastructure is worth
a retry, a rejected argument asks for another transaction, and all else is passed on. -/
def ofSubmission (s : Status) : ClientError :=
  match s.code with
  | .unknown | .internal | .unavailable | .deadlineExceeded => brokenNetwork s.message
  | .invalidArgument => reconstruct s.message
  | _ => rpc s

/-- The error of a query that ended with a status: every failure counts as the network's. -/
def ofQuery (s : Status) : ClientError :=
  brokenNetwork s!"{s.code.name}: {s.message}"

end ClientError
end LedgerClient
