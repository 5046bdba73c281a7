import LedgerClient.Session.Basic
import LedgerClient.Task.Retry

/-!
# Acquiring a connection

An acquisition takes the channel that worked last, without waiting, or else searches: it goes
through the endpoints in a rotation, one dial an attempt, under the policy of the pool.
-/

namespace LedgerClient

open Time

/-- One attempt of a search.  The cursor is the place in the rotation from which the next endpoint
to dial is taken. -/
def attempt (rotation : List Nat) (cursor : Nat) : Program (Except ClientError Lease × Nat) :=
  (Task.transition (Session.onPool (Pool.beginAttempt rotation cursor))).bind fun
    | (.ended r, cursor) => .done (r, cursor)
    | (.dial i, cursor) =>
      Task.get.bind fun s =>
        (Program.dial i s.pool.dialTimeout).bind fun reply =>
          (Task.transition (Session.onPool (Pool.endAttempt i reply))).bind fun r =>
            .done (r, cursor)

/-- Searches for a connection. -/
def search (rotation : List Nat) : Program (Except ClientError Lease) :=
  Task.get.bind fun s =>
    (s.pool.policy.run 0 (attempt rotation)).bind fun
      | .ok l => .done (.ok l)
      | .error failure => .done (.error (Pool.searchError failure))

/-- Acquires a lease. -/
def acquire : Program (Except ClientError Lease) :=
  (Task.transition (Session.onPool Pool.start)).bind fun
    | .ended r => .done r
    | .search rotation => search rotation

end LedgerClient
