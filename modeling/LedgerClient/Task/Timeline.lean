import LedgerClient.Task.Retry

/-!
# Timelines of attempts

A retried operation is known from outside by its attempts: how long each takes and how it ends.
`RetryPolicy.timeline` runs a policy against given attempts and records when each one starts.  Time
is virtual: a pause takes just as long as its span says, and nothing but attempts and pauses takes
any time.  It is counted in any unit, as long as pauses and attempts are counted in the same.
-/

namespace LedgerClient

open Time

/-- The outside that makes attempts. -/
def Interface.attempts (α : Type) : Interface := ⟨Unit, fun _ => Except ClientError α⟩

/-- One attempt: how long it takes, in the unit of the pauses, and how it ends. -/
structure Attempt (α : Type) where
  span : Millis
  outcome : Except ClientError α

/-- What has happened so far: the starts of the attempts made, the latest first, and the time. -/
structure Timeline where
  starts : List Millis := []
  now : Millis := 0
  deriving DecidableEq, Repr

namespace Task

variable {α β : Type}

/-- Runs a task whose attempts are given by number. -/
def timeline (attempts : Nat → Attempt α) :
    Task (.attempts α) Unit β → Timeline → Except Crash β × Timeline
  | done b, tl => (.ok b, tl)
  | crash c, tl => (.error c, tl)
  | read next, tl => (next ()).timeline attempts tl
  | write _ next, tl => (next ()).timeline attempts tl
  | pause span _ next, tl => (next ()).timeline attempts { tl with now := tl.now + span }
  | ask _ _ next, tl =>
    let a := attempts tl.starts.length
    (next a.outcome).timeline attempts ⟨tl.now :: tl.starts, tl.now + a.span⟩

end Task

/-- Runs a policy against attempts given by number. -/
def RetryPolicy.timeline {α : Type} (p : RetryPolicy) (attempts : Nat → Attempt α) :
    Except Crash (Except RetryFailure α) × Timeline :=
  (p.run () fun _ =>
    ((Task.request () : Task (.attempts α) Unit _).bind fun r => .done (r, ()))).timeline
      attempts {}

end LedgerClient
