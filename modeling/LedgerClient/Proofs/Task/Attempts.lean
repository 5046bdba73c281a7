import LedgerClient.Task.Timeline
import Mathlib.Logic.Function.Iterate
import Mathlib.Order.Bounds.Defs

/-!
# Attempts and their times

A policy makes attempts until one of them settles the matter or its budget is spent.  Against given
attempts all of this can be foretold: how many are made, when each of them starts, and what comes
of the last.  `RetryPolicy.timeline_spec` says it for every policy and whatever the attempts are, in
whatever unit the pauses and the attempts are counted.

The attempts are numbered from zero, and so are the pauses: the pause of a number follows the
attempt of that number.
-/

namespace LedgerClient

open Time

/-! ## Pauses -/

namespace Backoff

/-- The pauses of a growing backoff.  The first two are `base`, and each later one is the sum of the
two before it, until one has reached `max`. -/
def growing (base max : Millis) : Nat → Millis
  | 0 => base
  | 1 => base
  | k + 2 =>
    if growing base max (k + 1) < max then growing base max k + growing base max (k + 1)
    else growing base max (k + 1)

/-- The pause after the attempt of a number. -/
def pause : Backoff → Nat → Millis
  | fixed delay, _ => delay
  | fibonacci base max, k => growing base max k

variable {base max : Millis} {k : Nat}

theorem growing_of_lt (h : growing base max (k + 1) < max) :
    growing base max (k + 2) = growing base max k + growing base max (k + 1) := by
  rw [growing, if_pos h]

/-- A pause that has reached the maximum stays. -/
theorem growing_of_le (h : max ≤ growing base max k) :
    growing base max (k + 1) = growing base max k := by
  cases k with
  | zero => rfl
  | succ k => rw [growing, if_neg (Nat.not_lt.2 h)]

/-- A growing schedule after `k` pauses.  What it adds next, if it goes on to grow, is the pause
before. -/
theorem iterate_next_growing (base max : Millis) (k : Nat) :
    ∃ previous, Schedule.next^[k] (.growing base 0 max) =
        .growing (growing base max k) previous max ∧
      (growing base max k < max →
        growing base max (k + 1) = growing base max k + previous) := by
  induction k with
  | zero => exact ⟨0, rfl, fun _ => rfl⟩
  | succ k ih =>
    obtain ⟨previous, hschedule, hnext⟩ := ih
    rw [Function.iterate_succ_apply', hschedule, Schedule.next]
    by_cases hlt : growing base max k < max
    · rw [if_pos hlt, ← hnext hlt]
      refine ⟨growing base max k, rfl, fun h => ?_⟩
      rw [growing_of_lt h, Nat.add_comm]
    · have hstays := growing_of_le (Nat.le_of_not_lt hlt)
      rw [if_neg hlt, hstays]
      exact ⟨previous, rfl, fun h => absurd h hlt⟩

theorem delay_iterate_next (b : Backoff) (k : Nat) :
    (Schedule.next^[k] b.start).delay = b.pause k := by
  cases b with
  | fixed delay =>
    have hfixed : Schedule.next^[k] (.fixed delay) = .fixed delay := Function.iterate_fixed rfl k
    exact congrArg Schedule.delay hfixed
  | fibonacci base max =>
    obtain ⟨previous, hschedule, -⟩ := iterate_next_growing base max k
    exact congrArg Schedule.delay hschedule

end Backoff

/-! ## Attempts on a timeline -/

/-- The outcome settles the matter: a success, or an error that is not retryable. -/
def Settles {α : Type} : Except ClientError α → Prop
  | .ok _ => True
  | .error e => e.retryable = false

theorem exists_of_not_settles {α : Type} {r : Except ClientError α} (h : ¬ Settles r) :
    ∃ e, r = .error e ∧ e.retryable = true := by
  cases r with
  | ok a => exact absurd trivial h
  | error e => exact ⟨e, rfl, by simpa [Settles] using h⟩

theorem ClientError.retryable_iff {e : ClientError} :
    e.retryable = true ↔ ∃ reason, e = .brokenNetwork reason := by
  cases e <;> simp [ClientError.retryable]

namespace RetryPolicy

variable {α : Type} (p : RetryPolicy) (attempts : Nat → Attempt α)

/-- When the attempt of a number starts, if it is made. -/
def startOf : Nat → Millis
  | 0 => 0
  | k + 1 => startOf k + (attempts k).span + p.backoff.pause k

/-- The starts of the first attempts, as a timeline keeps them. -/
def startsOf (n : Nat) : List Millis := ((List.range n).map (p.startOf attempts)).reverse

theorem startsOf_succ (n : Nat) :
    p.startsOf attempts (n + 1) = p.startOf attempts n :: p.startsOf attempts n := by
  simp [startsOf, List.range_succ]

/-- What comes of the last attempt, which is the one of number `n`. -/
def conclude (n : Nat) (spent : Bool) : Except ClientError α → Except RetryFailure α
  | .ok a => .ok a
  | .error e => .error ⟨n + 1, spent && e.retryable, e⟩

/-- The task that makes an attempt from outside. -/
abbrev outsideAttempt (_ : Unit) : Task (.attempts α) Unit (Except ClientError α × Unit) :=
  (Task.request ()).bind fun r => .done (r, ())

/-- One attempt and what follows it, where `n` attempts have been made. -/
theorem timeline_outsideAttempt {β : Type} {n : Nat}
    (f : Except ClientError α × Unit → Task (.attempts α) Unit β) :
    ((outsideAttempt ()).bind f).timeline attempts
        ⟨p.startsOf attempts n, p.startOf attempts n⟩ =
      (f ((attempts n).outcome, ())).timeline attempts
        ⟨p.startsOf attempts (n + 1), p.startOf attempts n + (attempts n).span⟩ := by
  have hlength : (p.startsOf attempts n).length = n := by simp [startsOf]
  show (f ((attempts (p.startsOf attempts n).length).outcome, ())).timeline attempts
    ⟨p.startOf attempts n :: p.startsOf attempts n,
      p.startOf attempts n + (attempts (p.startsOf attempts n).length).span⟩ = _
  rw [hlength, startsOf_succ]

/-- Attempts from number `n` on, of which `retries` may follow the first.  Another one follows as
long as none has settled the matter, and no pause follows the last. -/
theorem timeline_attemptUpTo (retries n : Nat) :
    ∃ more ≤ retries, (∀ j < more, ¬ Settles (attempts (n + j)).outcome) ∧
      (more = retries ∨ Settles (attempts (n + more)).outcome) ∧
      (attemptUpTo outsideAttempt (Schedule.next^[n] p.backoff.start) n () retries).timeline
          attempts ⟨p.startsOf attempts n, p.startOf attempts n⟩ =
        (.ok (conclude (n + more) (decide (more = retries)) (attempts (n + more)).outcome),
          ⟨p.startsOf attempts (n + more + 1),
            p.startOf attempts (n + more) + (attempts (n + more)).span⟩) := by
  induction retries generalizing n with
  | zero =>
    refine ⟨0, Nat.le_refl _, nofun, .inl rfl, ?_⟩
    rw [attemptUpTo, timeline_outsideAttempt]
    cases houtcome : (attempts n).outcome <;> simp [conclude, Task.timeline]
  | succ retries ih =>
    rw [attemptUpTo, timeline_outsideAttempt]
    by_cases hsettles : Settles (attempts n).outcome
    · -- The first attempt is the last.
      refine ⟨0, Nat.zero_le _, nofun, .inr hsettles, ?_⟩
      cases houtcome : (attempts n).outcome with
      | ok a => simp [conclude, Task.timeline]
      | error e =>
        rw [houtcome] at hsettles
        have he : e.retryable = false := hsettles
        simp [he, conclude, Task.timeline]
    · obtain ⟨more, hle, hbefore, hlast, hrun⟩ := ih (n + 1)
      rw [Nat.add_right_comm] at hlast hrun
      refine ⟨more + 1, Nat.succ_le_succ hle, fun j hj => ?_,
        hlast.imp_left (congrArg Nat.succ), ?_⟩
      · cases j with
        | zero => exact hsettles
        | succ j =>
          have hj := hbefore j (Nat.lt_of_succ_lt_succ hj)
          rwa [Nat.add_right_comm] at hj
      · obtain ⟨e, houtcome, he⟩ := exists_of_not_settles hsettles
        have hdelay := p.backoff.delay_iterate_next n
        have hnow : p.startOf attempts n + (attempts n).span +
            (Schedule.next^[n] p.backoff.start).delay = p.startOf attempts (n + 1) := by
          rw [hdelay, startOf]
        rw [Function.iterate_succ_apply', ← hnow] at hrun
        have hspent : decide (more + 1 = retries + 1) = decide (more = retries) := by simp
        rw [← Nat.add_assoc, hspent, ← hrun]
        simp only [houtcome, he, if_true, Task.sleep, Task.bind, Task.timeline]

/-- A policy that is run against attempts makes as many as it takes to settle the matter, and no
more than its budget, which is one at least.  Its result is that of the last attempt, and a failure
tells the number of attempts, the last error, and whether the budget ran out.  An attempt starts
when the one before has ended and the pause of its number has passed, and the run is over when the
last attempt ends. -/
theorem timeline_spec {α : Type} (p : RetryPolicy) (attempts : Nat → Attempt α) :
    let budget := max 1 p.maxAttempts
    ∃ last, let made := last + 1
      IsLeast {n | n = budget ∨ ∃ k, n = k + 1 ∧ Settles (attempts k).outcome} made ∧
      ∃ result, p.timeline attempts = (.ok result,
          { starts := ((List.range made).map (p.startOf attempts)).reverse
            now := p.startOf attempts last + (attempts last).span }) ∧
        match (attempts last).outcome with
        | .ok a => result = .ok a
        | .error e => ∃ failure, result = .error failure ∧ failure.attempts = made ∧
            failure.lastError = e ∧
            (failure.exhausted = true ↔ made = budget ∧ ∃ reason, e = .brokenNetwork reason) := by
  intro budget
  obtain ⟨last, hle, hbefore, hlast, hrun⟩ := p.timeline_attemptUpTo attempts (p.maxAttempts - 1) 0
  simp only [Nat.zero_add] at hbefore hlast hrun
  have hbudget : budget = p.maxAttempts - 1 + 1 := by omega
  refine ⟨last, ⟨?_, ?_⟩, _, hrun, ?_⟩
  · rcases hlast with rfl | hsettles
    · exact .inl hbudget.symm
    · exact .inr ⟨last, rfl, hsettles⟩
  · rintro n (rfl | ⟨k, rfl, hsettles⟩)
    · omega
    · by_contra hlt
      exact hbefore k (by omega) hsettles
  · cases houtcome : (attempts last).outcome with
    | ok a => rfl
    | error e =>
      refine ⟨_, rfl, rfl, rfl, ?_⟩
      rw [Bool.and_eq_true, decide_eq_true_iff, ClientError.retryable_iff, hbudget,
        Nat.add_right_cancel_iff]

end RetryPolicy
end LedgerClient
