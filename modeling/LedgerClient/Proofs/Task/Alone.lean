import LedgerClient.Task.Retry

/-!
# Tasks on their own

A task that runs while nobody else does, its requests answered from outside by a fixed rule, comes
to one end.  `Task.alone` is that end, and `RetryPolicy.attemptUpTo` is followed attempt by attempt.
-/

namespace LedgerClient

variable {I : Interface} {σ α β κ : Type} {answer : (r : I.Request) → I.Answer r}

namespace Task

/-- The result of a task that runs on its own, and the shared state at its end. -/
def alone (answer : (r : I.Request) → I.Answer r) : Task I σ α → σ → Except Crash α × σ
  | done a, s => (.ok a, s)
  | crash c, s => (.error c, s)
  | read next, s => (next s).alone answer s
  | write s next, _ => (next ()).alone answer s
  | pause _ _ next, s => (next ()).alone answer s
  | ask r _ next, s => (next (answer r)).alone answer s

theorem alone_get_bind (f : σ → Task I σ α) (s : σ) :
    (get.bind f).alone answer s = (f s).alone answer s := rfl

theorem alone_bind (t : Task I σ α) (f : α → Task I σ β) (s : σ) :
    (t.bind f).alone answer s =
      match t.alone answer s with
      | (.ok a, s) => (f a).alone answer s
      | (.error c, s) => (.error c, s) := by
  induction t generalizing s with
  | done a => rfl
  | crash c => rfl
  | read next ih => exact ih s s
  | write s' next ih => exact ih () s'
  | pause span dropped next ih => exact ih () s
  | ask r dropped next ih => exact ih (answer r) s

theorem alone_bind_ok {t : Task I σ α} {s s' : σ} {a : α} (h : t.alone answer s = (.ok a, s'))
    (f : α → Task I σ β) : (t.bind f).alone answer s = (f a).alone answer s' := by
  rw [alone_bind, h]

theorem alone_bind_crash {t : Task I σ α} {s s' : σ} {c : Crash}
    (h : t.alone answer s = (.error c, s')) (f : α → Task I σ β) :
    (t.bind f).alone answer s = (.error c, s') := by
  rw [alone_bind, h]

/-- A task that ends without a wait hands over to the next. -/
theorem advance_bind_done {t : Task I σ α} {s s' : σ} {a : α} (h : t.advance s = (.done a, s'))
    (f : α → Task I σ β) : (t.bind f).advance s = (f a).advance s' := by
  induction t generalizing s with
  | done b =>
    cases h
    rfl
  | read next ih => exact ih s h
  | write s'' next ih => exact ih () h
  | crash c | pause span dropped next ih | ask r dropped next ih => cases h

end Task

/-! ## Retries -/

namespace RetryPolicy

variable {attempt : κ → Task I σ (Except ClientError α × κ)} {s s' : σ} {k k' : κ}

theorem alone_attemptUpTo_ok {a : α} (h : (attempt k).alone answer s = (.ok (.ok a, k'), s'))
    (schedule : Schedule) (made retries : Nat) :
    (attemptUpTo attempt schedule made k retries).alone answer s = (.ok (.ok a), s') := by
  cases retries <;> exact Task.alone_bind_ok h _

theorem alone_attemptUpTo_last {e : ClientError}
    (h : (attempt k).alone answer s = (.ok (.error e, k'), s')) {retries : Nat}
    (hlast : e.retryable = false ∨ retries = 0) (schedule : Schedule) (made : Nat) :
    ∃ failure, (attemptUpTo attempt schedule made k retries).alone answer s =
      (.ok (.error failure), s') := by
  cases retries with
  | zero => exact ⟨_, Task.alone_bind_ok h _⟩
  | succ retries =>
    have he : e.retryable = false := hlast.resolve_right (Nat.succ_ne_zero _)
    refine ⟨⟨made + 1, false, e⟩, (Task.alone_bind_ok h _).trans ?_⟩
    show (if e.retryable then _ else _ : Task I σ (Except RetryFailure α)).alone answer s' = _
    rw [he]
    rfl

theorem alone_attemptUpTo_retry {e : ClientError}
    (h : (attempt k).alone answer s = (.ok (.error e, k'), s')) (he : e.retryable = true)
    (schedule : Schedule) (made retries : Nat) :
    (attemptUpTo attempt schedule made k (retries + 1)).alone answer s =
      (attemptUpTo attempt schedule.next (made + 1) k' retries).alone answer s' := by
  refine (Task.alone_bind_ok h _).trans ?_
  show (if e.retryable then _ else _ : Task I σ (Except RetryFailure α)).alone answer s' = _
  rw [he]
  rfl

end RetryPolicy
end LedgerClient
