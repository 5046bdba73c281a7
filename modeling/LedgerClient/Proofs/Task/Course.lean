import LedgerClient.Proofs.Task.Alone
import LedgerClient.Proofs.Task.Conduct
import LedgerClient.Proofs.Task.Terms

/-!
# The course of a task

Seen on its own, a task that shares its state with others takes a course: it waits, is told
something, and meanwhile the others have changed the state.  `Surroundings` are one way in which
all of this may come about, and `Task.amid` is the course that a task takes amid them.  Every task
comes to one end, with a result or in a crash.
-/

namespace LedgerClient

open Time

/-- What happens around a task at its waits, by the number of the wait. -/
structure Surroundings (I : Interface) (σ : Type) where
  /-- What the task is told, if it has asked. -/
  answer : Nat → (r : I.Request) → I.Answer r
  /-- What the others do in the meantime. -/
  meanwhile : Nat → σ → σ

/-- A wait that is over. -/
inductive Interface.Wait (I : Interface) where
  | paused (span : Millis)
  | told (t : I.Told)

/-- The course of a task: its waits, its end, and the shared state there. -/
structure Course (I : Interface) (σ α : Type) where
  waits : List I.Wait
  result : Except Crash α
  state : σ

namespace Course

variable {I : Interface} {σ α : Type}

/-- The course of a task that has waited once before. -/
def after (w : I.Wait) (c : Course I σ α) : Course I σ α := { c with waits := w :: c.waits }

end Course

namespace Task

variable {I : Interface} {σ κ α β : Type}

/-- The course of a task amid its surroundings.  The waits are numbered from `n` on. -/
def amid (e : Surroundings I σ) : Task I σ α → Nat → σ → Course I σ α
  | done a, _, s => ⟨[], .ok a, s⟩
  | crash c, _, s => ⟨[], .error c, s⟩
  | read next, n, s => (next s).amid e n s
  | write s next, n, _ => (next ()).amid e n s
  | pause span _ next, n, s =>
    ((next ()).amid e (n + 1) (e.meanwhile n s)).after (.paused span)
  | ask r _ next, n, s =>
    ((next (e.answer n r)).amid e (n + 1) (e.meanwhile n s)).after (.told ⟨r, e.answer n r⟩)

/-- Where all is answered by one rule and the others do nothing, a task is on its own. -/
theorem result_amid_alone (answer : (r : I.Request) → I.Answer r) (t : Task I σ α) (n : Nat)
    (s : σ) : (t.amid ⟨fun _ => answer, fun _ => id⟩ n s).result = (t.alone answer s).1 := by
  induction t generalizing n s with
  | done a | crash c => rfl
  | read next ih => exact ih s n s
  | write s' next ih => exact ih () n s'
  | pause span dropped next ih => exact ih () (n + 1) s
  | ask r dropped next ih => exact ih (answer r) (n + 1) s

/-- What a task does before its first wait is no part of its course. -/
theorem amid_of_advance {t u : Task I σ α} {s s' : σ} (h : t.advance s = (u, s'))
    (e : Surroundings I σ) (n : Nat) : t.amid e n s = u.amid e n s' := by
  induction t generalizing s with
  | read next ih => exact ih s h
  | write s'' next ih => exact ih () h
  | done a | crash c | pause span dropped next ih | ask r dropped next ih =>
    cases h
    rfl

/-- A task whose terms forbid a crash comes to a result, if its surroundings leave alone what holds
while it waits. -/
theorem Meets.result_amid {C : Terms I σ κ} {Q : α → κ → σ → Prop} {t : Task I σ α} {k : κ} {s : σ}
    (h : t.Meets C Q k s) (hcrash : ¬ C.mayCrash) (e : Surroundings I σ)
    (hothers : ∀ r n k s, C.waiting r k s → C.waiting r k (e.meanwhile n s)) (n : Nat) :
    ∃ a, (t.amid e n s).result = .ok a := by
  induction t generalizing k s n with
  | done a => exact ⟨a, rfl⟩
  | crash c => exact absurd h.1 hcrash
  | read next ih => exact ih s h n
  | write s' next ih => exact ih () h n
  | pause span dropped next ih =>
    obtain ⟨hwaiting, hnext⟩ := h
    exact ih () (hnext k _ (hothers none n k s hwaiting)).2 (n + 1)
  | ask r dropped next ih =>
    obtain ⟨hwaiting, hnext⟩ := h
    exact ih _ ((hnext k _ (hothers (some r) n k s hwaiting)).2 _) (n + 1)

end Task
end LedgerClient
