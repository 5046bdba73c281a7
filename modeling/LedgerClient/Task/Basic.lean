import LedgerClient.Time.Span

/-!
# Tasks

A task is a computation that waits: for time to pass, or for an answer from outside.  Between two
waits it reads and writes a state that it shares with other tasks, and nobody else runs.  A task
may be dropped while it waits; each wait therefore says what dropping it does to the shared state.
A task that crashes drops what it has in the same way.
-/

namespace LedgerClient

open Time

/-- What tasks may ask of the outside, and the type of each answer. -/
structure Interface where
  Request : Type
  Answer : Request → Type

/-- A fault that nothing in a program recovers from. -/
inductive Crash where
  /-- A deadline does not fit the eight digits of a timeout header. -/
  | deadlineTooLong
  /-- A queue has more places than its counter can count. -/
  | queueTooLarge
  deriving DecidableEq, Repr

/-- The wording of a crash. -/
def Crash.message : Crash → String
  | deadlineTooLong => "duration is unrealistically large"
  | queueTooLarge => "a semaphore may not have more than MAX_PERMITS permits (2305843009213693951)"

/-- A computation over a shared state `σ`. -/
inductive Task (I : Interface) (σ α : Type) : Type where
  | done (a : α)
  | crash (c : Crash)
  | read (next : σ → Task I σ α)
  | write (s : σ) (next : Unit → Task I σ α)
  /-- Waits for a span to pass. -/
  | pause (span : Millis) (dropped : σ → σ) (next : Unit → Task I σ α)
  /-- Waits for an answer. -/
  | ask (r : I.Request) (dropped : σ → σ) (next : I.Answer r → Task I σ α)

namespace Task

variable {I : Interface} {σ α β : Type}

/-- Runs `t`, then `f` on its result. -/
def bind : Task I σ α → (α → Task I σ β) → Task I σ β
  | done a, f => f a
  | crash c, _ => crash c
  | read next, f => read fun s => (next s).bind f
  | write s next, f => write s fun u => (next u).bind f
  | pause span dropped next, f => pause span dropped fun u => (next u).bind f
  | ask r dropped next, f => ask r dropped fun a => (next a).bind f

instance : Monad (Task I σ) where
  pure := done
  bind := bind

/-- The shared state. -/
def get : Task I σ σ := read done

/-- A change of the shared state, and what it yields. -/
def transition (f : σ → α × σ) : Task I σ α :=
  read fun s => let r := f s; write r.2 fun _ => done r.1

/-- A change of the shared state. -/
def modify (f : σ → σ) : Task I σ Unit := transition fun s => ((), f s)

/-- Waits for a span to pass. -/
def sleep (span : Millis) : Task I σ Unit := pause span id fun _ => done ()

/-- Waits for an answer; nothing is to be done if the wait is dropped. -/
def request (r : I.Request) : Task I σ (I.Answer r) := ask r id done

/-- The task `t`, where dropping it, or a crash, also changes the shared state by `release`. -/
def onDrop (release : σ → σ) : Task I σ α → Task I σ α
  | done a => done a
  | crash c => read fun s => write (release s) fun _ => crash c
  | read next => read fun s => (next s).onDrop release
  | write s next => write s fun u => (next u).onDrop release
  | pause span dropped next => pause span (release ∘ dropped) fun u => (next u).onDrop release
  | ask r dropped next => ask r (release ∘ dropped) fun a => (next a).onDrop release

/-- Runs `t`, and `release` on the shared state when it has ended, crashed or been dropped. -/
def ensuring (release : σ → σ) (t : Task I σ α) : Task I σ α :=
  (t.onDrop release).bind fun a => (modify release).bind fun _ => done a

/-- Runs a task until it waits or has ended. -/
def advance : Task I σ α → σ → Task I σ α × σ
  | read next, s => (next s).advance s
  | write s next, _ => (next ()).advance s
  | t, s => (t, s)

/-- What dropping a waiting task does to the shared state. -/
def drop : Task I σ α → σ → σ
  | pause _ dropped _, s | ask _ dropped _, s => dropped s
  | _, s => s

/-! ## The laws of sequencing -/

@[simp] theorem done_bind (a : α) (f : α → Task I σ β) : (done a).bind f = f a := rfl

@[simp] theorem bind_done (t : Task I σ α) : t.bind done = t := by
  induction t with
  | done a => rfl
  | crash c => rfl
  | read next ih => simp [bind, ih]
  | write s next ih => simp [bind, ih]
  | pause span dropped next ih => simp [bind, ih]
  | ask r dropped next ih => simp [bind, ih]

theorem bind_assoc {γ : Type} (t : Task I σ α) (f : α → Task I σ β) (g : β → Task I σ γ) :
    (t.bind f).bind g = t.bind fun a => (f a).bind g := by
  induction t with
  | done a => rfl
  | crash c => rfl
  | read next ih => simp [bind, ih]
  | write s next ih => simp [bind, ih]
  | pause span dropped next ih => simp [bind, ih]
  | ask r dropped next ih => simp [bind, ih]

instance : LawfulMonad (Task I σ) :=
  LawfulMonad.mk' _ (fun t => bind_done t) (fun a f => done_bind a f)
    (fun t f g => bind_assoc t f g)

end Task
end LedgerClient
