import LedgerClient.Proofs.Pool.Ownership

/-!
# Acquisitions as data

What an acquisition does when it goes on is a function inside its task, which no case analysis can
look into.  Here the same acquisition is data: it has ended, or it pauses before an attempt of its
search, or it waits for a dial; and a search is its rotation, its cursor and what is left of its
budget.

`Acquisition.task` gives the task back, and `Acquisitions.party_after` says that acquisitions as
data take the very turns of the tasks, over any uses of the pool.  So what is claimed of tasks that
take turns can be shown by cases on the data.
-/

namespace LedgerClient

open Rpc Time Transport

/-! ## A search -/

/-- A search before its next attempt. -/
structure Search where
  rotation : List Nat
  /-- The place in the rotation from which the next endpoint to dial is taken. -/
  cursor : Nat := 0
  schedule : Schedule
  /-- The attempts made so far. -/
  made : Nat := 0
  /-- The attempts that may follow the next one. -/
  retries : Nat
  deriving DecidableEq, Repr

/-- Where the result of an attempt leaves an acquisition. -/
inductive Rest where
  | ended (r : Except ClientError Lease)
  /-- It pauses before the next attempt of its search. -/
  | pausing (delay : Millis) (q : Search)

/-- Where an acquisition stops. -/
inductive Acquisition where
  | resting (x : Rest)
  /-- It waits for the dial of an attempt.  The cursor is behind the endpoint that is dialed. -/
  | dialing (endpoint : Nat) (limit : Millis) (q : Search)

/-- The search for a pool that has drawn its rotation. -/
def Search.start (p : Pool) (rotation : List Nat) : Search where
  rotation
  schedule := p.policy.backoff.start
  retries := p.policy.maxAttempts - 1

/-- Where a search is left once its attempt has come to a result. -/
def Search.outcome (q : Search) : Except ClientError Lease → Rest
  | .ok l => .ended (.ok l)
  | .error e =>
    match q.retries with
    | 0 => .ended (.error (Pool.searchError ⟨q.made + 1, e.retryable, e⟩))
    | retries + 1 =>
      if e.retryable then
        .pausing q.schedule.delay
          { q with schedule := q.schedule.next, made := q.made + 1, retries }
      else .ended (.error (Pool.searchError ⟨q.made + 1, false, e⟩))

/-- Begins the next attempt. -/
def Search.attempt (q : Search) (p : Pool) : Acquisition × Pool :=
  match p.beginAttempt q.rotation q.cursor with
  | ((.ended r, cursor), p) => (.resting ({ q with cursor }.outcome r), p)
  | ((.dial i, cursor), p) => (.dialing i p.dialTimeout { q with cursor }, p)

/-- Ends the attempt that waits for a dial. -/
def Search.answer (q : Search) (i : Nat) (reply : DialReply) (p : Pool) : Acquisition × Pool :=
  (.resting (q.outcome (p.endAttempt i reply).1), (p.endAttempt i reply).2)

/-- Begins an acquisition. -/
def Acquisition.start (p : Pool) : Acquisition × Pool :=
  match p.start with
  | (.ended r, p) => (.resting (.ended r), p)
  | (.search rotation, p) => (Search.start p rotation).attempt p

theorem Search.attempt_snd (q : Search) (p : Pool) :
    (q.attempt p).2 = (p.beginAttempt q.rotation q.cursor).2 := by
  rw [attempt]
  rcases p.beginAttempt q.rotation q.cursor with ⟨⟨_ | _, _⟩, _⟩ <;> rfl

/-- What beginning does not change is as it was where an acquisition stops that begins. -/
theorem Acquisition.start_view {β : Type} (f : Pool → β) (hstart : ∀ p : Pool, f p.start.2 = f p)
    (hbegin : ∀ (p : Pool) rotation cursor, f (p.beginAttempt rotation cursor).2 = f p)
    (p : Pool) : f (start p).2 = f p := by
  refine Eq.trans ?_ (hstart p)
  rw [start]
  rcases p.start with ⟨_ | rotation, p⟩
  · rfl
  · exact (congrArg f (Search.attempt_snd _ p)).trans (hbegin p rotation 0)

/-! ## The tasks -/

/-- The task that makes the attempts of a search. -/
def Search.task (q : Search) : Program (Except ClientError Lease) :=
  (RetryPolicy.attemptUpTo (LedgerClient.attempt q.rotation) q.schedule q.made q.cursor
    q.retries).bind fun
      | .ok l => .done (.ok l)
      | .error failure => .done (.error (Pool.searchError failure))

/-- The task of an acquisition that rests. -/
def Rest.task : Rest → Program (Except ClientError Lease)
  | ended r => .done r
  | pausing delay q => .pause delay id fun _ => q.task

/-- The task of an acquisition. -/
def Acquisition.task : Acquisition → Program (Except ClientError Lease)
  | resting x => x.task
  | dialing i limit q => .ask (.dial i limit) id fun reply =>
      (Task.transition (Session.onPool (Pool.endAttempt i reply))).bind fun r => (q.outcome r).task

theorem Rest.advance_task (x : Rest) (s : Session) : x.task.advance s = (x.task, s) := by
  cases x <;> rfl

/-- A task that changes the pool and goes on. -/
theorem advance_onPool_bind {α β : Type} (f : Pool → α × Pool) (g : α → Program β) (s : Session) :
    ((Task.transition (Session.onPool f)).bind g).advance s =
      (g (f s.pool).1).advance { s with pool := (f s.pool).2 } := rfl

/-- A search makes an attempt, and stops where its result says. -/
theorem Search.task_eq (q : Search) :
    q.task = (LedgerClient.attempt q.rotation q.cursor).bind fun r =>
      (({ q with cursor := r.2 } : Search).outcome r.1).task := by
  rw [task]
  rcases q with ⟨rotation, cursor, schedule, made, _ | retries⟩
  · rw [RetryPolicy.attemptUpTo, Task.bind_assoc]
    congr 1
    funext ⟨r, cursor⟩
    cases r <;> rfl
  · rw [RetryPolicy.attemptUpTo, Task.bind_assoc]
    congr 1
    funext ⟨r, cursor⟩
    cases r with
    | ok l => rfl
    | error e =>
      simp only [outcome]
      split <;> rfl

/-- A search that goes on makes its next attempt. -/
theorem Search.advance_task (q : Search) (s : Session) :
    q.task.advance s = ((q.attempt s.pool).1.task, { s with pool := (q.attempt s.pool).2 }) := by
  rw [task_eq, LedgerClient.attempt, Task.bind_assoc, advance_onPool_bind, attempt]
  rcases s.pool.beginAttempt q.rotation q.cursor with ⟨⟨r | i, cursor⟩, p⟩
  · exact Rest.advance_task _ _
  · rfl

theorem advance_acquire (s : Session) :
    acquire.advance s =
      ((Acquisition.start s.pool).1.task, { s with pool := (Acquisition.start s.pool).2 }) := by
  rw [acquire, advance_onPool_bind, Acquisition.start]
  rcases s.pool.start with ⟨r | rotation, p⟩
  · rfl
  · exact (Search.start p rotation).advance_task { s with pool := p }

/-- What an acquisition does once its dial is answered. -/
theorem Search.advance_answer (q : Search) (i : Nat) (reply : DialReply) (s : Session) :
    ((Task.transition (Session.onPool (Pool.endAttempt i reply))).bind fun r =>
        (q.outcome r).task).advance s =
      ((q.answer i reply s.pool).1.task, { s with pool := (q.answer i reply s.pool).2 }) :=
  (advance_onPool_bind _ _ _).trans (Rest.advance_task _ _)

/-! ## Acquisitions that take turns -/

/-- What a use does to the pool that is done by no acquisition. -/
def Pool.Use.outside : Pool.Use → Pool → Pool
  | release => Pool.release
  | invalidate endpoint => Pool.invalidate endpoint
  | turn channel state => fun p => p.alter channel ({ · with state })
  | close => Pool.close
  | acquire | wake _ | answer _ _ | abandon _ => id

/-- Acquisitions over one pool. -/
structure Acquisitions where
  pool : Pool
  /-- The acquisitions in the order in which they began.  One that was dropped leaves its place
  empty. -/
  members : List (Option Acquisition) := []

namespace Acquisitions

/-- The acquisition of a number, unless it was dropped. -/
def member? (a : Acquisitions) (i : Nat) : Option Acquisition := (a.members[i]?).join

/-- The acquisition at a place has gone on. -/
def resume (i : Nat) (a : Acquisitions) (r : Acquisition × Pool) : Acquisitions where
  pool := r.2
  members := a.members.set i (some r.1)

/-- What comes of the acquisition that goes on at a use, and of the pool. -/
def stop? (a : Acquisitions) : Pool.Use → Option (Acquisition × Pool)
  | .acquire => some (Acquisition.start a.pool)
  | .wake i =>
    match a.member? i with
    | some (.resting (.pausing _ q)) => some (q.attempt a.pool)
    | _ => none
  | .answer i reply =>
    match a.member? i with
    | some (.dialing e limit q) => some (q.answer e (reply (.dial e limit)) a.pool)
    | _ => none
  | _ => none

/-- The acquisitions after a use of the pool. -/
def step (a : Acquisitions) (u : Pool.Use) : Acquisitions :=
  match u with
  | .acquire =>
    { pool := (Acquisition.start a.pool).2
      members := a.members ++ [some (Acquisition.start a.pool).1] }
  | .wake i | .answer i _ => ((a.stop? u).map (a.resume i)).getD a
  | .abandon i =>
    match a.member? i with
    | some _ => { a with members := a.members.set i none }
    | none => a
  | .release | .invalidate _ | .turn _ _ | .close => { a with pool := u.outside a.pool }

/-- The pool after a use is the one that the acquisition leaves which goes on, if one does. -/
theorem pool_step (a : Acquisitions) (u : Pool.Use) :
    (a.step u).pool = ((a.stop? u).map Prod.snd).getD (u.outside a.pool) := by
  cases u with
  | acquire | release | invalidate | turn | close => rfl
  | wake i | answer i reply =>
    rw [step]
    cases a.stop? _ <;> rfl
  | abandon i =>
    rw [step]
    split <;> rfl

/-- What neither beginning nor ending an attempt changes is as it was where an acquisition stops. -/
theorem view_of_stop? {β : Type} (f : Pool → β) (hstart : ∀ p : Pool, f p.start.2 = f p)
    (hbegin : ∀ (p : Pool) rotation cursor, f (p.beginAttempt rotation cursor).2 = f p)
    (hend : ∀ (p : Pool) i reply, f (p.endAttempt i reply).2 = f p) {a : Acquisitions}
    {u : Pool.Use} {x : Acquisition} {p : Pool} (h : a.stop? u = some (x, p)) :
    f p = f a.pool := by
  cases u with
  | acquire =>
    have := Acquisition.start_view f hstart hbegin a.pool
    rwa [Option.some.inj h] at this
  | wake i =>
    rw [stop?] at h
    split at h
    · rename_i q _
      have := hbegin a.pool q.rotation q.cursor
      rwa [← q.attempt_snd, Option.some.inj h] at this
    · cases h
  | answer i reply =>
    rw [stop?] at h
    split at h
    · cases h
      exact hend _ _ _
    · cases h
  | abandon | release | invalidate | turn | close => cases h

/-- The acquisitions over a pool after some uses of it. -/
def after (p : Pool) (uses : List Pool.Use) : Acquisitions := uses.foldl step { pool := p }

theorem after_concat (p : Pool) (uses : List Pool.Use) (u : Pool.Use) :
    after p (uses ++ [u]) = (after p uses).step u := by
  simp [after]

/-- The acquisitions after some more uses. -/
def run (a : Acquisitions) (uses : List Pool.Use) : Acquisitions := uses.foldl step a

theorem run_concat (a : Acquisitions) (uses : List Pool.Use) (u : Pool.Use) :
    a.run (uses ++ [u]) = (a.run uses).step u := by
  simp [run]

theorem run_after (p : Pool) (uses later : List Pool.Use) :
    (after p uses).run later = after p (uses ++ later) := by
  simp [run, after]

/-! ## The tasks take the same turns -/

/-- The tasks of the acquisitions, over a session. -/
def party (s : Session) (a : Acquisitions) : Pool.Acquirers where
  shared := { s with pool := a.pool }
  members := a.members.map (·.map Acquisition.task)

variable (s : Session) (a : Acquisitions)

theorem member?_party (i : Nat) : (a.party s).member? i = (a.member? i).map Acquisition.task := by
  rw [Party.member?, party, List.getElem?_map, member?]
  rcases a.members[i]? with _ | _ | _ <;> rfl

/-- The task that goes on comes to where the acquisition that goes on comes to. -/
theorem advance_next?_party (u : Pool.Use) :
    ((a.party s).next? u.event).map (·.advance (a.party s).shared) =
      (a.stop? u).map fun r => (r.1.task, { s with pool := r.2 }) := by
  cases u with
  | acquire => exact congrArg some (advance_acquire _)
  | wake i =>
    rw [Pool.Use.event, Party.next?, member?_party, stop?]
    rcases a.member? i with _ | (_ | ⟨_, q⟩) | _
    · rfl
    · rfl
    · exact congrArg some (q.advance_task _)
    · rfl
  | answer i reply =>
    -- `reply` answers what the network is asked, which are the requests of tasks only once
    -- `Network` is unfolded.  Rewriting does not see through this, so the steps are terms.
    have hm := member?_party s a i
    have hnone (h : ∀ r dropped next, (a.party s).member? i ≠ some (.ask r dropped next)) :
        ((a.party s).next? (Pool.Use.answer i reply).event).map (·.advance (a.party s).shared) =
          none :=
      congrArg (Option.map _) (Party.next?_answer_eq_none h reply)
    rw [stop?]
    rcases hi : a.member? i with _ | (_ | _) | ⟨e, limit, q⟩ <;> rw [hi] at hm
    · exact hnone (by simp [hm])
    · exact hnone (by simp [hm, Acquisition.task, Rest.task])
    · exact hnone (by simp [hm, Acquisition.task, Rest.task])
    · have hnext : (a.party s).next? (Pool.Use.answer i reply).event = some _ :=
        Party.next?_answer hm reply
      rw [hnext]
      exact congrArg some (q.advance_answer e _ (a.party s).shared)
  | abandon | release | invalidate | turn | close => rfl

theorem stop?_party (u : Pool.Use) :
    (a.party s).stop? u.event = (a.stop? u).map fun r => r.1.task := by
  have h := congrArg (Option.map Prod.fst) (advance_next?_party s a u)
  rwa [Option.map_map, Option.map_map] at h

/-- A task that goes on at its place does so as the acquisition does. -/
theorem resume_party (u : Pool.Use) (i : Nat) :
    (((a.party s).next? u.event).map ((a.party s).resume i)).getD (a.party s) =
      (((a.stop? u).map (a.resume i)).getD a).party s := by
  have h := advance_next?_party s a u
  cases hn : (a.party s).next? u.event <;> cases hr : a.stop? u <;> rw [hn, hr] at h
  case none.none => rfl
  case none.some => cases h
  case some.none => cases h
  case some.some t r =>
    have h : t.advance (a.party s).shared = (r.1.task, { s with pool := r.2 }) :=
      Option.some.inj h
    rw [Option.map_some, Option.getD_some, Party.resume, h]
    simp [party, resume, List.map_set]

theorem step_party (u : Pool.Use) : (a.party s).step u.event = (a.step u).party s := by
  cases u with
  | acquire =>
    rw [Pool.Use.event, Party.step, advance_acquire]
    simp [party, step]
  | wake i => exact Party.step_wake.trans (resume_party s a (.wake i) i)
  | answer i reply =>
    exact (Party.step_answer (p := a.party s) reply).trans (resume_party s a (.answer i reply) i)
  | abandon i =>
    rw [Pool.Use.event, Party.step, member?_party, step]
    rcases a.member? i with _ | (_ | _) | _
    · rfl
    · simp [party, Acquisition.task, Rest.task, Task.drop, List.map_set]
    · simp [party, Acquisition.task, Rest.task, Task.drop, List.map_set]
    · simp [party, Acquisition.task, Task.drop, List.map_set]
  | release | invalidate | turn | close => rfl

theorem run_party (uses : List Pool.Use) :
    (a.party s).run (uses.map Pool.Use.event) = (a.run uses).party s := by
  induction uses using List.reverseRecOn with
  | nil => rfl
  | append_singleton uses u ih =>
    rw [List.map_append, List.map_singleton, Party.run_concat, ih, step_party, run_concat]

/-- The acquisitions of a session, after any uses of its pool, are those of the pool. -/
theorem party_after (uses : List Pool.Use) :
    Pool.after s uses = (after s.pool uses).party s := by
  induction uses using List.reverseRecOn with
  | nil => rfl
  | append_singleton uses u ih => rw [Pool.after_concat, after_concat, ih, step_party]

end Acquisitions
end LedgerClient
