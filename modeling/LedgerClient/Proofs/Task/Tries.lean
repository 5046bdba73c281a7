import LedgerClient.Proofs.Task.Attempts
import LedgerClient.Proofs.Task.Course

/-!
# The courses of the parts of a task

The course of a task that does one thing after another is made of the courses of its parts: the
second begins at the wait and in the state at which the first has ended.  A retried task is the case
of many parts, and `amid_attempting` says which: as many attempts as it takes, each of them a course
of its own, and nothing but pauses in between.
-/

namespace LedgerClient

open Time

namespace Course

variable {I : Interface} {σ α : Type}

/-- The course of a task that has waited before. -/
def behind (ws : List I.Wait) (c : Course I σ α) : Course I σ α := { c with waits := ws ++ c.waits }

/-- The course of a task whose crash also changes the shared state by `release`. -/
def onCrash (release : σ → σ) (c : Course I σ α) : Course I σ α :=
  { c with state := match c.result with
      | .ok _ => c.state
      | .error _ => release c.state }

theorem onCrash_of_ok (release : σ → σ) {c : Course I σ α} {a : α} (h : c.result = .ok a) :
    c.onCrash release = c := by
  obtain ⟨waits, result, state⟩ := c
  cases h
  rfl

/-- What a task is told in its course, pauses left out. -/
def tolds (c : Course I σ α) : List I.Told :=
  c.waits.filterMap fun
    | .paused _ => none
    | .told t => some t

@[simp] theorem tolds_nil (r : Except Crash α) (s : σ) : (⟨[], r, s⟩ : Course I σ α).tolds = [] :=
  rfl

@[simp] theorem tolds_behind {β : Type} (c : Course I σ α) (d : Course I σ β) :
    (d.behind c.waits).tolds = c.tolds ++ d.tolds := List.filterMap_append

end Course

namespace Task

variable {I : Interface} {σ α β : Type} {e : Surroundings I σ} {n : Nat} {s : σ}

/-! ## One after the other -/

theorem amid_get_bind (f : σ → Task I σ α) (n : Nat) (s : σ) :
    (get.bind f).amid e n s = (f s).amid e n s := rfl

/-- The second task begins at the wait and in the state at which the first has ended. -/
theorem amid_bind_ok {t : Task I σ α} {a : α} (h : (t.amid e n s).result = .ok a)
    (f : α → Task I σ β) :
    (t.bind f).amid e n s =
      ((f a).amid e (n + (t.amid e n s).waits.length) (t.amid e n s).state).behind
        (t.amid e n s).waits := by
  induction t generalizing n s with
  | done b =>
    cases h
    rfl
  | crash c => cases h
  | read next ih => exact ih s h
  | write s' next ih => exact ih () h
  | pause span dropped next ih =>
    refine (congrArg (Course.after (.paused span)) (ih () h)).trans ?_
    rw [Nat.add_right_comm, Nat.add_assoc]
    rfl
  | ask r dropped next ih =>
    refine (congrArg (Course.after (.told ⟨r, e.answer n r⟩)) (ih _ h)).trans ?_
    rw [Nat.add_right_comm, Nat.add_assoc]
    rfl

theorem amid_bind_crash {t : Task I σ α} {c : Crash} (h : (t.amid e n s).result = .error c)
    (f : α → Task I σ β) :
    (t.bind f).amid e n s = ⟨(t.amid e n s).waits, .error c, (t.amid e n s).state⟩ := by
  induction t generalizing n s with
  | done a => cases h
  | crash c' =>
    cases h
    rfl
  | read next ih => exact ih s h
  | write s' next ih => exact ih () h
  | pause span dropped next ih => exact congrArg (Course.after _) (ih () h)
  | ask r dropped next ih => exact congrArg (Course.after _) (ih _ h)

/-- What is done at drops is no part of a course, unless it comes to a crash. -/
theorem amid_onDrop (release : σ → σ) (t : Task I σ α) (n : Nat) (s : σ) :
    (t.onDrop release).amid e n s = (t.amid e n s).onCrash release := by
  induction t generalizing n s with
  | done a | crash c => rfl
  | read next ih => exact ih s n s
  | write s' next ih => exact ih () n s'
  | pause span dropped next ih => exact congrArg (Course.after _) (ih () (n + 1) _)
  | ask r dropped next ih => exact congrArg (Course.after _) (ih _ (n + 1) _)

/-- A release at the end has no part in what a task is told and comes to. -/
theorem amid_ensuring (release : σ → σ) (t : Task I σ α) (n : Nat) (s : σ) :
    ((t.ensuring release).amid e n s).waits = (t.amid e n s).waits ∧
      ((t.ensuring release).amid e n s).result = (t.amid e n s).result := by
  rw [ensuring]
  cases h : (t.amid e n s).result with
  | ok a =>
    have hsame : (t.onDrop release).amid e n s = t.amid e n s :=
      (amid_onDrop release t n s).trans (Course.onCrash_of_ok release h)
    rw [amid_bind_ok (t := t.onDrop release) (by rwa [hsame]), hsame]
    exact ⟨List.append_nil _, rfl⟩
  | error c =>
    rw [amid_bind_crash (t := t.onDrop release) (by rwa [amid_onDrop]), amid_onDrop]
    exact ⟨rfl, rfl⟩

/-- What a task asks for is what its conduct allows, whatever it is told. -/
theorem Obeys.asks_amid {μ : Type} {C : Conduct I σ μ} {Q : Ending I σ μ α} {t : Task I σ α} {m : μ}
    {told : Option I.Told} {s₀ : σ} (h : t.Obeys C Q m told s₀ s) (hholds : ∀ s, C.holds s)
    (hanswers : ∀ m r a, C.answers m r a) (n : Nat) :
    ∀ a ∈ (t.amid e n s).tolds, ∃ m m', C.asks m a.1 m' := by
  induction t generalizing m told s₀ s n with
  | done a | crash c => nofun
  | read next ih => exact ih s h n
  | write s' next ih => exact ih () h n
  | pause span dropped next ih =>
    exact ih () (h.2.2 _ (hholds _)) (n + 1)
  | ask r dropped next ih =>
    obtain ⟨-, -, m', hasks, hnext⟩ := h
    intro a ha
    rcases List.mem_cons.1 ha with rfl | ha
    · exact ⟨m, m', hasks⟩
    · exact ih _ (hnext _ (hanswers _ _ _) _ (hholds _)) (n + 1) a ha

end Task

/-! ## One attempt after the other -/

/-- A task that is broken by the network is tried again. -/
def Broken {α : Type} (r : Except Crash (Except ClientError α)) : Prop :=
  ∃ reason, r = .ok (.error (.brokenNetwork reason))

theorem broken_ok_iff {α : Type} {r : Except ClientError α} : Broken (.ok r) ↔ ¬ Settles r := by
  rw [Broken]
  cases r with
  | ok a => simp [Settles]
  | error e => simp [Settles, ClientError.retryable_iff]

/-- The attempts in a course: `earlier` ones, which were all broken by the network, and the `last`.
There is a budget of attempts, and less than it suffices only if the last is not broken. -/
structure Course.Tries {I : Interface} {σ α : Type} (e : Surroundings I σ)
    (attempt : Task I σ (Except ClientError α)) (budget : Nat)
    (whole : Course I σ (Except ClientError α))
    (earlier : List (Course I σ (Except ClientError α)))
    (last : Course I σ (Except ClientError α)) : Prop where
  attempts : ∀ c ∈ earlier ++ [last], ∃ n s, c = attempt.amid e n s
  within : earlier.length + 1 ≤ budget
  broken : ∀ c ∈ earlier, Broken c.result
  settled : earlier.length + 1 = budget ∨ ¬ Broken last.result
  tolds : whole.tolds = (earlier ++ [last]).flatMap Course.tolds
  result : whole.result = last.result

namespace Course.Tries

variable {I : Interface} {σ α : Type} {e : Surroundings I σ}
  {attempt : Task I σ (Except ClientError α)} {budget : Nat}
  {whole rest last : Course I σ (Except ClientError α)}
  {earlier : List (Course I σ (Except ClientError α))}

/-- An attempt that is not followed by another. -/
theorem once {n : Nat} {s : σ} (hbudget : 0 < budget)
    (hsettled : budget = 1 ∨ ¬ Broken (attempt.amid e n s).result)
    (htolds : whole.tolds = (attempt.amid e n s).tolds)
    (hresult : whole.result = (attempt.amid e n s).result) :
    Tries e attempt budget whole [] (attempt.amid e n s) where
  attempts := by
    rintro c hc
    exact ⟨n, s, List.mem_singleton.1 hc⟩
  within := hbudget
  broken := nofun
  settled := hsettled.imp_left Eq.symm
  tolds := by simp [htolds]
  result := hresult

/-- An attempt that was broken, and those that follow. -/
theorem again {n : Nat} {s : σ} (h : Tries e attempt budget rest earlier last)
    (hbroken : Broken (attempt.amid e n s).result)
    (htolds : whole.tolds = (attempt.amid e n s).tolds ++ rest.tolds)
    (hresult : whole.result = rest.result) :
    Tries e attempt (budget + 1) whole (attempt.amid e n s :: earlier) last where
  attempts := by
    rintro c hc
    rcases List.mem_cons.1 hc with rfl | hc
    · exact ⟨n, s, rfl⟩
    · exact h.attempts c hc
  within := Nat.succ_le_succ h.within
  broken := List.forall_mem_cons.2 ⟨hbroken, h.broken⟩
  settled := h.settled.imp_left (congrArg Nat.succ)
  tolds := by simp [htolds, h.tolds]
  result := hresult.trans h.result

end Course.Tries

namespace RetryPolicy

variable {I : Interface} {σ α : Type} {e : Surroundings I σ}

/-- Attempts that pass nothing on. -/
abbrev plain (attempt : Task I σ (Except ClientError α)) (_ : Unit) :
    Task I σ (Except ClientError α × Unit) := attempt.bind fun r => .done (r, ())

/-- The result of attempts, with the last error as that of a failure. -/
def verdict : Except RetryFailure α → Except ClientError α
  | .ok a => .ok a
  | .error failure => .error failure.lastError

/-- The attempts of a search, with the last error as the result of a failure. -/
abbrev concluded (attempt : Task I σ (Except ClientError α)) (schedule : Schedule)
    (made retries : Nat) : Task I σ (Except ClientError α) :=
  (attemptUpTo (plain attempt) schedule made () retries).bind fun r => .done (verdict r)

theorem concluded_zero (attempt : Task I σ (Except ClientError α)) (schedule : Schedule)
    (made : Nat) : concluded attempt schedule made 0 = attempt := by
  rw [concluded, attemptUpTo, Task.bind_assoc, Task.bind_assoc]
  refine Eq.trans (congrArg attempt.bind ?_) attempt.bind_done
  funext r
  cases r <;> rfl

/-- What follows an attempt: nothing once the matter is settled, else a pause and the attempts after
it. -/
def followed (attempt : Task I σ (Except ClientError α)) (schedule : Schedule)
    (made retries : Nat) : Except ClientError α → Task I σ (Except ClientError α)
  | .ok a => .done (.ok a)
  | .error err =>
    if err.retryable then
      (Task.sleep schedule.delay).bind fun _ => concluded attempt schedule.next (made + 1) retries
    else .done (.error err)

theorem concluded_succ (attempt : Task I σ (Except ClientError α)) (schedule : Schedule)
    (made retries : Nat) :
    concluded attempt schedule made (retries + 1) =
      attempt.bind (followed attempt schedule made retries) := by
  rw [concluded, attemptUpTo, Task.bind_assoc, Task.bind_assoc]
  refine congrArg attempt.bind ?_
  funext r
  cases r with
  | ok a => rfl
  | error err =>
    cases herr : err.retryable with
    | true => simp [followed, herr, Task.bind_assoc]
    | false => simp [followed, herr, verdict]

theorem followed_of_settles {attempt : Task I σ (Except ClientError α)} {schedule : Schedule}
    {made retries : Nat} {r : Except ClientError α} (h : Settles r) :
    followed attempt schedule made retries r = .done r := by
  cases r with
  | ok a => rfl
  | error err =>
    have herr : err.retryable = false := h
    rw [followed, herr]
    rfl

theorem followed_of_retryable {attempt : Task I σ (Except ClientError α)} {schedule : Schedule}
    {made retries : Nat} {err : ClientError} (h : err.retryable = true) :
    followed attempt schedule made retries (.error err) =
      (Task.sleep schedule.delay).bind fun _ =>
        concluded attempt schedule.next (made + 1) retries := by
  rw [followed, if_pos h]

theorem amid_concluded (attempt : Task I σ (Except ClientError α)) (schedule : Schedule)
    (made retries n : Nat) (s : σ) :
    ∃ earlier last, Course.Tries e attempt (retries + 1)
      ((concluded attempt schedule made retries).amid e n s) earlier last := by
  induction retries generalizing schedule made n s with
  | zero =>
    rw [concluded_zero]
    exact ⟨[], _, .once Nat.zero_lt_one (.inl rfl) rfl rfl⟩
  | succ retries ih =>
    rw [concluded_succ]
    cases hresult : (attempt.amid e n s).result with
    | error c =>
      rw [Task.amid_bind_crash hresult]
      refine ⟨[], _, .once (Nat.zero_lt_succ _) (.inr ?_) rfl hresult.symm⟩
      rintro ⟨reason, h⟩
      cases hresult.symm.trans h
    | ok r =>
      rw [Task.amid_bind_ok hresult]
      by_cases hsettles : Settles r
      · have hended : ¬ Broken (attempt.amid e n s).result := by
          rw [hresult, broken_ok_iff]
          exact not_not_intro hsettles
        rw [followed_of_settles hsettles]
        refine ⟨[], _, .once (Nat.zero_lt_succ _) (.inr hended) ?_ hresult.symm⟩
        exact (Course.tolds_behind _ _).trans (List.append_nil _)
      · -- The attempts to come begin at the wait after the pause, in the state as it is by then.
        obtain ⟨err, rfl, herr⟩ := exists_of_not_settles hsettles
        have hbroken : Broken (attempt.amid e n s).result := by rwa [hresult, broken_ok_iff]
        obtain ⟨earlier, last, h⟩ := ih schedule.next (made + 1)
          (n + (attempt.amid e n s).waits.length + 1)
          (e.meanwhile (n + (attempt.amid e n s).waits.length) (attempt.amid e n s).state)
        rw [followed_of_retryable herr]
        exact ⟨_, last, h.again hbroken (Course.tolds_behind _ _) rfl⟩

/-- A retried task makes at least one attempt, and no more than its policy allows for. -/
theorem amid_attempting (p : RetryPolicy) (attempt : Task I σ (Except ClientError α)) (n : Nat)
    (s : σ) : ∃ earlier last, Course.Tries e attempt (max 1 p.maxAttempts)
      ((p.attempting attempt).amid e n s) earlier last := by
  have hbudget : max 1 p.maxAttempts = p.maxAttempts - 1 + 1 := by omega
  have hattempting : p.attempting attempt =
      concluded attempt p.backoff.start 0 (p.maxAttempts - 1) := by
    refine congrArg (Task.bind _) ?_
    funext r
    cases r <;> rfl
  rw [hbudget, hattempting]
  exact amid_concluded attempt p.backoff.start 0 (p.maxAttempts - 1) n s

end RetryPolicy
end LedgerClient
