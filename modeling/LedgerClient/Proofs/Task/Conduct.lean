import LedgerClient.Task.Retry

/-!
# How tasks conduct themselves

While a task runs nobody else does, so what others see of it is what it does to the shared state
between two waits, what it asks for, and what dropping it does.  A *conduct* says what of this is
allowed.  `Task.Obeys` says that a task keeps to a conduct, whatever it is told and whatever
happens to the shared state while it waits.  The rules below reduce this to the parts of a task.

A task may have a *mode*, which the requests it makes change.  What it is told was an answer to its
last request, or nothing if it has only begun or waited for time to pass.
-/

namespace LedgerClient

/-- An answer together with its request. -/
abbrev Interface.Told (I : Interface) : Type := (r : I.Request) × I.Answer r

/-- What is allowed to tasks with modes `μ`. -/
structure Conduct (I : Interface) (σ μ : Type) where
  /-- What holds of the shared state whenever nobody runs. -/
  holds : σ → Prop
  /-- What a task does to the shared state up to its next wait, once it was told something. -/
  moves : Option I.Told → σ → σ → Prop
  /-- What dropping a task does. -/
  drops : σ → σ → Prop
  /-- The request may be made in a mode, and leads to another. -/
  asks : μ → I.Request → μ → Prop
  /-- The answer may be given in a mode. -/
  answers : μ → (r : I.Request) → I.Answer r → Prop

namespace Task

variable {I : Interface} {σ μ α β : Type}

/-- What is claimed of the end of a task: its mode, its result, what it was told last, and the
shared state then and now. -/
abbrev Ending (I : Interface) (σ μ α : Type) : Type := μ → α → Option I.Told → σ → σ → Prop

/-- The task keeps to `C`, and its end satisfies `Q`.  It was told `told` in state `s₀`, and has
come to state `s` since.  One that crashes has moved on and then dropped what it had. -/
def Obeys (C : Conduct I σ μ) (Q : Ending I σ μ α) :
    Task I σ α → μ → Option I.Told → σ → σ → Prop
  | done a, m, told, s₀, s => Q m a told s₀ s
  | crash _, _, told, s₀, s => ∃ s', C.moves told s₀ s' ∧ C.drops s' s
  | read next, m, told, s₀, s => (next s).Obeys C Q m told s₀ s
  | write s next, m, told, s₀, _ => (next ()).Obeys C Q m told s₀ s
  | pause _ dropped next, m, told, s₀, s =>
    C.moves told s₀ s ∧ (∀ s, C.holds s → C.drops s (dropped s)) ∧
      ∀ s, C.holds s → (next ()).Obeys C Q m none s s
  | ask r dropped next, m, told, s₀, s =>
    C.moves told s₀ s ∧ (∀ s, C.holds s → C.drops s (dropped s)) ∧
      ∃ n, C.asks m r n ∧
        ∀ a, C.answers n r a → ∀ s, C.holds s → (next a).Obeys C Q n (some ⟨r, a⟩) s s

variable {C : Conduct I σ μ} {Q : Ending I σ μ α} {m : μ} {told : Option I.Told} {s₀ s : σ}

/-! ## Parts of tasks -/

@[simp] theorem obeys_done {a : α} :
    (done a : Task I σ α).Obeys C Q m told s₀ s ↔ Q m a told s₀ s := .rfl

@[simp] theorem obeys_get {Q : Ending I σ μ σ} :
    (get : Task I σ σ).Obeys C Q m told s₀ s ↔ Q m s told s₀ s := .rfl

@[simp] theorem obeys_transition {f : σ → α × σ} :
    (transition f : Task I σ α).Obeys C Q m told s₀ s ↔ Q m (f s).1 told s₀ (f s).2 := .rfl

@[simp] theorem obeys_modify {f : σ → σ} {Q : Ending I σ μ Unit} :
    (modify f : Task I σ Unit).Obeys C Q m told s₀ s ↔ Q m () told s₀ (f s) := .rfl

/-- A task obeys the same conduct with a weaker claim about its end. -/
theorem Obeys.imp {Q' : Ending I σ μ α} {t : Task I σ α} (h : t.Obeys C Q m told s₀ s)
    (hQ : ∀ m a told s₀ s, Q m a told s₀ s → Q' m a told s₀ s) : t.Obeys C Q' m told s₀ s := by
  induction t generalizing m told s₀ s with
  | done a => exact hQ _ _ _ _ _ h
  | crash c => exact h
  | read next ih => exact ih s h
  | write s' next ih => exact ih () h
  | pause span dropped next ih =>
    obtain ⟨hmoves, hdrops, hnext⟩ := h
    exact ⟨hmoves, hdrops, fun s hs => ih () (hnext s hs)⟩
  | ask r dropped next ih =>
    obtain ⟨hmoves, hdrops, n, hasks, hnext⟩ := h
    exact ⟨hmoves, hdrops, n, hasks, fun a ha s hs => ih a (hnext a ha s hs)⟩

/-- What the first task has come to at its end is where the second begins. -/
theorem Obeys.bind {t : Task I σ α} {f : α → Task I σ β} {Q' : Ending I σ μ β}
    (h : t.Obeys C Q m told s₀ s)
    (hf : ∀ m a told s₀ s, Q m a told s₀ s → (f a).Obeys C Q' m told s₀ s) :
    (t.bind f).Obeys C Q' m told s₀ s := by
  induction t generalizing m told s₀ s with
  | done a => exact hf _ _ _ _ _ h
  | crash c => exact h
  | read next ih => exact ih s h
  | write s' next ih => exact ih () h
  | pause span dropped next ih =>
    obtain ⟨hmoves, hdrops, hnext⟩ := h
    exact ⟨hmoves, hdrops, fun s hs => ih () (hnext s hs)⟩
  | ask r dropped next ih =>
    obtain ⟨hmoves, hdrops, n, hasks, hnext⟩ := h
    exact ⟨hmoves, hdrops, n, hasks, fun a ha s hs => ih a (hnext a ha s hs)⟩

/-- A release at drops changes the drops only. -/
theorem Obeys.onDrop {t : Task I σ α} {release : σ → σ} {drops : σ → σ → Prop}
    (h : t.Obeys C Q m told s₀ s) (hdrops : ∀ s s', C.drops s s' → drops s (release s')) :
    (t.onDrop release).Obeys { C with drops } Q m told s₀ s := by
  induction t generalizing m told s₀ s with
  | done a => exact h
  | crash c =>
    obtain ⟨s', hmoves, hdropped⟩ := h
    exact ⟨s', hmoves, hdrops _ _ hdropped⟩
  | read next ih => exact ih s h
  | write s' next ih => exact ih () h
  | pause span dropped next ih =>
    obtain ⟨hmoves, hdropped, hnext⟩ := h
    exact ⟨hmoves, fun s hs => hdrops _ _ (hdropped s hs), fun s hs => ih () (hnext s hs)⟩
  | ask r dropped next ih =>
    obtain ⟨hmoves, hdropped, n, hasks, hnext⟩ := h
    exact ⟨hmoves, fun s hs => hdrops _ _ (hdropped s hs), n, hasks,
      fun a ha s hs => ih a (hnext a ha s hs)⟩

/-- A task that is followed by a release obeys what it obeys without, but for its end and its
drops. -/
theorem Obeys.ensuring {t : Task I σ α} {release : σ → σ} {drops : σ → σ → Prop}
    (h : t.Obeys C (fun m a told s₀ s => Q m a told s₀ (release s)) m told s₀ s)
    (hdrops : ∀ s s', C.drops s s' → drops s (release s')) :
    (t.ensuring release).Obeys { C with drops } Q m told s₀ s :=
  (h.onDrop hdrops).bind fun _ _ _ _ _ hQ => hQ

/-! ## Retries -/

/-- A search of attempts obeys a conduct if each attempt does.  `P` holds before each attempt and
after each that failed. -/
theorem obeys_attemptUpTo {κ : Type} {P : μ → Option I.Told → σ → σ → Prop}
    {Q : Ending I σ μ (Except RetryFailure α)}
    {attempt : κ → Task I σ (Except ClientError α × κ)}
    (hattempt : ∀ m told s₀ s k, P m told s₀ s → (attempt k).Obeys C (fun m r told s₀ s =>
      match r.1 with
      | .ok a => Q m (.ok a) told s₀ s
      | .error _ => P m told s₀ s) m told s₀ s)
    (hmoves : ∀ m told s₀ s, P m told s₀ s → C.moves told s₀ s)
    (hrest : ∀ m told s₀ s, P m told s₀ s → (∀ s, C.holds s → C.drops s s) ∧
      ∀ s, C.holds s → P m none s s)
    (hfailed : ∀ m told s₀ s failure, P m told s₀ s → Q m (.error failure) told s₀ s)
    (schedule : Schedule) (made : Nat) (k : κ) (retries : Nat) (h : P m told s₀ s) :
    (RetryPolicy.attemptUpTo attempt schedule made k retries).Obeys C Q m told s₀ s := by
  induction retries generalizing schedule made k m told s₀ s with
  | zero =>
    refine (hattempt m told s₀ s k h).bind fun m r told s₀ s hr => ?_
    rcases r with ⟨_ | _, k⟩
    · exact hfailed _ _ _ _ _ hr
    · exact hr
  | succ retries ih =>
    refine (hattempt m told s₀ s k h).bind fun m r told s₀ s hr => ?_
    rcases r with ⟨e | a, k⟩
    · show (if e.retryable then _ else _ : Task I σ (Except RetryFailure α)).Obeys C Q m told s₀ s
      split
      · exact ⟨hmoves _ _ _ _ hr, (hrest _ _ _ _ hr).1,
          fun s hs => ih _ _ _ ((hrest _ _ _ _ hr).2 s hs)⟩
      · exact hfailed _ _ _ _ _ hr
    · exact hr

/-! ## Running -/

/-- A task goes on to obey while it runs. -/
theorem Obeys.advance {t : Task I σ α} (h : t.Obeys C Q m told s₀ s) :
    (t.advance s).1.Obeys C Q m told s₀ (t.advance s).2 := by
  induction t generalizing s with
  | read next ih => exact ih s h
  | write s' next ih => exact ih () h
  | done a | crash c | pause span dropped next ih | ask r dropped next ih => exact h

/-- The task waits. -/
def Waits : Task I σ α → Prop
  | pause .. | ask .. => True
  | _ => False

/-- The task has come to its end, with a result or in a crash. -/
def Ended : Task I σ α → Prop
  | done _ | crash _ => True
  | _ => False

theorem Waits.not_ended {t : Task I σ α} (h : t.Waits) : ¬ t.Ended := by
  cases t with
  | pause span dropped next | ask r dropped next => exact id
  | done a | crash c | read next | write s next => exact h.elim

theorem Ended.drop_eq {t : Task I σ α} (h : t.Ended) (s : σ) : t.drop s = s := by
  cases t with
  | done a | crash c => rfl
  | read next | write s next | pause span dropped next | ask r dropped next => exact h.elim

/-- A task that runs comes to its end, or crashes, or waits before. -/
theorem Obeys.advance_cases {t : Task I σ α} (h : t.Obeys C Q m told s₀ s) :
    (∃ a, (t.advance s).1 = done a ∧ Q m a told s₀ (t.advance s).2) ∨
      (∃ c, (t.advance s).1 = crash c ∧
        ∃ s', C.moves told s₀ s' ∧ C.drops s' (t.advance s).2) ∨
      ((t.advance s).1.Waits ∧ C.moves told s₀ (t.advance s).2) := by
  induction t generalizing s with
  | done a => exact .inl ⟨a, rfl, h⟩
  | crash c => exact .inr (.inl ⟨c, rfl, h⟩)
  | read next ih => exact ih s h
  | write s' next ih => exact ih () h
  | pause span dropped next ih => exact .inr (.inr ⟨trivial, h.1⟩)
  | ask r dropped next ih => exact .inr (.inr ⟨trivial, h.1⟩)

/-- Up to its next wait, a task does what its conduct allows. -/
theorem Obeys.moves_advance {t : Task I σ α} (h : t.Obeys C Q m told s₀ s)
    (hQ : ∀ a s, Q m a told s₀ s → C.moves told s₀ s)
    (hdrops : ∀ s s', C.moves told s₀ s → C.drops s s' → C.moves told s₀ s') :
    C.moves told s₀ (t.advance s).2 := by
  rcases h.advance_cases with ⟨a, -, ha⟩ | ⟨c, -, s', hmoves, hdropped⟩ | ⟨-, hmoves⟩
  · exact hQ a _ ha
  · exact hdrops s' _ hmoves hdropped
  · exact hmoves

/-- What dropping a task does, its conduct allows. -/
theorem Obeys.drops_drop {t : Task I σ α} {s' : σ} (h : t.Obeys C Q m told s₀ s) (hs : C.holds s')
    (hrefl : C.drops s' s') : C.drops s' (t.drop s') := by
  cases t with
  | pause span dropped next => exact h.2.1 s' hs
  | ask r dropped next => exact h.2.1 s' hs
  | done a | crash c | read next | write s next => exact hrefl

end Task
end LedgerClient
