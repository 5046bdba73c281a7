import LedgerClient.Task.Retry

/-!
# What tasks owe to others

Whoever shares a state with a task has something at stake in it: an account that has to balance, or
a part that nobody may touch.  The *terms* of a task say what holds of the shared state at each of
its waits and when it is dropped, and whether it may crash, given what the others have at stake.
Between two waits a task may do as it likes.

`Task.Meets` says that a task keeps its terms, whatever it is told and whatever happens to the
shared state while it waits, as long as the others keep them too.  The rules below reduce this to
the parts of a task.
-/

namespace LedgerClient

/-- What is owed by a task to others who have a stake `κ` in the shared state. -/
structure Terms (I : Interface) (σ κ : Type) where
  /-- What holds while a task waits for the answer to a request, or for time to pass. -/
  waiting : Option I.Request → κ → σ → Prop
  /-- What holds once a task has been dropped, or has crashed. -/
  dropped : κ → σ → Prop
  /-- A task may crash. -/
  mayCrash : Prop

namespace Task

variable {I : Interface} {σ κ α β : Type}

/-- The task keeps the terms `C` from state `s` on, and its result satisfies `Q`.  What the others
have may be another at each wait. -/
def Meets (C : Terms I σ κ) (Q : α → κ → σ → Prop) : Task I σ α → κ → σ → Prop
  | done a, k, s => Q a k s
  | crash _, k, s => C.mayCrash ∧ C.dropped k s
  | read next, k, s => (next s).Meets C Q k s
  | write s next, k, _ => (next ()).Meets C Q k s
  | pause _ dropped next, k, s =>
    C.waiting none k s ∧ ∀ k s, C.waiting none k s →
      C.dropped k (dropped s) ∧ (next ()).Meets C Q k s
  | ask r dropped next, k, s =>
    C.waiting (some r) k s ∧ ∀ k s, C.waiting (some r) k s →
      C.dropped k (dropped s) ∧ ∀ a, (next a).Meets C Q k s

variable {C : Terms I σ κ} {Q : α → κ → σ → Prop} {k : κ} {s : σ}

/-! ## Parts of tasks -/

@[simp] theorem meets_get_bind {f : σ → Task I σ α} :
    (get.bind f).Meets C Q k s ↔ (f s).Meets C Q k s := .rfl

@[simp] theorem meets_transition_bind {f : σ → α × σ} {g : α → Task I σ β} {Q : β → κ → σ → Prop} :
    ((transition f).bind g).Meets C Q k s ↔ (g (f s).1).Meets C Q k (f s).2 := .rfl

/-- What the first task has come to at its end is where the second begins. -/
theorem Meets.bind {t : Task I σ α} {f : α → Task I σ β} {Q' : β → κ → σ → Prop}
    (h : t.Meets C Q k s) (hf : ∀ a k s, Q a k s → (f a).Meets C Q' k s) :
    (t.bind f).Meets C Q' k s := by
  induction t generalizing k s with
  | done a => exact hf _ _ _ h
  | crash c => exact h
  | read next ih => exact ih s h
  | write s' next ih => exact ih () h
  | pause span dropped next ih =>
    obtain ⟨hwaiting, hnext⟩ := h
    exact ⟨hwaiting, fun k s hs => ⟨(hnext k s hs).1, ih () (hnext k s hs).2⟩⟩
  | ask r dropped next ih =>
    obtain ⟨hwaiting, hnext⟩ := h
    exact ⟨hwaiting, fun k s hs => ⟨(hnext k s hs).1, fun a => ih a ((hnext k s hs).2 a)⟩⟩

/-- A task keeps the same terms with a weaker claim about its end. -/
theorem Meets.imp {t : Task I σ α} {Q' : α → κ → σ → Prop} (h : t.Meets C Q k s)
    (hQ : ∀ a k s, Q a k s → Q' a k s) : t.Meets C Q' k s := by
  rw [← bind_done t]
  exact h.bind hQ

/-- A release at drops changes what is owed at drops. -/
theorem Meets.onDrop {t : Task I σ α} {release : σ → σ} {dropped : κ → σ → Prop}
    (h : t.Meets C Q k s) (hrelease : ∀ k s, C.dropped k s → dropped k (release s)) :
    (t.onDrop release).Meets { C with dropped } Q k s := by
  induction t generalizing k s with
  | done a => exact h
  | crash c => exact ⟨h.1, hrelease k s h.2⟩
  | read next ih => exact ih s h
  | write s' next ih => exact ih () h
  | pause span dropped next ih =>
    obtain ⟨hwaiting, hnext⟩ := h
    exact ⟨hwaiting, fun k s hs => ⟨hrelease k _ (hnext k s hs).1, ih () (hnext k s hs).2⟩⟩
  | ask r dropped next ih =>
    obtain ⟨hwaiting, hnext⟩ := h
    exact ⟨hwaiting, fun k s hs =>
      ⟨hrelease k _ (hnext k s hs).1, fun a => ih a ((hnext k s hs).2 a)⟩⟩

/-- A task that is followed by a release keeps the terms that it keeps without, but for its end and
its drops. -/
theorem Meets.ensuring {t : Task I σ α} {release : σ → σ} {dropped : κ → σ → Prop}
    (h : t.Meets C (fun a k s => Q a k (release s)) k s)
    (hrelease : ∀ k s, C.dropped k s → dropped k (release s)) :
    (t.ensuring release).Meets { C with dropped } Q k s :=
  (h.onDrop hrelease).bind fun _ _ _ hQ => hQ

/-! ## Retries -/

/-- What holds of an outcome: `P` of what was yielded, or `R` where nothing was. -/
def Yields {ε : Type} (P : α → Prop) (R : Prop) : Except ε α → Prop
  | .ok a => P a
  | .error _ => R

/-- A search of attempts keeps its terms if each attempt does.  What holds in the pauses holds
before each attempt and after each that failed. -/
theorem meets_attemptUpTo {ι : Type} {Q : Except RetryFailure α → κ → σ → Prop}
    {attempt : ι → Task I σ (Except ClientError α × ι)}
    (hattempt : ∀ i k s, C.waiting none k s → (attempt i).Meets C
      (fun r k s => Yields (fun a => Q (.ok a) k s) (C.waiting none k s) r.1) k s)
    (hdropped : ∀ k s, C.waiting none k s → C.dropped k s)
    (hfailed : ∀ failure k s, C.waiting none k s → Q (.error failure) k s)
    (schedule : Schedule) (made : Nat) (i : ι) (retries : Nat) (h : C.waiting none k s) :
    (RetryPolicy.attemptUpTo attempt schedule made i retries).Meets C Q k s := by
  induction retries generalizing schedule made i k s with
  | zero =>
    refine (hattempt i k s h).bind fun r k s hr => ?_
    rcases r with ⟨_ | _, i⟩
    · exact hfailed _ k s hr
    · exact hr
  | succ retries ih =>
    refine (hattempt i k s h).bind fun r k s hr => ?_
    rcases r with ⟨e | a, i⟩
    · show (if e.retryable then _ else _ : Task I σ (Except RetryFailure α)).Meets C Q k s
      split
      · exact ⟨hr, fun k s hs => ⟨hdropped k s hs, ih _ _ _ hs⟩⟩
      · exact hfailed _ k s hr
    · exact hr

/-- Attempts that pass nothing on. -/
theorem meets_attempting {Q : Except ClientError α → κ → σ → Prop}
    {attempt : Task I σ (Except ClientError α)} (p : RetryPolicy)
    (hattempt : ∀ k s, C.waiting none k s → attempt.Meets C
      (fun r k s => Yields (fun a => Q (.ok a) k s) (C.waiting none k s) r) k s)
    (hdropped : ∀ k s, C.waiting none k s → C.dropped k s)
    (hfailed : ∀ e k s, C.waiting none k s → Q (.error e) k s) (h : C.waiting none k s) :
    (p.attempting attempt).Meets C Q k s := by
  unfold RetryPolicy.attempting RetryPolicy.run
  refine Meets.bind
    (Q := fun r k s => Yields (fun a => Q (.ok a) k s) (C.waiting none k s) r) ?_ ?_
  · refine meets_attemptUpTo (fun _ k s hs => ?_) hdropped (fun _ _ _ hs => hs) _ _ _ _ h
    refine (hattempt k s hs).bind ?_
    rintro (e | a) k s hr <;> exact hr
  · rintro (failure | a) k s hr
    · exact hfailed _ k s hr
    · exact hr

/-! ## Running -/

/-- A task goes on to keep its terms while it runs. -/
theorem Meets.advance {t : Task I σ α} (h : t.Meets C Q k s) :
    (t.advance s).1.Meets C Q k (t.advance s).2 := by
  induction t generalizing s with
  | read next ih => exact ih s h
  | write s' next ih => exact ih () h
  | done a | crash c | pause span dropped next ih | ask r dropped next ih => exact h

end Task
end LedgerClient
