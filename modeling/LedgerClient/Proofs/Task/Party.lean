import LedgerClient.Proofs.Task.Conduct

/-!
# Tasks side by side

A party is a number of tasks over one shared state.  One thing happens at a time: a task begins,
its time has passed, it is answered, it is dropped, or the shared state is changed from outside.  A
task that goes on runs up to its next wait.

What a task does is told to the others by its conduct only.  So a party of tasks that all obey one
conduct changes its shared state as the conduct allows, however the tasks take turns.
-/

namespace LedgerClient

/-- Tasks over one shared state. -/
structure Party (I : Interface) (σ α : Type) where
  shared : σ
  /-- The tasks in the order in which they began.  One that was dropped leaves its place empty. -/
  members : List (Option (Task I σ α)) := []

namespace Party

variable {I : Interface} {σ α : Type}

/-- What can happen to a party. -/
inductive Event (I : Interface) (σ α : Type) where
  | enter (t : Task I σ α)
  /-- The pause of a task is over. -/
  | wake (i : Nat)
  /-- A task is answered, as `reply` answers its request. -/
  | answer (i : Nat) (reply : (r : I.Request) → I.Answer r)
  /-- A task is dropped. -/
  | leave (i : Nat)
  /-- The shared state is changed by somebody else. -/
  | change (f : σ → σ)

/-- The task of a number, unless it was dropped. -/
def member? (p : Party I σ α) (i : Nat) : Option (Task I σ α) := (p.members[i]?).join

/-- The task at a place goes on as `t`. -/
def resume (p : Party I σ α) (i : Nat) (t : Task I σ α) : Party I σ α where
  shared := (t.advance p.shared).2
  members := p.members.set i (some (t.advance p.shared).1)

/-- The party after an event.  An event that does not fit what the task waits for changes
nothing. -/
def step (p : Party I σ α) : Event I σ α → Party I σ α
  | .enter t =>
    { shared := (t.advance p.shared).2, members := p.members ++ [some (t.advance p.shared).1] }
  | .wake i =>
    match p.member? i with
    | some (.pause _ _ next) => p.resume i (next ())
    | _ => p
  | .answer i reply =>
    match p.member? i with
    | some (.ask r _ next) => p.resume i (next (reply r))
    | _ => p
  | .leave i =>
    match p.member? i with
    | some t => { shared := t.drop p.shared, members := p.members.set i none }
    | none => p
  | .change f => { p with shared := f p.shared }

/-- What a task is told by an event. -/
def told? (p : Party I σ α) : Event I σ α → Option I.Told
  | .answer i reply =>
    match p.member? i with
    | some (.ask r _ _) => some ⟨r, reply r⟩
    | _ => none
  | _ => none

/-- What the task that goes on at an event does from there. -/
def next? (p : Party I σ α) : Event I σ α → Option (Task I σ α)
  | .enter t => some t
  | .wake i =>
    match p.member? i with
    | some (.pause _ _ next) => some (next ())
    | _ => none
  | .answer i reply =>
    match p.member? i with
    | some (.ask r _ next) => some (next (reply r))
    | _ => none
  | .leave _ | .change _ => none

/-- The task that goes on at an event, as it is at its next wait or its end. -/
def stop? (p : Party I σ α) (e : Event I σ α) : Option (Task I σ α) :=
  (p.next? e).map fun t => (t.advance p.shared).1

theorem member?_eq_some {p : Party I σ α} {i : Nat} {t : Task I σ α} :
    p.member? i = some t ↔ p.members[i]? = some (some t) := by
  simp [member?, Option.join_eq_some_iff]

theorem mem_of_member? {p : Party I σ α} {i : Nat} {t : Task I σ α} (h : p.member? i = some t) :
    some t ∈ p.members := List.mem_of_getElem? (member?_eq_some.1 h)

/-! ## Going on -/

section goingOn

variable {p : Party I σ α} {i j : Nat}

theorem step_wake : p.step (.wake i) = ((p.next? (.wake i)).map (p.resume i)).getD p := by
  rw [step, next?]
  split <;> rfl

theorem step_answer (reply : (r : I.Request) → I.Answer r) :
    p.step (.answer i reply) = ((p.next? (.answer i reply)).map (p.resume i)).getD p := by
  rw [step, next?]
  split <;> rfl

theorem next?_answer {r : I.Request} {dropped : σ → σ} {next : I.Answer r → Task I σ α}
    (h : p.member? i = some (.ask r dropped next)) (reply : (r : I.Request) → I.Answer r) :
    p.next? (.answer i reply) = some (next (reply r)) := by
  rw [next?, h]

theorem next?_answer_eq_none (h : ∀ r dropped next, p.member? i ≠ some (.ask r dropped next))
    (reply : (r : I.Request) → I.Answer r) : p.next? (.answer i reply) = none := by
  rw [next?]
  split
  · exact absurd ‹_› (h _ _ _)
  · rfl

theorem told?_answer {r : I.Request} {dropped : σ → σ} {next : I.Answer r → Task I σ α}
    (h : p.member? i = some (.ask r dropped next)) (reply : (r : I.Request) → I.Answer r) :
    p.told? (.answer i reply) = some ⟨r, reply r⟩ := by
  rw [told?, h]

theorem told?_answer_eq_none (h : ∀ r dropped next, p.member? i ≠ some (.ask r dropped next))
    (reply : (r : I.Request) → I.Answer r) : p.told? (.answer i reply) = none := by
  rw [told?]
  split
  · exact absurd ‹_› (h _ _ _)
  · rfl

theorem member?_set {u : Task I σ α} {o : Option (Task I σ α)} {s : σ}
    (h : member? { shared := s, members := p.members.set i o } j = some u) :
    p.member? j = some u ∨ o = some u := by
  rw [member?_eq_some, List.getElem?_set] at h
  rw [member?_eq_some]
  split at h
  · split at h
    · exact .inr (Option.some.inj h)
    · cases h
  · exact .inl h

/-- A member after an event was there before it, or is the task that goes on. -/
theorem member?_step {e : Event I σ α} {u : Task I σ α} (h : (p.step e).member? j = some u) :
    p.member? j = some u ∨ p.stop? e = some u := by
  cases e with
  | enter t =>
    rw [member?_eq_some, step, List.getElem?_append] at h
    rw [member?_eq_some]
    split at h
    · exact .inl h
    · exact .inr (List.mem_singleton.1 (List.mem_of_getElem? h)).symm
  | wake i =>
    rw [step_wake] at h
    rw [stop?]
    cases hn : p.next? (.wake i) with
    | none => exact .inl (by rwa [hn] at h)
    | some t => exact member?_set (by rwa [hn] at h)
  | answer i reply =>
    rw [step_answer] at h
    rw [stop?]
    cases hn : p.next? (.answer i reply) with
    | none => exact .inl (by rwa [hn] at h)
    | some t => exact member?_set (by rwa [hn] at h)
  | leave i =>
    rw [step] at h
    split at h
    · exact (member?_set h).imp_right nofun
    · exact .inl h
  | change f => exact .inl h

end goingOn

/-! ## Runs -/

/-- The number of the task that goes on at an event, unless the event does not fit. -/
def goes? (p : Party I σ α) : Event I σ α → Option Nat
  | .enter _ => some p.members.length
  | .wake i | .answer i _ => some i
  | .leave _ | .change _ => none

/-- The task of a number, as it is at its next wait or its end, if it goes on at an event. -/
def stopOf? (p : Party I σ α) (i : Nat) (e : Event I σ α) : Option (Task I σ α) :=
  if p.goes? e = some i then p.stop? e else none

/-- The party after some events. -/
def run (p : Party I σ α) (es : List (Event I σ α)) : Party I σ α := es.foldl step p

/-- What the tasks are told in the course of some events. -/
def tolds (p : Party I σ α) : List (Event I σ α) → List I.Told
  | [] => []
  | e :: es => (p.told? e).toList ++ (p.step e).tolds es

/-- The stops of a task in the course of some events: what it is each time that it comes to a wait
or to its end. -/
def stops (p : Party I σ α) (i : Nat) : List (Event I σ α) → List (Task I σ α)
  | [] => []
  | e :: es => (p.stopOf? i e).toList ++ (p.step e).stops i es

section runs

variable (p : Party I σ α) (es : List (Event I σ α)) (e : Event I σ α)

theorem run_concat : p.run (es ++ [e]) = (p.run es).step e := by
  simp [run]

theorem tolds_concat : p.tolds (es ++ [e]) = p.tolds es ++ ((p.run es).told? e).toList := by
  induction es generalizing p with
  | nil => simp [tolds, run]
  | cons e' es ih => simp [tolds, run, ih]

theorem stops_concat (i : Nat) :
    p.stops i (es ++ [e]) = p.stops i es ++ ((p.run es).stopOf? i e).toList := by
  induction es generalizing p with
  | nil => simp [stops, run]
  | cons e' es ih => simp [stops, run, ih]

end runs

/-! ## Parties that obey -/

/-- Every task obeys a conduct without modes. -/
def Obeys (C : Conduct I σ Unit) (p : Party I σ α) : Prop :=
  ∀ t, some t ∈ p.members → ∃ told s₀ s, t.Obeys C (fun _ _ => C.moves) () told s₀ s

variable {C : Conduct I σ Unit} {p : Party I σ α}

theorem Obeys.resume (h : p.Obeys C) (i : Nat) {t : Task I σ α} {told : Option I.Told}
    (ht : t.Obeys C (fun _ _ => C.moves) () told p.shared p.shared)
    (hcrash : ∀ told s₀ s s', C.moves told s₀ s → C.drops s s' → C.moves told s₀ s') :
    (p.resume i t).Obeys C ∧ C.moves told p.shared (p.resume i t).shared := by
  refine ⟨fun u hu => ?_, ht.moves_advance (fun _ _ hQ => hQ) (hcrash told p.shared)⟩
  rcases List.mem_or_eq_of_mem_set hu with hu | hu
  · exact h u hu
  · rw [Option.some.inj hu]
    exact ⟨told, p.shared, _, ht.advance⟩

/-- What happens in a party that obeys, unless it comes from outside, is a move or a drop.  A crash
is a move too if the conduct allows to drop what a task has after what it has done. -/
theorem Obeys.step (h : p.Obeys C) (hs : C.holds p.shared) (e : Event I σ α)
    (hmoves : C.moves none p.shared p.shared) (hdrops : C.drops p.shared p.shared)
    (hcrash : ∀ told s₀ s s', C.moves told s₀ s → C.drops s s' → C.moves told s₀ s')
    (henter : ∀ t, e = .enter t →
      t.Obeys C (fun _ _ => C.moves) () none p.shared p.shared)
    (hanswers : ∀ m r a, C.answers m r a) :
    (p.step e).Obeys C ∧
      (C.moves (p.told? e) p.shared (p.step e).shared ∨
        (p.told? e = none ∧ C.drops p.shared (p.step e).shared) ∨ ∃ f, e = .change f) := by
  cases e with
  | enter t =>
    have ht := henter t rfl
    refine ⟨fun u hu => ?_, .inl (ht.moves_advance (fun _ _ hQ => hQ) (hcrash _ _))⟩
    rcases List.mem_append.1 hu with hu | hu
    · exact h u hu
    · rw [Option.some.inj (List.mem_singleton.1 hu)]
      exact ⟨none, p.shared, _, ht.advance⟩
  | wake i =>
    simp only [Party.step, told?]
    split
    · rename_i next hi
      obtain ⟨told, s₀, s, ht⟩ := h _ (mem_of_member? hi)
      have := h.resume i (ht.2.2 p.shared hs) hcrash
      exact ⟨this.1, .inl this.2⟩
    · exact ⟨h, .inl hmoves⟩
  | answer i reply =>
    simp only [Party.step, told?]
    split
    · rename_i r dropped next hi
      obtain ⟨told, s₀, s, ht⟩ := h _ (mem_of_member? hi)
      obtain ⟨-, -, n, -, hnext⟩ := ht
      have := h.resume i (hnext (reply r) (hanswers n r _) p.shared hs) hcrash
      exact ⟨this.1, .inl this.2⟩
    · exact ⟨h, .inl hmoves⟩
  | leave i =>
    simp only [Party.step]
    split
    · rename_i t hi
      obtain ⟨told, s₀, s, ht⟩ := h _ (mem_of_member? hi)
      refine ⟨fun u hu => ?_, .inr (.inl ⟨rfl, ht.drops_drop hs hdrops⟩)⟩
      rcases List.mem_or_eq_of_mem_set hu with hu | hu
      · exact h u hu
      · cases hu
    · exact ⟨h, .inl hmoves⟩
  | change f => exact ⟨h, .inr (.inr ⟨f, rfl⟩)⟩

end Party
end LedgerClient
