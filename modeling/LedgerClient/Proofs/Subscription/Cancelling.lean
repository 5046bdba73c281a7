import LedgerClient.Proofs.Subscription.Closing

/-!
# Cancelling

A feed is stopped when it is cancelled, when its reader goes, or when a scope around it is
cancelled; and for no other cause.  Its worker then pulls no frame and pushes no item any more, and
ends at one of its next two steps.  What is in the queue stays there for the reader.

Feeds do not disturb each other.  `Alike` relates two sessions that differ in nothing but one feed;
events at that feed change nothing else, and other events change both sessions alike.
-/

namespace LedgerClient

open Ledger Rpc

namespace Flow

variable {frames : Nat → Frame} {F G H : Flow} {ready : Bool}

/-! ## A feed that is stopped -/

/-- What becomes of a stopped flow. -/
structure Halts (F G : Flow) : Prop where
  stopped : G.stopped = true
  pulled_eq : G.pulled = F.pulled
  passed_eq : G.passed = F.passed
  reason : G.feed.reason? = F.feed.reason? ∨
    F.feed.reason? = none ∧ G.feed.reason? = some .cancelled

theorem Halts.refl (hc : F.stopped = true) : F.Halts F where
  stopped := hc
  pulled_eq := rfl
  passed_eq := rfl
  reason := .inl rfl

theorem Halts.trans (h : F.Halts G) (h' : G.Halts H) : F.Halts H where
  stopped := h'.stopped
  pulled_eq := h'.pulled_eq.trans h.pulled_eq
  passed_eq := h'.passed_eq.trans h.passed_eq
  reason := by
    rcases h'.reason with hsame' | ⟨hopen', hcancelled'⟩
    · rw [hsame']
      exact h.reason
    · rcases h.reason with hsame | ⟨-, hcancelled⟩
      · exact .inr ⟨hsame ▸ hopen', hcancelled'⟩
      · rw [hcancelled] at hopen'
        cases hopen'

theorem Works.halts (hw : F.Works frames ready G) (hc : F.stopped = true) : F.Halts G := by
  cases hw with
  | waits => exact .refl hc
  | begins hphase =>
    exact {
      stopped := hc
      pulled_eq := rfl
      passed_eq := rfl
      reason := .inl (by simp [Feed.reason?, hphase]) }
  | stops hlooks =>
    exact {
      stopped := hc
      pulled_eq := rfl
      passed_eq := rfl
      reason := .inr ⟨Feed.reason?_of_isLooking hlooks, rfl⟩ }
  | pulls _ hopen | ends _ hopen | breaks _ hopen | pushes _ hopen =>
    rw [hc] at hopen
    cases hopen

theorem halts_step (frames : Nat → Frame) (hc : F.stopped = true) (m : Move) :
    F.Halts (F.step frames m) := by
  cases m with
  | work ready => exact (works_step frames F ready).halts hc
  | take =>
    obtain ⟨taken, queue, hstep, hpassed, -⟩ := exists_step_take frames F
    rw [hstep]
    exact {
      stopped := hc
      pulled_eq := rfl
      passed_eq := hpassed
      reason := .inl rfl }
  | cancel | drop =>
    exact {
      stopped := rfl
      pulled_eq := rfl
      passed_eq := rfl
      reason := .inl rfl }
  | cancelScope =>
    exact {
      stopped := by simp [step, stopped]
      pulled_eq := rfl
      passed_eq := rfl
      reason := .inl rfl }

theorem halts_run (frames : Nat → Frame) (hc : F.stopped = true) (moves : List Move) :
    F.Halts (F.run frames moves) := by
  induction moves generalizing F with
  | nil => exact .refl hc
  | cons m moves ih =>
    have hstep := halts_step frames hc m
    exact hstep.trans (ih hstep.stopped)

/-! ### The worker ends -/

/-- The number of steps in which the worker of a stopped feed ends. -/
def lastSteps (F : Flow) : Nat :=
  match F.feed.phase with
  | .opening => 2
  | .pulling | .pushing _ => 1
  | .closed _ => 0

theorem lastSteps_le (F : Flow) : F.lastSteps ≤ 2 := by
  unfold lastSteps
  split <;> omega

theorem lastSteps_eq_zero : F.lastSteps = 0 ↔ F.feed.reason?.isSome := by
  unfold lastSteps Feed.reason?
  cases F.feed.phase <;> simp

theorem Works.lastSteps (hw : F.Works frames ready G) (hc : F.stopped = true) :
    G.lastSteps = F.lastSteps - 1 := by
  cases hw with
  | waits hwaits hlooks =>
    rw [hc] at hlooks
    unfold Flow.lastSteps
    cases hphase : F.feed.phase with
    | opening => simp [Waits, hphase] at hwaits
    | pulling | pushing item => simp [Feed.isLooking, hphase] at hlooks
    | closed reason => rfl
  | begins hphase => simp [Flow.lastSteps, hphase]
  | stops hlooks =>
    unfold Feed.isLooking at hlooks
    unfold Flow.lastSteps
    split at hlooks <;> simp_all
  | pulls _ hopen | ends _ hopen | breaks _ hopen | pushes _ hopen =>
    rw [hc] at hopen
    cases hopen

/-- The moves that are steps of the worker. -/
def Move.isWork : Move → Bool
  | .work _ => true
  | _ => false

theorem lastSteps_run (frames : Nat → Frame) (hc : F.stopped = true) (moves : List Move) :
    (F.run frames moves).lastSteps = F.lastSteps - moves.countP Move.isWork := by
  induction moves generalizing F with
  | nil => rfl
  | cons m moves ih =>
    rw [run_cons, ih (halts_step frames hc m).stopped]
    cases m with
    | work ready =>
      rw [(works_step frames F ready).lastSteps hc, List.countP_cons_of_pos rfl]
      omega
    | take =>
      obtain ⟨taken, queue, hstep, -⟩ := exists_step_take frames F
      rw [hstep, List.countP_cons_of_neg Bool.false_ne_true]
      rfl
    | cancel | cancelScope | drop =>
      rw [List.countP_cons_of_neg Bool.false_ne_true]
      rfl

/-- After two more steps of its worker a feed that was stopped in time is closed as cancelled. -/
theorem reason_of_works (hc : F.stopped = true) (hopen : F.feed.reason? = none)
    {moves : List Move} (hworks : 2 ≤ moves.countP Move.isWork) :
    (F.run frames moves).feed.reason? = some .cancelled := by
  have hended : (F.run frames moves).feed.reason?.isSome := by
    have := F.lastSteps_le
    rw [← lastSteps_eq_zero, lastSteps_run frames hc]
    omega
  rcases (halts_run frames hc moves).reason with hsame | ⟨-, hcancelled⟩
  · rw [hsame, hopen] at hended
    cases hended
  · exact hcancelled

/-! ### The queue stays -/

theorem abandoned_run (frames : Nat → Frame) (ha : F.feed.abandoned = true) (moves : List Move) :
    (F.run frames moves).feed.abandoned = true := by
  induction moves generalizing F with
  | nil => exact ha
  | cons m moves ih =>
    refine ih ?_
    cases m with
    | work ready =>
      obtain ⟨-, -, habandoned, -⟩ := (works_step frames F ready).leaves
      rwa [habandoned]
    | take =>
      obtain ⟨taken, queue, hstep, -⟩ := exists_step_take frames F
      rw [hstep]
      exact ha
    | cancel | cancelScope => exact ha
    | drop => rfl

/-- A reader who looks takes the front of the queue. -/
theorem step_take_taken (frames : Nat → Frame) (ha : F.feed.abandoned = false) :
    (F.step frames .take).taken = F.taken ++ F.feed.queue.take 1 ∧
      (F.step frames .take).feed.queue = F.feed.queue.tail := by
  rw [step, if_neg (by simp [ha]), Feed.take_eq]
  cases F.feed.queue with
  | nil => cases F.feed.reason? <;> simp [Reading.item?]
  | cons item queue => simp [Reading.item?]

/-- Each look of the reader of a stopped feed finds the next item of its queue. -/
theorem taken_run (hc : F.stopped = true) {moves : List Move}
    (ha : (F.run frames moves).feed.abandoned = false) :
    (F.run frames moves).taken = F.taken ++ F.feed.queue.take (moves.count .take) := by
  induction moves generalizing F with
  | nil => simp
  | cons m moves ih =>
    have hstep := halts_step frames hc m
    rw [run_cons, ih hstep.stopped ha]
    by_cases hm : m = .take
    · subst hm
      have hreads : F.feed.abandoned = false := by
        by_contra hgone
        rw [Bool.not_eq_false] at hgone
        rw [abandoned_run frames hgone (.take :: moves)] at ha
        cases ha
      obtain ⟨htaken, hqueue⟩ := step_take_taken frames hreads
      rw [htaken, hqueue, List.count_cons_self, List.append_assoc]
      cases F.feed.queue <;> simp
    · -- nobody else takes, and no item passes, so the queue is as it was
      have htaken : (F.step frames m).taken = F.taken := by
        cases m <;> first | rfl | exact absurd rfl hm
      have hqueue : (F.step frames m).feed.queue = F.feed.queue := by
        have hpassed := hstep.passed_eq
        rw [passed, passed, htaken] at hpassed
        exact List.append_cancel_left hpassed
      rw [htaken, hqueue, List.count_cons_of_ne hm]

/-! ### Who cancels -/

/-- The moves that cancel the feed itself. -/
def Move.IsCancel (m : Move) : Prop := m = .cancel ∨ m = .drop

theorem cancelled_step (frames : Nat → Frame) (F : Flow) (m : Move) :
    (F.step frames m).feed.cancelled = true ↔ F.feed.cancelled = true ∨ m.IsCancel := by
  cases m with
  | work ready =>
    obtain ⟨-, hcancelled, -, -⟩ := (works_step frames F ready).leaves
    rw [hcancelled]
    simp [Move.IsCancel]
  | take =>
    obtain ⟨taken, queue, hstep, -⟩ := exists_step_take frames F
    rw [hstep]
    simp [Move.IsCancel]
  | cancel | cancelScope | drop => simp [step, Move.IsCancel]

theorem cancelled_run (frames : Nat → Frame) (F : Flow) (moves : List Move) :
    (F.run frames moves).feed.cancelled = true ↔
      F.feed.cancelled = true ∨ ∃ m ∈ moves, m.IsCancel := by
  induction moves generalizing F with
  | nil => simp
  | cons m moves ih =>
    rw [run_cons, ih, cancelled_step, or_assoc]
    simp only [List.mem_cons, exists_eq_or_imp]

end Flow

/-! ## The feeds of a session -/

namespace Traffic

variable {s : Session} {frames frames' : Nat → Nat → Frame} {events : List Event} {w u v : Traffic}
  {id j : Nat} {F : Flow} {scope : Scope}

/-- The worker of a feed takes a step. -/
def Event.works (id : Nat) : Event → Bool
  | .work i _ => i = id
  | _ => false

/-- The reader of a feed looks for an item. -/
def Event.reads (id : Nat) : Event → Bool
  | .take i => i = id
  | _ => false

/-- The event is at a feed. -/
def Event.concerns (id : Nat) : Event → Bool
  | .work i _ | .take i | .cancel i | .drop i => i = id
  | _ => false

/-- An event is counted as the one move that it is to a feed. -/
theorem countP_flatMap_moves {p : Flow.Move → Bool} {q : Event → Bool}
    (h : ∀ e : Event, (e.moves id scope).countP p = if q e then 1 else 0) (events : List Event) :
    (events.flatMap (Event.moves id scope)).countP p = events.countP q := by
  induction events with
  | nil => rfl
  | cons e events ih =>
    rw [List.flatMap_cons, List.countP_append, h, ih, List.countP_cons, Nat.add_comm]

theorem countP_works (id : Nat) (scope : Scope) (events : List Event) :
    (events.flatMap (Event.moves id scope)).countP Flow.Move.isWork =
      events.countP (Event.works id) := by
  refine countP_flatMap_moves (fun e => ?_) events
  cases e <;> simp [Event.moves, Event.works, Flow.Move.isWork, apply_ite (List.countP _)]

theorem count_reads (id : Nat) (scope : Scope) (events : List Event) :
    (events.flatMap (Event.moves id scope)).count .take = events.countP (Event.reads id) := by
  refine countP_flatMap_moves (fun e => ?_) events
  cases e <;> simp [Event.moves, Event.reads, apply_ite (List.countP _)]

theorem exists_isCancel_moves {e : Event} :
    (∃ m ∈ e.moves id scope, m.IsCancel) ↔ e = .cancel id ∨ e = .drop id := by
  cases e <;> simp [Event.moves, Flow.Move.IsCancel]

/-! ### Why a feed is stopped -/

/-- A feed is cancelled by those who cancel it, or whose going cancels it. -/
theorem cancelled_iff (hF : (after s frames events).flow? id = some F) :
    F.feed.cancelled = true ↔ ∃ before since, events = before ++ since ∧
      ((after s frames before).flow? id).isSome ∧
      ∃ e ∈ since, e = .cancel id ∨ e = .drop id := by
  have hmoves : ∀ since : List Event, (∃ m ∈ since.flatMap (Event.moves id F.feed.scope),
      m.IsCancel) ↔ ∃ e ∈ since, e = .cancel id ∨ e = .drop id := by
    intro since
    constructor
    · rintro ⟨m, hm, hcancel⟩
      obtain ⟨e, he, hme⟩ := List.mem_flatMap.1 hm
      exact ⟨e, he, exists_isCancel_moves.1 ⟨m, hme, hcancel⟩⟩
    · rintro ⟨e, he, hcancel⟩
      obtain ⟨m, hme, hm⟩ := exists_isCancel_moves.2 hcancel
      exact ⟨m, List.mem_flatMap.2 ⟨e, he, hme⟩, hm⟩
  constructor
  · intro hcancelled
    obtain ⟨before, since, c, hevents, hid, hmay, hrun⟩ := exists_start hF
    rw [hrun, Flow.cancelled_run, hmoves] at hcancelled
    refine ⟨before ++ [.start c F.feed.topic F.feed.scope F.feed.stream], since, ?_, ?_, ?_⟩
    · rw [hevents, List.append_assoc, List.singleton_append]
    · rw [after_concat, flow?_start hmay, if_pos hid]
      rfl
    · exact hcancelled.resolve_left nofun
  · rintro ⟨before, since, rfl, hsome, hcancels⟩
    obtain ⟨G, hG⟩ := Option.isSome_iff_exists.1 hsome
    have hrun := (flow?_append hG since).symm.trans hF
    rw [Option.some_inj] at hrun
    have hscope := (G.sameFeed_run (frames id) (since.flatMap (Event.moves id G.feed.scope))).2.2.1
    rw [hrun] at hscope
    rw [← hrun, Flow.cancelled_run, ← hscope]
    exact .inr ((hmoves since).2 hcancels)

/-- A feed is under a scope that is cancelled, now or before the feed was started. -/
theorem scopeCancelled_iff (hF : (after s frames events).flow? id = some F) :
    F.scopeCancelled = true ↔
      ∃ outer : Scope, .cancelScope outer ∈ events ∧ outer <+: F.feed.scope := by
  rw [(flow?_eq_some.1 hF).2.2, Outline.scopeCancelled, List.any_eq_true]
  exact exists_congr fun outer =>
    and_congr mem_cancelledScopes_after List.isPrefixOf_iff_prefix

/-! ### Two sessions that differ in one feed -/

/-- Two sessions differ in nothing but a feed. -/
structure Alike (j : Nat) (w u : Traffic) : Prop where
  outline_eq : u.outline = w.outline
  flow?_eq : ∀ i, i ≠ j → u.flow? i = w.flow? i

theorem Alike.symm (h : Alike j w u) : Alike j u w where
  outline_eq := h.outline_eq.symm
  flow?_eq i hi := (h.flow?_eq i hi).symm

theorem Alike.trans (h : Alike j w u) (h' : Alike j u v) : Alike j w v where
  outline_eq := h'.outline_eq.trans h.outline_eq
  flow?_eq i hi := (h'.flow?_eq i hi).trans (h.flow?_eq i hi)

/-- An event changes two such sessions alike. -/
theorem Alike.step (h : Alike j w u) (hframes : ∀ i, i ≠ j → frames' i = frames i) (e : Event) :
    Alike j (w.step frames e) (u.step frames' e) where
  outline_eq := by rw [outline_step, outline_step, h.outline_eq]
  flow?_eq i hi := by rw [flow?_step, flow?_step, h.flow?_eq i hi, h.outline_eq, hframes i hi]

/-- An event at a feed changes nothing else. -/
theorem alike_step (frames : Nat → Nat → Frame) (w : Traffic) {e : Event}
    (he : e.concerns j = true) : Alike j w (w.step frames e) where
  outline_eq := by
    rw [outline_step]
    cases e <;> first | rfl | cases he
  flow?_eq i hi := by
    rw [flow?_step]
    have hmoves : ∀ scope, e.moves i scope = [] := by
      intro scope
      cases e <;> simp_all [Event.concerns, Event.moves] <;> exact Ne.symm hi
    have hstarted : w.outline.started? i e = none := by
      cases e <;> first | rfl | cases he
    rw [hstarted]
    cases hflow : w.flow? i with
    | none => rfl
    | some F =>
      dsimp only
      rw [hmoves, Flow.run_nil]

/-- What has happened at a feed may be left out, as far as the others are concerned. -/
theorem alike_after_filter (s : Session) (hframes : ∀ i, i ≠ j → frames' i = frames i)
    (events : List Event) :
    Alike j (after s frames events)
      (after s frames' (events.filter fun e => !e.concerns j)) := by
  induction events using List.reverseRecOn with
  | nil => exact ⟨rfl, fun _ _ => rfl⟩
  | append_singleton events e ih =>
    rw [after_concat, List.filter_append]
    by_cases he : e.concerns j = true
    · rw [List.filter_cons_of_neg (by simp [he]), List.filter_nil, List.append_nil]
      exact (alike_step frames _ he).symm.trans ih
    · rw [List.filter_cons_of_pos (by simpa using he), List.filter_nil, after_concat]
      exact ih.step hframes e

/-! ### Stopping a feed -/

/-- A feed is stopped by who cancels it, by its reader who goes, and by who cancels a scope that it
was started under, and by nothing else.  For a feed that is stopped, whatever happens then, no
frame is pulled and no item is put into the queue any more; each look of the reader finds the next
of the items that are there; and unless it has ended before, its worker ends at one of its next two
steps, as cancelled.  All that becomes of the feed is the same whatever is done at another feed,
and whatever frames that one gets. -/
theorem cancelling_final_and_local (hF : (after s frames events).flow? id = some F) :
    (∃ c, Starts s frames events c id F.feed) ∧
    (F.stopped = true ↔
      (∃ before since, events = before ++ since ∧ ((after s frames before).flow? id).isSome ∧
        ∃ e ∈ since, e = .cancel id ∨ e = .drop id) ∨
      ∃ outer : Scope, .cancelScope outer ∈ events ∧ outer <+: F.feed.scope) ∧
    (F.stopped = true → ∀ events', ∃ G, (after s frames (events ++ events')).flow? id = some G ∧
      G.stopped = true ∧ G.pulled = F.pulled ∧
      G.taken ++ G.feed.queue = F.taken ++ F.feed.queue ∧
      (G.feed.abandoned = false →
        G.taken = F.taken ++ F.feed.queue.take (events'.countP (Event.reads id))) ∧
      (∀ reason, F.feed.reason? = some reason → G.feed.reason? = some reason) ∧
      (F.feed.reason? = none →
        (G.feed.reason? = none ∨ G.feed.reason? = some .cancelled) ∧
        (2 ≤ events'.countP (Event.works id) → G.feed.reason? = some .cancelled))) ∧
    ∀ j frames' events', id ≠ j → (∀ i, i ≠ j → frames' i = frames i) →
      (events'.filter fun e => !e.concerns j) = (events.filter fun e => !e.concerns j) →
      (after s frames' events').flow? id = some F := by
  refine ⟨?_, ?_, ?_, ?_⟩
  · obtain ⟨c, hstarts, -⟩ := exists_starts hF
    exact ⟨c, hstarts⟩
  · rw [Flow.stopped, Bool.or_eq_true]
    exact or_congr (cancelled_iff hF) (scopeCancelled_iff hF)
  · intro hc events'
    have hG := flow?_append hF events'
    have hhalts := Flow.halts_run (frames id) hc (events'.flatMap (Event.moves id F.feed.scope))
    refine ⟨_, hG, hhalts.stopped, hhalts.pulled_eq, hhalts.passed_eq, ?_, ?_, ?_⟩
    · intro ha
      rw [← count_reads id F.feed.scope]
      exact Flow.taken_run hc ha
    · exact (F.follows_run _ _).reason_eq
    · intro hopen
      refine ⟨?_, ?_⟩
      · rcases hhalts.reason with hsame | ⟨-, hcancelled⟩
        · exact .inl (hsame.trans hopen)
        · exact .inr hcancelled
      · intro hworks
        rw [← countP_works id F.feed.scope] at hworks
        exact Flow.reason_of_works hc hopen hworks
  · intro j frames' events' hj hframes hsame
    have hwith := alike_after_filter s hframes events
    have hwithout : Alike j (after s frames' events') _ :=
      alike_after_filter s (fun _ _ => rfl) events'
    rw [hsame] at hwithout
    exact ((hwith.trans hwithout.symm).flow?_eq id hj).trans hF

/-- Two feeds are started under two scopes.  The worker of the first pushes an item, and a scope
around it is cancelled. -/
def twoScopes : List Event :=
  [.lend 0 0, .lend 0 0, .start 0 (.live .evmLog) ["a", "x"] 0, .start 0 (.live .evmLog) ["b"] 1,
    .work 0 true, .work 0 true, .work 0 true, .cancelScope ["a"]]

/-- The second feed fails at once. -/
def secondFails (i : Nat) : Nat → Frame :=
  if i = 1 then fun _ => .failed ⟨.unavailable, "gone"⟩ else oneFrame

/-- The first feed is stopped; its item is still received, and it is closed as cancelled.  It would
be as it is if the second had failed and been cancelled. -/
theorem cancelling_final_and_local_twoScopes :
    ∃ F, (after bare (fun _ => oneFrame) twoScopes).flow? 0 = some F ∧ F.stopped = true ∧
      (∃ G, (after bare (fun _ => oneFrame)
          (twoScopes ++ [.work 0 true, .take 0, .work 0 true])).flow? 0 = some G ∧
        G.pulled = 1 ∧ G.taken ++ G.feed.queue = [.raw [7]] ∧
        G.feed.reason? = some .cancelled) ∧
      (after bare secondFails (twoScopes ++ [.work 1 true, .work 1 true, .cancel 1])).flow? 0 =
        some F := by
  let F : Flow :=
    { pulled := 1, scopeCancelled := true
      feed := { topic := .live .evmLog, stream := 0, scope := ["a", "x"], capacity := 128,
                queue := [.raw [7]], phase := .pulling } }
  have hF : (after bare (fun _ => oneFrame) twoScopes).flow? 0 = some F := by decide +kernel
  obtain ⟨-, hstopped, hfinal, hlocal⟩ := cancelling_final_and_local hF
  have hc : F.stopped = true := hstopped.2 (.inr ⟨["a"], by simp [twoScopes], ["x"], rfl⟩)
  obtain ⟨G, hG, -, hpulled, hpassed, -, -, hreason⟩ :=
    hfinal hc [.work 0 true, .take 0, .work 0 true]
  refine ⟨F, hF, hc, ⟨G, hG, hpulled, hpassed, (hreason rfl).2 (Nat.le_refl 2)⟩, ?_⟩
  refine hlocal 1 secondFails _ Nat.zero_ne_one (fun i hi => if_neg hi) ?_
  rfl

end Traffic
end LedgerClient
