import LedgerClient.Proofs.Subscription.Working

/-!
# Closing

A feed goes through its states in one direction, and is closed for one reason.  The reason is that
the worker has found the feed cancelled, if it has, and else the first frame of the stream that
ends a feed.  `Flow.Follows` is what never changes back; every move keeps it.

A worker has a lease for as long as it has not ended: `LeasesHeld` counts those that are out, and a
feed that is draining or closed is not among those that have one.
-/

namespace LedgerClient

open Ledger Rpc

/-- The place of a state among those that a feed goes through. -/
def FeedState.rank : FeedState → Nat
  | opening => 0
  | streaming => 1
  | draining => 2
  | closed _ => 3

namespace Feed

variable {f : Feed} {reason : CloseReason}

theorem state_eq_closed : f.state = .closed reason ↔ f.reason? = some reason ∧ f.queue = [] := by
  unfold state reason?
  cases f.phase <;> simp
  cases f.queue <;> simp

theorem state_eq_draining : f.state = .draining ↔ f.reason?.isSome ∧ f.queue ≠ [] := by
  unfold state reason?
  cases f.phase <;> simp

theorem reason?_isNone_iff : f.reason?.isNone ↔ f.state = .opening ∨ f.state = .streaming := by
  unfold state reason?
  cases f.phase <;> simp
  split <;> simp

theorem take_fst_eq {g : Feed} (hphase : g.phase = f.phase) (hqueue : g.queue = f.queue) :
    g.take.1 = f.take.1 := by
  rw [take_eq, take_eq, hqueue, reason?, hphase, reason?]

theorem rank_state_le_one (hopen : f.reason? = none) : f.state.rank ≤ 1 := by
  rcases reason?_isNone_iff.1 (Option.isNone_iff_eq_none.2 hopen) with h | h <;>
    simp [h, FeedState.rank]

theorem state_eq_of_open {g : Feed} (hopen : f.reason? = none) (hphase : g.phase = f.phase) :
    g.state = f.state := by
  unfold reason? at hopen
  unfold state
  rw [hphase]
  cases h : f.phase with
  | opening | pulling | pushing item => rfl
  | closed reason => simp [h] at hopen

theorem one_le_rank_state (hphase : f.phase ≠ .opening) : 1 ≤ f.state.rank := by
  unfold state
  cases h : f.phase with
  | opening => exact absurd h hphase
  | pulling | pushing item => exact Nat.le_refl _
  | closed reason =>
    dsimp only
    split <;> simp [FeedState.rank]

theorem rank_state_of_reason (h : f.reason? = some reason) :
    f.state.rank = if f.queue = [] then 3 else 2 := by
  by_cases hqueue : f.queue = []
  · rw [if_pos hqueue, state_eq_closed.2 ⟨h, hqueue⟩]
    rfl
  · rw [if_neg hqueue, state_eq_draining.2 ⟨Option.isSome_of_eq_some h, hqueue⟩]
    rfl

end Feed

namespace Flow

variable {frames : Nat → Frame} {F G H : Flow} {ready : Bool} {n : Nat} {reason : CloseReason}

/-! ## One direction -/

/-- What never changes back. -/
structure Follows (F G : Flow) : Prop where
  rank_le : F.feed.state.rank ≤ G.feed.state.rank
  reason_eq : ∀ reason, F.feed.reason? = some reason → G.feed.reason? = some reason
  /-- Who has been told the end is told it again and receives nothing more. -/
  ended : F.feed.take.1 = .ended → G.feed.take.1 = .ended ∧ G.taken = F.taken

theorem Follows.refl (F : Flow) : F.Follows F where
  rank_le := Nat.le_refl _
  reason_eq _ h := h
  ended h := ⟨h, rfl⟩

theorem Follows.trans (h : F.Follows G) (h' : G.Follows H) : F.Follows H where
  rank_le := Nat.le_trans h.rank_le h'.rank_le
  reason_eq r hr := h'.reason_eq r (h.reason_eq r hr)
  ended hend :=
    have hG := h.ended hend
    have hH := h'.ended hG.1
    ⟨hH.1, hH.2.trans hG.2⟩

/-- As long as the worker has not ended, nothing is fixed but that it has begun. -/
theorem follows_of_open (hopen : F.feed.reason? = none) (hphase : G.feed.phase ≠ .opening) :
    F.Follows G where
  rank_le := Nat.le_trans (Feed.rank_state_le_one hopen) (Feed.one_le_rank_state hphase)
  reason_eq r hr := by
    rw [hopen] at hr
    cases hr
  ended hend := by
    have hsome := (Feed.take_eq_ended.1 hend).1
    rw [hopen] at hsome
    cases hsome

/-- Whether a feed is cancelled shows in neither its state nor its queue. -/
theorem follows_of_same (hphase : G.feed.phase = F.feed.phase)
    (hqueue : G.feed.queue = F.feed.queue) (htaken : G.taken = F.taken) : F.Follows G where
  rank_le := by
    have hsame : G.feed.state = F.feed.state := by
      unfold Feed.state
      rw [hphase, hqueue]
    exact Nat.le_of_eq (congrArg _ hsame.symm)
  reason_eq r hr := by
    rwa [Feed.reason?, hphase]
  ended hend := ⟨(Feed.take_fst_eq hphase hqueue).trans hend, htaken⟩

theorem Works.follows (hw : F.Works frames ready G) : F.Follows G := by
  cases hw with
  | waits => exact .refl F
  | begins hphase | pulls hphase | ends hphase | breaks hphase | pushes hphase =>
    exact follows_of_open (by simp [Feed.reason?, hphase]) (by simp)
  | stops hlooks => exact follows_of_open (Feed.reason?_of_isLooking hlooks) (by simp)

theorem follows_take (frames : Nat → Frame) (F : Flow) : F.Follows (F.step frames .take) := by
  obtain ⟨taken, queue, hstep, -, hlength⟩ := exists_step_take frames F
  refine {
    rank_le := ?_
    reason_eq := fun reason hreason => by rwa [hstep]
    ended := fun hend => by rw [step_take_of_ended hend]; exact ⟨hend, rfl⟩ }
  rw [hstep]
  cases hreason : F.feed.reason? with
  | none =>
    have hsame : Feed.state { F.feed with queue } = F.feed.state :=
      Feed.state_eq_of_open hreason rfl
    exact Nat.le_of_eq (congrArg _ hsame.symm)
  | some reason =>
    have hthen : Feed.reason? { F.feed with queue } = some reason := hreason
    rw [Feed.rank_state_of_reason hreason, Feed.rank_state_of_reason hthen]
    by_cases hqueue : F.feed.queue = []
    · rw [hqueue, List.length_nil, Nat.le_zero, List.length_eq_zero_iff] at hlength
      exact Nat.le_of_eq (by rw [if_pos hqueue, if_pos hlength])
    · rw [if_neg hqueue]
      split <;> omega

theorem follows_step (frames : Nat → Frame) (F : Flow) (m : Move) :
    F.Follows (F.step frames m) := by
  cases m with
  | work ready => exact (works_step frames F ready).follows
  | take => exact follows_take frames F
  | cancel | cancelScope | drop => exact follows_of_same rfl rfl rfl

theorem follows_run (frames : Nat → Frame) (F : Flow) (moves : List Move) :
    F.Follows (F.run frames moves) := by
  induction moves generalizing F with
  | nil => exact .refl F
  | cons m moves ih => exact (follows_step frames F m).trans (ih _)

/-! ## One reason -/

/-- A feed whose worker has not found it cancelled is closed by the frame that ends its stream. -/
theorem Sound.reason_iff (h : F.Sound frames) (hne : reason ≠ .cancelled) :
    F.feed.reason? = some reason ↔
      F.noticed = false ∧ ∃ n, F.pulled = n + 1 ∧ F.EndsAt frames n reason := by
  constructor
  · intro hreason
    obtain ⟨hends, hpulled, hnoticed⟩ := h.endsAt hreason hne
    exact ⟨hnoticed, _, hpulled, hends⟩
  · rintro ⟨hnoticed, n, hpulled, hends⟩
    -- a worker that has not ended has not pulled the frame that ends its stream
    obtain ⟨r, hr⟩ : ∃ r, F.feed.reason? = some r := by
      refine Option.ne_none_iff_exists'.1 fun hopen => ?_
      have := h.pulled_le hends hopen
      omega
    have hr_ne : r ≠ .cancelled := by
      rintro rfl
      rw [h.cancelled_iff.1 hr] at hnoticed
      cases hnoticed
    obtain ⟨hends', hpulled', -⟩ := h.endsAt hr hr_ne
    obtain rfl : n = F.passed.length := by omega
    have hsame := hends'.reading_eq.symm.trans hends.reading_eq
    cases hsame
    exact hr

end Flow

/-! ## Leases -/

namespace Traffic

/-- The feeds whose workers have not ended. -/
def working (w : Traffic) : Nat := w.session.feeds.countP fun feed => feed.reason?.isNone

/-- Each lease that is out is somebody's or a worker's. -/
def LeasesHeld (w : Traffic) : Prop := w.session.pool.leased = w.otherLeases + w.working

variable {s : Session} {frames : Nat → Nat → Frame} {events : List Event} {w : Traffic}
  {id : Nat} {F : Flow}

theorem LeasesHeld.step (h : w.LeasesHeld) (e : Event) : (w.step frames e).LeasesHeld := by
  have hout : w.session.LeasesOut w.otherLeases := h
  cases e with
  | lend endpoint channel => exact hout.lend rfl rfl
  | usePool f | cancelScope scope => exact h
  | giveBack =>
    by_cases hnone : w.otherLeases = 0
    · rwa [Traffic.step, if_pos hnone]
    · obtain ⟨others, hothers⟩ := Nat.exists_eq_succ_of_ne_zero hnone
      rw [hothers] at hout
      rw [Traffic.step, if_neg hnone, hothers]
      exact hout.release
  | start c topic scope stream =>
    rw [step_start]
    by_cases hmay : w.outline.MayStart c
    · obtain ⟨others, hothers⟩ := Nat.exists_eq_succ_of_ne_zero hmay.1
      replace hothers : w.otherLeases = others + 1 := hothers
      rw [hothers] at hout
      rw [if_pos hmay, hothers]
      exact hout.start rfl
    · rwa [if_neg hmay]
  | work i ready =>
    cases hi : w.flow? i with
    | none => rwa [Traffic.step, hi]
    | some G =>
      simp only [Traffic.step, hi]
      exact hout.stepFeed i _
  | take i =>
    cases hi : w.flow? i with
    | none => rwa [Traffic.step, hi]
    | some G =>
      simp only [Traffic.step, hi]
      split
      · exact h
      · exact hout.takeItem i
  | cancel i | drop i => exact hout.alterFeed i fun _ => rfl

theorem leasesHeld_after (s : Session) (frames : Nat → Nat → Frame) (events : List Event) :
    (after s frames events).LeasesHeld := by
  induction events using List.reverseRecOn with
  | nil => rfl
  | append_singleton events e ih =>
    rw [after_concat]
    exact ih.step e

/-! ## The feeds of a session -/

/-- The states of a feed come in their order, its reason is fixed once, and who is told its end
receives nothing more.  State and reason agree.  The reason is that the worker has found the feed
cancelled, if it has, and else the first frame of the stream that is no item.  The end is told when
the worker has ended and the queue is empty, and only then.  The leases that are out are those of
others and one for each feed that is opening or streaming. -/
theorem closes_once (hF : (after s frames events).flow? id = some F) :
    (∀ events', ∃ G, (after s frames (events ++ events')).flow? id = some G ∧
      F.feed.state.rank ≤ G.feed.state.rank ∧
      (∀ reason, F.feed.reason? = some reason → G.feed.reason? = some reason) ∧
      (((after s frames events).session.takeItem id).1 = .ended →
        ((after s frames (events ++ events')).session.takeItem id).1 = .ended ∧
        G.taken = F.taken ∧ ∃ reason, G.feed.state = .closed reason)) ∧
    (∀ reason, F.feed.state = .closed reason ↔
      F.feed.reason? = some reason ∧ F.feed.queue = []) ∧
    (F.feed.state = .draining ↔ F.feed.reason?.isSome ∧ F.feed.queue ≠ []) ∧
    (F.feed.reason? = some .cancelled ↔ F.noticed = true) ∧
    (∀ reason, reason ≠ .cancelled → (F.feed.reason? = some reason ↔
      F.noticed = false ∧ ∃ n, F.pulled = n + 1 ∧ F.EndsAt (frames id) n reason)) ∧
    (((after s frames events).session.takeItem id).1 = .ended ↔
      F.feed.reason?.isSome ∧ F.feed.queue = []) ∧
    (after s frames events).session.pool.leased = (after s frames events).otherLeases +
      (after s frames events).session.feeds.countP
        fun feed => feed.state = .opening ∨ feed.state = .streaming := by
  have h := sound hF
  refine ⟨?_, fun _ => Feed.state_eq_closed, Feed.state_eq_draining, h.cancelled_iff,
    fun _ => h.reason_iff, ?_, ?_⟩
  · intro events'
    have hG := flow?_append hF events'
    have hfollows := F.follows_run (frames id) (events'.flatMap (Event.moves id F.feed.scope))
    refine ⟨_, hG, hfollows.rank_le, hfollows.reason_eq, ?_⟩
    rw [takeItem_fst hF, takeItem_fst hG]
    intro hend
    obtain ⟨hended, htaken⟩ := hfollows.ended hend
    obtain ⟨hsome, hqueue⟩ := Feed.take_eq_ended.1 hended
    obtain ⟨reason, hreason⟩ := Option.isSome_iff_exists.1 hsome
    exact ⟨hended, htaken, reason, Feed.state_eq_closed.2 ⟨hreason, hqueue⟩⟩
  · rw [takeItem_fst hF, Feed.take_eq_ended]
  · have hheld := leasesHeld_after s frames events
    rw [LeasesHeld, working] at hheld
    rw [hheld]
    congr 1
    refine List.countP_congr fun feed _ => ?_
    rw [decide_eq_true_iff]
    exact Feed.reason?_isNone_iff

/-- A feed is started, its worker pushes the first item, and finds that there is no other. -/
def onePushedThenEnded : List Event :=
  [.lend 0 0, .start 0 (.live .evmLog) [] 0, .work 0 true, .work 0 true, .work 0 true,
    .work 0 true]

/-- The feed is draining with its lease given back, because its stream has ended; it still is so
for that reason when the reader has taken the item. -/
theorem closes_once_oneFrame :
    ∃ F, (after bare (fun _ => oneFrame) onePushedThenEnded).flow? 0 = some F ∧
      F.feed.state = .draining ∧
      (after bare (fun _ => oneFrame) onePushedThenEnded).session.pool.leased = 0 ∧
      (∃ n, F.pulled = n + 1 ∧ F.EndsAt oneFrame n .completed) ∧
      ∃ G, (after bare (fun _ => oneFrame) (onePushedThenEnded ++ [.take 0])).flow? 0 = some G ∧
        F.feed.state.rank ≤ G.feed.state.rank ∧ G.feed.reason? = some .completed := by
  let F : Flow :=
    { pulled := 2, scopeCancelled := false
      feed := { topic := .live .evmLog, stream := 0, scope := [], capacity := 128,
                queue := [.raw [7]], phase := .closed .completed } }
  have hF : (after bare (fun _ => oneFrame) onePushedThenEnded).flow? 0 = some F := by
    decide +kernel
  obtain ⟨hlater, -, hdraining, -, hreason, -, hleased⟩ := closes_once hF
  obtain ⟨G, hG, hrank, hfixed, -⟩ := hlater [.take 0]
  refine ⟨F, hF, hdraining.2 ⟨rfl, nofun⟩, hleased.trans (by decide +kernel),
    ((hreason .completed nofun).1 rfl).2, G, hG, hrank, hfixed _ rfl⟩

end Traffic
end LedgerClient
