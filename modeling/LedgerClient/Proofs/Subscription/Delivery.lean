import LedgerClient.Proofs.Subscription.Traffic

/-!
# Delivery

What the reader of a feed receives are the readings of the first frames of its stream, in their
order.  Until the worker ends, each frame that it has pulled is accounted for: its item has been
taken, or is in the queue, or is the one that the worker waits to push.  So nothing is lost or
doubled on the way, whatever the room in the queue and whoever is scheduled when.

A reader who is told the end, and whose feed nobody has cancelled, has received all that there was
before the frame that ended the stream (`Flow.Sound.endsAt_of_ended`).  That it comes to be told
the end is shown by `rest`, which each round of a step of the worker and a look of the reader makes
smaller.
-/

namespace LedgerClient

open Ledger Rpc

namespace Flow

variable {frames : Nat → Frame} {F G : Flow} {ready : Bool} {n : Nat} {reason : CloseReason}

/-! ## Nothing is lost -/

/-- Until the worker ends, the frames that it has pulled are accounted for. -/
theorem Sound.pulled_eq (h : F.Sound frames) (hopen : F.feed.reason? = none) :
    (List.range F.pulled).map (F.reading frames) =
      (F.passed ++ F.feed.hand.toList).map .ok := by
  have hplaced := h.placed
  unfold Placed at hplaced
  cases hphase : F.feed.phase with
  | opening | pulling =>
    rw [hphase] at hplaced
    have hhand : F.feed.hand = none := by simp [Feed.hand, hphase]
    rw [hplaced.1, h.passed_eq, hhand, Option.toList_none, List.append_nil]
  | pushing item =>
    rw [hphase] at hplaced
    have hhand : F.feed.hand = some item := by simp [Feed.hand, hphase]
    rw [hplaced.1, List.range_succ, List.map_append, h.passed_eq, hhand, List.map_append,
      List.map_singleton, hplaced.2.1]
    rfl
  | closed r => simp [Feed.reason?, hphase] at hopen

theorem Sound.taken_eq (h : F.Sound frames) :
    (List.range F.taken.length).map (F.reading frames) = F.taken.map .ok := by
  have htake := congrArg (List.take F.taken.length) h.passed_eq
  rw [← List.map_take, ← List.map_take, List.take_range, passed, List.length_append,
    Nat.min_eq_left (Nat.le_add_right _ _), List.take_left] at htake
  exact htake

theorem Sound.reason_ne_cancelled (h : F.Sound frames) (hc : F.stopped = false) :
    F.feed.reason? ≠ some .cancelled := by
  intro hreason
  rw [h.stopped_of_noticed (h.cancelled_iff.1 hreason)] at hc
  cases hc

/-- A reader who is told the end has received all there was, if nobody has cancelled the feed. -/
theorem Sound.endsAt_of_ended (h : F.Sound frames) (hc : F.stopped = false)
    (hend : F.feed.take.1 = .ended) : ∃ reason, F.EndsAt frames F.taken.length reason := by
  obtain ⟨hsome, hqueue⟩ := Feed.take_eq_ended.1 hend
  obtain ⟨reason, hreason⟩ := Option.isSome_iff_exists.1 hsome
  have hne : reason ≠ .cancelled := by
    rintro rfl
    exact h.reason_ne_cancelled hc hreason
  have hends := (h.endsAt hreason hne).1
  rw [passed, hqueue, List.append_nil] at hends
  exact ⟨reason, hends⟩

theorem EndsAt.unique {m : Nat} {reason' : CloseReason} (hm : F.EndsAt frames m reason')
    (hn : F.EndsAt frames n reason) : m = n := by
  rcases Nat.lt_trichotomy m n with hlt | heq | hlt
  · obtain ⟨item, hitem⟩ := hn.reads m hlt
    rw [hm.reading_eq] at hitem
    cases hitem
  · exact heq
  · obtain ⟨item, hitem⟩ := hm.reads n hlt
    rw [hn.reading_eq] at hitem
    cases hitem

/-- All moves leave the end of the stream where it is. -/
theorem EndsAt.run (h : F.EndsAt frames n reason) (moves : List Move) :
    (F.run frames moves).EndsAt frames n reason := by
  have htopic := (F.sameFeed_run frames moves).1
  exact {
    reads := by
      unfold reading
      rw [htopic]
      exact h.reads
    ends := by
      rw [htopic]
      exact h.ends }

/-! ## The end is reached -/

end Flow

/-- What a worker in a phase still has to do with the frame that it is at. -/
def Phase.due : Phase → Nat
  | .opening | .pushing _ => 3
  | .pulling => 2
  | .closed _ => 0

namespace Flow

variable {frames : Nat → Frame} {F G : Flow} {ready : Bool} {n : Nat} {reason : CloseReason}

/-- A step of the worker, and a look of the reader. -/
def round : List Move := [.work true, .take]

/-- What is left to do until the reader of a stream that frame `n` ends is told so. -/
def rest (n : Nat) (F : Flow) : Nat :=
  4 * (n + 1 - F.pulled) + F.feed.phase.due + F.feed.queue.length

/-- A worker comes nearer to the end, or leaves it to the reader to do so. -/
theorem Works.rest (hw : F.Works frames true G) (h : F.Sound frames) (hc : F.stopped = false)
    (hn : F.EndsAt frames n reason) :
    G.rest n < F.rest n ∨
      G.rest n = F.rest n ∧ (G.feed.queue ≠ [] ∨ G.feed.take.1 = .ended) := by
  cases hw with
  | waits hwaits =>
    refine .inr ⟨rfl, ?_⟩
    cases hphase : F.feed.phase with
    | opening | pulling => simp [Waits, hphase] at hwaits
    | pushing item =>
      simp only [Waits, hphase] at hwaits
      have hroom := h.capacity_pos
      exact .inl (List.ne_nil_of_length_pos (Nat.lt_of_lt_of_le hroom hwaits))
    | closed r =>
      by_cases hqueue : F.feed.queue = []
      · exact .inr (Feed.take_eq_ended.2 ⟨by simp [Feed.reason?, hphase], hqueue⟩)
      · exact .inl hqueue
  | begins hphase =>
    left
    simp [Flow.rest, hphase, Phase.due]
  | stops hlooks hstop =>
    rw [hc] at hstop
    cases hstop
  | pulls hphase | ends hphase =>
    left
    have hle := h.pulled_le hn (by simp [Feed.reason?, hphase])
    simp only [Flow.rest, hphase, Phase.due]
    omega
  | breaks hphase hstop ha =>
    rw [h.abandoned_eq_false hstop] at ha
    cases ha
  | @pushes item hphase hstop hroom =>
    refine .inr ⟨?_, .inl (by simp)⟩
    simp only [Flow.rest, hphase, Phase.due, List.length_append, List.length_singleton]
    omega

theorem rest_take (frames : Nat → Frame) (n : Nat) (ha : F.feed.abandoned = false) :
    (F.step frames .take).rest n = F.rest n - if F.feed.queue = [] then 0 else 1 := by
  rw [step, if_neg (by simp [ha]), Feed.take_eq]
  cases hqueue : F.feed.queue with
  | nil => simp [Flow.rest, hqueue]
  | cons item queue =>
    simp only [Flow.rest, hqueue, List.tail_cons, List.length_cons]
    simp

theorem stopped_work (hc : F.stopped = false) (hw : F.Works frames ready G) :
    G.stopped = false := by
  obtain ⟨-, hcancelled, -, hscope⟩ := hw.leaves
  rwa [stopped, hcancelled, hscope]

/-- Each round of a feed that nobody has cancelled comes nearer to the end. -/
theorem rest_round (h : F.Sound frames) (hc : F.stopped = false) (hn : F.EndsAt frames n reason) :
    (F.run frames round).feed.take.1 = .ended ∨ (F.run frames round).rest n < F.rest n := by
  have hw := works_step frames F true
  have hworked := h.step (.work true)
  have hopen := stopped_work hc hw
  have htake := rest_take frames n (hworked.abandoned_eq_false hopen)
  simp only [round, run_cons, run_nil]
  rcases hw.rest h hc hn with hless | ⟨hsame, hqueue | hend⟩
  · right
    omega
  · right
    have hpos : 0 < (F.step frames (.work true)).rest n :=
      Nat.add_pos_right _ (List.length_pos_iff.2 hqueue)
    rw [if_neg hqueue] at htake
    omega
  · left
    rwa [step_take_of_ended hend]

theorem run_round_stopped (frames : Nat → Frame) (hc : F.stopped = false) :
    (F.run frames round).stopped = false := by
  rw [round, run_cons, run_cons, run_nil, stopped_take]
  exact stopped_work hc (works_step frames F true)

/-- The reader of a stream that comes to an end comes to be told so. -/
theorem exists_rounds (h : F.Sound frames) (hc : F.stopped = false)
    (hn : F.EndsAt frames n reason) :
    ∃ k, (F.run frames (List.replicate k round).flatten).feed.take.1 = .ended ∧
      (F.run frames (List.replicate k round).flatten).stopped = false := by
  -- a round tells the reader the end, or leaves less to do
  induction hrest : F.rest n using Nat.strongRecOn generalizing F with
  | ind amount ih =>
    subst hrest
    have hstill := run_round_stopped frames hc
    rcases rest_round h hc hn with hend | hless
    · exact ⟨1, by simpa using ⟨hend, hstill⟩⟩
    · obtain ⟨k, hk⟩ := ih _ hless (h.run round) hstill (hn.run round) rfl
      refine ⟨k + 1, ?_⟩
      rwa [List.replicate_succ, List.flatten_cons, run_append]

end Flow

/-! ## The readers of a session -/

namespace Traffic

variable {s : Session} {frames : Nat → Nat → Frame} {events : List Event} {id : Nat} {F : Flow}

/-- Some rounds of a step of the worker of a feed and a look of its reader. -/
def rounds (id k : Nat) : List Event := (List.replicate k [.work id true, .take id]).flatten

theorem flatMap_moves_rounds (id k : Nat) (scope : Scope) :
    (rounds id k).flatMap (Event.moves id scope) = (List.replicate k Flow.round).flatten := by
  induction k with
  | zero => rfl
  | succ k ih =>
    rw [rounds, List.replicate_succ, List.flatten_cons, List.flatMap_append, ← rounds, ih,
      List.replicate_succ, List.flatten_cons]
    simp [Event.moves, Flow.round]

/-- What the reader of a feed receives is, in its order, what the frames of the stream before its
end can be read as.  Until the worker ends, each frame pulled is accounted for: its item has been
taken, or is one of at most `max buffer 1` in the queue, or is in the worker's hand.  Who is told
the end of a feed that nobody has cancelled has received all, and comes to be told it. -/
theorem delivered_in_order (hF : (after s frames events).flow? id = some F) :
    (∃ c, Starts s frames events c id F.feed ∧
      F.feed.queue.length ≤ max (s.clients c).settings.queues.subscriptionBuffer.toNat 1) ∧
    (F.feed.reason? = none →
      (List.range F.pulled).map (F.reading (frames id)) =
        (F.taken ++ F.feed.queue ++ F.feed.hand.toList).map .ok) ∧
    (List.range F.taken.length).map (F.reading (frames id)) = F.taken.map .ok ∧
    (F.stopped = false → ((after s frames events).session.takeItem id).1 = .ended →
      ∃ reason, F.EndsAt (frames id) F.taken.length reason) ∧
    ∀ n reason, F.stopped = false → F.EndsAt (frames id) n reason →
      ∃ k G, (after s frames (events ++ rounds id k)).flow? id = some G ∧
        (List.range n).map (F.reading (frames id)) = G.taken.map .ok ∧
        ((after s frames (events ++ rounds id k)).session.takeItem id).1 = .ended := by
  have h := sound hF
  refine ⟨?_, h.pulled_eq, h.taken_eq, ?_, ?_⟩
  · obtain ⟨c, hstarts, hcapacity⟩ := exists_starts hF
    exact ⟨c, hstarts, hcapacity ▸ h.length_le⟩
  · intro hc hend
    rw [takeItem_fst hF] at hend
    exact h.endsAt_of_ended hc hend
  · intro n reason hc hn
    obtain ⟨k, hend, hstill⟩ := Flow.exists_rounds h hc hn
    have hG := flow?_append hF (rounds id k)
    rw [flatMap_moves_rounds] at hG
    have hsound := sound hG
    obtain ⟨reason', hends⟩ := hsound.endsAt_of_ended hstill hend
    refine ⟨k, _, hG, ?_, (takeItem_fst hG).trans hend⟩
    rw [(hn.run _).unique hends, ← hsound.taken_eq]
    unfold Flow.reading
    rw [(F.sameFeed_run _ _).1]

/-- A feed is started, and its worker pushes the first item. -/
def onePushed : List Event :=
  [.lend 0 0, .start 0 (.live .evmLog) [] 0, .work 0 true, .work 0 true, .work 0 true]

/-- The item is in the queue; and the reader comes to be told the end, having received it. -/
theorem delivered_in_order_oneFrame :
    ∃ F, (after bare (fun _ => oneFrame) onePushed).flow? 0 = some F ∧
      F.feed.queue = [.raw [7]] ∧ F.feed.reason? = none ∧ F.stopped = false ∧
      F.EndsAt oneFrame 1 .completed ∧
      (List.range F.pulled).map (F.reading oneFrame) =
        (F.taken ++ F.feed.queue ++ F.feed.hand.toList).map .ok ∧
      ∃ k G, (after bare (fun _ => oneFrame) (onePushed ++ rounds 0 k)).flow? 0 = some G ∧
        (List.range 1).map (F.reading oneFrame) = G.taken.map .ok ∧
        ((after bare (fun _ => oneFrame) (onePushed ++ rounds 0 k)).session.takeItem 0).1 =
          .ended := by
  let F : Flow :=
    { pulled := 1, scopeCancelled := false
      feed := { topic := .live .evmLog, stream := 0, scope := [], capacity := 128,
                queue := [.raw [7]], phase := .pulling } }
  have hF : (after bare (fun _ => oneFrame) onePushed).flow? 0 = some F := by decide +kernel
  have hends : F.EndsAt oneFrame 1 .completed := {
    reads := by
      intro m hm
      obtain rfl : m = 0 := by omega
      exact ⟨.raw [7], by decide +kernel⟩
    ends := .ended }
  obtain ⟨-, hpulled, -, -, hcomes⟩ := delivered_in_order hF
  exact ⟨F, hF, rfl, rfl, rfl, hends, hpulled rfl, hcomes 1 .completed rfl hends⟩

end Traffic
end LedgerClient
