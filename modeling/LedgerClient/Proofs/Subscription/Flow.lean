import LedgerClient.Subscription.Feed
import Mathlib.Data.List.Induction

/-!
# What flows through a feed

A `Flow` is a feed together with a tally of what has passed through it: the frames that its worker
has pulled, the items that its reader has taken, and whether the worker has found the feed
cancelled.  The frames come from a stream that goes on for ever; a frame that fails or ends it is
one of them, and what comes behind that frame does not matter.

The items that have passed the queue are the readings of the first frames of the stream, in their
order.  `Flow.Sound` says this, and says for each phase of the worker which frame it is at; it is
kept by everything that can happen to a feed, in any order.
-/

namespace LedgerClient

open Ledger Rpc Wire

/-! ## Frames -/

/-- What a worker makes of a frame: an item, or the reason to end. -/
def Topic.outcome (topic : Topic) : Frame → Except CloseReason Item
  | .ended => .error .completed
  | .failed s => .error (.streamError s.message)
  | .data b => topic.read b

/-- A frame is no message of the kind that the frames of a topic are. -/
def Topic.Garbled (topic : Topic) (b : Bytes) (cause : DecodeError) : Prop :=
  match topic with
  | .live _ | .audit => (Message.decode b : Except DecodeError Response) = .error cause
  | .headers => (Message.decode b : Except DecodeError BlockHeader) = .error cause
  | .wrappers => (Message.decode b : Except DecodeError InterchainWrappers) = .error cause

/-- A frame is such a message, but its data cannot be read. -/
def Topic.Undecodable (topic : Topic) (b : Bytes) (e : ClientError) : Prop :=
  match topic with
  | .live kind => ∃ r : Response, Message.decode b = .ok r ∧ kind.read r.data = .error e
  | .audit => ∃ r : Response, Message.decode b = .ok r ∧
      Item.decode "audit tx info" .audit r.data = .error e
  | .headers | .wrappers => False

/-- A frame ends a feed, and for which reason. -/
inductive Frame.Ends (topic : Topic) : Frame → CloseReason → Prop
  | ended : Ends topic .ended .completed
  | failed (s : Status) : Ends topic (.failed s) (.streamError s.message)
  /-- The transport reports a frame that it cannot read as a failure of the stream. -/
  | garbled {b : Bytes} {cause : DecodeError} (h : topic.Garbled b cause) :
    Ends topic (.data b) (.streamError cause.message)
  | undecodable {b : Bytes} {e : ClientError} (h : topic.Undecodable b e) :
    Ends topic (.data b) (.decodeError e.message)

theorem readFrame_eq_error {M : Type} [Message M] {b : Bytes} {reason : CloseReason} :
    readFrame M b = .error reason ↔ ∃ cause,
      (Message.decode b : Except DecodeError M) = .error cause ∧
        reason = .streamError cause.message := by
  unfold readFrame
  cases (Message.decode b : Except DecodeError M) with
  | ok m => simp
  | error cause => simp [eq_comm]

theorem readNested_eq_error {read : Bytes → Except ClientError Item} {b : Bytes}
    {reason : CloseReason} :
    readNested read b = .error reason ↔
      (∃ cause, (Message.decode b : Except DecodeError Response) = .error cause ∧
        reason = .streamError cause.message) ∨
      ∃ r : Response, ∃ e, (Message.decode b = .ok r ∧ read r.data = .error e) ∧
        reason = .decodeError e.message := by
  unfold readNested readFrame
  cases (Message.decode b : Except DecodeError Response) with
  | error cause => simp [eq_comm]
  | ok r =>
    cases hr : read r.data with
    | ok item => simp [hr]
    | error e => simp [hr, eq_comm]

theorem map_eq_error {ε α β : Type} {x : Except ε α} {f : α → β} {e : ε} :
    x.map f = .error e ↔ x = .error e := by
  cases x <;> simp [Except.map]

namespace Topic

variable {topic : Topic}

theorem read_eq_error {b : Bytes} {reason : CloseReason} :
    topic.read b = .error reason ↔
      (∃ cause, topic.Garbled b cause ∧ reason = .streamError cause.message) ∨
        ∃ e, topic.Undecodable b e ∧ reason = .decodeError e.message := by
  cases topic with
  | live kind =>
    rw [read, readNested_eq_error, exists_comm]
    simp only [Garbled, Undecodable, exists_and_right]
  | audit =>
    rw [read, readNested_eq_error, exists_comm]
    simp only [Garbled, Undecodable, exists_and_right]
  | headers => simp [read, map_eq_error, readFrame_eq_error, Garbled, Undecodable]
  | wrappers => simp [read, map_eq_error, readFrame_eq_error, Garbled, Undecodable]

/-- The frames that end a feed are those that give no item. -/
theorem outcome_eq_error {frame : Frame} {reason : CloseReason} :
    topic.outcome frame = .error reason ↔ frame.Ends topic reason := by
  cases frame with
  | ended =>
    refine ⟨?_, ?_⟩
    · rintro ⟨⟩
      exact .ended
    · rintro ⟨⟩
      rfl
  | failed s =>
    refine ⟨?_, ?_⟩
    · rintro ⟨⟩
      exact .failed s
    · rintro ⟨⟩
      rfl
  | data b =>
    rw [outcome, read_eq_error]
    constructor
    · rintro (⟨cause, h, rfl⟩ | ⟨e, h, rfl⟩)
      · exact .garbled h
      · exact .undecodable h
    · rintro (_ | _ | h | h)
      · exact .inl ⟨_, h, rfl⟩
      · exact .inr ⟨_, h, rfl⟩

/-- No frame says that the feed was cancelled. -/
theorem outcome_ne_cancelled (frame : Frame) : topic.outcome frame ≠ .error .cancelled := by
  intro h
  cases outcome_eq_error.1 h

end Topic

/-! ## Feeds -/

namespace Feed

/-- The item that the worker waits to push. -/
def hand (f : Feed) : Option Item :=
  match f.phase with
  | .pushing item => some item
  | _ => none

/-- The worker is where it looks whether the feed is cancelled. -/
def isLooking (f : Feed) : Bool :=
  match f.phase with
  | .pulling | .pushing _ => true
  | _ => false

theorem receive_eq (f : Feed) (frame : Frame) :
    f.receive frame =
      match f.topic.outcome frame with
      | .ok item => { f with phase := .pushing item }
      | .error reason => { f with phase := .closed reason } := by
  cases frame <;> rfl

/-- What a reader finds is the front of the queue. -/
theorem take_eq (f : Feed) :
    f.take = (match f.queue with
      | i :: _ => .item i
      | [] => if f.reason?.isSome then .ended else .pending, { f with queue := f.queue.tail }) := by
  unfold take
  split <;> rename_i h
  · simp [h]
  · rw [h, List.tail_nil]
    simp [← h]

theorem reason?_eq_some {f : Feed} {reason : CloseReason} :
    f.reason? = some reason ↔ f.phase = .closed reason := by
  unfold reason?
  cases f.phase <;> simp

theorem reason?_of_isLooking {f : Feed} (h : f.isLooking = true) : f.reason? = none := by
  unfold isLooking at h
  unfold reason?
  split at h <;> simp_all

theorem take_eq_ended {f : Feed} : f.take.1 = .ended ↔ f.reason?.isSome ∧ f.queue = [] := by
  rw [take_eq]
  cases f.queue with
  | nil => cases f.reason? <;> simp
  | cons i rest => simp

end Feed

/-- The item that a reader has found. -/
def Reading.item? : Reading → Option Item
  | .item i => some i
  | _ => none

/-! ## Flows -/

/-- What has passed through a feed. -/
structure Tally where
  /-- The number of frames that the worker has pulled. -/
  pulled : Nat := 0
  /-- The items that the reader has taken, the earliest first. -/
  taken : List Item := []
  /-- The worker has looked and found the feed cancelled. -/
  noticed : Bool := false
  deriving DecidableEq

/-- A feed, and what has passed through it. -/
structure Flow extends Tally where
  feed : Feed
  /-- A scope around the feed is cancelled. -/
  scopeCancelled : Bool
  deriving DecidableEq

namespace Flow

/-- What happens to a feed. -/
inductive Move where
  /-- The worker takes a step; `ready` says whether a frame has arrived. -/
  | work (ready : Bool)
  /-- The reader looks for an item. -/
  | take
  | cancel
  /-- A scope around the feed is cancelled. -/
  | cancelScope
  /-- The reader goes. -/
  | drop
  deriving DecidableEq

/-- The feed or a scope around it is cancelled. -/
def stopped (F : Flow) : Bool := F.feed.cancelled || F.scopeCancelled

/-- What the stream has to offer. -/
def arrival (F : Flow) (frames : Nat → Frame) (ready : Bool) : Option Frame :=
  if ready then some (frames F.pulled) else none

/-- The worker would pull a frame. -/
def pulls (F : Flow) (ready : Bool) : Bool := ready && F.feed.phase = .pulling && !F.stopped

/-- The flow after something has happened. -/
def step (frames : Nat → Frame) (F : Flow) : Move → Flow
  | .work ready =>
    { F with
      feed := F.feed.step F.stopped (F.arrival frames ready)
      pulled := if F.pulls ready then F.pulled + 1 else F.pulled
      noticed := F.noticed || (F.feed.isLooking && F.stopped) }
  | .take =>
    if F.feed.abandoned then F
    else { F with feed := F.feed.take.2, taken := F.taken ++ F.feed.take.1.item?.toList }
  | .cancel => { F with feed := { F.feed with cancelled := true } }
  | .cancelScope => { F with scopeCancelled := true }
  | .drop => { F with feed := { F.feed with cancelled := true, abandoned := true } }

/-- The flow after some moves. -/
def run (frames : Nat → Frame) (F : Flow) (moves : List Move) : Flow :=
  moves.foldl (step frames) F

/-- The items that have been put into the queue, in this order. -/
def passed (F : Flow) : List Item := F.taken ++ F.feed.queue

/-- What the worker makes of a frame of the stream. -/
def reading (frames : Nat → Frame) (F : Flow) (n : Nat) : Except CloseReason Item :=
  F.feed.topic.outcome (frames n)

variable {frames : Nat → Frame} {F G : Flow} {ready : Bool}

@[simp] theorem run_nil : F.run frames [] = F := rfl

@[simp] theorem run_cons (m : Move) (moves : List Move) :
    F.run frames (m :: moves) = (F.step frames m).run frames moves := rfl

theorem run_append (moves moves' : List Move) :
    F.run frames (moves ++ moves') = (F.run frames moves).run frames moves' :=
  List.foldl_append

/-! ### What a worker does in a step -/

/-- A worker has nothing to do. -/
def Waits (F : Flow) (ready : Bool) : Prop :=
  match F.feed.phase with
  | .opening => False
  | .pulling => ready = false
  | .pushing _ => F.feed.capacity ≤ F.feed.queue.length
  | .closed _ => True

/-- What becomes of a flow when its worker takes a step. -/
inductive Works (frames : Nat → Frame) (F : Flow) (ready : Bool) : Flow → Prop
  | waits (h : F.Waits ready) (hc : F.feed.isLooking = true → F.stopped = false) :
    Works frames F ready F
  | begins (h : F.feed.phase = .opening) :
    Works frames F ready { F with feed := { F.feed with phase := .pulling } }
  | stops (h : F.feed.isLooking = true) (hc : F.stopped = true) :
    Works frames F ready
      { F with feed := { F.feed with phase := .closed .cancelled }, noticed := true }
  | pulls {item : Item} (h : F.feed.phase = .pulling) (hc : F.stopped = false)
    (hitem : F.reading frames F.pulled = .ok item) :
    Works frames F ready
      { F with feed := { F.feed with phase := .pushing item }, pulled := F.pulled + 1 }
  | ends {reason : CloseReason} (h : F.feed.phase = .pulling) (hc : F.stopped = false)
    (hreason : F.reading frames F.pulled = .error reason) :
    Works frames F ready
      { F with feed := { F.feed with phase := .closed reason }, pulled := F.pulled + 1 }
  | breaks {item : Item} (h : F.feed.phase = .pushing item) (hc : F.stopped = false)
    (ha : F.feed.abandoned = true) :
    Works frames F ready { F with feed := { F.feed with phase := .closed .cancelled } }
  | pushes {item : Item} (h : F.feed.phase = .pushing item) (hc : F.stopped = false)
    (hroom : F.feed.queue.length < F.feed.capacity) :
    Works frames F ready
      { F with feed := { F.feed with queue := F.feed.queue ++ [item], phase := .pulling } }

/-- A worker that finds its feed cancelled ends. -/
theorem step_work_of_stopped (hlooks : F.feed.isLooking = true) (hc : F.stopped = true)
    (ready : Bool) :
    F.step frames (.work ready) =
      { F with feed := { F.feed with phase := .closed .cancelled }, noticed := true } := by
  cases hphase : F.feed.phase with
  | opening | closed reason => simp [Feed.isLooking, hphase] at hlooks
  | pulling | pushing item => simp [step, Feed.step, pulls, hlooks, hphase, hc]

/-- A worker that is to pull reads the frame that has arrived. -/
theorem step_work_of_pulling (hphase : F.feed.phase = .pulling) (hc : F.stopped = false) :
    F.step frames (.work true) =
      { F with feed := F.feed.receive (frames F.pulled), pulled := F.pulled + 1 } := by
  simp [step, Feed.step, pulls, arrival, hphase, hc]

theorem works_step (frames : Nat → Frame) (F : Flow) (ready : Bool) :
    F.Works frames ready (F.step frames (.work ready)) := by
  by_cases hstop : F.feed.isLooking = true ∧ F.stopped = true
  · rw [step_work_of_stopped hstop.1 hstop.2]
    exact .stops hstop.1 hstop.2
  have hc : F.feed.isLooking = true → F.stopped = false := by
    intro hlooks
    simpa using fun hc => hstop ⟨hlooks, hc⟩
  cases hphase : F.feed.phase with
  | opening =>
    have hstep : F.step frames (.work ready) =
        { F with feed := { F.feed with phase := .pulling } } := by
      simp [step, Feed.step, pulls, Feed.isLooking, hphase]
    rw [hstep]
    exact .begins hphase
  | pulling =>
    have hc := hc (by simp [Feed.isLooking, hphase])
    cases ready with
    | false =>
      have hstep : F.step frames (.work false) = F := by
        simp [step, Feed.step, pulls, arrival, hphase, hc]
      rw [hstep]
      exact .waits (by simp [Waits, hphase]) fun _ => hc
    | true =>
      rw [step_work_of_pulling hphase hc, Feed.receive_eq]
      cases hread : F.feed.topic.outcome (frames F.pulled) with
      | ok item => exact .pulls hphase hc hread
      | error reason => exact .ends hphase hc hread
  | pushing item =>
    have hc := hc (by simp [Feed.isLooking, hphase])
    by_cases ha : F.feed.abandoned = true
    · have hstep : F.step frames (.work ready) =
          { F with feed := { F.feed with phase := .closed .cancelled } } := by
        simp [step, Feed.step, pulls, hphase, hc, ha]
      rw [hstep]
      exact .breaks hphase hc ha
    by_cases hroom : F.feed.queue.length < F.feed.capacity
    · have hstep : F.step frames (.work ready) = { F with
          feed := { F.feed with queue := F.feed.queue ++ [item], phase := .pulling } } := by
        simp [step, Feed.step, pulls, Feed.hasRoom, hphase, hc, ha, hroom]
      rw [hstep]
      exact .pushes hphase hc hroom
    · have hstep : F.step frames (.work ready) = F := by
        simp [step, Feed.step, pulls, Feed.hasRoom, hphase, hc, ha, hroom]
      rw [hstep]
      exact .waits (by simpa [Waits, hphase] using hroom) fun _ => hc
  | closed reason =>
    have hstep : F.step frames (.work ready) = F := by
      simp [step, Feed.step, pulls, Feed.isLooking, hphase]
    rw [hstep]
    exact .waits (by simp [Waits, hphase]) hc

/-! ### What a reader does -/

/-- A reader takes from the queue only. -/
theorem exists_step_take (frames : Nat → Frame) (F : Flow) :
    ∃ taken queue, F.step frames .take = { F with taken, feed := { F.feed with queue } } ∧
      taken ++ queue = F.passed ∧ queue.length ≤ F.feed.queue.length := by
  rw [step]
  split
  · exact ⟨F.taken, F.feed.queue, rfl, rfl, Nat.le_refl _⟩
  · rw [Feed.take_eq]
    refine ⟨_, F.feed.queue.tail, rfl, ?_, by simp⟩
    cases hq : F.feed.queue with
    | nil => cases hr : F.feed.reason? <;> simp [passed, hq, Reading.item?]
    | cons i rest => simp [passed, hq, Reading.item?]

theorem stopped_take : (F.step frames .take).stopped = F.stopped := by
  obtain ⟨taken, queue, hstep, -⟩ := exists_step_take frames F
  rw [hstep]
  rfl

/-- A reader who is told the end changes nothing. -/
theorem step_take_of_ended (hend : F.feed.take.1 = .ended) : F.step frames .take = F := by
  have hqueue := (Feed.take_eq_ended.1 hend).2
  have hfeed : F.feed.take.2 = F.feed := by
    rw [Feed.take_eq, hqueue, List.tail_nil, ← hqueue]
  rw [step]
  split
  · rfl
  · rw [hend, hfeed]
    simp [Reading.item?]

/-! ### What every move keeps -/

/-- Two flows are about the same stream, with the same room in their queues. -/
def SameFeed (F G : Flow) : Prop :=
  G.feed.topic = F.feed.topic ∧ G.feed.stream = F.feed.stream ∧ G.feed.scope = F.feed.scope ∧
    G.feed.capacity = F.feed.capacity

theorem Works.sameFeed (hw : F.Works frames ready G) : F.SameFeed G := by
  cases hw <;> exact ⟨rfl, rfl, rfl, rfl⟩

/-- A worker leaves alone what is for others to change. -/
theorem Works.leaves (hw : F.Works frames ready G) :
    G.taken = F.taken ∧ G.feed.cancelled = F.feed.cancelled ∧
      G.feed.abandoned = F.feed.abandoned ∧ G.scopeCancelled = F.scopeCancelled := by
  cases hw <;> exact ⟨rfl, rfl, rfl, rfl⟩

theorem sameFeed_step (frames : Nat → Frame) (F : Flow) (m : Move) :
    F.SameFeed (F.step frames m) := by
  cases m with
  | work ready => exact (works_step frames F ready).sameFeed
  | take =>
    obtain ⟨taken, queue, hstep, -⟩ := exists_step_take frames F
    rw [hstep]
    exact ⟨rfl, rfl, rfl, rfl⟩
  | cancel | cancelScope | drop => exact ⟨rfl, rfl, rfl, rfl⟩

theorem sameFeed_run (frames : Nat → Frame) (F : Flow) (moves : List Move) :
    F.SameFeed (F.run frames moves) := by
  induction moves generalizing F with
  | nil => exact ⟨rfl, rfl, rfl, rfl⟩
  | cons m moves ih =>
    obtain ⟨htopic, hstream, hscope, hcapacity⟩ := ih (F.step frames m)
    obtain ⟨gtopic, gstream, gscope, gcapacity⟩ := F.sameFeed_step frames m
    exact ⟨htopic.trans gtopic, hstream.trans gstream, hscope.trans gscope,
      hcapacity.trans gcapacity⟩

/-! ### The invariant -/

/-- Where in the stream the worker is.  It has pulled a frame for each item that has passed the
queue, and besides the one that it has in hand, or the one that has ended it; a worker that was
cancelled may have given up the one in its hand. -/
def Placed (frames : Nat → Frame) (F : Flow) : Prop :=
  match F.feed.phase with
  | .opening | .pulling => F.pulled = F.passed.length ∧ F.noticed = false
  | .pushing item => F.pulled = F.passed.length + 1 ∧
      F.reading frames F.passed.length = .ok item ∧ F.noticed = false
  | .closed .cancelled => F.noticed = true ∧ (F.pulled = F.passed.length ∨
      F.pulled = F.passed.length + 1 ∧ ∃ item, F.reading frames F.passed.length = .ok item)
  | .closed reason => F.pulled = F.passed.length + 1 ∧
      F.reading frames F.passed.length = .error reason ∧ F.noticed = false

/-- What holds of a flow at any time. -/
structure Sound (frames : Nat → Frame) (F : Flow) : Prop where
  /-- The items that have passed are the readings of the first frames. -/
  passed_eq : (List.range F.passed.length).map (F.reading frames) = F.passed.map .ok
  placed : F.Placed frames
  length_le : F.feed.queue.length ≤ F.feed.capacity
  capacity_pos : 0 < F.feed.capacity
  stopped_of_noticed : F.noticed = true → F.stopped = true
  cancelled_of_abandoned : F.feed.abandoned = true → F.feed.cancelled = true

/-- A reader who goes cancels the feed. -/
theorem Sound.abandoned_eq_false (h : F.Sound frames) (hc : F.stopped = false) :
    F.feed.abandoned = false := by
  by_contra ha
  rw [Bool.not_eq_false] at ha
  simp [stopped, h.cancelled_of_abandoned ha] at hc

theorem Sound.works (h : F.Sound frames) (hw : F.Works frames ready G) : G.Sound frames := by
  have hplaced := h.placed
  cases hw with
  | waits => exact h
  | begins hphase =>
    rw [Placed, hphase] at hplaced
    exact { h with placed := hplaced }
  | stops hlooks hc =>
    refine { h with placed := ?_, stopped_of_noticed := fun _ => hc }
    unfold Placed at hplaced
    cases hphase : F.feed.phase with
    | opening | closed reason => simp [Feed.isLooking, hphase] at hlooks
    | pulling =>
      rw [hphase] at hplaced
      exact ⟨rfl, .inl hplaced.1⟩
    | pushing item =>
      rw [hphase] at hplaced
      exact ⟨rfl, .inr ⟨hplaced.1, item, hplaced.2.1⟩⟩
  | @pulls item hphase hc hitem =>
    rw [Placed, hphase] at hplaced
    rw [hplaced.1] at hitem
    exact { h with placed := ⟨congrArg (· + 1) hplaced.1, hitem, hplaced.2⟩ }
  | @ends reason hphase hc hreason =>
    rw [Placed, hphase] at hplaced
    rw [hplaced.1] at hreason
    refine { h with placed := ?_ }
    cases reason with
    | cancelled => exact absurd hreason (Topic.outcome_ne_cancelled _)
    | completed | streamError | decodeError =>
      exact ⟨congrArg (· + 1) hplaced.1, hreason, hplaced.2⟩
  | breaks hphase hc ha =>
    -- a reader who has gone has cancelled the feed, and the worker looks for that first
    rw [h.abandoned_eq_false hc] at ha
    cases ha
  | @pushes item hphase hc hroom =>
    -- the item in the hand is the reading of the frame behind those that have passed
    rw [Placed, hphase] at hplaced
    obtain ⟨hpulled, hread, hnoticed⟩ := hplaced
    have hpassed : passed { F with
        feed := { F.feed with queue := F.feed.queue ++ [item], phase := .pulling } } =
          F.passed ++ [item] := by
      simp [passed]
    refine { h with passed_eq := ?_, placed := ?_, length_le := ?_ }
    · rw [hpassed, List.length_append, List.length_singleton, List.range_succ, List.map_append,
        List.map_append]
      exact congrArg₂ _ h.passed_eq (congrArg (fun r => [r]) hread)
    · show F.pulled = (passed _).length ∧ F.noticed = false
      rw [hpassed, List.length_append]
      exact ⟨hpulled, hnoticed⟩
    · rw [List.length_append]
      exact hroom

theorem Sound.take (h : F.Sound frames) : (F.step frames .take).Sound frames := by
  obtain ⟨taken, queue, hstep, hpassed, hlength⟩ := exists_step_take frames F
  have hsame : passed { F with taken, feed := { F.feed with queue } } = F.passed := hpassed
  rw [hstep]
  refine { h with
    passed_eq := ?_
    placed := ?_
    length_le := Nat.le_trans hlength h.length_le }
  · rw [hsame]
    exact h.passed_eq
  · have hplaced := h.placed
    unfold Placed at hplaced ⊢
    rw [hsame]
    exact hplaced

theorem Sound.step (h : F.Sound frames) (m : Move) : (F.step frames m).Sound frames := by
  cases m with
  | work ready => exact h.works (works_step frames F ready)
  | take => exact h.take
  | cancel =>
    exact { h with
      stopped_of_noticed := fun _ => rfl
      cancelled_of_abandoned := fun _ => rfl }
  | cancelScope =>
    exact { h with stopped_of_noticed := fun _ => by simp [Flow.step, stopped] }
  | drop =>
    exact { h with
      stopped_of_noticed := fun _ => rfl
      cancelled_of_abandoned := fun _ => rfl }

theorem Sound.run (h : F.Sound frames) (moves : List Move) : (F.run frames moves).Sound frames := by
  induction moves generalizing F with
  | nil => exact h
  | cons m moves ih => exact ih (h.step m)

/-! ### The end of a stream -/

/-- A feed is closed as cancelled exactly if its worker has found it so. -/
theorem Sound.cancelled_iff (h : F.Sound frames) :
    F.feed.reason? = some .cancelled ↔ F.noticed = true := by
  have hplaced := h.placed
  unfold Placed at hplaced
  rw [Feed.reason?_eq_some]
  split at hplaced <;> simp_all

/-- Frame `n` ends the feed, and the frames before it do not. -/
structure EndsAt (frames : Nat → Frame) (F : Flow) (n : Nat) (reason : CloseReason) : Prop where
  reads : ∀ m < n, ∃ item, F.reading frames m = .ok item
  ends : (frames n).Ends F.feed.topic reason

theorem EndsAt.reading_eq {n : Nat} {reason : CloseReason} (h : F.EndsAt frames n reason) :
    F.reading frames n = .error reason :=
  Topic.outcome_eq_error.2 h.ends

/-- The frames whose items have passed can be read. -/
theorem Sound.reads (h : F.Sound frames) {m : Nat} (hm : m < F.passed.length) :
    ∃ item, F.reading frames m = .ok item := by
  have hread := congrArg (fun l => l[m]?) h.passed_eq
  simp only [List.getElem?_map, List.getElem?_range hm, Option.map_some,
    List.getElem?_eq_getElem hm, Option.some_inj] at hread
  exact ⟨_, hread⟩

/-- A worker that has ended without being cancelled was at the end of its stream. -/
theorem Sound.endsAt (h : F.Sound frames) {reason : CloseReason}
    (hreason : F.feed.reason? = some reason) (hne : reason ≠ .cancelled) :
    F.EndsAt frames F.passed.length reason ∧ F.pulled = F.passed.length + 1 ∧
      F.noticed = false := by
  have hplaced := h.placed
  rw [Placed, Feed.reason?_eq_some.1 hreason] at hplaced
  cases reason with
  | cancelled => exact absurd rfl hne
  | completed | streamError | decodeError =>
    exact ⟨⟨fun _ hm => h.reads hm, Topic.outcome_eq_error.1 hplaced.2.1⟩, hplaced.1, hplaced.2.2⟩

/-- A worker that has not ended has not come to the end of its stream. -/
theorem Sound.pulled_le (h : F.Sound frames) {n : Nat} {reason : CloseReason}
    (hn : F.EndsAt frames n reason) (hopen : F.feed.reason? = none) : F.pulled ≤ n := by
  have hlt : ∀ {m}, (∃ item, F.reading frames m = .ok item) → m ≠ n := by
    rintro m ⟨item, hitem⟩ rfl
    rw [hn.reading_eq] at hitem
    cases hitem
  have hpassed : F.passed.length ≤ n := by
    by_contra hlong
    exact hlt (h.reads (Nat.lt_of_not_le hlong)) rfl
  have hplaced := h.placed
  unfold Placed at hplaced
  cases hphase : F.feed.phase with
  | opening | pulling =>
    rw [hphase] at hplaced
    exact hplaced.1 ▸ hpassed
  | pushing item =>
    rw [hphase] at hplaced
    have hne := hlt ⟨item, hplaced.2.1⟩
    omega
  | closed r => simp [Feed.reason?, hphase] at hopen

/-- A feed as it is opened. -/
def opened (topic : Topic) (stream : Nat) (scope : Scope) (places : Nat) (scopeCancelled : Bool) :
    Flow where
  feed := { topic, stream, scope, capacity := max places 1 }
  scopeCancelled

theorem sound_opened (frames : Nat → Frame) (topic : Topic) (stream : Nat) (scope : Scope)
    (places : Nat) (scopeCancelled : Bool) :
    (opened topic stream scope places scopeCancelled).Sound frames where
  passed_eq := rfl
  placed := ⟨rfl, rfl⟩
  length_le := Nat.zero_le _
  capacity_pos := by
    show 0 < max places 1
    omega
  stopped_of_noticed := nofun
  cancelled_of_abandoned := nofun

end Flow
end LedgerClient
