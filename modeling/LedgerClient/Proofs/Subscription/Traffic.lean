import LedgerClient.Proofs.Subscription.Flow
import LedgerClient.Session.Subscribe
import Mathlib.Logic.Function.Basic

/-!
# The feeds of a session

Any number of feeds are started in a session.  Their workers take steps, their readers look for
items, they are cancelled one by one or by scopes, and their readers go, in any order; meanwhile
others are handed leases of the pool and give them back.

`flow?_step` says that each feed has a life of its own: what becomes of it is a run of `Flow.step`
over the moves that concern it, and over its own stream.  From it `exists_start` traces every feed
back to the event that started it, so that what holds of a flow as it is opened, and is kept by
every move, holds of each feed of a session at any time.  `outline_step` says the same of the rest:
the feeds have no influence on it.
-/

namespace LedgerClient

open Rpc

/-- A session with feeds at work. -/
structure Traffic where
  session : Session
  /-- What has passed through each feed. -/
  tally : Nat → Tally := fun _ => {}
  /-- The number of leases that are out and that no worker has. -/
  otherLeases : Nat

/-- What a session is apart from its feeds and its channels. -/
structure Outline where
  clients : Nat → Client
  /-- The number of feeds. -/
  started : Nat
  cancelledScopes : List Scope
  otherLeases : Nat

/-- A scope is cancelled, or one around it. -/
def Outline.scopeCancelled (o : Outline) (scope : Scope) : Bool :=
  o.cancelledScopes.any fun outer => outer.isPrefixOf scope

namespace Traffic

/-! ## What happens -/

/-- What happens to the feeds and to the leases of a session. -/
inductive Event where
  /-- Somebody is handed a lease. -/
  | lend (endpoint channel : Nat)
  /-- Somebody gives a lease back. -/
  | giveBack
  /-- Somebody uses the pool otherwise. -/
  | usePool (f : Pool → Pool)
  /-- A client starts a feed over an opened stream.  The worker takes the lease over. -/
  | start (c : Nat) (topic : Topic) (scope : Scope) (stream : Nat)
  /-- A worker takes a step; `ready` says whether a frame has arrived for it. -/
  | work (id : Nat) (ready : Bool)
  /-- A reader looks for an item. -/
  | take (id : Nat)
  | cancel (id : Nat)
  | cancelScope (scope : Scope)
  /-- A reader goes. -/
  | drop (id : Nat)

def outline (w : Traffic) : Outline where
  clients := w.session.clients
  started := w.session.feeds.length
  cancelledScopes := w.session.cancelledScopes
  otherLeases := w.otherLeases

/-- What has become of a feed. -/
def flow? (w : Traffic) (id : Nat) : Option Flow :=
  (w.session.feeds[id]?).map fun feed =>
    { toTally := w.tally id, feed, scopeCancelled := w.outline.scopeCancelled feed.scope }

/-- The session after an event, where `frames` are the streams of the feeds.  An event that does
not fit changes nothing. -/
def step (frames : Nat → Nat → Frame) (w : Traffic) : Event → Traffic
  | .lend endpoint channel =>
    { w with
      session := w.session.alterPool fun p => (p.lease endpoint channel).2
      otherLeases := w.otherLeases + 1 }
  | .giveBack =>
    if w.otherLeases = 0 then w
    else { w with session := w.session.release, otherLeases := w.otherLeases - 1 }
  | .usePool f => { w with session := w.session.alterPool fun p => { f p with leased := p.leased } }
  | .start c topic scope stream =>
    if w.otherLeases = 0 then w
    else match (startFeed c topic scope stream).advance w.session with
      | (.done (.ok id), s) =>
        { session := s, tally := Function.update w.tally id {}, otherLeases := w.otherLeases - 1 }
      | _ => w
  | .work id ready =>
    match w.flow? id with
    | none => w
    | some F =>
      { w with
        session := w.session.stepFeed id (F.arrival (frames id) ready)
        tally := Function.update w.tally id (F.step (frames id) (.work ready)).toTally }
  | .take id =>
    match w.flow? id with
    | none => w
    | some F =>
      if F.feed.abandoned then w
      else { w with
        session := (w.session.takeItem id).2
        tally := Function.update w.tally id (F.step (frames id) .take).toTally }
  | .cancel id => { w with session := w.session.cancelFeed id }
  | .cancelScope scope => { w with session := w.session.cancelScope scope }
  | .drop id => { w with session := w.session.dropFeed id }

/-- A session to which nothing has happened yet. -/
def fresh (s : Session) : Traffic where
  session := { s with feeds := [], cancelledScopes := [] }
  otherLeases := s.pool.leased

/-- The session after some events. -/
def after (s : Session) (frames : Nat → Nat → Frame) (events : List Event) : Traffic :=
  events.foldl (step frames) (fresh s)

variable {s : Session} {frames : Nat → Nat → Frame} {events : List Event} {w : Traffic}
  {id : Nat} {F : Flow}

@[simp] theorem after_nil : after s frames [] = fresh s := rfl

@[simp] theorem after_concat (e : Event) :
    after s frames (events ++ [e]) = (after s frames events).step frames e := by
  simp [after]

theorem after_append (events' : List Event) :
    after s frames (events ++ events') = events'.foldl (step frames) (after s frames events) :=
  List.foldl_append

/-! ## One feed of many -/

/-- What an event is to the feed of a number and a scope. -/
def Event.moves (id : Nat) (scope : Scope) : Event → List Flow.Move
  | .work i ready => if i = id then [.work ready] else []
  | .take i => if i = id then [.take] else []
  | .cancel i => if i = id then [.cancel] else []
  | .drop i => if i = id then [.drop] else []
  | .cancelScope outer => if outer.isPrefixOf scope then [.cancelScope] else []
  | _ => []

end Traffic

namespace Outline

open Traffic

/-- The places in the queue that a client asks for. -/
def places (o : Outline) (c : Nat) : Nat :=
  (o.clients c).settings.queues.subscriptionBuffer.toNat

/-- A client may start a feed: somebody hands it a lease, and the queue is not too large. -/
def MayStart (o : Outline) (c : Nat) : Prop :=
  o.otherLeases ≠ 0 ∧ max (o.places c) 1 ≤ queueLimit

instance (o : Outline) (c : Nat) : Decidable (o.MayStart c) :=
  inferInstanceAs (Decidable (_ ∧ _))

/-- The feed of number `id`, if it is started by an event. -/
def started? (o : Outline) (id : Nat) : Event → Option Flow
  | .start c topic scope stream =>
    if o.MayStart c ∧ id = o.started then
      some (Flow.opened topic stream scope (o.places c) (o.scopeCancelled scope))
    else none
  | _ => none

/-- The outline after an event. -/
def step (o : Outline) : Event → Outline
  | .lend _ _ => { o with otherLeases := o.otherLeases + 1 }
  | .giveBack => { o with otherLeases := o.otherLeases - 1 }
  | .start c _ _ _ =>
    if o.MayStart c then { o with started := o.started + 1, otherLeases := o.otherLeases - 1 }
    else o
  | .cancelScope scope => { o with cancelledScopes := scope :: o.cancelledScopes }
  | _ => o

end Outline

namespace Traffic

variable {s : Session} {frames : Nat → Nat → Frame} {events : List Event} {w : Traffic}
  {id : Nat} {F : Flow}

theorem flow?_eq_some : w.flow? id = some F ↔ w.session.feeds[id]? = some F.feed ∧
    F.toTally = w.tally id ∧ F.scopeCancelled = w.outline.scopeCancelled F.feed.scope := by
  rw [flow?, Option.map_eq_some_iff]
  constructor
  · rintro ⟨feed, hfeed, rfl⟩
    exact ⟨hfeed, rfl, rfl⟩
  · rintro ⟨hfeed, htally, hcancelled⟩
    refine ⟨F.feed, hfeed, ?_⟩
    rw [← htally, ← hcancelled]

theorem flow?_isSome : (w.flow? id).isSome ↔ id < w.session.feeds.length := by
  simp [flow?]

/-- A flow is stopped if the session says that its feed is cancelled. -/
theorem stopped_eq (h : w.flow? id = some F) : F.stopped = w.session.isCancelled F.feed := by
  rw [Flow.stopped, (flow?_eq_some.1 h).2.2]
  rfl

/-- What has become of the feeds when one of them has changed. -/
theorem flow?_of_set {u : Traffic} {j : Nat} {feed : Feed} {tally : Tally}
    (hj : j < w.session.feeds.length)
    (hfeeds : u.session.feeds = w.session.feeds.set j feed)
    (hscopes : u.session.cancelledScopes = w.session.cancelledScopes)
    (htally : u.tally = Function.update w.tally j tally) (i : Nat) :
    u.flow? i =
      if i = j then
        some { toTally := tally, feed, scopeCancelled := w.outline.scopeCancelled feed.scope }
      else w.flow? i := by
  have hcancelled : u.outline.scopeCancelled = w.outline.scopeCancelled :=
    congrArg (fun scopes scope => List.any scopes fun outer => outer.isPrefixOf scope) hscopes
  unfold flow?
  rw [hfeeds, hcancelled, htally]
  by_cases hij : i = j
  · subst hij
    simp [hj]
  · rw [if_neg hij, List.getElem?_set_ne (Ne.symm hij), Function.update_of_ne hij]

end Traffic

/-! ## The changes of one feed -/

namespace Session

variable {s : Session} {id : Nat} {feed : Feed}

theorem alterFeed_eq (h : s.feeds[id]? = some feed) (f : Feed → Feed) :
    s.alterFeed id f = { s with feeds := s.feeds.set id (f feed) } := by
  rw [alterFeed, h]

theorem alterFeed_of_none (h : s.feeds[id]? = none) (f : Feed → Feed) : s.alterFeed id f = s := by
  rw [alterFeed, h]

theorem takeItem_eq (h : s.feeds[id]? = some feed) :
    s.takeItem id = (feed.take.1, { s with feeds := s.feeds.set id feed.take.2 }) := by
  rw [takeItem, h]

theorem stepFeed_eq (h : s.feeds[id]? = some feed) (arrival : Option Frame) :
    s.stepFeed id arrival =
      let next := feed.step (s.isCancelled feed) arrival
      { s with
        feeds := s.feeds.set id next
        pool :=
          if feed.reason?.isNone && next.reason?.isSome then s.pool.release else s.pool } := by
  rw [stepFeed, h]
  dsimp only
  split <;> rfl

end Session

/-- Starting a feed adds it to the session, unless its queue would be too large. -/
theorem advance_startFeed (c : Nat) (topic : Topic) (scope : Scope) (stream : Nat) (s : Session) :
    (startFeed c topic scope stream).advance s =
      let capacity := max (s.clients c).settings.queues.subscriptionBuffer.toNat 1
      if queueLimit < capacity then (.crash .queueTooLarge, s.release)
      else (.done (.ok s.feeds.length),
        { s with feeds := s.feeds ++ [{ topic, stream, scope, capacity }] }) := by
  simp only [startFeed, Task.get, Task.bind, Task.advance]
  split <;> rfl

namespace Traffic

variable {s : Session} {frames : Nat → Nat → Frame} {events : List Event} {w : Traffic}
  {id : Nat} {F : Flow}

theorem step_start (c : Nat) (topic : Topic) (scope : Scope) (stream : Nat) :
    w.step frames (.start c topic scope stream) =
      if w.outline.MayStart c then
        { session := { w.session with
            feeds := w.session.feeds ++
              [{ topic, stream, scope, capacity := max (w.outline.places c) 1 }] }
          tally := Function.update w.tally w.session.feeds.length {}
          otherLeases := w.otherLeases - 1 }
      else w := by
  have hplaces :
      (w.session.clients c).settings.queues.subscriptionBuffer.toNat = w.outline.places c := rfl
  simp only [step, advance_startFeed, hplaces]
  by_cases hlease : w.otherLeases = 0
  · rw [if_pos hlease, if_neg fun h => h.1 hlease]
  by_cases hlimit : queueLimit < max (w.outline.places c) 1
  · rw [if_neg hlease, if_pos hlimit, if_neg fun h => Nat.not_le.2 hlimit h.2]
  · rw [if_neg hlease, if_neg hlimit, if_pos ⟨hlease, Nat.le_of_not_lt hlimit⟩]

theorem flow?_of_append (tally : Tally) {u : Traffic} {feed : Feed}
    (hfeeds : u.session.feeds = w.session.feeds ++ [feed])
    (hscopes : u.session.cancelledScopes = w.session.cancelledScopes)
    (htally : u.tally = Function.update w.tally w.session.feeds.length tally) (i : Nat) :
    u.flow? i =
      if i = w.session.feeds.length then
        some { toTally := tally, feed, scopeCancelled := w.outline.scopeCancelled feed.scope }
      else w.flow? i := by
  have hcancelled : u.outline.scopeCancelled = w.outline.scopeCancelled :=
    congrArg (fun scopes scope => List.any scopes fun outer => outer.isPrefixOf scope) hscopes
  unfold flow?
  rw [hfeeds, hcancelled, htally]
  by_cases hi : i = w.session.feeds.length
  · subst hi
    simp
  · rw [if_neg hi, Function.update_of_ne hi]
    rcases Nat.lt_or_gt_of_ne hi with hlt | hgt
    · rw [List.getElem?_append_left hlt]
    · rw [List.getElem?_eq_none (by simp; omega), List.getElem?_eq_none (Nat.le_of_lt hgt)]

theorem flow?_start {c : Nat} (hmay : w.outline.MayStart c) (topic : Topic) (scope : Scope)
    (stream : Nat) :
    (w.step frames (.start c topic scope stream)).flow? id =
      if id = w.outline.started then
        some (Flow.opened topic stream scope (w.outline.places c) (w.outline.scopeCancelled scope))
      else w.flow? id := by
  rw [step_start, if_pos hmay]
  refine flow?_of_append {} ?_ ?_ ?_ id <;> rfl

/-- What becomes of a feed by the moves that concern it. -/
def moved? (frames : Nat → Nat → Frame) (w : Traffic) (id : Nat) (moves : List Flow.Move) :
    Option Flow :=
  (w.flow? id).map fun F => F.run (frames id) moves

@[simp] theorem moved?_nil : w.moved? frames id [] = w.flow? id := by
  cases h : w.flow? id <;> simp [moved?, h]

/-- One feed has made a move, and the others have made none. -/
theorem flow?_of_move (m : Flow.Move) {u : Traffic} {j : Nat} {G : Flow}
    (hG : w.flow? j = some G)
    (hfeeds : u.session.feeds = w.session.feeds.set j (G.step (frames j) m).feed)
    (hscopes : u.session.cancelledScopes = w.session.cancelledScopes)
    (htally : u.tally = Function.update w.tally j (G.step (frames j) m).toTally)
    (hm : (G.step (frames j) m).scopeCancelled = G.scopeCancelled) (i : Nat) :
    u.flow? i = w.moved? frames i (if j = i then [m] else []) := by
  have hj := flow?_isSome.1 (Option.isSome_of_eq_some hG)
  rw [flow?_of_set hj hfeeds hscopes htally]
  by_cases hij : i = j
  · subst hij
    have hscope := (G.sameFeed_step (frames i) m).2.2.1
    rw [if_pos rfl, if_pos rfl, moved?, hG, hscope, ← (flow?_eq_some.1 hG).2.2, ← hm]
    rfl
  · rw [if_neg hij, if_neg (Ne.symm hij), moved?_nil]

/-- An event at a feed that is not there is none. -/
theorem flow?_of_none {j : Nat} (hj : w.flow? j = none) (m : Flow.Move) :
    w.flow? id = w.moved? frames id (if j = id then [m] else []) := by
  by_cases hij : j = id
  · subst hij
    rw [if_pos rfl, moved?, hj]
    rfl
  · rw [if_neg hij, moved?_nil]

theorem flow?_work (i : Nat) (ready : Bool) :
    (w.step frames (.work i ready)).flow? id =
      w.moved? frames id (if i = id then [.work ready] else []) := by
  cases hi : w.flow? i with
  | none =>
    rw [step, hi]
    exact flow?_of_none hi _
  | some G =>
    have hfeed := (flow?_eq_some.1 hi).1
    simp only [step, hi]
    refine flow?_of_move (.work ready) hi ?_ ?_ rfl rfl id
    · rw [Session.stepFeed_eq hfeed, ← stopped_eq hi]
      rfl
    · rw [Session.stepFeed_eq hfeed]

theorem flow?_take (i : Nat) :
    (w.step frames (.take i)).flow? id =
      w.moved? frames id (if i = id then [.take] else []) := by
  cases hi : w.flow? i with
  | none =>
    rw [step, hi]
    exact flow?_of_none hi _
  | some G =>
    simp only [step, hi]
    by_cases habandoned : G.feed.abandoned = true
    · rw [if_pos habandoned]
      by_cases hid : i = id
      · subst hid
        simp [moved?, hi, Flow.step, habandoned]
      · rw [if_neg hid, moved?_nil]
    · rw [if_neg habandoned, Session.takeItem_eq (flow?_eq_some.1 hi).1]
      refine flow?_of_move .take hi ?_ ?_ ?_ ?_ id
      · simp [Flow.step, habandoned]
      · rfl
      · rfl
      · simp [Flow.step, habandoned]

/-- A feed is changed by a move that is nothing but a change of the feed. -/
theorem flow?_alterFeed {i : Nat} {f : Feed → Feed} {m : Flow.Move}
    (hm : ∀ G : Flow, G.step (frames i) m = { G with feed := f G.feed }) :
    ({ w with session := w.session.alterFeed i f } : Traffic).flow? id =
      w.moved? frames id (if i = id then [m] else []) := by
  cases hi : w.flow? i with
  | none =>
    rw [Session.alterFeed_of_none (by simpa [flow?] using hi)]
    exact flow?_of_none hi _
  | some G =>
    obtain ⟨hfeed, htally, -⟩ := flow?_eq_some.1 hi
    rw [Session.alterFeed_eq hfeed]
    refine flow?_of_move m hi ?_ ?_ ?_ ?_ id
    · rw [hm]
    · rfl
    · rw [hm, htally, Function.update_eq_self]
    · rw [hm]

theorem flow?_cancelScope (outer : Scope) :
    (w.step frames (.cancelScope outer)).flow? id =
      (w.flow? id).map fun F =>
        F.run (frames id) (if outer.isPrefixOf F.feed.scope then [.cancelScope] else []) := by
  rw [flow?, flow?, Option.map_map]
  refine congrArg (fun f => Option.map f _) (funext fun feed => ?_)
  have hscope : (w.step frames (.cancelScope outer)).outline.scopeCancelled feed.scope =
      (outer.isPrefixOf feed.scope || w.outline.scopeCancelled feed.scope) := rfl
  cases hfirst : outer.isPrefixOf feed.scope with
  | false =>
    rw [hfirst, Bool.false_or] at hscope
    simp only [Function.comp_apply, hscope, hfirst, Bool.false_eq_true, if_false]
    rfl
  | true =>
    rw [hfirst, Bool.true_or] at hscope
    simp only [Function.comp_apply, hscope, hfirst, if_true]
    rfl

/-- Each feed goes its own way: an event changes it as the moves do that the event is to it. -/
theorem flow?_step (frames : Nat → Nat → Frame) (w : Traffic) (id : Nat) (e : Event) :
    (w.step frames e).flow? id =
      match w.flow? id with
      | some F => some (F.run (frames id) (e.moves id F.feed.scope))
      | none => w.outline.started? id e := by
  cases e with
  | lend endpoint channel | usePool f =>
    show w.flow? id = _
    cases w.flow? id <;> rfl
  | giveBack =>
    have hsame : (w.step frames .giveBack).flow? id = w.flow? id := by
      rw [step]
      split <;> rfl
    rw [hsame]
    cases w.flow? id <;> rfl
  | start c topic scope stream =>
    by_cases hmay : w.outline.MayStart c
    · rw [flow?_start hmay]
      by_cases hid : id = w.outline.started
      · have hnone : w.flow? id = none := by simp [flow?, hid, outline]
        rw [if_pos hid, hnone]
        exact (if_pos ⟨hmay, hid⟩).symm
      · rw [if_neg hid]
        cases w.flow? id <;> simp [Outline.started?, hid, Event.moves]
    · rw [step_start, if_neg hmay]
      cases w.flow? id <;> simp [Outline.started?, hmay, Event.moves]
  | work i ready =>
    rw [flow?_work, moved?]
    cases w.flow? id <;> rfl
  | take i =>
    rw [flow?_take, moved?]
    cases w.flow? id <;> rfl
  | cancel i =>
    rw [step, Session.cancelFeed, flow?_alterFeed (m := .cancel) fun _ => rfl, moved?]
    cases w.flow? id <;> rfl
  | drop i =>
    rw [step, Session.dropFeed, flow?_alterFeed (m := .drop) fun _ => rfl, moved?]
    cases w.flow? id <;> rfl
  | cancelScope outer =>
    rw [flow?_cancelScope]
    cases w.flow? id <;> rfl

/-! ## The others -/

theorem outline_step (frames : Nat → Nat → Frame) (w : Traffic) (e : Event) :
    (w.step frames e).outline = w.outline.step e := by
  cases e with
  | lend endpoint channel | usePool f | cancelScope scope => rfl
  | giveBack =>
    by_cases hnone : w.otherLeases = 0
    · rw [step, if_pos hnone]
      simp [Outline.step, outline, hnone]
    · rw [step, if_neg hnone]
      rfl
  | start c topic scope stream =>
    rw [step_start, Outline.step]
    by_cases hmay : w.outline.MayStart c
    · rw [if_pos hmay, if_pos hmay]
      simp [outline]
    · rw [if_neg hmay, if_neg hmay]
  | work i ready =>
    cases hi : w.flow? i with
    | none => simp only [step, hi, Outline.step]
    | some G =>
      simp only [step, hi, Session.stepFeed_eq (flow?_eq_some.1 hi).1, outline, List.length_set,
        Outline.step]
  | take i =>
    cases hi : w.flow? i with
    | none => simp only [step, hi, Outline.step]
    | some G =>
      simp only [step, hi, Session.takeItem_eq (flow?_eq_some.1 hi).1, Outline.step]
      split <;> simp only [outline, List.length_set]
  | cancel i | drop i =>
    simp only [step, Session.cancelFeed, Session.dropFeed, Session.alterFeed, outline,
      Outline.step]
    split <;> simp only [List.length_set]

/-! ## Runs -/

theorem clients_after (s : Session) (frames : Nat → Nat → Frame) (events : List Event) :
    (after s frames events).session.clients = s.clients := by
  induction events using List.reverseRecOn with
  | nil => rfl
  | append_singleton events e ih =>
    have hstep := outline_step frames (after s frames events) e
    have hclients : ((after s frames events).outline.step e).clients = s.clients := by
      cases e with
      | start c topic scope stream =>
        rw [Outline.step]
        split <;> exact ih
      | _ => exact ih
    rw [after_concat]
    exact (congrArg Outline.clients hstep).trans hclients

theorem mem_cancelledScopes_after {outer : Scope} :
    outer ∈ (after s frames events).session.cancelledScopes ↔
      Event.cancelScope outer ∈ events := by
  induction events using List.reverseRecOn with
  | nil => simp [fresh]
  | append_singleton events e ih =>
    have hstep := outline_step frames (after s frames events) e
    rw [after_concat, List.mem_append, ← ih, List.mem_singleton]
    change outer ∈ ((after s frames events).step frames e).outline.cancelledScopes ↔ _
    rw [hstep]
    cases e with
    | cancelScope scope =>
      rw [Outline.step, List.mem_cons, or_comm]
      simp [outline]
    | start c topic scope stream =>
      rw [Outline.step]
      split <;> simp [outline]
    | _ => simp [Outline.step, outline]

theorem flow?_foldl (hF : w.flow? id = some F) (events : List Event) :
    (events.foldl (step frames) w).flow? id =
      some (F.run (frames id) (events.flatMap (Event.moves id F.feed.scope))) := by
  induction events generalizing w F with
  | nil => exact hF
  | cons e events ih =>
    have hstep := flow?_step frames w id e
    rw [hF] at hstep
    rw [List.foldl_cons, ih hstep, (F.sameFeed_run _ _).2.2.1, List.flatMap_cons, Flow.run_append]

/-- What becomes of a feed is a run over the moves that concern it. -/
theorem flow?_append (hF : (after s frames events).flow? id = some F) (events' : List Event) :
    (after s frames (events ++ events')).flow? id =
      some (F.run (frames id) (events'.flatMap (Event.moves id F.feed.scope))) := by
  rw [after_append, flow?_foldl hF]

/-- A feed is as it was opened, but for the moves since. -/
theorem exists_start (hF : (after s frames events).flow? id = some F) :
    ∃ before since c, events = before ++ .start c F.feed.topic F.feed.scope F.feed.stream :: since ∧
      id = (after s frames before).outline.started ∧ (after s frames before).outline.MayStart c ∧
      F = (Flow.opened F.feed.topic F.feed.stream F.feed.scope
        (s.clients c).settings.queues.subscriptionBuffer.toNat
        ((after s frames before).outline.scopeCancelled F.feed.scope)).run (frames id)
          (since.flatMap (Event.moves id F.feed.scope)) := by
  induction events using List.reverseRecOn generalizing F with
  | nil => simp [flow?, fresh] at hF
  | append_singleton events e ih =>
    rw [after_concat, flow?_step] at hF
    -- the last event is a move of the feed, or has started it
    cases hG : (after s frames events).flow? id with
    | some G =>
      obtain ⟨before, since, c, rfl, hid, hmay, hrun⟩ := ih hG
      rw [hG, Option.some_inj] at hF
      obtain ⟨htopic, hstream, hscope, -⟩ := G.sameFeed_run (frames id) (e.moves id G.feed.scope)
      rw [hF] at htopic hstream hscope
      refine ⟨before, since ++ [e], c, ?_, hid, hmay, ?_⟩
      · rw [htopic, hstream, hscope]
        simp
      · rw [htopic, hstream, hscope, List.flatMap_append, Flow.run_append, ← hrun, ← hF]
        simp
    | none =>
      rw [hG] at hF
      cases e with
      | start c topic scope stream =>
        obtain ⟨⟨hmay, hid⟩, hopened⟩ := Option.ite_none_right_eq_some.1 hF
        cases hopened
        refine ⟨events, [], c, rfl, hid, hmay, ?_⟩
        rw [← clients_after s frames events]
        rfl
      | _ => cases hF

/-- A client has started a feed, which is the one of this number. -/
def Starts (s : Session) (frames : Nat → Nat → Frame) (events : List Event) (c id : Nat)
    (feed : Feed) : Prop :=
  ∃ before since, events = before ++ .start c feed.topic feed.scope feed.stream :: since ∧
    id = (after s frames before).outline.started ∧ (after s frames before).outline.MayStart c

theorem exists_starts (hF : (after s frames events).flow? id = some F) :
    ∃ c, Starts s frames events c id F.feed ∧
      F.feed.capacity = max (s.clients c).settings.queues.subscriptionBuffer.toNat 1 := by
  obtain ⟨before, since, c, hevents, hid, hmay, hrun⟩ := exists_start hF
  refine ⟨c, ⟨before, since, hevents, hid, hmay⟩, ?_⟩
  rw [hrun]
  exact (Flow.sameFeed_run _ _ _).2.2.2

/-- What holds of a flow at any time holds of each feed. -/
theorem sound (hF : (after s frames events).flow? id = some F) : F.Sound (frames id) := by
  obtain ⟨before, since, c, -, -, -, hrun⟩ := exists_start hF
  rw [hrun]
  exact (Flow.sound_opened _ _ _ _ _ _).run _

/-- What the reader of a feed would find. -/
theorem takeItem_fst (hF : w.flow? id = some F) : (w.session.takeItem id).1 = F.feed.take.1 := by
  rw [Session.takeItem_eq (flow?_eq_some.1 hF).1]

/-! ### A session -/

/-- A session of one client over a pool without endpoints, whose leases come from elsewhere. -/
def bare : Session where
  pool := { endpoints := [], policy := .fixed 0 1, dialTimeout := 100 }
  clients _ := { settings := {}, signer := ⟨[], .ok⟩ }

/-- A stream of one frame, which carries a response of one byte. -/
def oneFrame (n : Nat) : Frame := if n = 0 then .data [10, 1, 7] else .ended

end Traffic
end LedgerClient
