import LedgerClient.Proofs.Pool.Acquisitions
import LedgerClient.Proofs.Session.Acquiring

/-!
# Closing a pool is final

An acquisition may be anywhere in its search when its pool is closed: in a dial, or in a pause
between two attempts.  Wherever it is, it looks at the pool again before it hands out or keeps
anything.  `Pool.closed_for_good` says what becomes of it, and of whatever is done to the pool from
then on.

A closed pool is `Shut`: it keeps no channel and remembers no endpoint.  Every use of the pool
keeps this, and every acquisition that goes on over such a pool fails or pauses.
-/

namespace LedgerClient

open Rpc Settings Time Transport

namespace Pool

variable {i k : Nat} {p q : Pool}

/-! ## Closed pools -/

/-- The pool was closed, and keeps nothing. -/
structure Shut (p : Pool) : Prop where
  closed : p.closed = true
  slot_none : ∀ i, p.slot? i = none
  lastGood_none : p.lastGood = none

theorem Shut.of_eq (h : p.Shut) (hclosed : q.closed = p.closed) (hslots : q.slots = p.slots)
    (hlast : q.lastGood = p.lastGood) : q.Shut where
  closed := hclosed.trans h.closed
  slot_none i := by rw [slot?, hslots, ← slot?, h.slot_none]
  lastGood_none := hlast.trans h.lastGood_none

@[simp] theorem alter_lastGood (f : Channel → Channel) : (p.alter k f).lastGood = p.lastGood := by
  unfold alter
  split <;> rfl

@[simp] theorem closeChannel_lastGood : (p.closeChannel k).2.lastGood = p.lastGood :=
  alter_lastGood _

theorem foldl_closeChannel_closed (ks : List Nat) (p : Pool) :
    let q := ks.foldl (fun p k => (p.closeChannel k).2) p
    q.closed = p.closed ∧ q.lastGood = p.lastGood := by
  induction ks generalizing p with
  | nil => exact ⟨rfl, rfl⟩
  | cons k ks ih =>
    obtain ⟨hclosed, hlast⟩ := ih (p.closeChannel k).2
    exact ⟨hclosed.trans closeChannel_closed, hlast.trans closeChannel_lastGood⟩

/-- Closing shuts an open pool, and leaves a closed one as it is. -/
theorem shut_close (h : p.closed = true → p.Shut) : p.close.Shut := by
  by_cases hc : p.closed = true
  · rw [close, if_pos hc]
    exact h hc
  · rw [close, if_neg hc]
    have hslots := (foldl_closeChannel (p.slots.filterMap id)
      { p with closed := true, lastGood := none, slots := p.slots.map fun _ => none }).2.1
    obtain ⟨hclosed, hlast⟩ := foldl_closeChannel_closed (p.slots.filterMap id)
      { p with closed := true, lastGood := none, slots := p.slots.map fun _ => none }
    refine ⟨hclosed, fun i => ?_, hlast⟩
    rw [slot?, hslots, List.getElem?_map]
    cases p.slots[i]? <;> rfl

theorem close_of_closed (h : p.closed = true) : p.close = p := if_pos h

/-! ## What an acquisition finds in a closed pool -/

theorem start_of_closed (h : p.closed = true) : p.start = (.ended (.error .poolClosed), p) :=
  if_pos h

theorem beginAttempt_of_closed (h : p.closed = true) (rotation : List Nat) (cursor : Nat) :
    p.beginAttempt rotation cursor = ((.ended (.error .poolClosed), cursor), p) := if_pos h

/-- A channel that comes too late is closed. -/
theorem endAttempt_connected_of_closed (h : p.closed = true) (i : Nat) (link : Link) :
    p.endAttempt i (.connected link) =
      (.error .poolClosed, ((p.grow i link).closeChannel p.channels.length).2) := if_pos h

theorem channels_grow_close (i : Nat) (link : Link) :
    ((p.grow i link).closeChannel p.channels.length).2.channels =
      p.channels ++ [{ endpoint := i, address := p.address i, link, state := .shutdown }] := by
  have hlast : (p.grow i link).channels[p.channels.length]? =
      some { endpoint := i, address := p.address i, link } := List.getElem?_concat_length
  simp only [closeChannel, alter, hlast]
  simp [grow, Channel.close]

theorem Shut.grow_close (h : p.Shut) (i : Nat) (link : Link) :
    ((p.grow i link).closeChannel p.channels.length).2.Shut :=
  h.of_eq closeChannel_closed closeChannel_slots closeChannel_lastGood

theorem failDial_frame (i : Nat) (e : DialError) :
    ∃ disabled, (p.failDial i e).2 = { p with disabled } := by
  unfold failDial disable
  split
  · dsimp only
    split <;> split <;> exact ⟨_, rfl⟩
  · exact ⟨_, rfl⟩

theorem failDial_lastGood (i : Nat) (e : DialError) :
    (p.failDial i e).2.lastGood = p.lastGood := by
  obtain ⟨_, h⟩ := p.failDial_frame i e
  rw [h]

theorem Shut.failDial (h : p.Shut) (i : Nat) (e : DialError) : (p.failDial i e).2.Shut := by
  obtain ⟨hrefused, -⟩ := refused_failDial (i := i) (p := p) e
  exact h.of_eq hrefused.closed_eq hrefused.slots_eq (failDial_lastGood i e)

/-- However a dial over a closed pool ends, its attempt fails. -/
theorem Shut.endAttempt (h : p.Shut) (i : Nat) (reply : DialReply) :
    (∃ e, (p.endAttempt i reply).1 = .error e) ∧ (p.endAttempt i reply).2.Shut := by
  cases reply with
  | connected link =>
    rw [endAttempt_connected_of_closed h.closed]
    exact ⟨⟨_, rfl⟩, h.grow_close i link⟩
  | failed e => exact ⟨⟨_, rfl⟩, h.failDial i e⟩
  | expired => exact ⟨⟨_, rfl⟩, h.failDial i (.timeout (p.address i) p.dialTimeout)⟩

/-! ## What an acquisition leaves as it is -/

theorem alter_frame (f : Channel → Channel) : ∃ channels, p.alter k f = { p with channels } := by
  unfold alter
  split
  · exact ⟨_, rfl⟩
  · exact ⟨_, rfl⟩

theorem closeChannel_frame :
    ∃ channels closeOrders, (p.closeChannel k).2 = { p with channels, closeOrders } := by
  obtain ⟨channels, h⟩ := p.alter_frame (k := k) fun c => c.close.2
  exact ⟨channels, k :: p.closeOrders, by rw [closeChannel, h]⟩

theorem start_frame : ∃ rotations leased, p.start.2 = { p with rotations, leased } := by
  unfold start
  split
  · exact ⟨_, _, rfl⟩
  · split
    · exact ⟨_, _, rfl⟩
    · exact ⟨_, p.leased, drawRotation_snd⟩

theorem beginAttempt_frame (rotation : List Nat) (cursor : Nat) :
    ∃ channels slots lastGood leased closeOrders, (p.beginAttempt rotation cursor).2 =
      { p with channels, slots, lastGood, leased, closeOrders } := by
  unfold beginAttempt
  split
  · exact ⟨_, _, _, _, _, rfl⟩
  · split
    · exact ⟨_, _, _, _, _, rfl⟩
    · split
      · exact ⟨_, _, _, _, _, rfl⟩
      · unfold vacate
        split
        · exact ⟨_, _, _, _, _, rfl⟩
        · obtain ⟨channels, closeOrders, h⟩ := closeChannel_frame
          exact ⟨channels, _, _, _, closeOrders, h⟩

theorem endAttempt_frame (i : Nat) (reply : DialReply) :
    ∃ channels slots disabled lastGood leased closeOrders, (p.endAttempt i reply).2 =
      { p with channels, slots, disabled, lastGood, leased, closeOrders } := by
  cases reply with
  | connected link =>
    by_cases hc : p.closed = true
    · rw [endAttempt_connected_of_closed hc]
      obtain ⟨channels, closeOrders, h⟩ :=
        closeChannel_frame (p := p.grow i link) (k := p.channels.length)
      exact ⟨channels, _, _, _, _, closeOrders, h⟩
    · rw [endAttempt_connected_of_open (by simpa using hc)]
      exact ⟨_, _, _, _, _, _, rfl⟩
  | failed e =>
    obtain ⟨disabled, h⟩ := p.failDial_frame i e
    exact ⟨_, _, disabled, _, _, _, h⟩
  | expired =>
    obtain ⟨disabled, h⟩ := p.failDial_frame i (.timeout (p.address i) p.dialTimeout)
    exact ⟨_, _, disabled, _, _, _, h⟩

/-! ## Only closing closes -/

theorem start_closed : p.start.2.closed = p.closed := by
  obtain ⟨_, _, h⟩ := p.start_frame
  rw [h]

theorem beginAttempt_closed (rotation : List Nat) (cursor : Nat) :
    (p.beginAttempt rotation cursor).2.closed = p.closed := by
  obtain ⟨_, _, _, _, _, h⟩ := p.beginAttempt_frame rotation cursor
  rw [h]

theorem endAttempt_closed (i : Nat) (reply : DialReply) :
    (p.endAttempt i reply).2.closed = p.closed := by
  obtain ⟨_, _, _, _, _, _, h⟩ := p.endAttempt_frame i reply
  rw [h]

end Pool

/-! ## Acquisitions over a closed pool -/

variable {p : Pool}

/-- A search that finds its pool closed ends. -/
theorem Search.outcome_poolClosed (q : Search) :
    q.outcome (.error .poolClosed) = .ended (.error .poolClosed) := by
  rcases q with ⟨_, _, _, _, _ | _⟩ <;> rfl

theorem Search.attempt_of_closed (h : p.closed = true) (q : Search) :
    q.attempt p = (.resting (.ended (.error .poolClosed)), p) := by
  rw [attempt, Pool.beginAttempt_of_closed h]
  exact congrArg (fun x => (Acquisition.resting x, p)) (outcome_poolClosed _)

theorem Acquisition.start_of_closed (h : p.closed = true) :
    Acquisition.start p = (.resting (.ended (.error .poolClosed)), p) := by
  rw [start, Pool.start_of_closed h]

theorem Search.answer_connected_of_closed (h : p.closed = true) (q : Search) (i : Nat)
    (link : Link) :
    q.answer i (.connected link) p = (.resting (.ended (.error .poolClosed)),
      ((p.grow i link).closeChannel p.channels.length).2) := by
  rw [answer, Pool.endAttempt_connected_of_closed h, outcome_poolClosed]

/-- The acquisition has failed or pauses: it has no lease and waits for no dial. -/
def IsIdle (t : Program (Except ClientError Lease)) : Prop :=
  (∃ e, t = .done (.error e)) ∨ ∃ delay next, t = .pause delay id next

/-- An attempt that failed leaves its search idle. -/
theorem Search.isIdle_outcome (q : Search) (e : ClientError) :
    IsIdle (q.outcome (.error e)).task := by
  rcases q with ⟨_, _, _, _, _ | _⟩
  · exact .inl ⟨_, rfl⟩
  · simp only [outcome]
    split
    · exact .inr ⟨_, _, rfl⟩
    · exact .inl ⟨_, rfl⟩

namespace Acquisitions

variable {a : Acquisitions} {x : Acquisition}

/-- An acquisition that goes on over a closed pool is idle where it stops, and leaves the pool
shut. -/
theorem isIdle_of_stop? (h : a.pool.Shut) {u : Pool.Use} (hx : a.stop? u = some (x, p)) :
    IsIdle x.task ∧ p.Shut := by
  cases u with
  | acquire =>
    rw [stop?, Acquisition.start_of_closed h.closed] at hx
    cases hx
    exact ⟨.inl ⟨_, rfl⟩, h⟩
  | wake i =>
    rw [stop?] at hx
    split at hx
    · rw [Search.attempt_of_closed h.closed] at hx
      cases hx
      exact ⟨.inl ⟨_, rfl⟩, h⟩
    · cases hx
  | answer i reply =>
    rw [stop?] at hx
    split at hx
    · rename_i e limit q _
      cases hx
      obtain ⟨⟨error, herror⟩, hshut⟩ := h.endAttempt e (reply (.dial e limit))
      refine ⟨?_, hshut⟩
      rw [herror]
      exact q.isIdle_outcome error
    · cases hx
  | abandon | release | invalidate | turn | close => cases hx

theorem closed_of_stop? {u : Pool.Use} (hx : a.stop? u = some (x, p)) :
    p.closed = a.pool.closed :=
  view_of_stop? Pool.closed (fun _ => Pool.start_closed) (fun _ => Pool.beginAttempt_closed)
    (fun _ => Pool.endAttempt_closed) hx

/-! ## Uses of a closed pool -/

theorem shut_step (h : a.pool.Shut) (u : Pool.Use) : (a.step u).pool.Shut := by
  rw [pool_step]
  cases hx : a.stop? u with
  | some r => exact (isIdle_of_stop? h hx).2
  | none =>
    cases u with
    | acquire | wake | answer | abandon => exact h
    | release => exact h.of_eq rfl rfl rfl
    | invalidate endpoint =>
      show (a.pool.invalidate endpoint).Shut
      rw [Pool.invalidate, h.lastGood_none, if_neg nofun]
      exact h
    | turn channel state =>
      exact h.of_eq (Pool.alter_closed _) (Pool.alter_slots _) (Pool.alter_lastGood _)
    | close => exact Pool.shut_close fun _ => h

/-- Only closing closes. -/
theorem closed_step {u : Pool.Use} (hu : u ≠ .close) : (a.step u).pool.closed = a.pool.closed := by
  rw [pool_step]
  cases hx : a.stop? u with
  | some r => exact closed_of_stop? hx
  | none =>
    cases u with
    | acquire | wake | answer | abandon | release => rfl
    | invalidate endpoint =>
      show (a.pool.invalidate endpoint).closed = _
      rw [Pool.invalidate]
      split <;> rfl
    | turn channel state => exact Pool.alter_closed _
    | close => exact absurd rfl hu

theorem shut_of_closed_after (hp : p.closed = false) (uses : List Pool.Use) :
    (after p uses).pool.closed = true → (after p uses).pool.Shut := by
  induction uses using List.reverseRecOn with
  | nil => exact fun h => absurd (hp.symm.trans h) nofun
  | append_singleton uses u ih =>
    rw [after_concat]
    intro hc
    by_cases hu : u = .close
    · rw [hu]
      exact Pool.shut_close ih
    · exact shut_step (ih (closed_step hu ▸ hc)) u

/-- The pool is shut from the moment it is closed. -/
theorem shut_after_close (hp : p.closed = false) (uses later : List Pool.Use) :
    (after p (uses ++ .close :: later)).pool.Shut := by
  induction later using List.reverseRecOn with
  | nil =>
    rw [after_concat]
    exact Pool.shut_close (shut_of_closed_after hp uses)
  | append_singleton later u ih =>
    rw [← List.cons_append, ← List.append_assoc, after_concat]
    exact shut_step ih u

end Acquisitions

/-! ## Tasks over a closed pool -/

namespace Acquisitions

variable {a : Acquisitions} {s : Session} {t : Program (Except ClientError Lease)} {i : Nat}

theorem isIdle_of_stop?_party (h : a.pool.Shut) (u : Pool.Use)
    (ht : (a.party s).stop? u.event = some t) : IsIdle t := by
  rw [stop?_party, Option.map_eq_some_iff] at ht
  obtain ⟨⟨x, p⟩, hx, rfl⟩ := ht
  exact (isIdle_of_stop? h hx).1

/-- The acquisition of a task. -/
theorem exists_of_member?_party (h : (a.party s).member? i = some t) :
    ∃ x, a.member? i = some x ∧ x.task = t := by
  rwa [member?_party, Option.map_eq_some_iff] at h

theorem member?_resume {x : Acquisition} (h : a.member? i = some x) (r : Acquisition × Pool) :
    (a.resume i r).member? i = some r.1 := by
  rw [member?, Option.join_eq_some_iff] at h ⊢
  exact List.getElem?_set_self (List.getElem?_eq_some_iff.1 h).1

/-- A dial over a closed pool that succeeds. -/
theorem step_connected_of_closed (h : a.pool.closed = true) {e : Nat} {limit : Millis} {q : Search}
    (hi : a.member? i = some (.dialing e limit q))
    {reply : (r : NetworkRequest) → Network.Answer r} {link : Link}
    (hreply : reply (.dial e limit) = DialReply.connected link) :
    a.step (.answer i reply) = a.resume i (.resting (.ended (.error .poolClosed)),
      ((a.pool.grow e link).closeChannel a.pool.channels.length).2) := by
  rw [step, stop?, hi]
  show a.resume i (q.answer e (reply (.dial e limit)) a.pool) = _
  rw [hreply, Search.answer_connected_of_closed h]

/-- A pause over a closed pool that is over. -/
theorem step_wake_of_closed (h : a.pool.closed = true) {delay : Millis} {q : Search}
    (hi : a.member? i = some (.resting (.pausing delay q))) :
    a.step (.wake i) = a.resume i (.resting (.ended (.error .poolClosed)), a.pool) := by
  rw [step, stop?, hi]
  show a.resume i (q.attempt a.pool) = _
  rw [Search.attempt_of_closed h]

end Acquisitions

/-- A member that is not idle over a closed pool has been as it is since the pool was closed. -/
theorem member?_after_close {s : Session} (hs : s.pool.closed = false)
    (uses later : List Pool.Use) {i : Nat} {t : Program (Except ClientError Lease)}
    (h : (Pool.after s (uses ++ .close :: later)).member? i = some t) :
    IsIdle t ∨ (Pool.after s (uses ++ [.close])).member? i = some t := by
  induction later using List.reverseRecOn with
  | nil => exact .inr h
  | append_singleton later u ih =>
    rw [← List.cons_append, ← List.append_assoc, Pool.after_concat] at h
    rcases Party.member?_step h with h | h
    · exact ih h
    · rw [Acquisitions.party_after] at h
      exact .inl
        (Acquisitions.isIdle_of_stop?_party (Acquisitions.shut_after_close hs uses later) u h)

/-- From the moment a pool is closed, and whatever is done to it before and after:

* it keeps no channel and remembers no endpoint;
* a task that goes on fails or pauses, so that none is given a lease and none begins a dial; one
  that has a lease or is in a dial was there when the pool was closed;
* a dial that succeeds has its channel ordered to close, and its acquisition fails;
* an acquisition that was pausing fails, and so does one that begins;
* closing it again changes nothing. -/
theorem Pool.closed_for_good (endpoints : List Node) (policy : RetryPolicy) (dialTimeout : Millis)
    (rotations : List (List Nat)) (s : Session) (uses later : List Pool.Use) :
    let start := { s with pool := { endpoints, policy, dialTimeout, rotations } }
    let closing := Pool.after start (uses ++ [.close])
    let now := Pool.after start (uses ++ .close :: later)
    let p := now.shared.pool
    (p.closed = true ∧ (∀ i, p.slot? i = none) ∧ p.lastGood = none) ∧
    (∀ (u : Pool.Use) t, now.stop? u.event = some t → IsIdle t) ∧
    (∀ i t, now.member? i = some t → IsIdle t ∨ closing.member? i = some t) ∧
    (∀ i e limit dropped next (reply : (r : NetworkRequest) → Network.Answer r) link,
      now.member? i = some (.ask (.dial e limit) dropped next) →
      reply (.dial e limit) = DialReply.connected link →
      let told := now.step (Pool.Use.answer i reply).event
      told.member? i = some (.done (.error .poolClosed)) ∧
        told.shared.pool.channels =
          p.channels ++ [{ endpoint := e, address := p.address e, link, state := .shutdown }] ∧
        told.shared.pool.closeOrders = p.channels.length :: p.closeOrders) ∧
    (∀ i delay dropped next, now.member? i = some (.pause delay dropped next) →
      (now.step (Pool.Use.wake i).event).member? i = some (.done (.error .poolClosed))) ∧
    now.step Pool.Use.acquire.event =
      { now with members := now.members ++ [some (.done (.error .poolClosed))] } ∧
    now.step Pool.Use.close.event = now := by
  intro start closing now p
  set a := Acquisitions.after start.pool (uses ++ .close :: later)
  have hnow : now = a.party start := Acquisitions.party_after start _
  have hshut : a.pool.Shut := Acquisitions.shut_after_close rfl uses later
  have hp : p = a.pool := congrArg (fun w : Pool.Acquirers => w.shared.pool) hnow
  rw [hp, hnow]
  refine ⟨⟨hshut.closed, hshut.slot_none, hshut.lastGood_none⟩,
    fun u t => Acquisitions.isIdle_of_stop?_party hshut u, ?_, ?_, ?_, ?_, ?_⟩
  · intro i t hi
    rw [← hnow] at hi
    exact member?_after_close rfl uses later hi
  · intro i e limit dropped next reply link hi hreply
    obtain ⟨(_ | _) | ⟨e', limit', q⟩, hx, htask⟩ := Acquisitions.exists_of_member?_party hi
    · cases htask
    · cases htask
    · cases htask
      rw [Acquisitions.step_party, Acquisitions.step_connected_of_closed hshut.closed hx hreply]
      refine ⟨?_, Pool.channels_grow_close e link, rfl⟩
      rw [Acquisitions.member?_party, Acquisitions.member?_resume hx]
      rfl
  · intro i delay dropped next hi
    obtain ⟨(_ | ⟨delay', q⟩) | _, hx, htask⟩ := Acquisitions.exists_of_member?_party hi
    · cases htask
    · rw [Acquisitions.step_party, Acquisitions.step_wake_of_closed hshut.closed hx,
        Acquisitions.member?_party, Acquisitions.member?_resume hx]
      rfl
    · cases htask
  · show (a.party start).step Pool.Use.acquire.event = _
    rw [Acquisitions.step_party, Acquisitions.step, Acquisition.start_of_closed hshut.closed]
    simp [Acquisitions.party, Acquisition.task, Rest.task]
  · show (a.party start).step Pool.Use.close.event = _
    rw [Acquisitions.step_party, Acquisitions.step, Pool.Use.outside,
      Pool.close_of_closed hshut.closed]

/-- An acquisition is in its dial when the pool is closed, and the dial succeeds. -/
theorem Pool.closed_for_good_inDial :
    let s : Session :=
      { pool := { endpoints := [{ address := "a" }], policy := .fixed 0 1, dialTimeout := 100 }
        clients := fun _ => { settings := {}, signer := ⟨[], .ok⟩ } }
    let closing := Pool.after s ([.acquire] ++ [.close])
    let told := closing.step (Pool.Use.answer 0 (dialsOnly .direct)).event
    (∃ next, closing.member? 0 = some (.ask (.dial 0 100) id next)) ∧
      told.member? 0 = some (.done (.error .poolClosed)) ∧
      told.shared.pool.closeOrders = [0] := by
  intro s closing told
  have h := (Pool.closed_for_good s.pool.endpoints s.pool.policy s.pool.dialTimeout [] s
    [.acquire] []).2.2.2.1 0 0 100 id _ (dialsOnly .direct) .direct rfl rfl
  exact ⟨⟨_, rfl⟩, h.1, by decide⟩

end LedgerClient
