import LedgerClient.Proofs.Pool.Slots
import LedgerClient.Proofs.Task.Party
import LedgerClient.Session.Acquire
import Mathlib.Data.List.Induction

/-!
# Who owns the channels of a pool

Any number of acquisitions run over one pool, take turns wherever they wait, and may be dropped
there; between their turns leases are given back, faults are reported, channels change their
states and the pool is closed.  `accounted_after` follows every channel through all of this: it is
in its slot, or the pool has ordered it to close, or it was pushed out of its slot.

A channel is pushed out when two acquisitions dial one endpoint at a time: the slot is empty when
both begin, the first answer fills it, and the second overwrites what the first put there.  Nobody
closes what was pushed out.  `loose_iff_pushed` says that this is the only way to lose a channel.
-/

namespace LedgerClient

open Rpc Settings Time Transport

/-! ## The parts of an acquisition -/

/-- An acquisition moves as its conduct allows if its start does and its attempts do. -/
theorem obeys_acquire_of_attempts {C : Conduct Network Session Unit} {told : Option Network.Told}
    {s₀ s : Session} (hstart : C.moves told s₀ { s with pool := s.pool.start.2 })
    (hattempt : ∀ rotation, s.pool.start.1 = .search rotation → ∀ cursor told s₀ s,
      C.moves told s₀ s →
        (attempt rotation cursor).Obeys C (fun _ _ => C.moves) () told s₀ s)
    (hrest : ∀ s, C.holds s → C.drops s s ∧ C.moves none s s) :
    acquire.Obeys C (fun _ _ => C.moves) () told s₀ s := by
  unfold acquire
  refine Task.Obeys.bind (Q := fun _ r told s₀ s' => C.moves told s₀ s' ∧ s.pool.start.1 = r)
    (Task.obeys_transition.2 ⟨hstart, rfl⟩) ?_
  rintro _ (r | rotation) told s₀ s' ⟨h, hsearch⟩
  · exact h
  · show ((s'.pool.policy.run 0 (attempt rotation)).bind _).Obeys _ _ _ told s₀ s'
    refine Task.Obeys.bind (Q := fun _ _ => C.moves) ?_ ?_
    · refine Task.obeys_attemptUpTo (P := fun _ => C.moves) ?_ ?_ ?_ ?_ _ _ _ _ h
      · intro _ told s₀ s cursor h
        refine (hattempt rotation hsearch cursor told s₀ s h).imp ?_
        rintro _ ⟨_ | _, _⟩ _ _ _ h <;> exact h
      · exact fun _ _ _ _ h => h
      · exact fun _ _ _ _ _ => ⟨fun s hs => (hrest s hs).1, fun s hs => (hrest s hs).2⟩
      · exact fun _ _ _ _ _ h => h
    · rintro _ (_ | _) told s₀ s h <;> exact h

namespace Pool

/-! ## Uses of a pool -/

/-- What happens to a pool and to the acquisitions over it. -/
inductive Use where
  /-- An acquisition begins. -/
  | acquire
  /-- The pause of an acquisition is over. -/
  | wake (i : Nat)
  /-- The dial of an acquisition is answered. -/
  | answer (i : Nat) (reply : (r : NetworkRequest) → Network.Answer r)
  /-- An acquisition is dropped. -/
  | abandon (i : Nat)
  /-- A lease is given back. -/
  | release
  /-- A fault of an endpoint is reported. -/
  | invalidate (endpoint : Nat)
  /-- The state of a channel changes. -/
  | turn (channel : Nat) (state : Connectivity)
  | close

/-- Acquisitions over a session. -/
abbrev Acquirers : Type := Party Network Session (Except ClientError Lease)

/-- A use as it happens to the acquisitions. -/
def Use.event : Use → Party.Event Network Session (Except ClientError Lease)
  | acquire => .enter LedgerClient.acquire
  | wake i => .wake i
  | answer i reply => .answer i reply
  | abandon i => .leave i
  | release => .change (Session.alterPool Pool.release)
  | invalidate endpoint => .change (Session.alterPool (Pool.invalidate endpoint))
  | turn channel state => .change (Session.alterPool fun p => p.alter channel ({ · with state }))
  | close => .change (Session.alterPool Pool.close)

/-- The channels that are pushed out of their slots when an acquisition is told of its dial. -/
def pushedBy (p : Pool) : Option Network.Told → List Nat
  | some ⟨.dial i _, .connected _⟩ => p.pushedOut i
  | _ => []

/-- The acquisitions after some uses, and the channels that were pushed out of their slots, the
latest first. -/
def history (s : Session) (uses : List Use) : Acquirers × List Nat :=
  uses.foldl
    (fun h u => (h.1.step u.event, h.1.shared.pool.pushedBy (h.1.told? u.event) ++ h.2))
    ({ shared := s }, [])

/-- The acquisitions over a session after some uses. -/
def after (s : Session) (uses : List Use) : Acquirers := (history s uses).1

/-- The channels pushed out of their slots in the course of some uses. -/
def pushed (s : Session) (uses : List Use) : List Nat := (history s uses).2

@[simp] theorem after_nil (s : Session) : after s [] = { shared := s } := rfl

@[simp] theorem pushed_nil (s : Session) : pushed s [] = [] := rfl

theorem after_concat (s : Session) (uses : List Use) (u : Use) :
    after s (uses ++ [u]) = (after s uses).step u.event := by
  simp [after, history]

theorem pushed_concat (s : Session) (uses : List Use) (u : Use) :
    pushed s (uses ++ [u]) =
      (after s uses).shared.pool.pushedBy ((after s uses).told? u.event) ++ pushed s uses := by
  simp [after, pushed, history]

/-! ## The conduct of an acquisition -/

/-- Between two waits an acquisition keeps the account of the pool. -/
def keeping (n : Nat) : Conduct Network Session Unit where
  holds s := s.pool.size = n
  moves told s₀ s := ∀ pushed, Accounted n pushed s₀.pool →
    Accounted n (s₀.pool.pushedBy told ++ pushed) s.pool
  drops s s' := s' = s
  asks _ _ _ := True
  answers _ _ _ := True

variable {n : Nat} {told : Option Network.Told} {s₀ s : Session}

/-- A change that keeps the account may follow what an acquisition has done so far. -/
theorem keeping_moves (h : (keeping n).moves told s₀ s) {p : Pool}
    (hp : ∀ pushed, Accounted n pushed s.pool → Accounted n pushed p) :
    (keeping n).moves told s₀ { s with pool := p } :=
  fun pushed hpushed => hp _ (h pushed hpushed)

theorem obeys_attempt {rotation : List Nat} (hrotation : ∀ i ∈ rotation, i < n) (cursor : Nat)
    (h : (keeping n).moves told s₀ s) :
    (attempt rotation cursor).Obeys (keeping n) (fun _ _ => (keeping n).moves) () told s₀ s := by
  unfold attempt
  refine Task.Obeys.bind (Q := fun _ r told s₀ s => (keeping n).moves told s₀ s ∧
    ∀ i, r.1 = .dial i → i < n) (Task.obeys_transition.2 ⟨?_, ?_⟩) ?_
  · exact keeping_moves h fun _ hp => hp.beginAttempt rotation cursor
  · intro i hi
    exact hrotation i (mem_of_beginAttempt hi)
  · rintro _ ⟨r | i, cursor⟩ told s₀ s ⟨h, hi⟩
    · exact h
    · refine ⟨h, fun s _ => rfl, (), trivial, fun reply _ s hs => ?_⟩
      -- What was pushed out is counted by the answer that is being read.
      intro pushed hp
      have := hp.endAttempt (hi i rfl) reply
      cases reply <;> exact this

/-- An acquisition keeps the account of its pool. -/
theorem obeys_acquire (hs : s.pool.size = n) :
    acquire.Obeys (keeping n) (fun _ _ => (keeping n).moves) () none s s := by
  refine obeys_acquire_of_attempts (fun _ hp => hp.start) ?_
    fun _ _ => ⟨rfl, fun _ hp => hp⟩
  intro rotation hstart cursor told s₀ s' h
  refine obeys_attempt (fun i hi => ?_) cursor h
  have hdraw : rotation = s.pool.drawRotation.1 := by
    unfold start at hstart
    split at hstart
    · cases hstart
    · split at hstart
      · cases hstart
      · exact (Start.search.inj hstart).symm
  rw [hdraw, drawRotation_perm.mem_iff, hs] at hi
  exact List.mem_range.1 hi

/-! ## The account of all uses -/

/-- The acquisitions keep to their conduct, and every channel is accounted for. -/
theorem accounted_after (endpoints : List Node) (policy : RetryPolicy) (dialTimeout : Millis)
    (rotations : List (List Nat)) (uses : List Use) (s : Session)
    (hs : s.pool = { endpoints, policy, dialTimeout, rotations }) :
    (after s uses).Obeys (keeping endpoints.length) ∧
      Accounted endpoints.length (pushed s uses) (after s uses).shared.pool := by
  induction uses using List.reverseRecOn with
  | nil =>
    refine ⟨nofun, ?_⟩
    have hfresh : Accounted s.pool.size [] s.pool :=
      accounted_of_fresh (by rw [hs]; rfl) (by rw [hs]) (by rw [hs]) (by rw [hs])
    rw [hs] at hfresh
    rw [after_nil, hs]
    exact hfresh
  | append_singleton uses u ih =>
    obtain ⟨hobeys, hacc⟩ := ih
    rw [after_concat, pushed_concat]
    have hstep := hobeys.step hacc.size_eq u.event (fun _ hp => hp) rfl
      (fun _ _ _ _ hmoves hdrops => hdrops ▸ hmoves)
      (fun t ht => by
        cases u <;> cases ht
        exact obeys_acquire hacc.size_eq)
      (fun _ _ _ => trivial)
    refine ⟨hstep.1, ?_⟩
    rcases hstep.2 with hmoves | ⟨htold, hdrops⟩ | ⟨f, hf⟩
    · exact hmoves _ hacc
    · rw [htold, show ((after s uses).step u.event).shared = (after s uses).shared from hdrops]
      exact hacc
    · cases u with
      | acquire | wake | answer | abandon => cases hf
      | release => exact hacc.of_eq rfl rfl rfl rfl rfl rfl
      | invalidate endpoint => exact hacc.invalidate endpoint
      | turn channel state => exact hacc.alter fun _ => rfl
      | close => exact hacc.close

/-- The pool came about by uses of a fresh one. -/
def Reached (p : Pool) : Prop :=
  ∃ (endpoints : List Node) (policy : RetryPolicy) (dialTimeout : Millis)
    (rotations : List (List Nat)) (s : Session) (uses : List Use),
    p = (after { s with pool := { endpoints, policy, dialTimeout, rotations } } uses).shared.pool

theorem Reached.accounted {p : Pool} (h : p.Reached) : ∃ n pushed, Accounted n pushed p := by
  obtain ⟨endpoints, policy, dialTimeout, rotations, s, uses, rfl⟩ := h
  exact ⟨_, _, (accounted_after endpoints policy dialTimeout rotations uses _ rfl).2⟩

/-- In every interleaving, the channels that are open and not in their slots are exactly those that
were pushed out.  So unless one was, each endpoint has one open channel at most; and a closed pool
has closed every channel if and only if none was. -/
theorem loose_iff_pushed (endpoints : List Node) (policy : RetryPolicy) (dialTimeout : Millis)
    (rotations : List (List Nat)) (s : Session) (uses : List Use) :
    let start := { s with pool := { endpoints, policy, dialTimeout, rotations } }
    let p := (after start uses).shared.pool
    (∀ k i, p.owners[k]? = some i →
      (k ∉ p.closeOrders ∧ p.slot? i ≠ some k ↔ k ∈ pushed start uses)) ∧
    (pushed start uses = [] → ∀ i k l, p.owners[k]? = some i → p.owners[l]? = some i →
      k ∉ p.closeOrders → l ∉ p.closeOrders → k = l) ∧
    (p.closed = true →
      ((∀ k < p.channels.length, k ∈ p.closeOrders) ↔ pushed start uses = [])) := by
  intro start p
  have h : Accounted endpoints.length (pushed start uses) p :=
    (accounted_after endpoints policy dialTimeout rotations uses start rfl).2
  refine ⟨fun k i hk => (h.mem_pushed_iff hk).symm, ?_, h.all_closed_iff⟩
  intro hpushed i k l hk hl hko hlo
  rw [hpushed] at h
  exact h.eq_of_open hk hl hko hlo

/-- A network on which every dial succeeds and nothing else is answered. -/
def dialsOnly (link : Link) : (r : NetworkRequest) → Network.Answer r
  | .dial _ _ => .connected link
  | .call _ => .expired
  | .stream _ => .expired
  | .turn _ _ => ()
  | .item _ _ => ()

/-- A network that answers dials by their endpoints, and nothing else. -/
def dialsAs (reply : Nat → DialReply) : (r : NetworkRequest) → Network.Answer r
  | .dial i _ => reply i
  | .call _ => .expired
  | .stream _ => .expired
  | .turn _ _ => ()
  | .item _ _ => ()

/-- Two acquisitions dial the one endpoint of a pool.  The second answer pushes the channel of the
first out of its slot, and closing the pool closes the second channel only. -/
theorem first_channel_lost :
    let s : Session :=
      { pool := { endpoints := [{ address := "a" }], policy := .fixed 0 1, dialTimeout := 100 }
        clients := fun _ => { settings := {}, signer := ⟨[], .ok⟩ } }
    let uses : List Use :=
      [.acquire, .acquire, .answer 0 (dialsOnly .direct), .answer 1 (dialsOnly .direct)]
    let p := (after s uses).shared.pool
    let q := (after s (uses ++ [.close])).shared.pool
    (p.owners = [0, 0] ∧ p.closeOrders = [] ∧ p.slot? 0 = some 1) ∧
      (q.closed = true ∧ q.channels.length = 2 ∧ q.closeOrders = [1]) := by
  decide

end Pool
end LedgerClient
