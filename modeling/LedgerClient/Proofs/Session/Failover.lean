import LedgerClient.Proofs.Pool.Ownership
import LedgerClient.Proofs.Session.Acquiring
import LedgerClient.Proofs.Session.Leasing

/-!
# Turning to another endpoint

A call that ends in a fault of its transport makes the pool forget that the endpoint worked last.
The channel itself stays in its slot, and unless the fault changed its state it may still be handed
out.  So the next acquisition does turn to the faulty channel again, if no other endpoint is
remembered and no endpoint with a usable channel comes earlier in its rotation.

`handed_out_again_iff` says that this is the only case, and when an acquisition after a fault
succeeds otherwise.
-/

namespace LedgerClient

open Ledger Rpc Settings Time Transport Wire

/-! ## Calls over a lease -/

/-- The task is what a client does with a lease: it makes a call, or opens a stream. -/
inductive OverLease (l : Lease) : {α : Type} → Program α → Prop where
  | call (Res : Type) [Message Res] (op : Operation) (deadline : Millis) (message : Call) :
    OverLease l (callOver Res op deadline message l)
  | opening (c : Nat) (op : Operation) (deadline : Millis) (message : Call) (topic : Topic)
      (scope : Scope) :
    OverLease l (openOver c op deadline message topic scope l)

/-- A call ended in a fault of its transport: its deadline passed, or its status says so. -/
def Reply.IsFault {α : Type} : Reply α → Prop
  | .expired => True
  | .ended (.error status) => status.isTransportFault = true
  | .ended (.ok _) => False

/-- A request was answered with a fault of the transport. -/
def IsFault : (r : NetworkRequest) → Network.Answer r → Prop
  | .call _, a => Reply.IsFault (α := Bytes) a
  | .stream _, a => Reply.IsFault (α := Nat) a
  | _, _ => False

/-! ## What a fault leaves behind -/

variable {l : Lease} {α : Type} {t : Program α} {s₀ s : Session} {r : NetworkRequest}
  {dropped : Session → Session} {next : Network.Answer r → Program α} {a : Network.Answer r}

theorem Pool.release_invalidate (p : Pool) (i : Nat) :
    (p.invalidate i).release = p.release.invalidate i := by
  unfold invalidate release
  by_cases h : p.lastGood = some i
  · rw [if_pos h, if_pos h]
  · rw [if_neg h, if_neg h]

theorem Reply.error_ne_ok {β : Type} (status : Status) (b : β) :
    (.ended (.error status) : Reply β) ≠ .ended (.ok b) := by
  intro h
  cases h

/-- Settling a call that failed takes no time. -/
theorem advance_settle {β : Type} (op : Operation) (deadline : Millis) (reply : Reply β)
    (hreply : ∀ b, reply ≠ .ended (.ok b)) (s : Session) :
    ∃ e s', (settle op deadline l reply).advance s = (.done (.error e), s') ∧
      (reply.IsFault → s' = s.alterPool (Pool.invalidate l.index)) := by
  rcases reply with (status | b) | _
  · by_cases hfault : status.isTransportFault = true
    · refine ⟨op.classify status, _, ?_, fun _ => rfl⟩
      rw [settle, if_pos hfault]
      rfl
    · refine ⟨op.classify status, s, ?_, fun h => absurd h hfault⟩
      rw [settle, if_neg hfault]
      rfl
  · exact absurd rfl (hreply b)
  · exact ⟨_, _, rfl, fun _ => rfl⟩

/-- After a fault the pool has taken the lease back and forgotten the endpoint.  Besides, the
status may have told the state of the channel. -/
theorem OverLease.pool_after_fault (ht : OverLease l t)
    (hask : t.advance s₀ = (.ask r dropped next, s₀)) (hfault : IsFault r a) (s : Session) :
    ∃ p, (p = s.pool ∨ ∃ status : Status,
        p = s.pool.observe l.channel (.error status : Except Status Unit)) ∧
      ((next a).advance s).2.pool = Pool.invalidate l.index p.release := by
  cases ht with
  | call Res op deadline message =>
    simp only [callOver, exchange, Task.ensuring, Task.get, Task.bind, Task.onDrop,
      Task.advance] at hask
    cases hrefusal : s₀.pool.refusal? l.channel with
    | some status =>
      simp only [hrefusal, Task.bind, Task.onDrop, Task.advance, Task.modify,
        Task.transition] at hask
      obtain ⟨e, s', hsettle, -⟩ := advance_settle (l := l) op deadline
        (.ended (.error status) : Reply Res) (Reply.error_ne_ok status) s₀.release
      rw [hsettle] at hask
      cases hask
    | none =>
      simp only [hrefusal, Program.call, Task.request, Task.bind, Task.onDrop, Task.advance] at hask
      cases hask
      rcases a with (status | data) | _
      · obtain ⟨e, s', hsettle, hpool⟩ := advance_settle (l := l) op deadline
          (.ended (.error status) : Reply Res) (Reply.error_ne_ok status)
          (s.alterPool fun p => (p.observe l.channel (.error status : Except Status Res)).release)
        refine ⟨_, .inr ⟨status, rfl⟩, (congrArg (fun e => e.2.pool) hsettle).trans ?_⟩
        exact congrArg Session.pool (hpool hfault)
      · cases hfault
      · exact ⟨_, .inl rfl, rfl⟩
  | opening c op deadline message topic scope =>
    simp only [openOver, exchange, Task.get, Task.bind, Task.onDrop, Task.advance] at hask
    cases hrefusal : s₀.pool.refusal? l.channel with
    | some status =>
      simp only [hrefusal, Task.bind, Task.onDrop] at hask
      obtain ⟨e, s', hsettle, -⟩ := advance_settle (l := l) op deadline
        (.ended (.error status) : Reply Nat) (Reply.error_ne_ok status) s₀
      rw [Task.advance_bind_done hsettle] at hask
      cases hask
    | none =>
      simp only [hrefusal, Program.stream, Task.request, Task.bind, Task.onDrop,
        Task.advance] at hask
      cases hask
      rcases a with (status | stream) | _
      · obtain ⟨e, s', hsettle, hpool⟩ := advance_settle (l := l) op deadline
          (.ended (.error status) : Reply Nat) (Reply.error_ne_ok status)
          (s.alterPool fun p => p.observe l.channel (.error status : Except Status Nat))
        obtain rfl := hpool hfault
        refine ⟨_, .inr ⟨status, rfl⟩, ?_⟩
        rw [← Pool.release_invalidate]
        simp only [Task.onDrop, Task.modify, Task.transition, Task.bind, Task.advance, Except.bind]
        rw [Task.advance_bind_done hsettle]
        rfl
      · cases hfault
      · exact ⟨_, .inl rfl, Pool.release_invalidate _ _⟩

theorem OverLease.after_fault {n : Nat} {pushed : List Nat} (ht : OverLease l t)
    (hask : t.advance s₀ = (.ask r dropped next, s₀)) (hfault : IsFault r a)
    (hacc : Pool.Accounted n pushed s.pool) {p : Pool} (hp : ((next a).advance s).2.pool = p) :
    Pool.Accounted n pushed p ∧ p.closed = s.pool.closed ∧ p.owners = s.pool.owners ∧
      p.lastGood ≠ some l.index := by
  obtain ⟨q, hq, hpool⟩ := ht.pool_after_fault hask hfault s
  have hendpoint : ∀ (status : Status) (c : Channel),
      (c.observe (.error status : Except Status Unit)).endpoint = c.endpoint := by
    intro status c
    unfold Channel.observe
    split <;> rfl
  have hqacc : Pool.Accounted n pushed q ∧ q.closed = s.pool.closed ∧ q.owners = s.pool.owners := by
    rcases hq with rfl | ⟨status, rfl⟩
    · exact ⟨hacc, rfl, rfl⟩
    · exact ⟨hacc.alter (hendpoint status), Pool.alter_closed _,
        Pool.alter_owners (hendpoint status)⟩
  have hrelease : Pool.Accounted n pushed q.release := hqacc.1.of_eq rfl rfl rfl rfl rfl rfl
  subst hp
  rw [hpool]
  refine ⟨hrelease.invalidate _, ?_⟩
  unfold Pool.invalidate
  split
  · exact ⟨hqacc.2.1, hqacc.2.2, nofun⟩
  · rename_i hlast
    exact ⟨hqacc.2.1, hqacc.2.2, hlast⟩

/-! ## The next acquisition -/

namespace Pool

/-- The pool hands out channel `k` of endpoint `i`: no endpoint that worked last has a usable
channel, and none before `i` in the rotation has one. -/
def TurnsTo (p : Pool) (i k : Nat) : Prop :=
  p.recent? = none ∧ p.usable? i = some k ∧
    ∃ before after, p.drawRotation.1 = before ++ i :: after ∧ ∀ j ∈ before, p.usable? j = none

variable {p : Pool} {i j k : Nat} {rotation : List Nat}

theorem reusable?_eq_some : p.reusable? rotation = some (i, k) ↔ p.usable? i = some k ∧
    ∃ before after, rotation = before ++ i :: after ∧ ∀ j ∈ before, p.usable? j = none := by
  rw [reusable?, List.findSome?_eq_some_iff]
  constructor
  · rintro ⟨before, m, after, rfl, hm, hbefore⟩
    obtain ⟨_, hk, ⟨⟩⟩ := Option.map_eq_some_iff.1 hm
    exact ⟨hk, before, after, rfl, fun j hj => Option.map_eq_none_iff.1 (hbefore j hj)⟩
  · rintro ⟨hk, before, after, rfl, hbefore⟩
    exact ⟨before, i, after, rfl, by rw [hk]; rfl, fun j hj => by rw [hbefore j hj]; rfl⟩

theorem recent?_eq_some : p.recent? = some (i, k) ↔ p.lastGood = some i ∧ p.usable? i = some k := by
  unfold recent?
  cases p.lastGood with
  | none => simp
  | some m =>
    simp only [Option.bind_some, Option.map_eq_some_iff, Prod.mk.injEq, Option.some.injEq]
    constructor
    · rintro ⟨c, hc, rfl, rfl⟩
      exact ⟨rfl, hc⟩
    · rintro ⟨rfl, hk⟩
      exact ⟨k, hk, rfl, rfl⟩

/-- What an acquisition takes without a dial is in a usable slot. -/
theorem usable?_of_reused? (h : p.reused? = some (i, k)) : p.usable? i = some k := by
  unfold reused? at h
  cases hrecent : p.recent? with
  | some e =>
    rw [hrecent] at h
    cases h
    exact (recent?_eq_some.1 hrecent).2
  | none =>
    rw [hrecent, Option.none_or] at h
    exact (reusable?_eq_some.1 h).1

theorem reused?_eq_some_iff (hlast : p.lastGood ≠ some i) :
    p.reused? = some (i, k) ↔ p.TurnsTo i k := by
  unfold reused? TurnsTo
  cases hrecent : p.recent? with
  | some e =>
    obtain ⟨j, m⟩ := e
    have hj : j ≠ i := fun hji => hlast (hji ▸ (recent?_eq_some.1 hrecent).1)
    simp [hj]
  | none => simp [reusable?_eq_some]

theorem reused?_eq_none {n : Nat} {pushed : List Nat} (hacc : Accounted n pushed p) :
    p.reused? = none ↔ ∀ i, p.usable? i = none := by
  unfold reused?
  rw [Option.or_eq_none_iff, reusable?_eq_none]
  constructor
  · rintro ⟨-, hnone⟩ i
    by_contra hi
    obtain ⟨k, hk⟩ := Option.ne_none_iff_exists'.1 hi
    have hlt := lt_of_slot (usable?_eq_some.1 hk).1
    rw [hacc.slots_length, ← hacc.size_eq, ← List.mem_range, ← drawRotation_perm.mem_iff] at hlt
    exact hi (hnone i hlt)
  · intro hnone
    refine ⟨?_, fun i _ => hnone i⟩
    rw [Option.eq_none_iff_forall_ne_some]
    rintro ⟨i, k⟩ hrecent
    have := (recent?_eq_some.1 hrecent).2
    rw [hnone i] at this
    cases this

end Pool

/-- After a fault of a call over channel `l.channel`, the next acquisition hands out that channel
again exactly if the pool turns to it.  Otherwise it succeeds exactly if some channel is usable or
one of the enabled endpoints that its budget reaches accepts; and then with another endpoint or a
newer channel. -/
theorem handed_out_again_iff (ht : OverLease l t)
    (hask : t.advance s₀ = (.ask r dropped next, s₀)) (hfault : IsFault r a)
    (hreached : s.pool.Reached) (hopen : s.pool.closed = false)
    (hlease : s.pool.owners[l.channel]? = some l.index)
    (answer : (r : NetworkRequest) → Network.Answer r) :
    let s' := ((next a).advance s).2
    let p := s'.pool
    let Acquires := fun l' => (acquire.alone answer s').1 = .ok (.ok l')
    ((∃ l', Acquires l' ∧ l'.channel = l.channel) ↔ p.TurnsTo l.index l.channel) ∧
    ((∃ l', Acquires l' ∧ l'.channel ≠ l.channel) ↔ ¬ p.TurnsTo l.index l.channel ∧
      ((∃ i, p.usable? i ≠ none) ∨
        ∃ i ∈ (p.enabled p.drawRotation.1).take (max 1 p.policy.maxAttempts),
          Accepts answer p.dialTimeout i)) ∧
    ∀ l', Acquires l' → l'.channel ≠ l.channel → l'.index ≠ l.index ∨ l.channel < l'.channel := by
  intro s' p Acquires
  obtain ⟨n, pushed, hacc⟩ := hreached.accounted
  obtain ⟨hacc, hclosed, howners, hlast⟩ := ht.after_fault hask hfault hacc (p := p) rfl
  rw [← hclosed] at hopen
  rw [← howners] at hlease
  rw [← Pool.reused?_eq_some_iff hlast]
  cases hreused : p.reused? with
  | some e =>
    obtain ⟨i, k⟩ := e
    obtain ⟨s'', hrun⟩ := alone_acquire_reused answer hopen hreused
    have hacquires : ∀ l', Acquires l' ↔ l' = ⟨i, p.address i, k⟩ := by
      intro l'
      show (acquire.alone answer s').1 = _ ↔ _
      rw [hrun]
      simp [eq_comm, p]
    have husable := Pool.usable?_of_reused? hreused
    have hslot := (Pool.usable?_eq_some.1 husable).1
    have hindex : k = l.channel → i = l.index := by
      rintro rfl
      have := hacc.owner_of_slot i _ hslot
      rw [hlease] at this
      exact (Option.some.inj this).symm
    have hagain : some (i, k) = some (l.index, l.channel) ↔ k = l.channel := by
      rw [Option.some.injEq, Prod.mk.injEq]
      exact ⟨And.right, fun hk => ⟨hindex hk, hk⟩⟩
    simp only [hacquires, exists_eq_left, hagain]
    refine ⟨trivial, ?_, ?_⟩
    · exact ⟨fun hk => ⟨hk, .inl ⟨i, by rw [husable]; nofun⟩⟩, And.left⟩
    · rintro _ rfl hk
      by_cases hi : i = l.index
      · -- The slot of the endpoint has been filled again since the lease was handed out.
        subst hi
        exact .inr (Nat.lt_of_le_of_ne (hacc.newest _ _ hslot _ hlease) (Ne.symm hk))
      · exact .inl hi
  | none =>
    have hunusable := (Pool.reused?_eq_none hacc).1 hreused
    obtain ⟨r, s'', hrun, hiff, hchannel⟩ := alone_acquire_dialed answer hacc hopen hreused
    have hacquires : ∀ l', Acquires l' ↔ r = .ok l' := by
      intro l'
      show (acquire.alone answer s').1 = _ ↔ _
      rw [hrun]
      simp
    have hnewer : ∀ l', r = .ok l' → l.channel < l'.channel := by
      intro l' hl'
      rw [hchannel l' hl', ← Pool.owners_length]
      exact (List.getElem?_eq_some_iff.1 hlease).1
    simp only [hacquires]
    refine ⟨?_, ?_, fun l' hl' _ => .inr (hnewer l' hl')⟩
    · simp only [reduceCtorEq, iff_false, not_exists, not_and]
      exact fun l' hl' => Nat.ne_of_gt (hnewer l' hl')
    · constructor
      · rintro ⟨l', hl', -⟩
        exact ⟨nofun, .inr (hiff.1 ⟨l', hl'⟩)⟩
      · rintro ⟨-, ⟨i, hi⟩ | haccepts⟩
        · exact absurd (hunusable i) hi
        · obtain ⟨l', hl'⟩ := hiff.2 haccepts
          exact ⟨l', hl', Nat.ne_of_gt (hnewer l' hl')⟩

/-! ## Two endpoints, the first at fault -/

/-- A session over a fresh pool of two endpoints that are searched in their order. -/
def twoEndpoints : Session where
  pool := { endpoints := [{ address := "a" }, { address := "b" }], policy := .fixed 0 2,
            dialTimeout := 100 }
  clients := fun _ => { settings := {}, signer := ⟨[], .ok⟩ }

/-- The session after one acquisition has dialed the first endpoint. -/
def firstDialed (link : Link) : Session :=
  (Pool.after twoEndpoints [.acquire, .answer 0 (Pool.dialsOnly link)]).shared

/-- A call over the first endpoint. -/
def firstCall : Program (Except ClientError Response) :=
  callOver Response (.query "q" Deadlines.query) 300 { channel := 0, method := "m", payload := [] }
    ⟨0, "a", 0⟩

/-- The deadline of a call passes; every endpoint accepts dials; and the next acquisition hands out
the same channel again. -/
theorem silent_channel_handed_out_again :
    ∃ message dropped next,
      firstCall.advance (firstDialed .direct) =
        (.ask (.call message) dropped next, firstDialed .direct) ∧
      (acquire.alone (Pool.dialsOnly .direct) ((next .expired).advance (firstDialed .direct)).2).1 =
        .ok (.ok ⟨0, "a", 0⟩) :=
  ⟨_, _, _, rfl, rfl⟩

/-- A call is told that its node is unavailable, and the next acquisition hands out a new
channel. -/
theorem unavailable_channel_replaced :
    ∃ message dropped next,
      firstCall.advance (firstDialed .connection) =
        (.ask (.call message) dropped next, firstDialed .connection) ∧
      ∃ l, (acquire.alone (Pool.dialsOnly .connection)
          ((next (.ended (.error ⟨.unavailable, ""⟩))).advance (firstDialed .connection)).2).1 =
        .ok (.ok l) ∧ l.channel ≠ 0 := by
  let message : Call := { channel := 0, method := "m", payload := [] }
  let fault : Network.Answer (.call message) := .ended (.error ⟨.unavailable, ""⟩)
  have hcall : OverLease ⟨0, "a", 0⟩ firstCall := OverLease.call ..
  have hreached : (firstDialed .connection).pool.Reached :=
    ⟨_, _, _, _, twoEndpoints, [.acquire, .answer 0 (Pool.dialsOnly .connection)], rfl⟩
  obtain ⟨dropped, next, hask, husable, hbudget⟩ : ∃ dropped next,
      firstCall.advance (firstDialed .connection) =
        (.ask (.call message) dropped next, firstDialed .connection) ∧
      let p := ((next fault).advance (firstDialed .connection)).2.pool
      p.usable? 0 = none ∧ 0 ∈ (p.enabled p.drawRotation.1).take (max 1 p.policy.maxAttempts) :=
    ⟨_, _, rfl, rfl, by decide⟩
  refine ⟨message, dropped, next, hask, ?_⟩
  refine (handed_out_again_iff (a := fault) hcall hask rfl hreached rfl rfl
    (Pool.dialsOnly .connection)).2.1.2 ⟨?_, .inr ⟨0, hbudget, .connection, rfl⟩⟩
  rintro ⟨-, hk, -⟩
  rw [husable] at hk
  cases hk

end LedgerClient
