import LedgerClient.Proofs.Session.Operating
import LedgerClient.Proofs.Subscription.Working
import LedgerClient.Proofs.Task.Party

/-!
# Where the leases are

Any number of clients use one pool.  Their operations take turns wherever they wait, and may be
dropped there; leases are acquired, kept and given back; the workers of feeds go on and end; and
meanwhile signers are replaced, feeds are cancelled, faults are reported, channels change their
states and the pool is closed.

A lease that is out is in one of three hands: somebody has acquired it and not given it back, or an
operation has it that waits for its call or for the opening of its stream, or the worker of a feed
that has not ended.  `leased_eq` says that the pool counts just these.
-/

namespace LedgerClient

open Account Ledger Rpc Settings Transport

/-- Operations over a session. -/
abbrev Operators : Type := Party Network Session Command.Yield

/-- The operation has ended with a lease, which has not been given back. -/
def holdsLease : Program Command.Yield → Bool
  | .done (.ok (some _)) => true
  | _ => false

/-- The operation waits for its call or for the opening of its stream. -/
def isCalling : Program Command.Yield → Bool
  | .ask r _ _ => NetworkRequest.isCall r
  | _ => false

/-- What becomes of the session when an operation is dropped, or the lease that it has ended
with. -/
def letGo : Program Command.Yield → Session → Session
  | .done (.ok (some _)), s => s.release
  | t, s => t.drop s

namespace Operators

/-! ## What happens -/

/-- What happens to operations, or to the session from outside. -/
inductive Event where
  /-- A client begins an operation. -/
  | begin (c : Nat) (o : Command)
  /-- The pause of an operation is over. -/
  | wake (i : Nat)
  /-- An operation is answered, as `reply` answers its request. -/
  | answer (i : Nat) (reply : (r : NetworkRequest) → Network.Answer r)
  /-- An operation is dropped, or the lease that it has ended with. -/
  | drop (i : Nat)
  /-- The worker of a feed takes a step. -/
  | work (feed : Nat) (arrival : Option Frame)
  | cancel (feed : Nat)
  | cancelScope (scope : Scope)
  /-- The reader of a feed goes. -/
  | dropReader (feed : Nat)
  | setSigner (c : Nat) (signer : Signer)
  /-- A fault of an endpoint is reported. -/
  | invalidate (endpoint : Nat)
  /-- The state of a channel changes. -/
  | turn (channel : Nat) (state : Connectivity)
  | close

/-- What an event does to the session that no operation does. -/
def Event.outside : Event → Session → Session
  | work feed arrival => Session.stepFeed feed arrival
  | cancel feed => Session.cancelFeed feed
  | cancelScope scope => Session.cancelScope scope
  | dropReader feed => Session.dropFeed feed
  | setSigner c signer => Session.setSigner c signer
  | invalidate endpoint => Session.alterPool (Pool.invalidate endpoint)
  | turn channel state => Session.alterPool fun p => p.alter channel ({ · with state })
  | close => Session.alterPool Pool.close
  | begin .. | wake _ | answer .. | drop _ => id

/-- The operations after an event.  An event that does not fit changes nothing. -/
def next (w : Operators) : Event → Operators
  | .begin c o => Party.step w (.enter (o.task c))
  | .wake i => Party.step w (.wake i)
  | .answer i reply => Party.step w (.answer i reply)
  | .drop i =>
    match w.member? i with
    | some t => { shared := letGo t w.shared, members := w.members.set i none }
    | none => w
  | e => Party.step w (.change e.outside)

/-- The operations over a session without feeds after some events. -/
def after (s : Session) (events : List Event) : Operators :=
  events.foldl next { shared := { s with feeds := [] } }

theorem after_concat (s : Session) (events : List Event) (e : Event) :
    after s (events ++ [e]) = (after s events).next e := by
  simp [after]

/-- The leases that were acquired and not given back. -/
def held (w : Operators) : Nat := w.members.countP fun o => o.any holdsLease

/-- The calls and openings that wait for their answers. -/
def calling (w : Operators) : Nat := w.members.countP fun o => o.any isCalling

/-! ## The leases of operations -/

/-- The leases that an operation has where it stops. -/
def leases (t : Program Command.Yield) : Nat := (holdsLease t).toNat + (isCalling t).toNat

variable {w : Operators} {i k n : Nat} {t : Program Command.Yield} {s : Session}
  {settings : Nat → ClientSettings}

theorem ite_eq_toNat (b : Bool) : (if b then 1 else 0) = b.toNat := by cases b <;> rfl

/-- What is counted besides the operation at one place. -/
theorem exists_rest (hi : w.member? i = some t) (p : Program Command.Yield → Bool) :
    ∃ rest, w.members.countP (fun o => o.any p) = rest + (p t).toNat ∧
      ∀ o, (w.members.set i o).countP (fun o => o.any p) = rest + (o.any p).toNat := by
  have hset : ∀ o, (w.members.set i o).countP (fun o => o.any p) + (p t).toNat =
      w.members.countP (fun o => o.any p) + (o.any p).toNat := fun o => by
    simpa only [ite_eq_toNat, Option.any_some] using
      countP_set_add (p := fun o => Option.any p o) (Party.member?_eq_some.1 hi) o
  have hnone := hset none
  simp only [Option.any_none, Bool.toNat_false] at hnone
  refine ⟨(w.members.set i none).countP fun o => o.any p, hnone.symm, fun o => ?_⟩
  have := hset o
  omega

/-- The leases that the others have, and what they have with the operation at one place. -/
theorem exists_others (hi : w.member? i = some t) : ∃ others,
    w.held + w.calling = others + leases t ∧ ∀ (s : Session) (o : Option (Program Command.Yield)),
      let u : Operators := { shared := s, members := w.members.set i o }
      u.held + u.calling = others + o.elim 0 leases := by
  obtain ⟨held, hheld, hheld'⟩ := exists_rest hi holdsLease
  obtain ⟨calling, hcalling, hcalling'⟩ := exists_rest hi isCalling
  refine ⟨held + calling, ?_, fun s o => ?_⟩
  · rw [Operators.held, Operators.calling, hheld, hcalling, leases]
    omega
  · dsimp only [Operators.held, Operators.calling]
    rw [hheld', hcalling']
    cases o with
    | none => rfl
    | some u =>
      simp only [Option.any_some, Option.elim, leases]
      omega

/-! ## What is kept -/

theorem countsLeases : CountsLeases Session.LeasesOut where
  of_eq hleased hfeeds h := h.of_eq hleased hfeeds
  lend hleased hfeeds h := h.lend hleased hfeeds
  release h := h.release
  start hfeed h := h.start hfeed
  take id h := h.takeItem id

/-- So many leases are out besides those of workers. -/
abbrev Out (settings : Nat → ClientSettings) (k : Nat) (s : Session) : Prop :=
  Balanced Session.LeasesOut settings k s

/-- The operation keeps its terms, and has at its end the lease that it yields. -/
def IsTrue (settings : Nat → ClientSettings) (t : Program Command.Yield) (k : Nat) (s : Session) :
    Prop :=
  t.Meets (operating Session.LeasesOut settings)
    (fun r k s => Out settings (k + Command.handed r) s) k s

theorem leases_ask {r : Network.Request} {dropped : Session → Session}
    {next : Network.Answer r → Program Command.Yield} :
    leases (.ask r dropped next) = leasesAt (some r) := Nat.zero_add _

/-- Where an operation stops, the leases that it has are out. -/
theorem out_advance (h : IsTrue settings t k s) :
    Out settings (k + leases (t.advance s).1) (t.advance s).2 := by
  induction t generalizing s with
  | done r => rcases r with _ | _ | _ <;> exact h
  | crash c => exact h.2
  | read next ih => exact ih s h
  | write s' next ih => exact ih () h
  | pause span dropped next ih => exact h.1
  | ask r dropped next ih =>
    show Out settings (k + leases (.ask r dropped next)) s
    rw [leases_ask]
    exact h.1

/-- An operation that is dropped gives back what it has. -/
theorem out_letGo {k' : Nat} {s' : Session} (h : IsTrue settings t k' s')
    (hs : Out settings (k + leases t) s) : Out settings k (letGo t s) := by
  cases t with
  | done r =>
    rcases r with e | _ | l
    · exact hs
    · exact hs
    · exact hs.release countsLeases
  | crash c | read next | write s next => exact hs
  | pause span dropped next => exact (h.2 k s hs).1
  | ask r dropped next =>
    rw [leases_ask] at hs
    exact (h.2 k s hs).1

/-- Nothing that happens to the session from outside is about leases but those of workers. -/
theorem out_outside (h : Out settings k s) (e : Event) : Out settings k (e.outside s) := by
  cases e with
  | begin | wake | answer | drop => exact h
  | work feed arrival =>
    refine ⟨h.count.stepFeed feed arrival, fun c => ?_⟩
    rw [← h.settings_eq c, Event.outside, Session.stepFeed]
    split
    · rfl
    · dsimp only
      split <;> rfl
  | cancel feed | dropReader feed =>
    refine ⟨h.count.alterFeed feed fun _ => rfl, fun c => ?_⟩
    rw [← h.settings_eq c]
    simp only [Event.outside, Session.cancelFeed, Session.dropFeed, Session.alterFeed]
    split <;> rfl
  | cancelScope scope => exact ⟨h.count, h.settings_eq⟩
  | setSigner c signer => exact h.alterClient countsLeases c (f := ({ · with signer })) fun _ => rfl
  | invalidate endpoint => exact h.onPool countsLeases Pool.invalidate_leased
  | turn channel state => exact h.onPool countsLeases (Pool.alter_leased _ _)
  | close => exact h.onPool countsLeases Pool.close_leased

/-- The leases that are out are those that operations have, besides those of workers and `n`
others, and every operation keeps its terms. -/
structure Audited (n : Nat) (settings : Nat → ClientSettings) (w : Operators) : Prop where
  out : Out settings (n + (w.held + w.calling)) w.shared
  isTrue : ∀ t, some t ∈ w.members → ∃ k s, IsTrue settings t k s

theorem Audited.resume (h : Audited n settings w) (hi : w.member? i = some t)
    {u : Program Command.Yield}
    (hu : ∀ others, Out settings (n + others + leases t) w.shared →
      IsTrue settings u (n + others) w.shared) : Audited n settings (w.resume i u) := by
  obtain ⟨others, hbefore, hafter⟩ := exists_others hi
  have hout := h.out
  rw [hbefore, ← Nat.add_assoc] at hout
  have hadvance := out_advance (hu others hout)
  refine ⟨?_, fun v hv => ?_⟩
  · have := hafter (u.advance w.shared).2 (some (u.advance w.shared).1)
    rw [Party.resume, this, ← Nat.add_assoc]
    exact hadvance
  · rcases List.mem_or_eq_of_mem_set hv with hv | hv
    · exact h.isTrue v hv
    · rw [Option.some.inj hv]
      exact ⟨_, _, Task.Meets.advance (hu others hout)⟩

theorem Audited.next (h : Audited n settings w) (e : Event) : Audited n settings (w.next e) := by
  cases e with
  | begin c o =>
    have hmeets : IsTrue settings (o.task c) (n + (w.held + w.calling)) w.shared :=
      o.meets_task countsLeases c h.out
    have hadvance := out_advance hmeets
    refine ⟨?_, fun t ht => ?_⟩
    · have hcounts : (w.next (.begin c o)).held + (w.next (.begin c o)).calling =
          w.held + w.calling + leases ((o.task c).advance w.shared).1 := by
        simp only [Operators.next, Party.step, held, calling, leases, List.countP_append,
          List.countP_singleton, Option.any_some, ite_eq_toNat]
        omega
      rw [hcounts, ← Nat.add_assoc]
      exact hadvance
    · rcases List.mem_append.1 ht with ht | ht
      · exact h.isTrue t ht
      · rw [Option.some.inj (List.mem_singleton.1 ht)]
        exact ⟨_, _, Task.Meets.advance hmeets⟩
  | wake i =>
    simp only [Operators.next, Party.step]
    split
    · rename_i hi
      obtain ⟨_, _, ht⟩ := h.isTrue _ (Party.mem_of_member? hi)
      exact h.resume hi fun others hs => (ht.2 _ _ hs).2
    · exact h
  | answer i reply =>
    simp only [Operators.next, Party.step]
    split
    · rename_i r dropped next hi
      obtain ⟨_, _, ht⟩ := h.isTrue _ (Party.mem_of_member? hi)
      refine h.resume hi fun others hs => (ht.2 _ _ ?_).2 (reply r)
      rwa [leases_ask] at hs
    · exact h
  | drop i =>
    simp only [Operators.next]
    split
    · rename_i t hi
      obtain ⟨others, hbefore, hafter⟩ := exists_others hi
      obtain ⟨_, _, ht⟩ := h.isTrue _ (Party.mem_of_member? hi)
      have hout := h.out
      rw [hbefore, ← Nat.add_assoc] at hout
      refine ⟨?_, fun v hv => ?_⟩
      · rw [hafter]
        exact out_letGo ht hout
      · rcases List.mem_or_eq_of_mem_set hv with hv | hv
        · exact h.isTrue v hv
        · cases hv
    · exact h
  | work feed arrival => exact ⟨out_outside h.out (.work feed arrival), h.isTrue⟩
  | cancel feed => exact ⟨out_outside h.out (.cancel feed), h.isTrue⟩
  | cancelScope scope => exact ⟨out_outside h.out (.cancelScope scope), h.isTrue⟩
  | dropReader feed => exact ⟨out_outside h.out (.dropReader feed), h.isTrue⟩
  | setSigner c signer => exact ⟨out_outside h.out (.setSigner c signer), h.isTrue⟩
  | invalidate endpoint => exact ⟨out_outside h.out (.invalidate endpoint), h.isTrue⟩
  | turn channel state => exact ⟨out_outside h.out (.turn channel state), h.isTrue⟩
  | close => exact ⟨out_outside h.out .close, h.isTrue⟩

theorem audited_after (s : Session) (events : List Event) :
    Audited s.pool.leased (fun c => (s.clients c).settings) (after s events) := by
  induction events using List.reverseRecOn with
  | nil => exact ⟨⟨rfl, fun _ => rfl⟩, nofun⟩
  | append_singleton events e ih =>
    rw [after_concat]
    exact ih.next e

/-- Whatever the operations are, however they take turns, whatever they are told and whichever are
dropped, the leases that are out, besides those that were out at the start, are those that were
acquired and not given back, one for each call or opening that waits for its answer, and one for
each feed whose worker has not ended.  So nobody gives back what was lent to another; and when
nobody has a lease and no worker is left, as many are out as at the start. -/
theorem leased_eq (s : Session) (events : List Event) :
    let w := after s events
    w.shared.pool.leased = s.pool.leased + (w.held + w.calling + w.shared.working) ∧
    ((∀ t, some t ∈ w.members → holdsLease t = false ∧ isCalling t = false) →
      (∀ feed ∈ w.shared.feeds, feed.reason?.isSome) → w.shared.pool.leased = s.pool.leased) := by
  intro w
  have hleased : w.shared.pool.leased = s.pool.leased + (w.held + w.calling) + w.shared.working :=
    (audited_after s events).out.count
  refine ⟨by omega, fun hmembers hfeeds => ?_⟩
  have hheld : w.held = 0 := by
    rw [held, List.countP_eq_zero]
    rintro (_ | t) ht
    · simp
    · simp [(hmembers t ht).1]
  have hcalling : w.calling = 0 := by
    rw [calling, List.countP_eq_zero]
    rintro (_ | t) ht
    · simp
    · simp [(hmembers t ht).2]
  have hworking : w.shared.working = 0 := by
    rw [Session.working, List.countP_eq_zero]
    intro feed hfeed
    simp [Option.isSome_iff_ne_none.1 (hfeeds feed hfeed)]
  omega

end Operators
end LedgerClient
