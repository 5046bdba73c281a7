import LedgerClient.Proofs.Session.Errands

/-!
# Where an errand stands

An errand under its mandate makes its call freely, or waits for its turn, or has the turn, or is
over.  `Mandate.Stands` says this of its task and of the lock tables.  Two things are shown here:
where an errand stands is not changed by others, who leave its ticket alone, and an errand that goes
on or is dropped gives no ticket back but its own.
-/

namespace LedgerClient

open Account Ledger Rpc Wire

/-! ## What others leave of a ticket -/

namespace LockTable

variable {gone : Nat → Prop} {t u v : LockTable}

theorem Follows.refl (gone : Nat → Prop) (t : LockTable) : t.Follows gone t where
  next_le := Nat.le_refl _
  kept k hk _ := ⟨k, hk, rfl, rfl, id⟩
  old l hl _ := ⟨l, hl, rfl⟩

theorem Follows.imp {gone' : Nat → Prop} (h : t.Follows gone u) (himp : ∀ n, gone n → gone' n) :
    t.Follows gone' u :=
  ⟨h.next_le, fun k hk hgone => h.kept k hk fun hk => hgone (himp _ hk), h.old⟩

theorem Follows.trans (htu : t.Follows gone u) (huv : u.Follows gone v) : t.Follows gone v where
  next_le := Nat.le_trans htu.next_le huv.next_le
  kept k hk hgone := by
    obtain ⟨l, hl, hlk, hla, hlo⟩ := htu.kept k hk hgone
    obtain ⟨l', hl', hlk', hla', hlo'⟩ := huv.kept l hl (by rwa [hlk])
    exact ⟨l', hl', hlk'.trans hlk, hla'.trans hla, hlo' ∘ hlo⟩
  old l hl hlt := by
    obtain ⟨k, hk, hkl⟩ := huv.old l hl (Nat.lt_of_lt_of_le hlt htu.next_le)
    obtain ⟨k', hk', hkk'⟩ := htu.old k hk (by rwa [hkl])
    exact ⟨k', hk', hkk'.trans hkl⟩

end LockTable

namespace Session

/-- `s'` comes after `s`: no lock table has come into disorder, and of the tickets of each client
those that are `gone` alone have been given back. -/
def Follows (gone : Nat → Nat → Prop) (s s' : Session) : Prop :=
  ∀ c, ((s.clients c).locks.WellFormed → (s'.clients c).locks.WellFormed) ∧
    (s.clients c).locks.Follows (gone c) (s'.clients c).locks

variable {gone : Nat → Nat → Prop} {s s' : Session} {p : Turn}

theorem follows_of_locks_eq (gone : Nat → Nat → Prop)
    (h : ∀ c, (s'.clients c).locks = (s.clients c).locks) : s.Follows gone s' := by
  intro c
  rw [h c]
  exact ⟨id, .refl ..⟩

theorem follows_of_clients_eq (gone : Nat → Nat → Prop) (h : s'.clients = s.clients) :
    s.Follows gone s' :=
  follows_of_locks_eq gone fun c => by rw [h]

theorem Follows.trans {s'' : Session} (h : s.Follows gone s') (h' : s'.Follows gone s'') :
    s.Follows gone s'' :=
  fun c => ⟨fun hc => (h' c).1 ((h c).1 hc), (h c).2.trans (h' c).2⟩

theorem follows_alterLocks {c : Nat} {f : LockTable → LockTable}
    (hf : ∀ t : LockTable, (t.WellFormed → (f t).WellFormed) ∧ t.Follows (gone c) (f t)) :
    s.Follows gone (s.alterLocks c f) := by
  intro b
  by_cases hb : b = c
  · subst hb
    rw [alterLocks_locks_self]
    exact hf _
  · rw [alterLocks_locks_ne hb]
    exact ⟨id, .refl ..⟩

theorem drawTicket_snd (c : Nat) (a : Address) (s : Session) :
    (s.drawTicket c a).2 = s.alterLocks c fun t => (t.draw a).2 := by
  simp only [drawTicket, alterLocks, alterClient]
  congr 1
  funext b
  split
  · rename_i hb
    rw [hb]
  · rfl

theorem follows_drawTicket (gone : Nat → Nat → Prop) (c : Nat) (a : Address) (s : Session) :
    s.Follows gone (s.drawTicket c a).2 := by
  rw [drawTicket_snd]
  exact follows_alterLocks fun t => ⟨fun h => h.draw a, (t.follows_draw a).imp nofun⟩

theorem follows_poll (gone : Nat → Nat → Prop) (p : Turn) (s : Session) :
    s.Follows gone (s.poll p) :=
  follows_alterLocks fun t => ⟨fun h => h.poll p.ticket, (t.follows_poll p.ticket).imp nofun⟩

theorem follows_giveUp (hp : gone p.client p.ticket) (h : s'.clients = (s.giveUp p).clients) :
    s.Follows gone s' :=
  Follows.trans
    (follows_alterLocks fun t => ⟨fun h => h.giveUp p.ticket,
      (t.follows_giveUp p.ticket).imp fun _ hn => hn ▸ hp⟩)
    (follows_of_clients_eq gone h)

/-- The ticket of a turn is in its queue. -/
def Queues (s : Session) (p : Turn) : Prop :=
  ∃ k ∈ (s.clients p.client).locks.tickets, k.id = p.ticket ∧ k.account = p.account

/-- The ticket of a turn has been handed its mutex. -/
def Grants (s : Session) (p : Turn) : Prop :=
  ∃ k ∈ (s.clients p.client).locks.tickets, k.id = p.ticket ∧ k.account = p.account ∧ k.Owns

theorem Queues.follows (h : s.Queues p) (hfollows : s.Follows gone s')
    (hp : ¬ gone p.client p.ticket) : s'.Queues p := by
  obtain ⟨k, hk, hid, ha⟩ := h
  obtain ⟨l, hl, hlid, hla, -⟩ := (hfollows p.client).2.kept k hk (by rwa [hid])
  exact ⟨l, hl, hlid.trans hid, hla.trans ha⟩

theorem Grants.follows (h : s.Grants p) (hfollows : s.Follows gone s')
    (hp : ¬ gone p.client p.ticket) : s'.Grants p := by
  obtain ⟨k, hk, hid, ha, ho⟩ := h
  obtain ⟨l, hl, hlid, hla, hlo⟩ := (hfollows p.client).2.kept k hk (by rwa [hid])
  exact ⟨l, hl, hlid.trans hid, hla.trans ha, hlo ho⟩

theorem Queues.grants (h : s.Queues p) (hs : (s.clients p.client).locks.WellFormed)
    (hhanded : (s.clients p.client).locks.isWaiting p.ticket = false) : s.Grants p := by
  obtain ⟨k, hk, hid, ha⟩ := h
  rw [← hid] at hhanded
  exact ⟨k, hk, hid, ha, hs.owns_of_isWaiting_eq_false hk hhanded⟩

/-- A ticket that was just drawn. -/
theorem drawn_mem (hp : p.ticket = (s.clients p.client).locks.nextTicket) :
    let drawn := s.drawTicket p.client p.account
    drawn.1 ∈ (drawn.2.clients p.client).locks.tickets ∧ drawn.1.id = p.ticket ∧
      drawn.1.account = p.account := by
  intro drawn
  have hfst : drawn.1 = ((s.clients p.client).locks.draw p.account).1 := rfl
  rw [drawTicket_snd, alterLocks_locks_self, hfst, LockTable.draw_tickets, LockTable.draw_fst]
  exact ⟨List.mem_append_right _ (List.mem_singleton.2 rfl), hp.symm, rfl⟩

end Session

/-! ## Where an errand stands -/

namespace Mandate

variable (m : Mandate)

/-- The task waits for its turn, and then goes on as one that has it. -/
def Awaits (p : Turn) (t : Program (Except ClientError Outcome)) : Prop :=
  ∃ next : Unit → Program (Except ClientError Outcome),
    t = .ask (.turn p.client p.ticket) (Session.giveUp p) next ∧
    ∀ s, (next ()).advance s = ((m.guarded p).ensuring (Session.giveUp p)).advance (s.poll p)

/-- How far an errand can have come. -/
inductive Stands (s : Session) : Program (Except ClientError Outcome) → Prop where
  /-- It takes no turn. -/
  | free {t : Program (Except ClientError Outcome)} {told : Option Network.Told} {s₀ s' : Session}
      (hturn : m.turn? = none)
      (hobeys : t.Obeys m.asking (leaving (Succeeds m.Yields)) () told s₀ s') : Stands s t
  | queued {t : Program (Except ClientError Outcome)} {p : Turn} (hturn : m.turn? = some p)
      (hawaits : m.Awaits p t) (hticket : s.Queues p) : Stands s t
  | holding {t : Program (Except ClientError Outcome)} {told : Option Network.Told}
      {s₀ s' : Session} {p : Turn} (hturn : m.turn? = some p)
      (hobeys : t.Obeys (m.underLock p) (m.returning p) () told s₀ s') (hwaits : t.Waits)
      (hticket : s.Grants p) : Stands s t
  /-- It has ended and given its ticket back. -/
  | past {r : Except ClientError Outcome} {p : Turn} (hturn : m.turn? = some p)
      (hyields : Succeeds m.Yields r) : Stands s (.done r)
  /-- It has crashed, and its ticket was given back. -/
  | crashed {c : Crash} {p : Turn} (hturn : m.turn? = some p) : Stands s (.crash c)

/-- The ticket is that of the turn. -/
def Owner (c ticket : Nat) : Prop := ∃ p, m.turn? = some p ∧ p.client = c ∧ p.ticket = ticket

/-- The task runs, gives no other ticket back than its own, and stands as it may afterwards. -/
def Goes (s : Session) (t : Program (Except ClientError Outcome)) : Prop :=
  s.Follows m.Owner (t.advance s).2 ∧ m.Stands (t.advance s).2 (t.advance s).1

variable {m} {s s' : Session} {t : Program (Except ClientError Outcome)} {p : Turn}
  {told : Option Network.Told}

theorem owner_of_turn (h : m.turn? = some p) : m.Owner p.client p.ticket := ⟨p, h, rfl, rfl⟩

/-- Where an errand stands is not changed by those who leave its ticket alone. -/
theorem Stands.follows {gone : Nat → Nat → Prop} (h : m.Stands s t) (hfollows : s.Follows gone s')
    (hgone : ∀ p, m.turn? = some p → ¬ gone p.client p.ticket) : m.Stands s' t := by
  cases h with
  | free hturn hobeys => exact .free hturn hobeys
  | queued hturn hawaits hticket =>
    exact .queued hturn hawaits (hticket.follows hfollows (hgone _ hturn))
  | holding hturn hobeys hwaits hticket =>
    exact .holding hturn hobeys hwaits (hticket.follows hfollows (hgone _ hturn))
  | past hturn hyields => exact .past hturn hyields
  | crashed hturn => exact .crashed hturn

theorem goes_of_free (hturn : m.turn? = none)
    (ht : t.Obeys m.asking (leaving (Succeeds m.Yields)) () told s s) : m.Goes s t :=
  ⟨Session.follows_of_clients_eq _ ht.clients_advance, .free hturn ht.advance⟩

theorem goes_of_turn (hturn : m.turn? = some p)
    (ht : t.Obeys (m.underLock p) (m.returning p) () told s s) (hticket : s.Grants p) :
    m.Goes s t := by
  unfold Goes
  rcases ht.advance_cases with ⟨r, hr, hgone, hyields⟩ | ⟨c, hc, s', hmoves, hdropped⟩ |
    ⟨hwaits, hclients⟩
  · rw [hr]
    exact ⟨Session.follows_giveUp (owner_of_turn hturn) hgone, .past hturn hyields⟩
  · rw [hc]
    have hgone := hdropped.trans (Session.giveUp_clients p hmoves)
    exact ⟨Session.follows_giveUp (owner_of_turn hturn) hgone, .crashed hturn⟩
  · have hfollows := Session.follows_of_clients_eq (fun _ _ => False) hclients
    exact ⟨Session.follows_of_clients_eq _ hclients,
      .holding hturn ht.advance hwaits (hticket.follows hfollows id)⟩

theorem goes_guarded (hturn : m.turn? = some p) (hticket : s.Grants p) :
    m.Goes s ((m.guarded p).ensuring (Session.giveUp p)) := by
  have hobeys : ((m.guarded p).ensuring (Session.giveUp p)).Obeys (m.underLock p) (m.returning p) ()
      none s s := obeys_guarded hturn rfl
  exact goes_of_turn hturn hobeys hticket

/-- A task goes as another does later. -/
theorem Goes.of_advance_eq {u : Program (Except ClientError Outcome)}
    (hadvance : t.advance s = u.advance s') (hfollows : s.Follows m.Owner s') (hu : m.Goes s' u) :
    m.Goes s t := by
  unfold Goes
  rw [hadvance]
  exact ⟨hfollows.trans hu.1, hu.2⟩

/-! ### What is seen of it -/

theorem Stands.asks {r : NetworkRequest} {dropped : Session → Session}
    {next : Network.Answer r → Program (Except ClientError Outcome)}
    (h : m.Stands s (.ask r dropped next)) :
    (∃ p, m.turn? = some p ∧ r = .turn p.client p.ticket) ∨ m.Asks r := by
  cases h with
  | free hturn hobeys =>
    obtain ⟨-, -, _, hasks, -⟩ := hobeys
    exact .inr hasks
  | queued hturn hawaits hticket =>
    obtain ⟨_, heq, -⟩ := hawaits
    cases heq
    exact .inl ⟨_, hturn, rfl⟩
  | holding hturn hobeys hwaits hticket =>
    obtain ⟨-, -, _, hasks, -⟩ := hobeys
    exact .inr hasks

theorem Stands.yields {out : Outcome} (h : m.Stands s (.done (.ok out))) : m.Yields out := by
  cases h with
  | free hturn hobeys => exact hobeys.2 out rfl
  | queued hturn hawaits hticket =>
    obtain ⟨_, heq, -⟩ := hawaits
    cases heq
  | holding hturn hobeys hwaits hticket => exact hwaits.elim
  | past hturn hyields => exact hyields out rfl

/-- An errand with a turn waits in the queue, or has the lock, or is over. -/
theorem Stands.turn_cases (h : m.Stands s t) (hturn : m.turn? = some p) :
    ((∃ dropped next, t = .ask (.turn p.client p.ticket) dropped next) ∧ s.Queues p) ∨
      s.Grants p ∨ t.Ended := by
  cases h with
  | free hnone hobeys =>
    rw [hnone] at hturn
    cases hturn
  | queued hsome hawaits hticket =>
    obtain rfl := Option.some.inj (hsome.symm.trans hturn)
    obtain ⟨next, rfl, -⟩ := hawaits
    exact .inl ⟨⟨_, next, rfl⟩, hticket⟩
  | holding hsome hobeys hwaits hticket =>
    obtain rfl := Option.some.inj (hsome.symm.trans hturn)
    exact .inr (.inl hticket)
  | past hsome hyields => exact .inr (.inr trivial)
  | crashed hsome => exact .inr (.inr trivial)

/-! ### Going on -/

theorem Stands.wake {span : Time.Millis} {dropped : Session → Session}
    {next : Unit → Program (Except ClientError Outcome)}
    (h : m.Stands s (.pause span dropped next)) : m.Goes s (next ()) := by
  cases h with
  | free hturn hobeys => exact goes_of_free hturn (hobeys.2.2 s trivial)
  | queued hturn hawaits hticket =>
    obtain ⟨_, heq, -⟩ := hawaits
    cases heq
  | holding hturn hobeys hwaits hticket => exact goes_of_turn hturn (hobeys.2.2 s trivial) hticket

/-- A turn that is granted to whom the mutex was handed is had from then on. -/
theorem Stands.answer {r : NetworkRequest} {dropped : Session → Session}
    {next : Network.Answer r → Program (Except ClientError Outcome)}
    (h : m.Stands s (.ask r dropped next)) (hs : ∀ c, (s.clients c).locks.WellFormed)
    (hhanded : ∀ c n, r = .turn c n → (s.clients c).locks.isWaiting n = false)
    (a : Network.Answer r) : m.Goes s (next a) := by
  cases h with
  | free hturn hobeys =>
    obtain ⟨-, -, _, -, hnext⟩ := hobeys
    exact goes_of_free hturn (hnext a trivial s trivial)
  | queued hturn hawaits hticket =>
    rename_i p
    obtain ⟨go, heq, hgo⟩ := hawaits
    cases heq
    have hgranted := hticket.grants (hs _) (hhanded _ _ rfl)
    have hpolled := hgranted.follows (Session.follows_poll (fun _ _ => False) p s) id
    exact .of_advance_eq (hgo s) (Session.follows_poll _ p s) (goes_guarded hturn hpolled)
  | holding hturn hobeys hwaits hticket =>
    obtain ⟨-, -, _, -, hnext⟩ := hobeys
    exact goes_of_turn hturn (hnext a trivial s trivial) hticket

theorem Stands.drop (h : m.Stands s t) : s.Follows m.Owner (t.drop s) := by
  cases h with
  | free hturn hobeys =>
    have hclients : (t.drop s).clients = s.clients := hobeys.drops_drop trivial rfl
    exact Session.follows_of_clients_eq _ hclients
  | queued hturn hawaits hticket =>
    obtain ⟨_, rfl, -⟩ := hawaits
    exact Session.follows_giveUp (owner_of_turn hturn) rfl
  | holding hturn hobeys hwaits hticket =>
    cases t with
    | pause span dropped next =>
      exact Session.follows_giveUp (owner_of_turn hturn) (hobeys.2.1 s trivial)
    | ask r dropped next =>
      exact Session.follows_giveUp (owner_of_turn hturn) (hobeys.2.1 s trivial)
    | done r | crash c | read next | write s next => exact hwaits.elim
  | past hturn hyields => exact Session.follows_of_clients_eq _ rfl
  | crashed hturn => exact Session.follows_of_clients_eq _ rfl

/-! ### Beginning -/

/-- The session once the ticket of a turn has been drawn. -/
def opened (m : Mandate) (s : Session) : Session :=
  match m.turn? with
  | some p => (s.drawTicket p.client p.account).2
  | none => s

end Mandate

theorem Errand.goes (e : Errand) (s : Session) :
    ∃ t, e.task.advance s = t.advance ((e.mandate s).opened s) ∧
      (e.mandate s).Goes ((e.mandate s).opened s) t := by
  unfold Mandate.opened
  cases hturn : (e.mandate s).turn? with
  | none => exact ⟨_, rfl, Mandate.goes_of_free hturn (e.obeys_task hturn)⟩
  | some p =>
    have hp := e.ticket_of_mandate hturn
    obtain ⟨hmem, hid, ha⟩ := Session.drawn_mem hp
    obtain ⟨hheld, hwaiting⟩ := advance_locked ((e.mandate s).guarded p) hp
    rw [← e.advance_task hturn] at hheld hwaiting
    -- Nobody has the lock, and it is had at once; or there is a queue to wait in.
    by_cases hstanding : (s.drawTicket p.client p.account).1.standing = .held
    · refine ⟨_, hheld hstanding, Mandate.goes_guarded hturn ⟨_, hmem, hid, ha, ?_⟩⟩
      simp [Ticket.Owns, hstanding]
    · obtain ⟨next, hadvance, hnext⟩ := hwaiting hstanding
      exact ⟨.ask (.turn p.client p.ticket) (Session.giveUp p) next, hadvance,
        Session.follows_of_clients_eq _ rfl, .queued hturn ⟨next, rfl, hnext⟩ ⟨_, hmem, hid, ha⟩⟩

end LedgerClient
