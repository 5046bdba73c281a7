import LedgerClient.Proofs.Session.Calling
import LedgerClient.Proofs.Submission.Turns

/-!
# Submissions and their turns

A submission that looks its nonce up draws a ticket when it begins, and from then on is in one of
three phases.  It waits for its turn; or it has the turn, asks for the nonce and sends, and will
give the ticket back whether it ends or is dropped; or it is over.  Any other submission makes its
call without touching the account locks.
-/

namespace LedgerClient

open Account Ledger Rpc Wire

/-! ## Turns of submissions -/

namespace Session

/-- Gives the ticket of a turn back. -/
def giveUp (p : Turn) : Session → Session := alterLocks p.client fun t => t.giveUp p.ticket

/-- Looks whether the ticket of a turn has been handed its mutex. -/
def poll (p : Turn) : Session → Session := alterLocks p.client fun t => t.poll p.ticket

theorem alterLocks_locks_self (c : Nat) (f : LockTable → LockTable) (s : Session) :
    ((s.alterLocks c f).clients c).locks = f (s.clients c).locks := by
  simp [alterLocks, alterClient]

theorem alterLocks_locks_ne {b c : Nat} (h : b ≠ c) (f : LockTable → LockTable) (s : Session) :
    ((s.alterLocks c f).clients b).locks = (s.clients b).locks := by
  simp [alterLocks, alterClient, h]

theorem setSigner_locks (c : Nat) (signer : Signer) (s : Session) (b : Nat) :
    ((s.setSigner c signer).clients b).locks = (s.clients b).locks := by
  show (if b = c then _ else _ : Client).locks = _
  split <;> rfl

theorem giveUp_clients (p : Turn) {s₀ s : Session} (h : s.clients = s₀.clients) :
    (s.giveUp p).clients = (s₀.giveUp p).clients := by
  simp only [giveUp, alterLocks, alterClient, h]

end Session

/-- The turn that a submission takes when it begins, if it looks its nonce up. -/
def takenTurn? (c : Nat) (d : Draft) (o : SubmitOptions) (s : Session) : Option Turn :=
  match d.requireSender, o.nonceSource with
  | .ok _, .ok .remote =>
    some { client := c
           account := o.lookup.getD (o.signer.getD (s.clients c).signer).address
           ticket := (s.clients c).locks.nextTicket }
  | _, _ => none

theorem ticket_of_takenTurn? {c : Nat} {d : Draft} {o : SubmitOptions} {s : Session} {p : Turn}
    (h : takenTurn? c d o s = some p) : p.ticket = (s.clients p.client).locks.nextTicket := by
  unfold takenTurn? at h
  split at h
  · cases h
    rfl
  · cases h

/-- Whoever has the turn asks for the nonce of its account, and sends nothing below the floor. -/
def TurnAsks (p : Turn) (floor : Nat) : NetworkRequest → Prop
  | .dial .. => True
  | .call k =>
    (k.method = Method.pendingNonce.name ∧
        k.payload = Message.encode ({ address := p.account.text } : AccountQuery)) ∨
      (k.method = Method.sendTransaction.name ∧
        ∃ t : Transaction, k.payload = Message.encode t ∧ floor ≤ t.nonce.toNat)
  | _ => False

/-- Whoever has the turn is told no nonce below the floor. -/
def TurnAnswers (floor : Nat) : (r : NetworkRequest) → Network.Answer r → Prop
  | .call k, reply => k.method = Method.pendingNonce.name →
      ∀ v, Reply.nonce? reply = some v → floor ≤ v.toNat
  | _, _ => True

/-- The conduct of a submission that has the turn. -/
def havingTurn (p : Turn) (floor : Nat) : Conduct Network Session Unit :=
  { calling (TurnAsks p floor) (TurnAnswers floor) with
    drops := fun s s' => s'.clients = (s.giveUp p).clients }

/-- The ticket of the turn has been given back, and nothing else has happened to the clients. -/
abbrev returning {α : Type} (p : Turn) : Task.Ending Network Session Unit α :=
  fun _ _ _ s₀ s => s.clients = (s₀.giveUp p).clients

/-- What a submission does under the lock. -/
def lookUpAndSend (c : Nat) (account : Address) (d : Draft) (signer : Signer) :
    Program (Except ClientError String) :=
  (lookUpNonce c account).andThen (signThen d signer (sendSigned c))

theorem obeys_lookUpAndSend (p : Turn) (d : Draft) (signer : Signer) (floor : Nat)
    {told : Option Network.Told} {s₀ s : Session} (h : s.clients = s₀.clients) :
    ((lookUpAndSend p.client p.account d signer).ensuring (Session.giveUp p)).Obeys
      (havingTurn p floor) (returning p) () told s₀ s := by
  have hbody : (lookUpAndSend p.client p.account d signer).Obeys
      (calling (TurnAsks p floor) (TurnAnswers floor)) (leaving fun _ => True) () told s₀ s := by
    have hlookup : (lookUpNonce p.client p.account).Obeys
        (calling (TurnAsks p floor) (TurnAnswers floor))
        (leaving (Succeeds fun v => floor ≤ v.toNat)) () told s₀ s :=
      obeys_lookUpNonce _ _ (fun _ _ => trivial) (fun _ hk hpayload => .inl ⟨hk, hpayload⟩)
        (fun _ _ v hk hreply hv => hreply hk v hv) h
    refine hlookup.andThen (fun _ => trivial) fun nonce told s₀ s hnonce h => ?_
    refine obeys_signThen_sendSigned _ d signer nonce (fun _ _ => trivial) ?_ h
    rintro k t hk hpayload rfl
    exact .inr ⟨hk, t, hpayload, hnonce⟩
  refine Task.Obeys.ensuring (C := calling (TurnAsks p floor) (TurnAnswers floor)) ?_ ?_
  · exact hbody.imp fun _ _ _ _ _ h => Session.giveUp_clients p h.1
  · exact fun _ _ h => Session.giveUp_clients p h

/-! ## How a submission begins -/

/-- The task has the turn, and waits. -/
def HasTurn (p : Turn) (floor : Nat) (t : Program (Except ClientError String)) : Prop :=
  (∃ told s₀ s, t.Obeys (havingTurn p floor) (returning p) () told s₀ s) ∧ t.Waits

/-- The task waits for its turn, and then goes on as one that has it. -/
def AwaitsTurn (p : Turn) (t : Program (Except ClientError String)) : Prop :=
  ∃ (u : Program (Except ClientError String)) (next : Unit → Program (Except ClientError String)),
    t = .ask (.turn p.client p.ticket) (Session.giveUp p) next ∧
    (∀ s, (next ()).advance s = u.advance (s.poll p)) ∧
    ∀ floor s, u.Obeys (havingTurn p floor) (returning p) () none s s

/-- A submission without a turn makes its call without touching the clients. -/
def freely : Conduct Network Session Unit :=
  calling (fun r => ∀ c ticket, r ≠ .turn c ticket) fun _ _ => True

theorem obeys_submit_of_none {c : Nat} {d : Draft} {o : SubmitOptions} {s : Session}
    (h : takenTurn? c d o s = none) :
    (submit c d o).Obeys freely (leaving fun _ => True) () none s s := by
  unfold takenTurn? at h
  unfold submit withSigned
  split
  · exact ⟨rfl, trivial⟩
  · rename_i sender hsender
    rw [hsender] at h
    split
    · exact ⟨rfl, trivial⟩
    · rename_i source hsource
      rw [hsource] at h
      cases source with
      | remote => cases h
      | explicit nonce =>
        refine Task.Obeys.bind (Q := leaving fun _ => True) (Task.obeys_get.2 ⟨rfl, trivial⟩) ?_
        rintro _ t told s₀ s ⟨hclients, -⟩
        exact obeys_signThen_sendSigned c d _ nonce (fun _ _ => nofun) (fun _ _ _ _ _ => nofun)
          hclients

/-- Whoever takes a lock draws a ticket, and then goes on at once or waits for the turn. -/
theorem advance_locked {α : Type} {p : Turn} {s : Session} (t : Program α)
    (hp : p.ticket = (s.clients p.client).locks.nextTicket) :
    let drawn := s.drawTicket p.client p.account
    (drawn.1.standing = .held →
      (locked p.client p.account t).advance s =
        (t.ensuring (Session.giveUp p)).advance drawn.2) ∧
    (drawn.1.standing ≠ .held → ∃ next : Unit → Program α,
      (locked p.client p.account t).advance s =
        (.ask (.turn p.client p.ticket) (Session.giveUp p) next, drawn.2) ∧
      ∀ s, (next ()).advance s = (t.ensuring (Session.giveUp p)).advance (s.poll p)) := by
  intro drawn
  have hid : drawn.1.id = p.ticket := by
    rw [hp]
    show ((s.clients p.client).locks.draw p.account).1.id = _
    rw [LockTable.draw_fst]
  have hbegin : (locked p.client p.account t).advance s =
      (((awaitTurn p.client drawn.1).bind fun _ => t).ensuring
        (Session.alterLocks p.client fun table => table.giveUp drawn.1.id)).advance drawn.2 := rfl
  rw [hid] at hbegin
  refine ⟨fun hheld => ?_, fun hwaiting => ?_⟩
  · rw [hbegin, awaitTurn, if_pos hheld]
    rfl
  · refine ⟨fun _ => ((Task.modify (Session.poll p)).bind fun _ => t).ensuring (Session.giveUp p),
      ?_, fun s => rfl⟩
    rw [hbegin, awaitTurn, if_neg hwaiting, hid]
    rfl

/-- A submission that takes a turn draws its ticket, and then has the turn at once or waits. -/
theorem advance_submit_of_turn {c : Nat} {d : Draft} {o : SubmitOptions} {s : Session} {p : Turn}
    (h : takenTurn? c d o s = some p) :
    let drawn := s.drawTicket p.client p.account
    (drawn.1.standing = .held → ∃ u : Program (Except ClientError String),
      (submit c d o).advance s = u.advance drawn.2 ∧
      ∀ floor s, u.Obeys (havingTurn p floor) (returning p) () none s s) ∧
    (drawn.1.standing ≠ .held → ∃ u, (submit c d o).advance s = (u, drawn.2) ∧
      AwaitsTurn p u) := by
  have hp := ticket_of_takenTurn? h
  unfold takenTurn? at h
  split at h
  · rename_i sender hsender hsource
    have hlocked : ∃ signer, (submit c d o).advance s =
        (locked p.client p.account (lookUpAndSend p.client p.account d signer)).advance s := by
      cases h
      unfold submit withSigned
      rw [hsender, hsource]
      exact ⟨_, rfl⟩
    obtain ⟨signer, hlocked⟩ := hlocked
    have hobeys : ∀ floor s, ((lookUpAndSend p.client p.account d signer).ensuring
        (Session.giveUp p)).Obeys (havingTurn p floor) (returning p) () none s s :=
      fun floor _ => obeys_lookUpAndSend p d signer floor rfl
    rw [hlocked]
    obtain ⟨hheld, hwaiting⟩ :=
      advance_locked (lookUpAndSend p.client p.account d signer) hp
    refine ⟨fun h => ⟨_, hheld h, hobeys⟩, fun h => ?_⟩
    obtain ⟨next, hadvance, hnext⟩ := hwaiting h
    exact ⟨_, hadvance, _, next, rfl, hnext, hobeys⟩
  · cases h

end LedgerClient
