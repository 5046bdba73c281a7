import LedgerClient.Proofs.Session.Submitting
import LedgerClient.Proofs.Submission.Signing

/-!
# Errands

Whoever wants a draft signed has it submitted or has it prepared.  The two are one *errand*, which
settles a nonce and signs, and they differ in what is done with the signed transaction.

The client is looked at once, when the errand begins.  What comes of that look is the *mandate* of
the errand: its signer, and its turn at the lock of an account if it looks its nonce up.  The
conducts below say that from then on an errand asks for, and signs, what its mandate says.
-/

namespace LedgerClient

open Account Ledger Rpc Wire

/-! ## Signed transactions -/

/-- The transaction is the draft with some nonce, signed by the signer. -/
def Draft.SignedBy (d : Draft) (signer : Signer) (t : Transaction) : Prop :=
  ∃ nonce, d.sign nonce signer = .ok ⟨t⟩

/-- The curve accepts the signature of a transaction as one by the key of a signer. -/
def Account.Signer.Verifies (signer : Signer) (t : Transaction) : Prop :=
  ∃ (signature : Bytes) (point : Curve.Point),
    t.signature = algorithmTag :: signer.publicKey ++ signature ∧
    signer.publicKey.length = publicKeyLength ∧ signature.length = 64 ∧
    Curve.Point.decode? signer.publicKey = some point ∧
    Curve.verifyWith point signer.publicKey t.signingBytes signature = true

theorem Account.Signer.Verifies.recoverSender {signer : Signer} {t : Transaction}
    (h : signer.Verifies t) : t.recoverSender = .ok signer.address := by
  obtain ⟨signature, point, hsignature, hkey, hlength, hpoint, hverify⟩ := h
  rw [Transaction.recoverSender, hsignature]
  exact recover_of_verifyWith hkey hlength hpoint hverify

/-- What a key signs verifies if the key is a point and accepts the signature that the curve makes
with it. -/
theorem Draft.SignedBy.verifies {d : Draft} {k : SigningKey} {t : Transaction}
    (h : d.SignedBy (.ofKey k) t) (hpoint : (Curve.Point.decode? k.publicKey).isSome = true)
    (hverify : ∀ a, Curve.Point.decode? k.publicKey = some a →
      Curve.verifyWith a k.publicKey t.signingBytes
        (Curve.signWith k.seed k.publicKey t.signingBytes) = true) :
    (Signer.ofKey k).Verifies t := by
  obtain ⟨nonce, hsign⟩ := h
  obtain ⟨a, ha⟩ := Option.isSome_iff_exists.1 hpoint
  cases hsender : d.sender with
  | none =>
    rw [Draft.sign, Draft.requireSender, hsender] at hsign
    cases hsign
  | some sender =>
    rw [Draft.sign_ofKey hsender] at hsign
    cases hsign
    exact ⟨_, a, rfl, Curve.length_publicKey k.seed, Curve.length_signWith .., ha, hverify a ha⟩

/-! ## A result under another name -/

section results

variable {α β : Type}

theorem Task.onDrop_bind {I : Interface} {σ : Type} (release : σ → σ) (t : Task I σ α)
    (f : α → Task I σ β) :
    (t.bind f).onDrop release = (t.onDrop release).bind fun a => (f a).onDrop release := by
  induction t with
  | done a => rfl
  | crash c => rfl
  | read next ih => simp only [Task.bind, Task.onDrop, ih]
  | write s next ih => simp only [Task.bind, Task.onDrop, ih]
  | pause span dropped next ih => simp only [Task.bind, Task.onDrop, ih]
  | ask r dropped next ih => simp only [Task.bind, Task.onDrop, ih]

theorem ensuring_reading (release : Session → Session) (t : Program (Except ClientError α))
    (f : α → Except ClientError β) :
    Program.reading (t.ensuring release) f = (t.reading f).ensuring release := by
  unfold Program.reading Task.ensuring
  rw [Task.onDrop_bind, Task.bind_assoc, Task.bind_assoc]
  rfl

theorem locked_reading (c : Nat) (account : Address) (t : Program (Except ClientError α))
    (f : α → Except ClientError β) :
    (locked c account t).reading f = locked c account (t.reading f) := by
  unfold locked
  rw [Program.reading, Task.bind_assoc]
  congr 1
  funext ticket
  rw [← Program.reading, ensuring_reading, Program.reading, Task.bind_assoc]
  rfl

theorem signThen_reading (d : Draft) (signer : Signer) (nonce : UInt64)
    (next : SignedTransaction → Program (Except ClientError α)) (f : α → Except ClientError β) :
    (signThen d signer next nonce).reading f =
      signThen d signer (fun t => (next t).reading f) nonce := by
  unfold signThen
  split <;> rfl

/-- What is made of the result may as well be made of it at the end of `next`. -/
theorem withSigned_reading (c : Nat) (d : Draft) (o : SubmitOptions)
    (next : SignedTransaction → Program (Except ClientError α)) (f : α → Except ClientError β) :
    (withSigned c d o next).reading f = withSigned c d o fun t => (next t).reading f := by
  unfold withSigned
  cases d.requireSender with
  | error e => rfl
  | ok sender =>
    cases o.nonceSource with
    | error e => rfl
    | ok source =>
      dsimp only
      rw [Program.reading, Task.bind_assoc]
      congr 1
      funext s
      cases source with
      | explicit nonce => exact signThen_reading d _ nonce next f
      | remote =>
        refine (locked_reading c _ _ f).trans (congrArg (locked c _) ?_)
        unfold Program.andThen
        rw [Program.reading, Task.bind_assoc]
        congr 1
        funext r
        cases r with
        | error e => rfl
        | ok nonce => exact signThen_reading d _ nonce next f

end results

/-! ## Errands and their mandates -/

/-- What a draft is signed for. -/
inductive Purpose where
  | submit
  | prepare
  deriving DecidableEq

/-- A draft that a client is to submit or to prepare. -/
structure Errand where
  purpose : Purpose
  client : Nat
  draft : Draft
  options : SubmitOptions := {}

/-- What an errand yields. -/
inductive Outcome where
  | sent (hash : String)
  | prepared (t : SignedTransaction)

namespace Errand

def task (e : Errand) : Program (Except ClientError Outcome) :=
  match e.purpose with
  | .submit => (submit e.client e.draft e.options).reading fun hash => .ok (.sent hash)
  | .prepare => (prepare e.client e.draft e.options).reading fun t => .ok (.prepared t)

/-- What an errand does with the signed transaction. -/
def deliver (e : Errand) (t : SignedTransaction) : Program (Except ClientError Outcome) :=
  match e.purpose with
  | .submit => (sendSigned e.client t).reading fun hash => .ok (.sent hash)
  | .prepare => .done (.ok (.prepared t))

theorem task_eq (e : Errand) : e.task = withSigned e.client e.draft e.options e.deliver := by
  unfold task deliver
  cases e.purpose with
  | submit => exact withSigned_reading ..
  | prepare => exact withSigned_reading ..

end Errand

/-- What an errand is bound to from its beginning on. -/
structure Mandate where
  errand : Errand
  signer : Signer
  /-- The turn that is taken if the nonce is looked up. -/
  turn? : Option Turn

/-- What an errand that begins now is bound to. -/
def Errand.mandate (e : Errand) (s : Session) : Mandate where
  errand := e
  signer := e.options.signer.getD (s.clients e.client).signer
  turn? := takenTurn? e.client e.draft e.options s

namespace Mandate

variable (m : Mandate)

/-- The transaction was signed as the mandate says. -/
def Signs (t : Transaction) : Prop := m.errand.draft.SignedBy m.signer t

/-- Lookups are for the account of the turn, and what is sent was signed under the mandate. -/
def Asks : NetworkRequest → Prop
  | .dial .. => True
  | .call k =>
    (∃ p, m.turn? = some p ∧ k.method = Method.pendingNonce.name ∧
        k.payload = Message.encode ({ address := p.account.text } : AccountQuery)) ∨
      (m.errand.purpose = .submit ∧ k.method = Method.sendTransaction.name ∧
        ∃ t, m.Signs t ∧ k.payload = Message.encode t)
  | _ => False

/-- What is prepared was signed under the mandate. -/
def Yields : Outcome → Prop
  | .sent _ => True
  | .prepared t => m.Signs t.transaction

/-- The conduct of an errand while it asks for no turn. -/
def asking : Conduct Network Session Unit := calling m.Asks fun _ _ => True

/-- The conduct of an errand that has its turn. -/
def underLock (p : Turn) : Conduct Network Session Unit :=
  { m.asking with drops := fun s s' => s'.clients = (s.giveUp p).clients }

/-- The ticket of the turn has been given back, and the result is as the mandate says. -/
abbrev returning (p : Turn) : Task.Ending Network Session Unit (Except ClientError Outcome) :=
  fun _ r _ s₀ s => s.clients = (s₀.giveUp p).clients ∧ Succeeds m.Yields r

variable {m} {told : Option Network.Told} {s₀ s : Session}

theorem obeys_deliver {t : SignedTransaction} (ht : m.Signs t.transaction)
    (h : s.clients = s₀.clients) :
    (m.errand.deliver t).Obeys m.asking (leaving (Succeeds m.Yields)) () told s₀ s := by
  unfold Errand.deliver
  split
  · rename_i hpurpose
    have hcall : (call m.errand.client (.submission "send_transaction") Method.sendTransaction
        t.transaction).Obeys m.asking
        (leaving (Succeeds fun _ : TransactionHash => True)) () told s₀ s :=
      obeys_call m.errand.client _ _ _ (fun _ _ => trivial)
        (fun _ hk hpayload => .inr ⟨hpurpose, hk, _, ht, hpayload⟩) (fun _ _ _ _ _ _ => trivial) h
    refine Task.Obeys.reading (hcall.reading (S := fun _ => True) fun _ _ _ _ => trivial) ?_
    rintro hash _ - ⟨⟩
    trivial
  · exact ⟨h, fun _ hr => by cases hr; exact ht⟩

theorem obeys_signThen (nonce : UInt64) (h : s.clients = s₀.clients) :
    (signThen m.errand.draft m.signer m.errand.deliver nonce).Obeys m.asking
      (leaving (Succeeds m.Yields)) () told s₀ s := by
  unfold signThen
  split
  · exact ⟨h, nofun⟩
  · rename_i t ht
    exact obeys_deliver ⟨nonce, ht⟩ h

/-- What an errand does under the lock of its account. -/
def guarded (m : Mandate) (p : Turn) : Program (Except ClientError Outcome) :=
  (lookUpNonce p.client p.account).andThen (signThen m.errand.draft m.signer m.errand.deliver)

theorem obeys_guarded {p : Turn} (hp : m.turn? = some p) (h : s.clients = s₀.clients) :
    ((m.guarded p).ensuring (Session.giveUp p)).Obeys (m.underLock p) (m.returning p) ()
      told s₀ s := by
  have hbody : (m.guarded p).Obeys m.asking (leaving (Succeeds m.Yields)) () told s₀ s := by
    have hlookup : (lookUpNonce p.client p.account).Obeys m.asking
        (leaving (Succeeds fun _ => True)) () told s₀ s :=
      obeys_lookUpNonce _ _ (fun _ _ => trivial) (fun _ hk hpayload => .inl ⟨p, hp, hk, hpayload⟩)
        (fun _ _ _ _ _ _ => trivial) h
    exact hlookup.andThen (fun _ => nofun) fun nonce _ _ _ _ h => obeys_signThen nonce h
  refine Task.Obeys.ensuring (C := m.asking) ?_ fun _ _ h => Session.giveUp_clients p h
  exact hbody.imp fun _ _ _ _ _ h => ⟨Session.giveUp_clients p h.1, h.2⟩

end Mandate

/-! ## How an errand begins -/

namespace Errand

variable {e : Errand} {s : Session} {p : Turn}

/-- An errand that looks no nonce up makes its call at once. -/
theorem obeys_task (h : (e.mandate s).turn? = none) :
    e.task.Obeys (e.mandate s).asking (leaving (Succeeds (e.mandate s).Yields)) () none s s := by
  have h : takenTurn? e.client e.draft e.options s = none := h
  unfold takenTurn? at h
  rw [task_eq]
  unfold withSigned
  split
  · exact ⟨rfl, nofun⟩
  · rename_i sender hsender
    rw [hsender] at h
    split
    · exact ⟨rfl, nofun⟩
    · rename_i source hsource
      rw [hsource] at h
      cases source with
      | remote => cases h
      | explicit nonce => exact Mandate.obeys_signThen (m := e.mandate s) nonce rfl

theorem ticket_of_mandate (h : (e.mandate s).turn? = some p) :
    p.ticket = (s.clients p.client).locks.nextTicket := ticket_of_takenTurn? h

/-- An errand that looks its nonce up takes the lock first. -/
theorem advance_task (h : (e.mandate s).turn? = some p) :
    e.task.advance s = (locked p.client p.account ((e.mandate s).guarded p)).advance s := by
  have h : takenTurn? e.client e.draft e.options s = some p := h
  rw [task_eq]
  unfold takenTurn? at h
  split at h
  · rename_i hsender hsource
    cases h
    unfold withSigned
    rw [hsender, hsource]
    rfl
  · cases h

/-- When an errand takes a turn, and which. -/
theorem mandate_turn?_eq_some_iff :
    (e.mandate s).turn? = some p ↔ e.draft.sender.isSome ∧ e.options.nonceSource = .ok .remote ∧
      p = ⟨e.client, e.options.lookup.getD (e.mandate s).signer.address,
        (s.clients e.client).locks.nextTicket⟩ := by
  show takenTurn? e.client e.draft e.options s = some p ↔ _
  unfold takenTurn? Draft.requireSender
  cases e.draft.sender with
  | none => simp
  | some sender =>
    cases e.options.nonceSource with
    | error error => simp
    | ok source =>
      cases source with
      | explicit nonce => simp
      | remote =>
        simp only [Option.some.injEq, Option.isSome_some, true_and]
        exact eq_comm

end Errand
end LedgerClient
