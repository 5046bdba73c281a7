import LedgerClient.Proofs.Pool.Ownership
import LedgerClient.Proofs.Session.Leasing
import LedgerClient.Session.Submit

/-!
# What calls leave alone

An operation that makes calls changes the pool between its waits, and no client.  So what there is
to say of it is what it asks for and what it makes of the answers.  The conduct `calling` is that
of such operations, whatever may be asked and answered; the rules below go from an acquisition to
a call, to a lookup with its retries, and to the sending of a transaction.
-/

namespace LedgerClient

open Account Ledger Rpc Settings Time Wire

/-- Requests of some kind, answers of some kind, and no change to the clients. -/
def calling (asks : NetworkRequest → Prop)
    (answers : (r : NetworkRequest) → Network.Answer r → Prop) : Conduct Network Session Unit where
  holds _ := True
  moves _ s₀ s := s.clients = s₀.clients
  drops s s' := s'.clients = s.clients
  asks _ r _ := asks r
  answers _ := answers

/-- The clients are as they were, and the result satisfies `R`. -/
abbrev leaving {α : Type} (R : α → Prop) : Task.Ending Network Session Unit α :=
  fun _ a _ s₀ s => s.clients = s₀.clients ∧ R a

/-- What holds of a result if it is no error. -/
def Succeeds {ε α : Type} (R : α → Prop) (r : Except ε α) : Prop := ∀ a, r = .ok a → R a

variable {asks : NetworkRequest → Prop} {answers : (r : NetworkRequest) → Network.Answer r → Prop}
  {told : Option Network.Told} {s₀ s : Session} {α β : Type}

/-- Up to its next wait, its end or its crash, an operation leaves the clients as they were. -/
theorem Task.Obeys.clients_advance {t : Program α} {R : α → Prop}
    (h : t.Obeys (calling asks answers) (leaving R) () told s₀ s) :
    (t.advance s).2.clients = s₀.clients :=
  h.moves_advance (fun _ _ hend => hend.1) fun _ _ hmoves hdropped => hdropped.trans hmoves

/-! ## Sequencing -/

theorem Task.Obeys.andThen {C : Conduct Network Session Unit} {t : Program (Except ClientError α)}
    {f : α → Program (Except ClientError β)} {R : α → Prop} {S : Except ClientError β → Prop}
    (h : t.Obeys C (leaving (Succeeds R)) () told s₀ s) (hfailed : ∀ e, S (.error e))
    (hf : ∀ a told s₀ s, R a → s.clients = s₀.clients →
      (f a).Obeys C (leaving S) () told s₀ s) :
    (t.andThen f).Obeys C (leaving S) () told s₀ s := by
  refine Task.Obeys.bind h ?_
  rintro _ (e | a) told s₀ s ⟨hclients, hR⟩
  · exact ⟨hclients, hfailed e⟩
  · exact hf a told s₀ s (hR a rfl) hclients

theorem Task.Obeys.reading {C : Conduct Network Session Unit} {t : Program (Except ClientError α)}
    {f : α → Except ClientError β} {R : α → Prop} {S : β → Prop}
    (h : t.Obeys C (leaving (Succeeds R)) () told s₀ s) (hf : ∀ a b, R a → f a = .ok b → S b) :
    (t.reading f).Obeys C (leaving (Succeeds S)) () told s₀ s := by
  refine Task.Obeys.bind h ?_
  rintro _ (e | a) told s₀ s ⟨hclients, hR⟩
  · exact ⟨hclients, nofun⟩
  · exact ⟨hclients, fun b hb => hf a b (hR a rfl) hb⟩

theorem obeys_attempting {R : α → Prop} (p : RetryPolicy)
    {attempt : Program (Except ClientError α)}
    (hattempt : ∀ told s₀ s, s.clients = s₀.clients →
      attempt.Obeys (calling asks answers) (leaving (Succeeds R)) () told s₀ s)
    (h : s.clients = s₀.clients) :
    (p.attempting attempt).Obeys (calling asks answers) (leaving (Succeeds R)) () told s₀ s := by
  unfold RetryPolicy.attempting RetryPolicy.run
  refine Task.Obeys.bind (Q := leaving (Succeeds R)) ?_ ?_
  · refine Task.obeys_attemptUpTo (P := fun _ _ s₀ s => s.clients = s₀.clients)
      ?_ ?_ ?_ ?_ _ _ _ _ h
    · intro _ told s₀ s _ h
      refine Task.Obeys.bind (hattempt told s₀ s h) ?_
      rintro _ (e | a) told s₀ s ⟨hclients, hR⟩
      · exact hclients
      · exact ⟨hclients, fun _ hb => by cases hb; exact hR a rfl⟩
    · exact fun _ _ _ _ h => h
    · exact fun _ _ _ _ _ => ⟨fun _ _ => rfl, fun _ _ => rfl⟩
    · exact fun _ _ _ _ _ h => ⟨h, nofun⟩
  · rintro _ (failure | a) told s₀ s ⟨hclients, hR⟩
    · exact ⟨hclients, nofun⟩
    · exact ⟨hclients, fun _ hb => by cases hb; exact hR a rfl⟩

/-! ## Acquisitions -/

theorem obeys_acquire (hdial : ∀ i limit, asks (.dial i limit)) (h : s.clients = s₀.clients) :
    acquire.Obeys (calling asks answers) (leaving fun _ => True) () told s₀ s := by
  refine Task.Obeys.imp (obeys_acquire_of_attempts h ?_ fun _ _ => ⟨rfl, rfl⟩)
    fun _ _ _ _ _ h => ⟨h, trivial⟩
  intro rotation _ cursor told s₀ s h
  unfold attempt
  refine Task.Obeys.bind (Q := leaving fun _ => True) (Task.obeys_transition.2 ⟨h, trivial⟩) ?_
  rintro _ ⟨r | i, cursor⟩ told s₀ s ⟨h, -⟩
  · exact h
  · exact ⟨h, fun _ _ => rfl, (), hdial _ _, fun _ _ _ _ => rfl⟩

/-! ## Calls -/

/-- The response that a reply brings. -/
def Reply.response? (Res : Type) [Message Res] : Reply Bytes → Option Res
  | .ended (.ok data) => (readResponse Res data).toOption
  | _ => none

theorem obeys_settle (op : Operation) (deadline : Millis) (l : Lease) {R : α → Prop}
    {r : Reply α} (hr : ∀ a, r = .ended (.ok a) → R a) (h : s.clients = s₀.clients) :
    (settle op deadline l r).Obeys (calling asks answers) (leaving (Succeeds R)) ()
      told s₀ s := by
  rcases r with (status | a) | _
  · rw [settle]
    split
    · exact ⟨h, nofun⟩
    · exact ⟨h, nofun⟩
  · exact ⟨h, fun _ hb => by cases hb; exact hr a rfl⟩
  · exact ⟨h, nofun⟩

theorem obeys_callOver {Res : Type} [Message Res] (op : Operation) (deadline : Millis)
    (message : Call) (l : Lease) {R : Res → Prop}
    (hasks : asks (.call { message with channel := l.channel }))
    (hanswers : ∀ (reply : Reply Bytes) (r : Res),
      answers (.call { message with channel := l.channel }) reply →
        reply.response? Res = some r → R r)
    (h : s.clients = s₀.clients) :
    (callOver Res op deadline message l).Obeys (calling asks answers) (leaving (Succeeds R)) ()
      told s₀ s := by
  unfold callOver
  refine Task.Obeys.bind (Q := leaving fun r => ∀ a, r = .ended (.ok a) → R a)
    (Task.Obeys.ensuring (C := calling asks answers) ?_ fun _ _ hdropped => hdropped) ?_
  · unfold exchange
    refine Task.Obeys.bind (Q := leaving fun _ => True) (Task.obeys_get.2 ⟨h, trivial⟩) ?_
    rintro _ t told s₀ s ⟨h, -⟩
    cases t.pool.refusal? l.channel with
    | some status => exact ⟨h, nofun⟩
    | none =>
      refine ⟨h, fun _ _ => rfl, (), hasks, fun reply hreply s _ => ?_⟩
      rcases reply with (status | data) | _
      · exact ⟨rfl, nofun⟩
      · refine ⟨rfl, fun a ha => hanswers _ a hreply ?_⟩
        have ha : readResponse Res data = .ok a := by simpa [Except.bind] using ha
        show (readResponse Res data).toOption = some a
        rw [ha]
        rfl
      · exact ⟨rfl, nofun⟩
  · rintro _ r told s₀ s ⟨h, hr⟩
    exact obeys_settle op _ l hr h

/-- A call asks for its lease and for itself, and yields a response that it was answered. -/
theorem obeys_call {Req Res : Type} [Message Req] [Message Res] (c : Nat) (op : Operation)
    (m : Method Req Res) (request : Req) {R : Res → Prop}
    (hdial : ∀ i limit, asks (.dial i limit))
    (hasks : ∀ k : Call, k.method = m.name → k.payload = Message.encode request → asks (.call k))
    (hanswers : ∀ (k : Call) (reply : Reply Bytes) (r : Res), k.method = m.name →
      answers (.call k) reply → reply.response? Res = some r → R r)
    (h : s.clients = s₀.clients) :
    (call c op m request).Obeys (calling asks answers) (leaving (Succeeds R)) () told s₀ s := by
  rw [call_eq]
  generalize Timeout.ofSpan? = header
  refine Task.Obeys.bind (Q := leaving fun _ => True) (Task.obeys_get.2 ⟨h, trivial⟩) ?_
  rintro _ t told s₀ s ⟨h, -⟩
  dsimp only
  split
  · exact ⟨s, h, rfl⟩
  · refine ((obeys_acquire hdial h).imp fun _ _ _ _ _ h => ⟨h.1, fun _ _ => trivial⟩).andThen
      (R := fun _ => True) (fun _ => nofun) ?_
    rintro l told s₀ s - h
    exact obeys_callOver op _ _ l (hasks _ rfl rfl) (fun reply r => hanswers _ reply r rfl) h

/-! ## Looking a nonce up, and sending -/

/-- The nonce that a reply to a lookup brings. -/
def Reply.nonce? (reply : Reply Bytes) : Option UInt64 :=
  (reply.response? Response).bind fun r => (readDecimal r.data).toOption

/-- A lookup yields a nonce that it was answered. -/
theorem obeys_lookUpNonce (c : Nat) (account : Address) {R : UInt64 → Prop}
    (hdial : ∀ i limit, asks (.dial i limit))
    (hasks : ∀ k : Call, k.method = Method.pendingNonce.name →
      k.payload = Message.encode ({ address := account.text } : AccountQuery) → asks (.call k))
    (hanswers : ∀ (k : Call) (reply : Reply Bytes) (v : UInt64),
      k.method = Method.pendingNonce.name → answers (.call k) reply → reply.nonce? = some v → R v)
    (h : s.clients = s₀.clients) :
    (lookUpNonce c account).Obeys (calling asks answers) (leaving (Succeeds R)) () told s₀ s := by
  unfold lookUpNonce
  refine Task.Obeys.bind (Q := leaving fun _ => True) (Task.obeys_get.2 ⟨h, trivial⟩) ?_
  rintro _ t told s₀ s ⟨h, -⟩
  refine obeys_attempting _ (fun told s₀ s h => ?_) h
  have hcall : (call c (.query "get_pending_nonce" Deadlines.query) Method.pendingNonce
      { address := account.text }).Obeys (calling asks answers)
      (leaving (Succeeds fun r => ∀ v, readDecimal r.data = .ok v → R v)) () told s₀ s := by
    refine obeys_call c _ _ _ hdial hasks (fun k reply r hk hreply hr v hv => ?_) h
    refine hanswers k reply v hk hreply ?_
    rw [Reply.nonce?, hr, Option.bind_some, hv]
    rfl
  refine Task.Obeys.reading (Task.Obeys.reading hcall
    (S := fun data => ∀ v, readDecimal data = .ok v → R v) ?_) ?_
  · rintro r _ hr ⟨⟩
    exact hr
  · exact fun data v hdata hv => hdata v hv

theorem Draft.nonce_of_sign {d : Draft} {nonce : UInt64} {signer : Signer}
    {t : SignedTransaction} (h : d.sign nonce signer = .ok t) : t.transaction.nonce = nonce := by
  unfold Draft.sign at h
  split at h
  · cases h
  · dsimp only at h
    split at h
    · cases h
    · cases h
      rfl

/-- A draft that is signed with a nonce and sent is sent with this nonce. -/
theorem obeys_signThen_sendSigned (c : Nat) (d : Draft) (signer : Signer) (nonce : UInt64)
    (hdial : ∀ i limit, asks (.dial i limit))
    (hasks : ∀ (k : Call) (t : Transaction), k.method = Method.sendTransaction.name →
      k.payload = Message.encode t → t.nonce = nonce → asks (.call k))
    (h : s.clients = s₀.clients) :
    (signThen d signer (sendSigned c) nonce).Obeys (calling asks answers)
      (leaving fun _ => True) () told s₀ s := by
  unfold signThen
  split
  · exact ⟨h, trivial⟩
  · rename_i t ht
    have hcall : (call c (.submission "send_transaction") Method.sendTransaction
        t.transaction).Obeys (calling asks answers)
        (leaving (Succeeds fun _ : TransactionHash => True)) () told s₀ s :=
      obeys_call c _ _ _ hdial (fun k hk hpayload => hasks k _ hk hpayload (Draft.nonce_of_sign ht))
        (fun _ _ _ _ _ _ => trivial) h
    refine (hcall.reading (S := fun _ => True) fun _ _ _ _ => trivial).imp ?_
    exact fun _ _ _ _ _ h => ⟨h.1, trivial⟩

end LedgerClient
