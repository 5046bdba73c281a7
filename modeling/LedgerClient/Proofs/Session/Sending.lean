import LedgerClient.Proofs.Session.Courses
import LedgerClient.Proofs.Session.Crashing

/-!
# What a submission sends

A submission settles its nonce, has its draft signed, and sends it.  What can become of each of
these steps is listed here, and `submitted_once` puts the lists together: whatever the nodes answer
and the others do in the meantime, one transaction is sent at most, and none before it was signed
with the nonce that was settled.
-/

namespace LedgerClient

open Account Ledger Rpc Settings Time Wire

variable {e : Surroundings Network Session} {n : Nat} {s : Session}

/-! ## Signing and sending -/

/-- How the signing of a draft with a nonce and its sending can go. -/
inductive SigningGoes (c : Nat) (d : Draft) (signer : Signer) (nonce : UInt64)
    (e : Surroundings Network Session) (n : Nat) (s : Session) :
    List (Call × Reply Bytes) → Except Crash (Except ClientError String) → Prop
  | unsigned {err : ClientError} (hsign : d.sign nonce signer = .error err) :
      SigningGoes c d signer nonce e n s [] (.ok (.error err))
  | signed {t : SignedTransaction} {calls : List (Call × Reply Bytes)}
      {result : Except Crash (Except ClientError String)} (hsign : d.sign nonce signer = .ok t)
      (hnonce : t.transaction.nonce = nonce) (hsend : SendGoes c t e n s calls result) :
      SigningGoes c d signer nonce e n s calls result

theorem amid_signThen (c : Nat) (d : Draft) (signer : Signer) (nonce : UInt64) :
    SigningGoes c d signer nonce e n s
      ((signThen d signer (sendSigned c) nonce).amid e n s).calls
      ((signThen d signer (sendSigned c) nonce).amid e n s).result := by
  unfold signThen
  cases h : d.sign nonce signer with
  | error err => exact .unsigned h
  | ok t => exact .signed h (Draft.nonce_of_sign h) (amid_sendSigned c t)

theorem SigningGoes.length_le {c : Nat} {d : Draft} {signer : Signer} {nonce : UInt64}
    {calls : List (Call × Reply Bytes)} {result : Except Crash (Except ClientError String)}
    (h : SigningGoes c d signer nonce e n s calls result) : calls.length ≤ 1 := by
  cases h with
  | unsigned => exact Nat.zero_le _
  | signed _ _ hsend =>
    obtain ⟨r, hcall, -⟩ := hsend
    exact hcall.length_le.1

/-! ## Under the lock of an account -/

/-- Draws a ticket for an account and waits for its turn. -/
def takeTurn (c : Nat) (account : Address) : Program Unit :=
  (Task.transition (Session.drawTicket c account)).bind (awaitTurn c)

theorem Session.drawTicket_settings (c : Nat) (account : Address) (s : Session) (b : Nat) :
    ((s.drawTicket c account).2.clients b).settings = (s.clients b).settings := by
  by_cases hb : b = c <;> simp [Session.drawTicket, Session.alterClient, hb]

theorem Session.alterLocks_settings (c : Nat) (f : LockTable → LockTable) (s : Session) (b : Nat) :
    ((s.alterLocks c f).clients b).settings = (s.clients b).settings := by
  by_cases hb : b = c <;> simp [Session.alterLocks, Session.alterClient, hb]

/-- Who takes a turn makes no call, and leaves the settings as they are. -/
theorem amid_takeTurn (he : e.KeepsSettings) (c : Nat) (account : Address) :
    let entry := (takeTurn c account).amid e n s
    entry.result = .ok () ∧ entry.calls = [] ∧
      ∀ b, (entry.state.clients b).settings = (s.clients b).settings := by
  intro entry
  have hentry : entry = (awaitTurn c (s.drawTicket c account).1).amid e n
      (s.drawTicket c account).2 := rfl
  have hdrawn := Session.drawTicket_settings c account s
  rw [hentry, awaitTurn]
  split
  · exact ⟨rfl, rfl, hdrawn⟩
  · refine ⟨rfl, rfl, fun b => ?_⟩
    have hpolled := Session.alterLocks_settings c (fun t => t.poll (s.drawTicket c account).1.id)
      (e.meanwhile n (s.drawTicket c account).2) b
    exact hpolled.trans ((he n _ b).trans (hdrawn b))

/-- What is done under a lock begins when its turn has come. -/
theorem amid_locked {α : Type} {c : Nat} {account : Address} (t : Program α)
    (h : ((takeTurn c account).amid e n s).result = .ok ()) :
    let entry := (takeTurn c account).amid e n s
    let inner := t.amid e (n + entry.waits.length) entry.state
    ((locked c account t).amid e n s).calls = entry.calls ++ inner.calls ∧
      ((locked c account t).amid e n s).result = inner.result := by
  intro entry inner
  let drawn := s.drawTicket c account
  have hlocked : (locked c account t).amid e n s = (((awaitTurn c drawn.1).bind fun _ => t).ensuring
      (Session.alterLocks c fun table => table.giveUp drawn.1.id)).amid e n drawn.2 := rfl
  obtain ⟨hwaits, hresult⟩ := Task.amid_ensuring (e := e)
    (Session.alterLocks c fun table => table.giveUp drawn.1.id)
    ((awaitTurn c drawn.1).bind fun _ => t) n drawn.2
  have hinner := Task.amid_bind_ok (t := awaitTurn c drawn.1) (s := drawn.2) h fun _ => t
  rw [hlocked, hresult, Course.calls, Course.tolds, hwaits, hinner]
  exact ⟨Course.calls_behind entry inner, rfl⟩

/-! ## Lookups and what follows -/

/-- What follows the lookups of a nonce, by how the last of them went. -/
inductive LastGoes (c : Nat) (d : Draft) (signer : Signer) (e : Surroundings Network Session)
    (n : Nat) (s : Session) (last : Course Network Session (Except ClientError UInt64)) :
    List (Call × Reply Bytes) → Except Crash (Except ClientError String) → Prop
  | crashed {crash : Crash} (hlast : last.result = .error crash) :
      LastGoes c d signer e n s last [] (.error crash)
  | failed {err : ClientError} (hlast : last.result = .ok (.error err)) :
      LastGoes c d signer e n s last [] (.ok (.error err))
  | found {nonce : UInt64} {k : Call} {reply : Reply Bytes} {sends : List (Call × Reply Bytes)}
      {result : Except Crash (Except ClientError String)} (hlast : last.result = .ok (.ok nonce))
      (hcalls : last.calls = [(k, reply)]) (hreply : reply.nonce? = some nonce)
      (hsigning : SigningGoes c d signer nonce e n s sends result) :
      LastGoes c d signer e n s last sends result

/-- How a submission can go that looks its nonce up, from the first lookup on. -/
def RemoteGoes (c : Nat) (d : Draft) (signer : Signer) (account : Address) (budget : Nat)
    (e : Surroundings Network Session) (n : Nat) (s : Session) (calls : List (Call × Reply Bytes))
    (result : Except Crash (Except ClientError String)) : Prop :=
  let lookup := (lookUpNonce c account).amid e n s
  ∃ earlier last sends,
    lookup.Tries e (getPendingNonce c account) budget earlier last ∧
    (∀ a ∈ earlier ++ [last], ∃ n s', LookupGoes c account e n s' a.calls a.result) ∧
    calls = (earlier ++ [last]).flatMap Course.calls ++ sends ∧
    LastGoes c d signer e (n + lookup.waits.length) lookup.state last sends result

theorem LastGoes.length_le {c : Nat} {d : Draft} {signer : Signer}
    {last : Course Network Session (Except ClientError UInt64)} {sends : List (Call × Reply Bytes)}
    {result : Except Crash (Except ClientError String)}
    (h : LastGoes c d signer e n s last sends result) : sends.length ≤ 1 := by
  cases h with
  | crashed | failed => exact Nat.zero_le _
  | found _ _ _ hsigning => exact hsigning.length_le

/-- Lookups are no sends. -/
theorem RemoteGoes.length_le {c : Nat} {d : Draft} {signer : Signer} {account : Address}
    {budget : Nat} {calls : List (Call × Reply Bytes)}
    {result : Except Crash (Except ClientError String)}
    (h : RemoteGoes c d signer account budget e n s calls result) :
    (calls.filter fun k => k.1.method = Method.sendTransaction.name).length ≤ 1 := by
  obtain ⟨earlier, last, sends, -, hlookups, rfl, hlast⟩ := h
  have hnone : ((earlier ++ [last]).flatMap Course.calls).filter
      (fun k => k.1.method = Method.sendTransaction.name) = [] := by
    refine List.filter_eq_nil_iff.2 fun k hk => ?_
    obtain ⟨a, ha, hk⟩ := List.mem_flatMap.1 hk
    obtain ⟨n', s', r, hcall, -⟩ := hlookups a ha
    rw [hcall.length_le.2 k hk]
    decide
  rw [List.filter_append, hnone, List.nil_append]
  exact Nat.le_trans (List.length_filter_le _ _) hlast.length_le

/-! ## Submissions -/

section submission

variable {c : Nat} {d : Draft} {o : SubmitOptions}

/-- A nonce is looked up in one attempt or more, and what comes of the last decides. -/
theorem amid_lookUp_andThen (account : Address) (signer : Signer) :
    let course := ((lookUpNonce c account).andThen (signThen d signer (sendSigned c))).amid e n s
    RemoteGoes c d signer account (max 1 (s.clients c).settings.retries.nonceAttempts.toNat) e n s
      course.calls course.result := by
  intro course
  let lookup := (lookUpNonce c account).amid e n s
  obtain ⟨earlier, last, htries⟩ := RetryPolicy.amid_attempting (e := e)
    (s.clients c).settings.retries.noncePolicy (getPendingNonce c account) n s
  have hlookups : ∀ a ∈ earlier ++ [last],
      ∃ n s', LookupGoes c account e n s' a.calls a.result := by
    intro a ha
    obtain ⟨n', s', rfl⟩ := htries.attempts a ha
    exact ⟨n', s', amid_getPendingNonce c account⟩
  have hcalls : lookup.calls = (earlier ++ [last]).flatMap Course.calls := by
    have htolds : lookup.tolds = (earlier ++ [last]).flatMap Course.tolds := htries.tolds
    rw [Course.calls, htolds, List.filterMap_flatMap]
    rfl
  have hresult : lookup.result = last.result := htries.result
  cases hlast : last.result with
  | error crash =>
    have hbind : course = _ := Task.amid_bind_crash (hresult.trans hlast) _
    refine ⟨earlier, last, [], htries, hlookups, ?_, hbind ▸ .crashed hlast⟩
    rw [List.append_nil, ← hcalls, hbind]
    rfl
  | ok r =>
    have hbind : course = _ := Task.amid_bind_ok (hresult.trans hlast) _
    have hsends : course.calls = _ :=
      (congrArg Course.calls hbind).trans (Course.calls_behind lookup _)
    refine ⟨earlier, last, _, htries, hlookups, hcalls ▸ hsends, ?_⟩
    rw [hbind]
    cases r with
    | error err => exact .failed hlast
    | ok nonce =>
      obtain ⟨n', s', hlookup⟩ := hlookups last (by simp)
      rw [hlast] at hlookup
      obtain ⟨k, reply, hk, hnonce⟩ := hlookup.exists_reply
      exact .found hlast hk hnonce (amid_signThen c d signer nonce)

/-- Where there is no sender, or no way to settle the nonce, a submission is over at once. -/
theorem submit_of_error {err : ClientError}
    (h : d.requireSender = .error err ∨
      ∃ sender, d.requireSender = .ok sender ∧ o.nonceSource = .error err) :
    submit c d o = .done (.error err) := by
  unfold submit withSigned
  rcases h with hsender | ⟨sender, hsender, hsource⟩
  · rw [hsender]
  · rw [hsender, hsource]

theorem amid_submit_explicit {sender : Address} {nonce : UInt64}
    (hsender : d.requireSender = .ok sender) (hsource : o.nonceSource = .ok (.explicit nonce)) :
    let course := (submit c d o).amid e n s
    SigningGoes c d (o.signer.getD (s.clients c).signer) nonce e n s course.calls
      course.result := by
  unfold submit withSigned
  rw [hsender, hsource]
  exact amid_signThen c d _ nonce

theorem amid_submit_remote (he : e.KeepsSettings) {sender : Address}
    (hsender : d.requireSender = .ok sender) (hsource : o.nonceSource = .ok .remote) :
    let course := (submit c d o).amid e n s
    let signer := o.signer.getD (s.clients c).signer
    let account := o.lookup.getD signer.address
    let entry := (takeTurn c account).amid e n s
    RemoteGoes c d signer account (max 1 (s.clients c).settings.retries.nonceAttempts.toNat) e
      (n + entry.waits.length) entry.state course.calls course.result := by
  intro course signer account entry
  have hcourse : course = (locked c account ((lookUpNonce c account).andThen
      (signThen d signer (sendSigned c)))).amid e n s := by
    unfold course submit withSigned
    rw [hsender, hsource]
    rfl
  obtain ⟨hentry, hcalls, hsettings⟩ := amid_takeTurn (n := n) (s := s) he c account
  obtain ⟨hlocked, hresult⟩ := amid_locked
    ((lookUpNonce c account).andThen (signThen d signer (sendSigned c))) hentry
  have hgoes := amid_lookUp_andThen (e := e) (n := n + entry.waits.length) (s := entry.state)
    (c := c) (d := d) account signer
  rw [hsettings] at hgoes
  rw [hcourse, hlocked, hcalls, List.nil_append, hresult]
  exact hgoes

end submission

/-- One submission sends at most one transaction, and it does so once its nonce is settled and the
draft is signed.  A draft without a sender is refused at once, and so are two nonces.  One nonce is
used as it is given.  Without one, the nonce is looked up for one account in its turn, again as long
as the network is broken and the budget lasts, and the number that the last lookup was answered is
used.  Whatever fails before the sending is what the submission comes to. -/
theorem submitted_once (he : e.KeepsSettings) (c : Nat) (d : Draft) (o : SubmitOptions) :
    let course := (submit c d o).amid e n s
    let signer := o.signer.getD (s.clients c).signer
    let account := o.lookup.getD signer.address
    (course.callsTo Method.sendTransaction.name).length ≤ 1 ∧
    match d.sender, o.normalNonce, o.interchainNonce with
    | none, _, _ | _, some _, some _ =>
      ∃ message, submit c d o = .done (.error (.reconstruct message))
    | some _, some nonce, none | some _, none, some nonce =>
      SigningGoes c d signer nonce e n s course.calls course.result
    | some _, none, none =>
      let entry := (takeTurn c account).amid e n s
      RemoteGoes c d signer account (max 1 (s.clients c).settings.retries.nonceAttempts.toNat) e
        (n + entry.waits.length) entry.state course.calls course.result := by
  intro course signer account
  have hover : ∀ {err}, submit c d o = .done (.error err) →
      (course.callsTo Method.sendTransaction.name).length ≤ 1 := by
    intro err hsubmit
    have hcourse : course = ⟨[], .ok (.error err), s⟩ := by
      unfold course
      rw [hsubmit]
      rfl
    rw [hcourse]
    exact Nat.zero_le _
  match hsender : d.sender, hnormal : o.normalNonce, hinterchain : o.interchainNonce with
  | none, _, _ =>
    have hsubmit := submit_of_error (c := c) (o := o) (.inl (by rw [Draft.requireSender, hsender]))
    exact ⟨hover hsubmit, _, hsubmit⟩
  | some sender, some _, some _ =>
    have hsubmit := submit_of_error (c := c) (.inr ⟨sender, by rw [Draft.requireSender, hsender],
      by rw [SubmitOptions.nonceSource, hnormal, hinterchain]⟩)
    exact ⟨hover hsubmit, _, hsubmit⟩
  | some sender, some nonce, none | some sender, none, some nonce =>
    have hsource : o.nonceSource = .ok (.explicit nonce) := by
      rw [SubmitOptions.nonceSource, hnormal, hinterchain]
    have hgoes := amid_submit_explicit (c := c) (e := e) (n := n) (s := s)
      (by rw [Draft.requireSender, hsender]) hsource
    exact ⟨Nat.le_trans (List.length_filter_le _ _) hgoes.length_le, hgoes⟩
  | some sender, none, none =>
    have hsource : o.nonceSource = .ok .remote := by
      rw [SubmitOptions.nonceSource, hnormal, hinterchain]
    have hgoes := amid_submit_remote (c := c) (n := n) (s := s) he
      (by rw [Draft.requireSender, hsender]) hsource
    exact ⟨hgoes.length_le, hgoes⟩

/-- A draft that is to be sent from the zero address to itself. -/
def selfTransfer : Draft := { sender := some default, recipient := default }

/-- A network on which every dial succeeds.  The first lookup of a nonce is not answered, the later
ones are answered with a five, and what is sent is taken. -/
def lateAnswers (n : Nat) : (r : NetworkRequest) → Network.Answer r
  | .call k =>
    if n < 2 then (.expired : Reply Bytes)
    else if k.method = Method.pendingNonce.name then
      (.ended (.ok (Message.encode ({ data := Text.toUtf8 "5" } : Response))) : Reply Bytes)
    else (.ended (.ok (Message.encode ({ hash := "0x2a" } : TransactionHash))) : Reply Bytes)
  | r => opensStreams r

/-- The nonce is looked up twice, and one transaction is sent, with the nonce that the second lookup
was answered. -/
theorem submitted_once_secondLookup : ∃ s, Session.startOne 2000 = .ok s ∧
    let e : Surroundings Network Session := ⟨lateAnswers, fun _ => id⟩
    let course := (submit 0 selfTransfer {}).amid e 0 s
    e.KeepsSettings ∧ (course.callsTo Method.pendingNonce.name).length = 2 ∧
      (course.callsTo Method.sendTransaction.name).map
        (fun k => (Message.decode (M := Transaction) k.1.payload).map (·.nonce)) = [.ok 5] ∧
      course.result = .ok (.ok "0x2a") ∧
      (course.callsTo Method.sendTransaction.name).length ≤ 1 := by
  obtain ⟨s, hs⟩ : ∃ s, Session.startOne 2000 = .ok s := ⟨_, rfl⟩
  have honce := (submitted_once (e := ⟨lateAnswers, fun _ => id⟩) (n := 0) (s := s)
    (fun _ _ _ => rfl) 0 selfTransfer {}).1
  cases hs
  exact ⟨_, rfl, fun _ _ _ => rfl, by decide +kernel, by decide +kernel, by decide +kernel, honce⟩

/-- Where no lookup is answered at all, five are made and nothing is sent. -/
example : ∃ s, Session.startOne 2000 = .ok s ∧
    let course := (submit 0 selfTransfer {}).amid ⟨fun _ => opensStreams, fun _ => id⟩ 0 s
    (course.callsTo Method.pendingNonce.name).length = 5 ∧
      course.callsTo Method.sendTransaction.name = [] := by
  refine ⟨_, rfl, ?_⟩
  decide +kernel

end LedgerClient
