import LedgerClient.Session.Query

/-!
# Submitting transactions

A submission settles its nonce, signs, and sends once.  A nonce that is looked up is protected by
the lock of its account: the lock is taken before the lookup and given back when the node has
answered the submission, so that no two submissions of a client settle on one nonce.
-/

namespace LedgerClient

open Account Ledger Rpc Settings

variable {α : Type}

/-! ## Account locks -/

/-- Changes the account locks of a client. -/
def Session.alterLocks (c : Nat) (f : LockTable → LockTable) (s : Session) : Session :=
  s.alterClient c fun k => { k with locks := f k.locks }

/-- Draws a ticket for an account of a client. -/
def Session.drawTicket (c : Nat) (account : Address) (s : Session) : Ticket × Session :=
  let (ticket, locks) := (s.clients c).locks.draw account
  (ticket, s.alterClient c fun k => { k with locks })

/-- Waits until a ticket holds its mutex. -/
def awaitTurn (c : Nat) (ticket : Ticket) : Program Unit :=
  if ticket.standing = .held then .done ()
  else
    (Program.turn c ticket.id).bind fun _ =>
      Task.modify (Session.alterLocks c fun t => t.poll ticket.id)

/-- Runs `t` under the lock of an account. -/
def locked (c : Nat) (account : Address) (t : Program α) : Program α :=
  (Task.transition (Session.drawTicket c account)).bind fun ticket =>
    ((awaitTurn c ticket).bind fun _ => t).ensuring
      (Session.alterLocks c fun table => table.giveUp ticket.id)

/-! ## Signing and sending -/

/-- Looks up the nonce of an account, again and again if the network is broken. -/
def lookUpNonce (c : Nat) (account : Address) : Program (Except ClientError UInt64) :=
  Task.get.bind fun s =>
    (s.clients c).settings.retries.noncePolicy.attempting (getPendingNonce c account)

/-- Signs a draft with a nonce, and continues with the signed transaction. -/
def signThen (d : Draft) (signer : Signer)
    (next : SignedTransaction → Program (Except ClientError α)) (nonce : UInt64) :
    Program (Except ClientError α) :=
  match d.sign nonce signer with
  | .error e => .done (.error e)
  | .ok t => next t

/-- Settles the nonce of a draft, signs it, and continues with the signed transaction.  The signer
is chosen at the start.  A nonce that is looked up stays locked until `next` has ended. -/
def withSigned (c : Nat) (d : Draft) (o : SubmitOptions)
    (next : SignedTransaction → Program (Except ClientError α)) :
    Program (Except ClientError α) :=
  match d.requireSender with
  | .error e => .done (.error e)
  | .ok _ =>
    match o.nonceSource with
    | .error e => .done (.error e)
    | .ok source =>
      Task.get.bind fun s =>
        let signer := o.signer.getD (s.clients c).signer
        match source with
        | .explicit nonce => signThen d signer next nonce
        | .remote =>
          let account := o.lookup.getD signer.address
          locked c account ((lookUpNonce c account).andThen (signThen d signer next))

/-- Settles the nonce of a draft and signs it. -/
def prepare (c : Nat) (d : Draft) (o : SubmitOptions) :
    Program (Except ClientError SignedTransaction) :=
  withSigned c d o fun t => .done (.ok t)

/-- Sends a signed transaction, and yields the hash that the node answers. -/
def sendSigned (c : Nat) (t : SignedTransaction) : Program (Except ClientError String) :=
  (call c (.submission "send_transaction") Method.sendTransaction t.transaction).reading fun r =>
    .ok r.hash

/-- Submits a draft. -/
def submit (c : Nat) (d : Draft) (o : SubmitOptions) : Program (Except ClientError String) :=
  withSigned c d o (sendSigned c)

/-- Sends several signed transactions in one call. -/
def submitBatch (c : Nat) (ts : List SignedTransaction) :
    Program (Except ClientError (List String)) :=
  if ts.isEmpty then .done (.ok [])
  else
    (call c (.submission "send_transactions") Method.sendBatch
      { transactions := ts.map (·.transaction) }).reading fun r => .ok r.hashes

/-- Has a draft run against the state of the ledger without changing it. -/
def sendView (c : Nat) (d : Draft) : Program (Except ClientError Receipt) :=
  Task.get.bind fun s =>
    signThen d (s.clients c).signer
      (fun t => call c (.submission "send_view") Method.sendView t.transaction) 0

/-! ## Waiting for receipts -/

/-- Asks for a receipt, again and again if the network is broken. -/
def pollReceipt (c : Nat) (hash : String) : Program (Except ClientError Receipt) :=
  Task.get.bind fun s =>
    (s.clients c).settings.retries.receiptPolicy.attempting (getReceipt c hash)

/-- Submits a draft and waits for its receipt. -/
def submitAndWait (c : Nat) (d : Draft) (o : SubmitOptions) :
    Program (Except ClientError Receipt) :=
  (submit c d o).andThen (pollReceipt c)

/-- Sends a signed transaction and waits for its receipt. -/
def sendSignedAndWait (c : Nat) (t : SignedTransaction) : Program (Except ClientError Receipt) :=
  (sendSigned c t).andThen (pollReceipt c)

end LedgerClient
