import LedgerClient.Account.SigningKey
import LedgerClient.Client.Error
import LedgerClient.Ledger.Transaction

/-!
# Drafts and signed transactions

A draft is a transaction without nonce and signature.  A signature covers the *signing bytes*: the
encoding of the transaction with an empty signature.  The same bytes give the transaction its
hash, so signing does not change the hash.
-/

namespace LedgerClient

open Account Ledger Wire

/-! ## What a signature covers -/

namespace Ledger.Transaction

/-- The bytes a signature covers. -/
def signingBytes (t : Transaction) : Bytes := Message.encode { t with signature := [] }

/-- The text of the hash: `0x` and the digits of the digest of the signing bytes. -/
def hash (t : Transaction) : String := "0x" ++ Hex.encode (Digest.sha256.digest t.signingBytes)

/-- The address of the key that signed the transaction. -/
def recoverSender (t : Transaction) : Except SignerError Address :=
  recover t.signingBytes t.signature

end Ledger.Transaction

/-- A transaction that carries a signature. -/
structure SignedTransaction where
  transaction : Transaction
  deriving DecidableEq

/-! ## Drafts -/

/-- A transaction before its nonce is known. -/
structure Draft where
  /-- Needed for signing. -/
  sender : Option Address
  recipient : Address
  payload : Bytes := []
  /-- In nanoseconds since 1970. -/
  timestamp : Int64 := 0
  ibtp : Option Ibtp := none
  amount : String := ""
  extra : Bytes := []

namespace Draft

/-- An invocation run by the given machine. -/
def invoke (sender : Option Address) (recipient : Address) (machine : Int32) (input : Bytes) :
    Draft where
  sender
  recipient
  payload := Message.encode ({ type := 1, machine, payload := input } : TransactionData)

/-- A transfer.  The amount stands in the payload and in the transaction itself. -/
def transfer (sender : Option Address) (recipient : Address) (amount : UInt64) : Draft where
  sender
  recipient
  payload := Message.encode ({ type := 0, amount } : TransactionData)
  amount := toString amount.toNat

/-- A transaction that carries an interchain packet. -/
def interchain (sender : Option Address) (recipient : Address) (ibtp : Ibtp) : Draft where
  sender
  recipient
  ibtp

/-- The sender, if the draft has one. -/
def requireSender (d : Draft) : Except ClientError Address :=
  match d.sender with
  | some a => .ok a
  | none => .error (.reconstruct "transaction has no sender")

/-- The transaction with the given nonce, not signed yet. -/
def bind (d : Draft) (sender : Address) (nonce : UInt64) : Transaction where
  sender := sender.text
  recipient := d.recipient.text
  timestamp := d.timestamp
  payload := d.payload
  ibtp := d.ibtp
  nonce
  amount := d.amount
  extra := d.extra

/-- Gives the draft its nonce and signs it. -/
def sign (d : Draft) (nonce : UInt64) (signer : Signer) : Except ClientError SignedTransaction :=
  match d.requireSender with
  | .error e => .error e
  | .ok sender =>
    let t := d.bind sender nonce
    match signer.sign t.signingBytes with
    | .error e => .error (.sign e)
    | .ok signature => .ok ⟨{ t with signature }⟩

end Draft
end LedgerClient
