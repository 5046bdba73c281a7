import LedgerClient.Account.SigningKey
import LedgerClient.Client.Error

/-!
# Options of a submission
-/

namespace LedgerClient

open Account

/-- What one submission does otherwise than the client would by itself. -/
structure SubmitOptions where
  /-- The account whose pending nonce is looked up. -/
  lookup : Option Address := none
  normalNonce : Option UInt64 := none
  interchainNonce : Option UInt64 := none
  /-- Signs in place of the client's own signer. -/
  signer : Option Signer := none

/-- Where the nonce of a submission comes from. -/
inductive NonceSource where
  /-- The caller gives it. -/
  | explicit (nonce : UInt64)
  /-- A node is asked for it. -/
  | remote
  deriving DecidableEq

namespace SubmitOptions

/-- Where the nonce comes from.  At most one nonce may be given. -/
def nonceSource (o : SubmitOptions) : Except ClientError NonceSource :=
  match o.normalNonce, o.interchainNonce with
  | some _, some _ =>
    .error (.reconstruct "normal and interchain nonces are mutually exclusive")
  | some n, none | none, some n => .ok (.explicit n)
  | none, none => .ok .remote

/-- An optional value in diagnostics. -/
def optionText {α : Type} (text : α → String) : Option α → String
  | none => "None"
  | some a => s!"Some({text a})"

/-- Options in diagnostics.  A signer shows its address. -/
def debug (o : SubmitOptions) : String :=
  "TransactOpts \x7b from: " ++ optionText Address.debug o.lookup ++
    ", normal_nonce: " ++ optionText (fun n => toString n.toNat) o.normalNonce ++
    ", ibtp_nonce: " ++ optionText (fun n => toString n.toNat) o.interchainNonce ++
    ", signer: " ++ optionText (fun s => s.address.debug) o.signer ++ " \x7d"

end SubmitOptions
end LedgerClient
