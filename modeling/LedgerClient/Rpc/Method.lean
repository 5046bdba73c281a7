import LedgerClient.Ledger.Catalogue

/-!
# The methods of the service

A method has a name and the types of its request and of its responses.  The last four methods
answer with a stream of responses.
-/

namespace LedgerClient.Rpc

open Ledger Wire

/-- A method of the service, from requests `Req` to responses `Res`. -/
structure Method (Req Res : Type) where
  name : String

namespace Method

def sendTransaction : Method Transaction TransactionHash := ⟨"send_transaction"⟩
def sendBatch : Method TransactionBatch TransactionHashes := ⟨"send_transactions"⟩
def sendView : Method Transaction Receipt := ⟨"send_view"⟩
def receipt : Method TransactionHash Receipt := ⟨"get_receipt"⟩
def transaction : Method TransactionHash LocatedTransaction := ⟨"get_transaction"⟩
def transactionAtHash : Method HashPosition LocatedTransaction :=
  ⟨"get_transaction_by_block_hash_and_index"⟩
def transactionAtNumber : Method NumberPosition LocatedTransaction :=
  ⟨"get_transaction_by_block_number_and_index"⟩
def pendingNonce : Method AccountQuery Response := ⟨"get_pending_nonce_by_account"⟩
def accountBalance : Method AccountQuery Response := ⟨"get_account_balance"⟩
def chainMeta : Method InfoQuery ChainMeta := ⟨"get_chain_meta"⟩
def info : Method InfoQuery Response := ⟨"get_info"⟩
def blocks : Method BlockRange Blocks := ⟨"get_blocks"⟩
def block : Method BlockQuery Block := ⟨"get_block"⟩
def transactionRate : Method RateQuery Response := ⟨"get_tps"⟩
def chainId : Method NoContent Response := ⟨"get_chain_id"⟩
def multiSigns : Method SignRequest Signatures := ⟨"get_multi_signs"⟩
def thresholdSigns : Method SignRequest Signatures := ⟨"get_tss_signs"⟩
def checkMasterPier : Method AccountQuery Response := ⟨"check_master_pier"⟩
def setMasterPier : Method PierInfo Response := ⟨"set_master_pier"⟩
def heartBeat : Method PierInfo Response := ⟨"heart_beat"⟩
def removePeer : Method PeerRemoval Response := ⟨"del_vp_node"⟩
def subscribe : Method SubscriptionRequest Response := ⟨"subscribe"⟩
def subscribeAudit : Method AuditRequest Response := ⟨"subscribe_audit_info"⟩
def headers : Method HeaderRange BlockHeader := ⟨"get_block_header"⟩
def wrappers : Method WrapperRange InterchainWrappers := ⟨"get_interchain_tx_wrappers"⟩

/-- The entry of a method in the list of response types. -/
def entry {Req Res : Type} [Message Res] (m : Method Req Res) : String × MessageType :=
  (m.name, .of Res)

end Method

open Method in
/-- The methods by name, with the types of their responses. -/
def responseTypes : List (String × MessageType) :=
  [sendTransaction.entry, sendBatch.entry, sendView.entry, receipt.entry, transaction.entry,
   transactionAtHash.entry, transactionAtNumber.entry, pendingNonce.entry, accountBalance.entry,
   chainMeta.entry, info.entry, blocks.entry, block.entry, transactionRate.entry, chainId.entry,
   multiSigns.entry, thresholdSigns.entry, checkMasterPier.entry, setMasterPier.entry,
   heartBeat.entry, removePeer.entry, subscribe.entry, subscribeAudit.entry, headers.entry,
   wrappers.entry]

/-- The type of the responses of a method. -/
def responseType? (method : String) : Option MessageType :=
  (responseTypes.find? (·.1 == method)).map (·.2)

end LedgerClient.Rpc
