import LedgerClient.Session.Answer
import LedgerClient.Session.Call

/-!
# Queries

What a client can ask the ledger without changing it, and the coordination of piers and validating
peers.  A query that fails is a broken network, whatever its status.
-/

namespace LedgerClient

open Account Ledger Rpc Settings Wire

namespace Program

/-- Reads the result of a program further. -/
def reading {α β : Type} (t : Program (Except ClientError α)) (f : α → Except ClientError β) :
    Program (Except ClientError β) :=
  t.bind fun r => .done (r.bind f)

/-- The data of a general response. -/
def data (t : Program (Except ClientError Response)) : Program (Except ClientError Bytes) :=
  t.reading fun r => .ok r.data

end Program

variable (c : Nat)

/-! ## Transactions and receipts -/

/-- The receipt of a transaction. -/
def getReceipt (hash : String) : Program (Except ClientError Receipt) :=
  call c (.query "get_receipt" Deadlines.receipt) Method.receipt { hash }

/-- The transaction of a hash. -/
def getTransaction (hash : String) : Program (Except ClientError LocatedTransaction) :=
  call c (.query "get_transaction" Deadlines.blocks) Method.transaction { hash }

/-- A transaction by its place in the block of a hash. -/
def getTransactionAtHash (blockHash : String) (index : UInt64) :
    Program (Except ClientError LocatedTransaction) :=
  call c (.query "get_transaction_by_block_hash_and_index" Deadlines.blocks)
    Method.transactionAtHash { blockHash, index }

/-- A transaction by its place in the block of a number. -/
def getTransactionAtNumber (blockNumber index : UInt64) :
    Program (Except ClientError LocatedTransaction) :=
  call c (.query "get_transaction_by_block_number_and_index" Deadlines.blocks)
    Method.transactionAtNumber { blockNumber, index }

/-! ## Accounts -/

/-- The nonce that the node expects next from an account. -/
def getPendingNonce (account : Address) : Program (Except ClientError UInt64) :=
  (call c (.query "get_pending_nonce" Deadlines.query) Method.pendingNonce
    { address := account.text }).data.reading readDecimal

/-- The node's record of an account. -/
def getAccountBalance (account : Address) : Program (Except ClientError Bytes) :=
  (call c (.query "get_account_balance" Deadlines.query) Method.accountBalance
    { address := account.text }).data

/-! ## The chain -/

def getChainMeta : Program (Except ClientError ChainMeta) :=
  call c (.query "get_chain_meta" Deadlines.blocks) Method.chainMeta {}

/-- The transactions per second over a range of blocks. -/
def getTransactionRate (first last : UInt64) : Program (Except ClientError UInt64) :=
  (call c (.query "get_tps" Deadlines.query) Method.transactionRate
    { first, last }).data.reading readRate

def getChainId : Program (Except ClientError UInt64) :=
  (call c (.query "get_chain_id" Deadlines.query) Method.chainId {}).data.reading readIdentifier

/-- What a node tells about itself, by the number of the question. -/
def getInfo (type : Int32) : Program (Except ClientError Bytes) :=
  (call c (.query "get_info" Deadlines.query) Method.info { type }).data

def getChainStatus : Program (Except ClientError String) := (getInfo c 0).reading readText

def getNetworkMeta : Program (Except ClientError Bytes) := getInfo c 1

def getValidators : Program (Except ClientError Bytes) := getInfo c 2

/-- The blocks of a range. -/
def getBlocks (first last : UInt64) : Program (Except ClientError (List Block)) :=
  (call c (.query "get_blocks" Deadlines.blocks) Method.blocks { first, last }).reading fun r =>
    .ok r.blocks

/-- How a block is looked up. -/
inductive BlockSelector where
  | height (n : UInt64)
  | hash (h : String)

/-- A block. -/
def getBlock (selector : BlockSelector) : Program (Except ClientError Block) :=
  let query : BlockQuery := match selector with
    | .height n => { type := 0, value := toString n.toNat }
    | .hash h => { type := 1, value := h }
  call c (.query "get_block" Deadlines.blocks) Method.block query

/-! ## Interchain coordination -/

/-- The validators' signatures over some content, by their addresses. -/
def getMultiSigns (content : String) (type : Int32) : Program (Except ClientError ByteMap) :=
  (call c (.query "get_multi_signs" Deadlines.send) Method.multiSigns
    { type, content }).reading fun r => .ok r.byAddress

/-- A threshold signature over some content. -/
def getThresholdSigns (content : String) (type : Int32) (extra : Bytes) :
    Program (Except ClientError ByteMap) :=
  (call c (.query "get_tss_signs" Deadlines.send) Method.thresholdSigns
    { type, content, extra }).reading fun r => .ok r.byAddress

/-- Whether a pier has a master. -/
def checkMasterPier (pier : String) : Program (Except ClientError Bytes) :=
  (call c (.query "check_master_pier" Deadlines.pier) Method.checkMasterPier
    { address := pier }).data

/-- Claims the master role for an instance of a pier. -/
def setMasterPier (pier instanceIndex : String) (leaseSeconds : Int64) :
    Program (Except ClientError Bytes) :=
  (call c (.query "set_master_pier" Deadlines.pier) Method.setMasterPier
    { address := pier, instanceIndex, leaseSeconds }).data

/-- Renews the master role of an instance of a pier. -/
def heartBeat (pier instanceIndex : String) : Program (Except ClientError Bytes) :=
  (call c (.query "heart_beat" Deadlines.pier) Method.heartBeat
    { address := pier, instanceIndex }).data

/-- Removes a validating peer. -/
def removePeer (peer : String) : Program (Except ClientError Bytes) :=
  (call c (.query "del_vp_node" Deadlines.query) Method.removePeer { peer }).data

end LedgerClient
