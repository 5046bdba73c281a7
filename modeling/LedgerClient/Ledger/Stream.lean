import LedgerClient.Ledger.Block
import LedgerClient.Ledger.Receipt

/-!
# Subscriptions and catch-up streams
-/

namespace LedgerClient.Ledger

open Wire

/-! ## Requests -/

/-- What can be subscribed to. -/
def SubscriptionRequest.types : Enumeration :=
  ⟨"SubscriptionRequest.Type", [("BLOCK", 0), ("EVENT", 1), ("INTERCHAIN_TX", 2),
     ("BLOCK_HEADER", 3), ("INTERCHAIN_TX_WRAPPER", 4), ("UNION_INTERCHAIN_TX_WRAPPER", 5),
     ("EVM_LOG", 6)]⟩

/-- Asks for a live stream. -/
structure SubscriptionRequest where
  type : Int32 := 0
  extra : Bytes := []
  deriving DecidableEq

instance : Message SubscriptionRequest where
  typeName := "SubscriptionRequest"
  layout := .one 1 "type" (.enumeration SubscriptionRequest.types) <| .one 2 "extra" .bytes .done
  toRecord m := (m.type, m.extra, ())
  ofRecord := fun (type, extra, _) => { type, extra }

/-- The audit streams. -/
def AuditRequest.types : Enumeration :=
  ⟨"AuditSubscriptionRequest.Type", [("AUDIT_NODE", 0)]⟩

/-- Asks for the audit stream of a node from a height on. -/
structure AuditRequest where
  type : Int32 := 0
  nodeId : String := ""
  blockHeight : UInt64 := 0
  extra : Bytes := []
  deriving DecidableEq

instance : Message AuditRequest where
  typeName := "AuditSubscriptionRequest"
  layout :=
    .one 1 "type" (.enumeration AuditRequest.types) <| .one 2 "audit_node_id" .string <|
    .one 3 "block_height" .uint64 <| .one 4 "extra" .bytes .done
  toRecord m := (m.type, m.nodeId, m.blockHeight, m.extra, ())
  ofRecord := fun (type, nodeId, blockHeight, extra, _) => { type, nodeId, blockHeight, extra }

/-- The heights of the first and the last header asked for. -/
structure HeaderRange where
  first : UInt64 := 0
  last : UInt64 := 0
  deriving DecidableEq

instance : Message HeaderRange where
  typeName := "GetBlockHeaderRequest"
  layout := .one 1 "begin" .uint64 <| .one 2 "end" .uint64 .done
  toRecord m := (m.first, m.last, ())
  ofRecord := fun (first, last, _) => { first, last }

/-- The heights of the first and the last wrapper asked for, and the peer they are for. -/
structure WrapperRange where
  first : UInt64 := 0
  last : UInt64 := 0
  peer : String := ""
  deriving DecidableEq

instance : Message WrapperRange where
  typeName := "GetInterchainTxWrappersRequest"
  layout := .one 1 "begin" .uint64 <| .one 2 "end" .uint64 <| .one 3 "pid" .string .done
  toRecord m := (m.first, m.last, m.peer, ())
  ofRecord := fun (first, last, peer, _) => { first, last, peer }

/-! ## Frames -/

/-- An audited transaction and its receipt. -/
structure AuditRecord where
  transaction : Option Transaction := none
  receipt : Option Receipt := none
  blockHeight : UInt64 := 0
  deriving DecidableEq

instance : Message AuditRecord where
  typeName := "AuditTxInfo"
  layout :=
    .message 1 "tx" (Message.label Transaction) (Message.layout Transaction) <|
    .message 2 "rec" (Message.label Receipt) (Message.layout Receipt) <|
    .one 3 "block_height" .uint64 .done
  toRecord m := (m.transaction.map Message.toRecord, m.receipt.map Message.toRecord,
    m.blockHeight, ())
  ofRecord := fun (transaction, receipt, blockHeight, _) =>
    { transaction := transaction.map Message.ofRecord, receipt := receipt.map Message.ofRecord,
      blockHeight }
  ofRecord_toRecord := by intro m; simp
  toRecord_ofRecord := by intro r; simp

/-- A transaction and whether it was found valid. -/
structure VerifiedTransaction where
  transaction : Option Transaction := none
  valid : Bool := false
  deriving DecidableEq

instance : Message VerifiedTransaction where
  typeName := "VerifiedTx"
  layout :=
    .message 1 "tx" (Message.label Transaction) (Message.layout Transaction) <|
    .one 2 "valid" .bool .done
  toRecord m := (m.transaction.map Message.toRecord, m.valid, ())
  ofRecord := fun (transaction, valid, _) =>
    { transaction := transaction.map Message.ofRecord, valid }
  ofRecord_toRecord := by intro m; simp
  toRecord_ofRecord := by intro r; simp

/-- The interchain transactions of one block. -/
structure InterchainWrapper where
  roots : List Bytes := []
  transactions : List VerifiedTransaction := []
  height : UInt64 := 0
  timedOut : List String := []
  deriving DecidableEq

instance : Message InterchainWrapper where
  typeName := "InterchainTxWrapper"
  layout :=
    .many 1 "l2_roots" .bytes <|
    .messages 2 "transactions" (Message.label VerifiedTransaction)
      (Message.layout VerifiedTransaction) <|
    .one 3 "height" .uint64 <| .many 4 "timeout_ibtps" .string .done
  toRecord m := (m.roots, m.transactions.map Message.toRecord, m.height, m.timedOut, ())
  ofRecord := fun (roots, transactions, height, timedOut, _) =>
    { roots, transactions := transactions.map Message.ofRecord, height, timedOut }
  ofRecord_toRecord := by intro m; simp
  toRecord_ofRecord := by intro r; simp

/-- Several wrappers. -/
structure InterchainWrappers where
  wrappers : List InterchainWrapper := []
  deriving DecidableEq

instance : Message InterchainWrappers where
  typeName := "InterchainTxWrappers"
  layout :=
    .messages 1 "interchain_tx_wrappers" (Message.label InterchainWrapper)
      (Message.layout InterchainWrapper) .done
  toRecord m := (m.wrappers.map Message.toRecord, ())
  ofRecord := fun (wrappers, _) => { wrappers := wrappers.map Message.ofRecord }
  ofRecord_toRecord := by intro m; simp
  toRecord_ofRecord := by intro r; simp

end LedgerClient.Ledger
