import LedgerClient.Wire.Message

/-!
# Transactions

A transaction names its sender and its recipient by their account addresses in text, and may
carry an interchain packet beside its payload.  What a signature covers is defined with drafts.
-/

namespace LedgerClient.Ledger

open Wire

/-! ## Payloads -/

/-- What a payload asks for. -/
def TransactionData.types : Enumeration :=
  ⟨"TransactionData.Type", [("NORMAL", 0), ("INVOKE", 1), ("UPDATE", 2), ("FREEZE", 3),
     ("UNFREEZE", 4)]⟩

/-- The machines that run invocations. -/
def TransactionData.machines : Enumeration :=
  ⟨"TransactionData.VMType", [("BVM", 0), ("XVM", 1)]⟩

/-- The payload of a transfer or an invocation. -/
structure TransactionData where
  type : Int32 := 0
  amount : UInt64 := 0
  machine : Int32 := 0
  payload : Bytes := []
  extra : Bytes := []
  deriving DecidableEq

instance : Message TransactionData where
  typeName := "TransactionData"
  layout :=
    .one 1 "type" (.enumeration TransactionData.types) <| .one 2 "amount" .uint64 <|
    .one 3 "vm_type" (.enumeration TransactionData.machines) <| .one 4 "payload" .bytes <|
    .one 5 "extra" .bytes .done
  toRecord m := (m.type, m.amount, m.machine, m.payload, m.extra, ())
  ofRecord := fun (type, amount, machine, payload, extra, _) =>
    { type, amount, machine, payload, extra }

/-- A packet from one chain's service to another's. -/
structure Ibtp where
  source : String := ""
  destination : String := ""
  index : UInt64 := 0
  type : Int32 := 0
  timestamp : Int64 := 0
  proof : Bytes := []
  payload : Bytes := []
  version : String := ""
  extra : Bytes := []
  deriving DecidableEq

instance : Message Ibtp where
  typeName := "IBTP"
  label := "Ibtp"
  layout :=
    .one 1 "from" .string <| .one 2 "to" .string <| .one 3 "index" .uint64 <|
    .one 4 "type" .int32 <| .one 5 "timestamp" .int64 <| .one 6 "proof" .bytes <|
    .one 7 "payload" .bytes <| .one 8 "version" .string <| .one 9 "extra" .bytes .done
  toRecord m := (m.source, m.destination, m.index, m.type, m.timestamp, m.proof, m.payload,
    m.version, m.extra, ())
  ofRecord := fun (source, destination, index, type, timestamp, proof, payload, version, extra,
    _) =>
    { source, destination, index, type, timestamp, proof, payload, version, extra }

/-! ## Transactions and their hashes -/

/-- A transaction. -/
structure Transaction where
  sender : String := ""
  recipient : String := ""
  timestamp : Int64 := 0
  payload : Bytes := []
  ibtp : Option Ibtp := none
  nonce : UInt64 := 0
  amount : String := ""
  signature : Bytes := []
  extra : Bytes := []
  deriving DecidableEq

instance : Message Transaction where
  typeName := "BxhTransaction"
  layout :=
    .one 1 "from" .string <| .one 2 "to" .string <| .one 3 "timestamp" .int64 <|
    .one 4 "payload" .bytes <| .message 5 "ibtp" (Message.label Ibtp) (Message.layout Ibtp) <|
    .one 6 "nonce" .uint64 <| .one 7 "amount" .string <| .one 8 "signature" .bytes <|
    .one 9 "extra" .bytes .done
  toRecord m := (m.sender, m.recipient, m.timestamp, m.payload, m.ibtp.map Message.toRecord,
    m.nonce, m.amount, m.signature, m.extra, ())
  ofRecord := fun (sender, recipient, timestamp, payload, ibtp, nonce, amount, signature, extra,
    _) =>
    { sender, recipient, timestamp, payload, ibtp := ibtp.map Message.ofRecord, nonce, amount,
      signature, extra }
  ofRecord_toRecord := by intro m; simp
  toRecord_ofRecord := by intro r; simp

/-- Several transactions submitted together. -/
structure TransactionBatch where
  transactions : List Transaction := []
  deriving DecidableEq

instance : Message TransactionBatch where
  typeName := "MultiTransaction"
  layout := .messages 1 "txs" (Message.label Transaction) (Message.layout Transaction) .done
  toRecord m := (m.transactions.map Message.toRecord, ())
  ofRecord := fun (transactions, _) => { transactions := transactions.map Message.ofRecord }
  ofRecord_toRecord := by intro m; simp
  toRecord_ofRecord := by intro r; simp

/-- The hash of one transaction. -/
structure TransactionHash where
  hash : String := ""
  deriving DecidableEq

instance : Message TransactionHash where
  typeName := "TransactionHashMsg"
  layout := .one 1 "tx_hash" .string .done
  toRecord m := (m.hash, ())
  ofRecord := fun (hash, _) => { hash }

/-- The hashes of a batch, in its order. -/
structure TransactionHashes where
  hashes : List String := []
  deriving DecidableEq

instance : Message TransactionHashes where
  typeName := "MultiTransactionHash"
  layout := .many 1 "tx_hashes" .string .done
  toRecord m := (m.hashes, ())
  ofRecord := fun (hashes, _) => { hashes }

/-! ## Looking transactions up -/

/-- Where a transaction stands on the chain. -/
structure TransactionMeta where
  blockHash : Bytes := []
  blockHeight : UInt64 := 0
  index : UInt64 := 0
  deriving DecidableEq

instance : Message TransactionMeta where
  typeName := "TransactionMeta"
  layout :=
    .one 1 "block_hash" .bytes <| .one 2 "block_height" .uint64 <| .one 3 "index" .uint64 .done
  toRecord m := (m.blockHash, m.blockHeight, m.index, ())
  ofRecord := fun (blockHash, blockHeight, index, _) => { blockHash, blockHeight, index }

/-- A transaction and where it stands. -/
structure LocatedTransaction where
  transaction : Option Transaction := none
  location : Option TransactionMeta := none
  deriving DecidableEq

instance : Message LocatedTransaction where
  typeName := "GetTransactionResponse"
  layout :=
    .message 1 "tx" (Message.label Transaction) (Message.layout Transaction) <|
    .message 2 "tx_meta" (Message.label TransactionMeta) (Message.layout TransactionMeta) .done
  toRecord m := (m.transaction.map Message.toRecord, m.location.map Message.toRecord, ())
  ofRecord := fun (transaction, location, _) =>
    { transaction := transaction.map Message.ofRecord, location := location.map Message.ofRecord }
  ofRecord_toRecord := by intro m; simp
  toRecord_ofRecord := by intro r; simp

/-- A place in the block of a hash. -/
structure HashPosition where
  blockHash : String := ""
  index : UInt64 := 0
  deriving DecidableEq

instance : Message HashPosition where
  typeName := "TransactionBlockHashAndIndexMsg"
  layout := .one 1 "block_hash" .string <| .one 2 "index" .uint64 .done
  toRecord m := (m.blockHash, m.index, ())
  ofRecord := fun (blockHash, index, _) => { blockHash, index }

/-- A place in the block of a number. -/
structure NumberPosition where
  blockNumber : UInt64 := 0
  index : UInt64 := 0
  deriving DecidableEq

instance : Message NumberPosition where
  typeName := "TransactionBlockNumberAndIndexMsg"
  layout := .one 1 "block_number" .uint64 <| .one 2 "index" .uint64 .done
  toRecord m := (m.blockNumber, m.index, ())
  ofRecord := fun (blockNumber, index, _) => { blockNumber, index }

end LedgerClient.Ledger
