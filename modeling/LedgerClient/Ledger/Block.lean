import LedgerClient.Ledger.Transaction

/-!
# Blocks and the chain
-/

namespace LedgerClient.Ledger

open Wire

/-- The head of a block. -/
structure BlockHeader where
  number : UInt64 := 0
  stateRoot : String := ""
  transactionRoot : String := ""
  receiptRoot : String := ""
  parentHash : String := ""
  timestamp : Int64 := 0
  version : Bytes := []
  deriving DecidableEq

instance : Message BlockHeader where
  typeName := "BlockHeader"
  layout :=
    .one 1 "number" .uint64 <| .one 2 "state_root" .string <| .one 3 "tx_root" .string <|
    .one 4 "receipt_root" .string <| .one 5 "parent_hash" .string <| .one 6 "timestamp" .int64 <|
    .one 7 "version" .bytes .done
  toRecord m := (m.number, m.stateRoot, m.transactionRoot, m.receiptRoot, m.parentHash,
    m.timestamp, m.version, ())
  ofRecord := fun (number, stateRoot, transactionRoot, receiptRoot, parentHash, timestamp,
    version, _) =>
    { number, stateRoot, transactionRoot, receiptRoot, parentHash, timestamp, version }

/-- A block. -/
structure Block where
  header : Option BlockHeader := none
  transactions : List Transaction := []
  hash : String := ""
  signature : Bytes := []
  extra : Bytes := []
  deriving DecidableEq

instance : Message Block where
  typeName := "Block"
  layout :=
    .message 1 "block_header" (Message.label BlockHeader) (Message.layout BlockHeader) <|
    .messages 2 "transactions" (Message.label Transaction) (Message.layout Transaction) <|
    .one 3 "block_hash" .string <| .one 4 "signature" .bytes <| .one 5 "extra" .bytes .done
  toRecord m := (m.header.map Message.toRecord, m.transactions.map Message.toRecord, m.hash,
    m.signature, m.extra, ())
  ofRecord := fun (header, transactions, hash, signature, extra, _) =>
    { header := header.map Message.ofRecord, transactions := transactions.map Message.ofRecord,
      hash, signature, extra }
  ofRecord_toRecord := by intro m; simp
  toRecord_ofRecord := by intro r; simp

/-- The head of the chain. -/
structure ChainMeta where
  height : UInt64 := 0
  blockHash : String := ""
  interchainCount : UInt64 := 0
  deriving DecidableEq

instance : Message ChainMeta where
  typeName := "ChainMeta"
  layout :=
    .one 1 "height" .uint64 <| .one 2 "block_hash" .string <|
    .one 3 "interchain_tx_count" .uint64 .done
  toRecord m := (m.height, m.blockHash, m.interchainCount, ())
  ofRecord := fun (height, blockHash, interchainCount, _) =>
    { height, blockHash, interchainCount }

/-- The heights of the first and the last block asked for. -/
structure BlockRange where
  first : UInt64 := 0
  last : UInt64 := 0
  deriving DecidableEq

instance : Message BlockRange where
  typeName := "GetBlocksRequest"
  layout := .one 1 "start" .uint64 <| .one 2 "end" .uint64 .done
  toRecord m := (m.first, m.last, ())
  ofRecord := fun (first, last, _) => { first, last }

/-- Several blocks. -/
structure Blocks where
  blocks : List Block := []
  deriving DecidableEq

instance : Message Blocks where
  typeName := "GetBlocksResponse"
  layout := .messages 1 "blocks" (Message.label Block) (Message.layout Block) .done
  toRecord m := (m.blocks.map Message.toRecord, ())
  ofRecord := fun (blocks, _) => { blocks := blocks.map Message.ofRecord }
  ofRecord_toRecord := by intro m; simp
  toRecord_ofRecord := by intro r; simp

/-- What the value of a block query is. -/
def BlockQuery.types : Enumeration :=
  ⟨"GetBlockRequest.Type", [("HEIGHT", 0), ("HASH", 1)]⟩

/-- A block by its height, in decimal digits, or by its hash. -/
structure BlockQuery where
  type : Int32 := 0
  value : String := ""
  deriving DecidableEq

instance : Message BlockQuery where
  typeName := "GetBlockRequest"
  layout := .one 1 "type" (.enumeration BlockQuery.types) <| .one 2 "value" .string .done
  toRecord m := (m.type, m.value, ())
  ofRecord := fun (type, value, _) => { type, value }

/-- The heights between which transactions are counted. -/
structure RateQuery where
  first : UInt64 := 0
  last : UInt64 := 0
  deriving DecidableEq

instance : Message RateQuery where
  typeName := "GetTPSRequest"
  label := "GetTpsRequest"
  layout := .one 1 "begin" .uint64 <| .one 2 "end" .uint64 .done
  toRecord m := (m.first, m.last, ())
  ofRecord := fun (first, last, _) => { first, last }

end LedgerClient.Ledger
