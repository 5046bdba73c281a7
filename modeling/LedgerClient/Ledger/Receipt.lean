import LedgerClient.Wire.Message

/-!
# Receipts and events
-/

namespace LedgerClient.Ledger

open Wire

/-- The kinds of event. -/
def Event.types : Enumeration :=
  ⟨"Event.EventType", [("OTHER", 0), ("INTERCHAIN", 1), ("NODEMGR", 2), ("WASM", 3),
     ("AUDIT_PROPOSAL", 4)]⟩

/-- Something a transaction made known. -/
structure Event where
  transactionHash : String := ""
  data : Bytes := []
  type : Int32 := 0
  deriving DecidableEq

instance : Message Event where
  typeName := "Event"
  layout :=
    .one 1 "tx_hash" .string <| .one 2 "data" .bytes <|
    .one 3 "event_type" (.enumeration Event.types) .done
  toRecord m := (m.transactionHash, m.data, m.type, ())
  ofRecord := fun (transactionHash, data, type, _) => { transactionHash, data, type }

/-- How a transaction ended. -/
def Receipt.statuses : Enumeration :=
  ⟨"Receipt.Status", [("SUCCESS", 0), ("FAILED", 1)]⟩

/-- The outcome of a transaction. -/
structure Receipt where
  version : String := ""
  transactionHash : String := ""
  result : Bytes := []
  status : Int32 := 0
  events : List Event := []
  gasUsed : UInt64 := 0
  deriving DecidableEq

instance : Message Receipt where
  typeName := "Receipt"
  layout :=
    .one 1 "version" .string <| .one 2 "tx_hash" .string <| .one 3 "ret" .bytes <|
    .one 4 "status" (.enumeration Receipt.statuses) <|
    .messages 5 "events" (Message.label Event) (Message.layout Event) <|
    .one 6 "gas_used" .uint64 .done
  toRecord m := (m.version, m.transactionHash, m.result, m.status, m.events.map Message.toRecord,
    m.gasUsed, ())
  ofRecord := fun (version, transactionHash, result, status, events, gasUsed, _) =>
    { version, transactionHash, result, status, events := events.map Message.ofRecord, gasUsed }
  ofRecord_toRecord := by intro m; simp
  toRecord_ofRecord := by intro r; simp

/-- The name of the status a receipt is read as: a number that names no status reads as the
default. -/
def Receipt.statusName (r : Receipt) : String := Receipt.statuses.nameOrDefault r.status

/-- A receipt reports success if its status reads as `SUCCESS`. -/
def Receipt.isSuccess (r : Receipt) : Bool := r.statusName == "SUCCESS"

end LedgerClient.Ledger
