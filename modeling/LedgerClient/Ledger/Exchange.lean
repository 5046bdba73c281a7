import LedgerClient.Wire.Message

/-!
# General requests and responses
-/

namespace LedgerClient.Ledger

open Wire

/-- What a node is asked about itself. -/
def InfoQuery.types : Enumeration :=
  ⟨"Request.Type", [("CHAIN_STATUS", 0), ("NETWORK", 1), ("VALIDATORS", 2)]⟩

/-- A question about the node. -/
structure InfoQuery where
  type : Int32 := 0
  deriving DecidableEq

instance : Message InfoQuery where
  typeName := "Request"
  layout := .one 1 "type" (.enumeration InfoQuery.types) .done
  toRecord m := (m.type, ())
  ofRecord := fun (type, _) => { type }

/-- An answer whose reading depends on the question. -/
structure Response where
  data : Bytes := []
  deriving DecidableEq

instance : Message Response where
  typeName := "Response"
  layout := .one 1 "data" .bytes .done
  toRecord m := (m.data, ())
  ofRecord := fun (data, _) => { data }

/-- A question about one account. -/
structure AccountQuery where
  address : String := ""
  deriving DecidableEq

instance : Message AccountQuery where
  typeName := "Address"
  layout := .one 1 "address" .string .done
  toRecord m := (m.address, ())
  ofRecord := fun (address, _) => { address }

/-- A message without fields. -/
structure NoContent where
  deriving DecidableEq

instance : Message NoContent where
  typeName := "Empty"
  layout := .done
  toRecord _ := ()
  ofRecord _ := {}

end LedgerClient.Ledger
