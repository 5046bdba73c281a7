import LedgerClient.Wire.Message

/-!
# Interchain coordination

Collected signatures, the election of a master pier, and the removal of a validating peer.
-/

namespace LedgerClient.Ledger

open Wire

/-- What signatures are collected over. -/
def SignRequest.types : Enumeration :=
  ⟨"GetSignsRequest.Type", [("MULTI_IBTP_REQUEST", 0), ("MULTI_IBTP_RESPONSE", 1),
     ("MULTI_BLOCK_HEADER", 2), ("MULTI_BURN", 3), ("TSS_IBTP_REQUEST", 4),
     ("TSS_IBTP_RESPONSE", 5)]⟩

/-- Asks for the validators' signatures over some content. -/
structure SignRequest where
  type : Int32 := 0
  content : String := ""
  extra : Bytes := []
  deriving DecidableEq

instance : Message SignRequest where
  typeName := "GetSignsRequest"
  layout :=
    .one 1 "type" (.enumeration SignRequest.types) <| .one 2 "content" .string <|
    .one 3 "extra" .bytes .done
  toRecord m := (m.type, m.content, m.extra, ())
  ofRecord := fun (type, content, extra, _) => { type, content, extra }

/-- Signatures by the addresses of their signers. -/
structure Signatures where
  byAddress : ByteMap := ByteMap.empty
  deriving DecidableEq

instance : Message Signatures where
  typeName := "SignResponse"
  layout := .map 1 "sign" .done
  toRecord m := (m.byAddress, ())
  ofRecord := fun (byAddress, _) => { byAddress }

/-- An instance of a pier and how long it claims the master role. -/
structure PierInfo where
  address : String := ""
  instanceIndex : String := ""
  leaseSeconds : Int64 := 0
  deriving DecidableEq

instance : Message PierInfo where
  typeName := "PierInfo"
  layout := .one 1 "address" .string <| .one 2 "index" .string <| .one 3 "timeout" .int64 .done
  toRecord m := (m.address, m.instanceIndex, m.leaseSeconds, ())
  ofRecord := fun (address, instanceIndex, leaseSeconds, _) =>
    { address, instanceIndex, leaseSeconds }

/-- The validating peer to remove. -/
structure PeerRemoval where
  peer : String := ""
  deriving DecidableEq

instance : Message PeerRemoval where
  typeName := "DelVPNodeRequest"
  label := "DelVpNodeRequest"
  layout := .one 1 "pid" .string .done
  toRecord m := (m.peer, ())
  ofRecord := fun (peer, _) => { peer }

end LedgerClient.Ledger
