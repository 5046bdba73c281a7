import LedgerClient.Ledger.Coordination
import LedgerClient.Ledger.Exchange
import LedgerClient.Ledger.Stream

/-!
# The messages and enumerations of the service

Every message type of the service with its layout, and every enumeration, for tools that are
given a type by its name.
-/

namespace LedgerClient.Ledger

open Wire

/-- A message type by its names and layout. -/
structure MessageType where
  typeName : String
  label : String
  layout : Layout

/-- The entry of a type of messages. -/
def MessageType.of (M : Type) [Message M] : MessageType :=
  ⟨Message.typeName M, Message.label M, Message.layout M⟩

/-- The message types of the service. -/
def messageTypes : List MessageType :=
  [.of TransactionData, .of Ibtp, .of Transaction, .of TransactionBatch, .of TransactionHash,
   .of TransactionHashes, .of TransactionMeta, .of LocatedTransaction, .of HashPosition,
   .of NumberPosition, .of Event, .of Receipt, .of BlockHeader, .of Block, .of ChainMeta,
   .of BlockRange, .of Blocks, .of BlockQuery, .of RateQuery, .of InfoQuery, .of Response,
   .of AccountQuery, .of NoContent, .of SubscriptionRequest, .of AuditRequest, .of AuditRecord,
   .of HeaderRange, .of WrapperRange, .of VerifiedTransaction, .of InterchainWrapper,
   .of InterchainWrappers, .of SignRequest, .of Signatures, .of PierInfo, .of PeerRemoval]

/-- The type of a name. -/
def messageType? (name : String) : Option MessageType :=
  messageTypes.find? (·.typeName == name)

/-- The enumerations of the service. -/
def enumerations : List Enumeration :=
  [TransactionData.types, TransactionData.machines, Event.types, Receipt.statuses,
   BlockQuery.types, InfoQuery.types, SubscriptionRequest.types, AuditRequest.types,
   SignRequest.types]

/-- The enumeration of a name. -/
def enumeration? (name : String) : Option Enumeration :=
  enumerations.find? (·.name == name)

end LedgerClient.Ledger
