import LedgerClient.Client.Error
import LedgerClient.Ledger.Exchange
import LedgerClient.Ledger.Stream

/-!
# Topics of subscriptions

A topic says what a stream of the service carries and how its frames are read.  The frames of the
live topics and of the audit topic are general responses whose data is read once more, according to
the topic; the frames of the two catch-up topics are the values themselves.
-/

namespace LedgerClient

open Ledger Wire

/-- What a live subscription listens to. -/
inductive SubscriptionKind where
  | block
  | event
  | interchain
  | blockHeader
  | interchainWrapper
  | unionInterchainWrapper
  | evmLog
  deriving DecidableEq, Repr

namespace SubscriptionKind

/-- The number of a kind in a request. -/
def number : SubscriptionKind → Int32
  | block => 0
  | event => 1
  | interchain => 2
  | blockHeader => 3
  | interchainWrapper => 4
  | unionInterchainWrapper => 5
  | evmLog => 6

/-- The name of a kind. -/
def name : SubscriptionKind → String
  | block => "Block"
  | event => "Event"
  | interchain => "InterchainTx"
  | blockHeader => "BlockHeader"
  | interchainWrapper => "InterchainTxWrapper"
  | unionInterchainWrapper => "UnionInterchainTxWrapper"
  | evmLog => "EvmLog"

/-- The kind of a name. -/
def ofName? (s : String) : Option SubscriptionKind :=
  [block, event, interchain, blockHeader, interchainWrapper, unionInterchainWrapper,
    evmLog].find? (·.name == s)

end SubscriptionKind

/-- What a stream carries. -/
inductive Topic where
  | live (kind : SubscriptionKind)
  | audit
  /-- The headers of a range of blocks. -/
  | headers
  /-- The interchain wrappers of a range of blocks. -/
  | wrappers
  deriving DecidableEq, Repr

/-- A value delivered by a subscription. -/
inductive Item where
  | blockHeader (m : BlockHeader)
  | block (m : Block)
  | event (m : Event)
  | interchain (m : Ibtp)
  | wrappers (m : InterchainWrappers)
  | unionWrappers (m : InterchainWrappers)
  | audit (m : AuditRecord)
  /-- The data of a kind that is not read any further. -/
  | raw (data : Bytes)
  deriving DecidableEq

/-- Why a subscription is closed. -/
inductive CloseReason where
  | cancelled
  /-- The node ended the stream. -/
  | completed
  | streamError (reason : String)
  | decodeError (reason : String)
  deriving DecidableEq, Repr

/-! ## Reading frames -/

/-- Reads a message as an item; `what` names it in diagnostics. -/
def Item.decode {M : Type} [Message M] (what : String) (item : M → Item) (data : Bytes) :
    Except ClientError Item :=
  match (Message.decode data : Except DecodeError M) with
  | .ok m => .ok (item m)
  | .error cause => .error (.decode what cause)

/-- Reads the data of a live frame. -/
def SubscriptionKind.read (data : Bytes) : SubscriptionKind → Except ClientError Item
  | blockHeader => Item.decode "block header" .blockHeader data
  | block => Item.decode "block" .block data
  | event => Item.decode "event" .event data
  | interchain => Item.decode "interchain tx" .interchain data
  | interchainWrapper => Item.decode "interchain tx wrappers" .wrappers data
  | unionInterchainWrapper => Item.decode "union interchain tx wrappers" .unionWrappers data
  | evmLog => .ok (.raw data)

/-- Reads the message that a frame consists of.  A frame that is no such message is an error of
the stream. -/
def readFrame (M : Type) [Message M] (frame : Bytes) : Except CloseReason M :=
  match (Message.decode frame : Except DecodeError M) with
  | .ok m => .ok m
  | .error cause => .error (.streamError cause.message)

/-- Reads a frame whose data is read once more. -/
def readNested (read : Bytes → Except ClientError Item) (frame : Bytes) :
    Except CloseReason Item :=
  match readFrame Response frame with
  | .error reason => .error reason
  | .ok response =>
    match read response.data with
    | .ok item => .ok item
    | .error e => .error (.decodeError e.message)

/-- Reads a frame of a topic. -/
def Topic.read (frame : Bytes) : Topic → Except CloseReason Item
  | live kind => readNested (fun data => kind.read data) frame
  | audit => readNested (Item.decode "audit tx info" .audit) frame
  | headers => (readFrame BlockHeader frame).map .blockHeader
  | wrappers => (readFrame InterchainWrappers frame).map .wrappers

end LedgerClient
