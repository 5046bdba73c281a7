import LedgerClient.Session.Submit
import LedgerClient.Session.Subscribe

/-!
# Commands

All that a client can be told to do, as data, so that something can be said of every operation at
once.  A command hands its caller a lease or nothing that has to be given back; whatever else it
yields is left out here.
-/

namespace LedgerClient

open Account Ledger Time

/-- What a client can be told to do. -/
inductive Command where
  /-- Acquires a lease for the caller. -/
  | acquire
  | submit (d : Draft) (o : SubmitOptions)
  | submitAndWait (d : Draft) (o : SubmitOptions)
  | prepare (d : Draft) (o : SubmitOptions)
  | sendSigned (t : SignedTransaction)
  | sendSignedAndWait (t : SignedTransaction)
  | submitBatch (ts : List SignedTransaction)
  | sendView (d : Draft)
  | pollReceipt (hash : String)
  | getReceipt (hash : String)
  | getTransaction (hash : String)
  | getTransactionAtHash (blockHash : String) (index : UInt64)
  | getTransactionAtNumber (blockNumber index : UInt64)
  | getPendingNonce (account : Address)
  | getAccountBalance (account : Address)
  | getChainMeta
  | getTransactionRate (first last : UInt64)
  | getChainId
  | getChainStatus
  | getNetworkMeta
  | getValidators
  | getBlocks (first last : UInt64)
  | getBlock (selector : BlockSelector)
  | getMultiSigns (content : String) (type : Int32)
  | getThresholdSigns (content : String) (type : Int32) (extra : Bytes)
  | checkMasterPier (pier : String)
  | setMasterPier (pier instanceIndex : String) (leaseSeconds : Int64)
  | heartBeat (pier instanceIndex : String)
  | removePeer (peer : String)
  | subscribe (scope : Scope) (kind : SubscriptionKind) (extra : Bytes)
  | subscribeAudit (scope : Scope) (blockHeight : UInt64) (extra : Bytes)
  | streamHeaders (scope : Scope) (first last : UInt64)
  | streamWrappers (scope : Scope) (peer : String) (first last : UInt64)
  /-- Reads the next item of a feed. -/
  | nextItem (feed : Nat) (patience : Millis)

namespace Command

/-- What a command yields: the lease that its caller is handed, if it is handed one. -/
abbrev Yield : Type := Except ClientError (Option Lease)

/-- A program whose caller is handed no lease. -/
def keeping {α : Type} (t : Program (Except ClientError α)) : Program Yield :=
  t.reading fun _ => .ok none

/-- The program that client `c` runs for a command. -/
def task (c : Nat) : Command → Program Yield
  | acquire => LedgerClient.acquire.reading fun l => .ok (some l)
  | submit d o => keeping (LedgerClient.submit c d o)
  | submitAndWait d o => keeping (LedgerClient.submitAndWait c d o)
  | prepare d o => keeping (LedgerClient.prepare c d o)
  | sendSigned t => keeping (LedgerClient.sendSigned c t)
  | sendSignedAndWait t => keeping (LedgerClient.sendSignedAndWait c t)
  | submitBatch ts => keeping (LedgerClient.submitBatch c ts)
  | sendView d => keeping (LedgerClient.sendView c d)
  | pollReceipt hash => keeping (LedgerClient.pollReceipt c hash)
  | getReceipt hash => keeping (LedgerClient.getReceipt c hash)
  | getTransaction hash => keeping (LedgerClient.getTransaction c hash)
  | getTransactionAtHash blockHash index =>
    keeping (LedgerClient.getTransactionAtHash c blockHash index)
  | getTransactionAtNumber blockNumber index =>
    keeping (LedgerClient.getTransactionAtNumber c blockNumber index)
  | getPendingNonce account => keeping (LedgerClient.getPendingNonce c account)
  | getAccountBalance account => keeping (LedgerClient.getAccountBalance c account)
  | getChainMeta => keeping (LedgerClient.getChainMeta c)
  | getTransactionRate first last => keeping (LedgerClient.getTransactionRate c first last)
  | getChainId => keeping (LedgerClient.getChainId c)
  | getChainStatus => keeping (LedgerClient.getChainStatus c)
  | getNetworkMeta => keeping (LedgerClient.getNetworkMeta c)
  | getValidators => keeping (LedgerClient.getValidators c)
  | getBlocks first last => keeping (LedgerClient.getBlocks c first last)
  | getBlock selector => keeping (LedgerClient.getBlock c selector)
  | getMultiSigns content type => keeping (LedgerClient.getMultiSigns c content type)
  | getThresholdSigns content type extra =>
    keeping (LedgerClient.getThresholdSigns c content type extra)
  | checkMasterPier pier => keeping (LedgerClient.checkMasterPier c pier)
  | setMasterPier pier instanceIndex leaseSeconds =>
    keeping (LedgerClient.setMasterPier c pier instanceIndex leaseSeconds)
  | heartBeat pier instanceIndex => keeping (LedgerClient.heartBeat c pier instanceIndex)
  | removePeer peer => keeping (LedgerClient.removePeer c peer)
  | subscribe scope kind extra => keeping (LedgerClient.subscribe c scope kind extra)
  | subscribeAudit scope blockHeight extra =>
    keeping (LedgerClient.subscribeAudit c scope blockHeight extra)
  | streamHeaders scope first last => keeping (LedgerClient.streamHeaders c scope first last)
  | streamWrappers scope peer first last =>
    keeping (LedgerClient.streamWrappers c scope peer first last)
  | nextItem feed patience => (LedgerClient.nextItem feed patience).bind fun _ => .done (.ok none)

end Command
end LedgerClient
