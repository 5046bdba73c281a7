import LedgerClient.Client.Error
import LedgerClient.Settings.Tree
import LedgerClient.Storage.Files
import LedgerClient.Task.Retry
import LedgerClient.Text.Blank
import LedgerClient.Text.Quoted

/-!
# Settings of a client

The nodes, deadlines, budgets and queue sizes of a client, how they are written as a tree and read
from one, and what a client demands of them before it starts.
-/

namespace LedgerClient.Settings

open Time

/-! ## What can be set -/

/-- The paths of the files that an endpoint is dialed with over TLS. -/
structure TlsMaterial where
  caCert : String
  clientCert : Option String := none
  clientKey : Option String := none
  /-- The name that the node's certificate must bear. -/
  serverName : Option String := none
  deriving DecidableEq, Repr

/-- A node of the ledger. -/
structure Node where
  /-- A host and a port, or a whole URI. -/
  address : String
  tls : Option TlsMaterial := none
  deriving DecidableEq, Repr

/-- Deadlines in milliseconds, by what is asked. -/
structure Deadlines where
  dialMs : UInt64 := 1000
  sendMs : UInt64 := 10000
  receiptMs : UInt64 := 2000
  queryMs : UInt64 := 2000
  blocksMs : UInt64 := 10000
  pierMs : UInt64 := 100000
  deriving DecidableEq, Repr

/-- Budgets and pauses of what is tried again. -/
structure Retries where
  dialIntervalMs : UInt64 := 500
  attemptsPerEndpoint : UInt64 := 5
  nonceAttempts : UInt64 := 5
  receiptAttempts : UInt64 := 5
  receiptBackoffMs : UInt64 := 500
  receiptMaxBackoffMs : UInt64 := 8000
  deriving DecidableEq, Repr

/-- Capacities of queues. -/
structure Queues where
  subscriptionBuffer : UInt64 := 128
  deriving DecidableEq, Repr

/-- All settings of a client. -/
structure ClientSettings where
  nodes : List Node := []
  deadlines : Deadlines := {}
  retries : Retries := {}
  queues : Queues := {}
  /-- The file of the signing key, where no signer is given. -/
  keyPath : Option String := none
  deriving DecidableEq, Repr

namespace Deadlines

def dial (d : Deadlines) : Millis := d.dialMs.toNat
def send (d : Deadlines) : Millis := d.sendMs.toNat
def receipt (d : Deadlines) : Millis := d.receiptMs.toNat
def query (d : Deadlines) : Millis := d.queryMs.toNat
def blocks (d : Deadlines) : Millis := d.blocksMs.toNat
def pier (d : Deadlines) : Millis := d.pierMs.toNat

end Deadlines

namespace Retries

/-- How a pool of the given number of endpoints looks for a connection. -/
def dialPolicy (r : Retries) (endpoints : Nat) : RetryPolicy :=
  .scaledByEndpoints r.dialIntervalMs.toNat r.attemptsPerEndpoint.toNat endpoints

/-- How a nonce is looked up. -/
def noncePolicy (r : Retries) : RetryPolicy :=
  .fixed r.dialIntervalMs.toNat r.nonceAttempts.toNat

/-- How a receipt is waited for. -/
def receiptPolicy (r : Retries) : RetryPolicy :=
  .fibonacci r.receiptBackoffMs.toNat r.receiptMaxBackoffMs.toNat r.receiptAttempts.toNat

end Retries

/-- The default settings with nodes at the given addresses. -/
def ClientSettings.withNodes (addresses : List String) : ClientSettings :=
  { nodes := addresses.map fun address => { address } }

/-! ## Writing -/

/-- A number in a tree. -/
def number (n : UInt64) : Tree := .int n.toNat

def TlsMaterial.toTree (m : TlsMaterial) : Tree :=
  .table [("ca-cert", .text m.caCert), ("client-cert", .ofOption m.clientCert),
    ("client-key", .ofOption m.clientKey), ("server-name", .ofOption m.serverName)]

def Node.toTree (n : Node) : Tree :=
  .table [("addr", .text n.address), ("tls", match n.tls with
    | none => .null
    | some m => m.toTree)]

def Deadlines.toTree (d : Deadlines) : Tree :=
  .table [("dial-ms", number d.dialMs), ("send-ms", number d.sendMs),
    ("receipt-ms", number d.receiptMs), ("query-ms", number d.queryMs),
    ("blocks-ms", number d.blocksMs), ("pier-ms", number d.pierMs)]

def Retries.toTree (r : Retries) : Tree :=
  .table [("dial-interval-ms", number r.dialIntervalMs),
    ("attempts-per-endpoint", number r.attemptsPerEndpoint),
    ("nonce-attempts", number r.nonceAttempts), ("receipt-attempts", number r.receiptAttempts),
    ("receipt-backoff-ms", number r.receiptBackoffMs),
    ("receipt-max-backoff-ms", number r.receiptMaxBackoffMs)]

def Queues.toTree (q : Queues) : Tree :=
  .table [("subscription-buffer", number q.subscriptionBuffer)]

/-- The settings as a tree, every field written. -/
def ClientSettings.toTree (s : ClientSettings) : Tree :=
  .table [("nodes", .list (s.nodes.map Node.toTree)), ("timeouts", s.deadlines.toTree),
    ("retry", s.retries.toTree), ("channels", s.queues.toTree), ("key-path", .ofOption s.keyPath)]

/-! ## Reading -/

open Dialect

def TlsMaterial.read? (d : Dialect) (t : Tree) : Option TlsMaterial := do
  match ← d.fields? ["ca-cert", "client-cert", "client-key", "server-name"] t with
  | [caCert, clientCert, clientKey, serverName] =>
    some { caCert := ← required d.text caCert
           clientCert := ← optional d.text clientCert
           clientKey := ← optional d.text clientKey
           serverName := ← optional d.text serverName }
  | _ => none

def Node.read? (d : Dialect) (t : Tree) : Option Node := do
  match ← d.fields? ["addr", "tls"] t with
  | [address, tls] =>
    some { address := ← required d.text address
           tls := ← optional (TlsMaterial.read? d) tls }
  | _ => none

def Deadlines.read? (d : Dialect) (t : Tree) : Option Deadlines := do
  let base : Deadlines := {}
  match ← d.fields? ["dial-ms", "send-ms", "receipt-ms", "query-ms", "blocks-ms", "pier-ms"] t with
  | [dial, send, receipt, query, blocks, pier] =>
    some { dialMs := ← orDefault base.dialMs d.uint64 dial
           sendMs := ← orDefault base.sendMs d.uint64 send
           receiptMs := ← orDefault base.receiptMs d.uint64 receipt
           queryMs := ← orDefault base.queryMs d.uint64 query
           blocksMs := ← orDefault base.blocksMs d.uint64 blocks
           pierMs := ← orDefault base.pierMs d.uint64 pier }
  | _ => none

def Retries.read? (d : Dialect) (t : Tree) : Option Retries := do
  let base : Retries := {}
  match ← d.fields? ["dial-interval-ms", "attempts-per-endpoint", "nonce-attempts",
      "receipt-attempts", "receipt-backoff-ms", "receipt-max-backoff-ms"] t with
  | [interval, perEndpoint, nonce, receipt, backoff, maxBackoff] =>
    some { dialIntervalMs := ← orDefault base.dialIntervalMs d.uint64 interval
           attemptsPerEndpoint := ← orDefault base.attemptsPerEndpoint d.uint64 perEndpoint
           nonceAttempts := ← orDefault base.nonceAttempts d.uint64 nonce
           receiptAttempts := ← orDefault base.receiptAttempts d.uint64 receipt
           receiptBackoffMs := ← orDefault base.receiptBackoffMs d.uint64 backoff
           receiptMaxBackoffMs := ← orDefault base.receiptMaxBackoffMs d.uint64 maxBackoff }
  | _ => none

def Queues.read? (d : Dialect) (t : Tree) : Option Queues := do
  let base : Queues := {}
  match ← d.fields? ["subscription-buffer"] t with
  | [buffer] =>
    some { subscriptionBuffer := ← orDefault base.subscriptionBuffer d.uint64 buffer }
  | _ => none

/-- Reads settings.  A field that is missing has its default; one that is unknown is passed over. -/
def ClientSettings.read? (d : Dialect) (t : Tree) : Option ClientSettings := do
  match ← d.fields? ["nodes", "timeouts", "retry", "channels", "key-path"] t with
  | [nodes, deadlines, retries, queues, keyPath] =>
    some { nodes := ← orDefault [] (listOf (Node.read? d)) nodes
           deadlines := ← orDefault {} (Deadlines.read? d) deadlines
           retries := ← orDefault {} (Retries.read? d) retries
           queues := ← orDefault {} (Queues.read? d) queues
           keyPath := ← optional d.text keyPath }
  | _ => none

/-! ## What a client demands -/

/-- A file that a node's settings name has to exist. -/
def requireFile (fs : Storage.Files) (address field path : String) : Except ClientError Unit :=
  if fs.isFile path then .ok ()
  else .error (.config s!"node {address}: {field} file {Text.quoted path} does not exist")

/-- Checks the files of a node. -/
def TlsMaterial.validate (fs : Storage.Files) (address : String) (m : TlsMaterial) :
    Except ClientError Unit := do
  requireFile fs address "ca-cert" m.caCert
  match m.clientCert, m.clientKey with
  | some cert, some key =>
    requireFile fs address "client-cert" cert
    requireFile fs address "client-key" key
  | none, none => .ok ()
  | _, _ => .error (.config s!"node {address}: client-cert and client-key must be set together")

/-- Checks a node. -/
def Node.validate (fs : Storage.Files) (n : Node) : Except ClientError Unit :=
  if (Text.trim n.address).isEmpty then .error (.config "node address must not be empty")
  else match n.tls with
    | none => .ok ()
    | some m => m.validate fs n.address

/-- Checks the nodes in their order, each with its files, and then the queues. -/
def ClientSettings.validate (fs : Storage.Files) (s : ClientSettings) :
    Except ClientError Unit := do
  if s.nodes.isEmpty then .error (.config "at least one node is required")
  s.nodes.forM (Node.validate fs)
  if s.queues.subscriptionBuffer = 0 then
    .error (.config "channels.subscription-buffer must be greater than zero")

end LedgerClient.Settings
