import LedgerClient.Pool.Search
import LedgerClient.Rpc.Method
import LedgerClient.Rpc.Timeout
import LedgerClient.Submission.Draft
import LedgerClient.Submission.Locks
import LedgerClient.Submission.Options
import LedgerClient.Subscription.Feed
import LedgerClient.Task.Basic

/-!
# Sessions

A session is what the operations of some clients share: a pool, the clients with their signers and
account locks, and the feeds they opened.  The operations are programs: tasks over a session that
ask the network to dial, to carry calls and to open streams.
-/

namespace LedgerClient

open Account Ledger Rpc Settings Storage Time Transport Wire

/-! ## State -/

/-- A client: one signing identity over the pool. -/
structure Client where
  settings : ClientSettings
  /-- Signs where a submission names no other signer. -/
  signer : Signer
  locks : LockTable := {}

/-- The shared state of some clients. -/
structure Session where
  pool : Pool
  /-- The clients by number. -/
  clients : Nat → Client
  /-- The feeds by number. -/
  feeds : List Feed := []
  cancelledScopes : List Scope := []

namespace Session

/-- The signer of a client: the one given, or else the key in the file that the settings name. -/
def clientSigner (fs : Files) (s : ClientSettings) (given : Option Signer) :
    Except ClientError Signer :=
  match given, s.keyPath with
  | some signer, _ => .ok signer
  | none, some path =>
    match SigningKey.ofFile fs path with
    | .ok key => .ok (.ofKey key)
    | .error e => .error (.config s!"failed to load key: {e.message}")
  | none, none => .error (.config "a signer or key-path is required")

/-- Builds clients over one pool.  Unless a pool is given, the first client builds it from the
settings. -/
def start (fs : Files) (settings : ClientSettings) (given : Option Pool)
    (rotations : List (List Nat)) (first : Option Signer) (others : List (Option Signer)) :
    Except ClientError Session := do
  let signer ← clientSigner fs settings first
  let pool ← match given with
    | some pool => .ok pool
    | none => Pool.ofSettings fs settings rotations
  let signers ← others.mapM (clientSigner fs settings)
  .ok { pool, clients := fun i => { settings, signer := ((signer :: signers)[i]?).getD signer } }

/-- Changes one client. -/
def alterClient (c : Nat) (f : Client → Client) (s : Session) : Session :=
  { s with clients := fun i => if i = c then f (s.clients i) else s.clients i }

/-- Changes the pool, and passes on what the change yields. -/
def onPool {α : Type} (f : Pool → α × Pool) (s : Session) : α × Session :=
  let r := f s.pool
  (r.1, { s with pool := r.2 })

/-- Changes the pool. -/
def alterPool (f : Pool → Pool) (s : Session) : Session := { s with pool := f s.pool }

/-- The address of a client. -/
def address (s : Session) (c : Nat) : Address := (s.clients c).signer.address

/-- Replaces the signer of a client for what it begins from now on. -/
def setSigner (c : Nat) (signer : Signer) (s : Session) : Session :=
  s.alterClient c fun k => { k with signer }

/-- Gives a lease back. -/
def release (s : Session) : Session := s.alterPool Pool.release

end Session

/-! ## The network -/

/-- A call as it is handed to a channel. -/
structure Call where
  channel : Nat
  method : String
  /-- The encoded request. -/
  payload : Bytes
  /-- The account that the call names as its caller. -/
  account : Option String := none
  /-- The deadline that the node is told. -/
  timeout : Option Timeout := none
  /-- How long the caller waits. -/
  patience : Option Millis := none
  deriving DecidableEq

/-- How waiting for an answer has ended. -/
inductive Reply (α : Type) where
  | ended (r : Except Status α)
  /-- The caller's patience ran out. -/
  | expired

/-- What a program may ask for. -/
inductive NetworkRequest where
  | dial (endpoint : Nat) (limit : Millis)
  | call (c : Call)
  /-- A call that is answered with a stream. -/
  | stream (c : Call)
  /-- Waits until a ticket of a client's account locks is handed its mutex. -/
  | turn (client ticket : Nat)
  /-- Waits until a feed has an item or is at its end, or the patience ends. -/
  | item (feed : Nat) (patience : Millis)

/-- The network as programs see it. -/
def Network : Interface where
  Request := NetworkRequest
  Answer
    | .dial .. => DialReply
    | .call _ => Reply Bytes
    | .stream _ => Reply Nat
    | .turn .. => Unit
    | .item .. => Unit

/-- A computation over a session that uses the network. -/
abbrev Program (α : Type) := Task Network Session α

namespace Program

/-- Waits for the outcome of a dial. -/
def dial (endpoint : Nat) (limit : Millis) : Program DialReply :=
  Task.request (I := Network) (.dial endpoint limit)

/-- Waits for the answer to a call. -/
def call (c : Call) : Program (Reply Bytes) := Task.request (I := Network) (.call c)

/-- Waits for the stream that answers a call. -/
def stream (c : Call) : Program (Reply Nat) := Task.request (I := Network) (.stream c)

/-- Waits for the mutex of a ticket. -/
def turn (client ticket : Nat) : Program Unit := Task.request (I := Network) (.turn client ticket)

/-- Waits for an item of a feed. -/
def item (feed : Nat) (patience : Millis) : Program Unit :=
  Task.request (I := Network) (.item feed patience)

/-- Runs `t`, and `f` on its result unless it failed. -/
def andThen {α β : Type} (t : Program (Except ClientError α))
    (f : α → Program (Except ClientError β)) : Program (Except ClientError β) :=
  t.bind fun
    | .ok a => f a
    | .error e => .done (.error e)

end Program
end LedgerClient
