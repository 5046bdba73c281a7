import LedgerClient.Rpc.Status

/-!
# Connectivity of channels

A channel carries the calls of a client to one node.  What is known of its connection decides
whether it may be handed out again: only an idle or a ready channel is.
-/

namespace LedgerClient.Transport

open Rpc

/-- What is known of the connection of a channel. -/
inductive Connectivity where
  | idle
  | connecting
  | ready
  | transientFailure
  | shutdown
  deriving DecidableEq, Repr

namespace Connectivity

/-- The name of a state in diagnostics. -/
def name : Connectivity → String
  | idle => "Idle"
  | connecting => "Connecting"
  | ready => "Ready"
  | transientFailure => "TransientFailure"
  | shutdown => "Shutdown"

/-- The state of a name. -/
def ofName? (s : String) : Option Connectivity :=
  [idle, connecting, ready, transientFailure, shutdown].find? (·.name == s)

/-- A channel in this state may be handed out. -/
def isUsable : Connectivity → Bool
  | idle | ready => true
  | _ => false

/-- What the end of a call tells about the connection.  An answer shows that it is ready, the
status `unavailable` that it has given out, and any other status nothing.  A channel that was shut
down stays so. -/
def observe {α : Type} (ended : Except Status α) : Connectivity → Connectivity
  | shutdown => shutdown
  | state =>
    match ended with
    | .ok _ => ready
    | .error s => if s.code = .unavailable then transientFailure else state

end Connectivity

/-! ## Channels -/

/-- How a channel reaches its node. -/
inductive Link where
  /-- Calls are handed over in place and tell nothing about a connection. -/
  | direct
  /-- Calls go over a connection, and each tells how it is. -/
  | connection
  deriving DecidableEq, Repr

/-- A channel to a node. -/
structure Channel where
  /-- The number of the node's endpoint. -/
  endpoint : Nat
  address : String
  link : Link
  state : Connectivity := .ready
  deriving DecidableEq, Repr

namespace Channel

/-- Shuts a channel down, and says whether it was still open. -/
def close (c : Channel) : Bool × Channel :=
  (c.state != .shutdown, { c with state := .shutdown })

/-- The channel after a call over it has ended. -/
def observe {α : Type} (ended : Except Status α) (c : Channel) : Channel :=
  match c.link with
  | .direct => c
  | .connection => { c with state := c.state.observe ended }

/-- How a call ends that is not even sent, since its connection was shut down. -/
def refusal? (c : Channel) : Option Status :=
  match c.link, c.state with
  | .connection, .shutdown => some ⟨.unavailable, s!"connection to {c.address} is closed"⟩
  | _, _ => none

end Channel
end LedgerClient.Transport
