import LedgerClient.Settings.Client
import LedgerClient.Text.Quoted
import LedgerClient.Transport.Connectivity

/-!
# The connection pool

A pool keeps at most one channel for each of its endpoints and remembers the endpoint that worked
last.  This module holds the state of a pool and what its users do to it: leases, faults, and
closing.

The pool keeps every channel it was ever given, by number, and the orders to close that it gave,
so that what it did to its channels can be read off its state.
-/

namespace LedgerClient

open Rpc Settings Time Transport

/-- The right to use a channel of the pool until it is given back. -/
structure Lease where
  /-- The number of the endpoint. -/
  index : Nat
  /-- The address of the endpoint. -/
  endpoint : String
  channel : Nat
  deriving DecidableEq, Repr

/-- A connection pool. -/
structure Pool where
  endpoints : List Node
  /-- How a connection is searched for. -/
  policy : RetryPolicy
  dialTimeout : Millis
  /-- The orders in which coming searches go through the endpoints. -/
  rotations : List (List Nat) := []
  /-- All channels the pool was given. -/
  channels : List Channel := []
  /-- The channel kept for each endpoint. -/
  slots : List (Option Nat) := List.replicate endpoints.length none
  /-- The endpoints whose TLS files cannot be used. -/
  disabled : List Nat := []
  /-- The endpoint that worked last. -/
  lastGood : Option Nat := none
  closed : Bool := false
  /-- The number of leases not given back. -/
  leased : Nat := 0
  /-- The channels that were ordered to close, the latest first. -/
  closeOrders : List Nat := []

namespace Pool

/-- A pool has an endpoint. -/
def ofEndpoints (endpoints : List Node) (policy : RetryPolicy) (dialTimeout : Millis)
    (rotations : List (List Nat)) : Except ClientError Pool :=
  if endpoints.isEmpty then .error (.config "connection pool needs at least one endpoint")
  else .ok { endpoints, policy, dialTimeout, rotations }

/-- The pool that settings ask for. -/
def ofSettings (fs : Storage.Files) (s : ClientSettings) (rotations : List (List Nat)) :
    Except ClientError Pool :=
  match s.validate fs with
  | .error e => .error e
  | .ok () =>
    ofEndpoints s.nodes (s.retries.dialPolicy s.nodes.length) s.deadlines.dial rotations

/-! ## Views -/

/-- The number of endpoints. -/
def size (p : Pool) : Nat := p.endpoints.length

/-- The address of an endpoint. -/
def address (p : Pool) (i : Nat) : String := ((p.endpoints[i]?).map (·.address)).getD ""

/-- The channel kept for an endpoint. -/
def slot? (p : Pool) (i : Nat) : Option Nat := (p.slots[i]?).join

/-- A channel may be handed out. -/
def isUsable (p : Pool) (channel : Nat) : Bool :=
  (p.channels[channel]?).any fun c => c.state.isUsable

/-- The channel kept for an endpoint, if it may be handed out. -/
def usable? (p : Pool) (i : Nat) : Option Nat := (p.slot? i).filter p.isUsable

/-- The state of a leased channel. -/
def stateOf (p : Pool) (l : Lease) : Connectivity :=
  ((p.channels[l.channel]?).map (·.state)).getD .shutdown

/-! ## Channels -/

/-- Changes a channel. -/
def alter (p : Pool) (channel : Nat) (f : Channel → Channel) : Pool :=
  match p.channels[channel]? with
  | none => p
  | some c => { p with channels := p.channels.set channel (f c) }

/-- Orders a channel to close, and says whether it was still open. -/
def closeChannel (p : Pool) (channel : Nat) : Bool × Pool :=
  ((p.channels[channel]?).any fun c => c.close.1,
   { p.alter channel fun c => c.close.2 with closeOrders := channel :: p.closeOrders })

/-- A call over a channel has ended. -/
def observe {α : Type} (channel : Nat) (ended : Except Status α) (p : Pool) : Pool :=
  p.alter channel (Channel.observe ended)

/-- How a call over a channel ends that is not even sent. -/
def refusal? (p : Pool) (channel : Nat) : Option Status :=
  (p.channels[channel]?).bind Channel.refusal?

/-- The newest directly linked channel of an endpoint. -/
def newestDirect? (p : Pool) (endpoint : Nat) : Option Nat :=
  (List.range p.channels.length).reverse.find? fun k =>
    (p.channels[k]?).any fun c => c.endpoint == endpoint && c.link == .direct

/-- Puts the newest directly linked channel of an endpoint into a state. -/
def force (endpoint : Nat) (state : Connectivity) (p : Pool) : Pool :=
  match p.newestDirect? endpoint with
  | none => p
  | some k => p.alter k fun c => { c with state }

/-! ## Leases -/

/-- Hands out a channel. -/
def lease (p : Pool) (i channel : Nat) : Lease × Pool :=
  (⟨i, p.address i, channel⟩, { p with leased := p.leased + 1 })

/-- Takes a lease back. -/
def release (p : Pool) : Pool := { p with leased := p.leased - 1 }

/-- Remembers an endpoint as the one that worked last. -/
def markGood (p : Pool) (i : Nat) : Pool := { p with lastGood := some i }

/-- Forgets an endpoint as the one that worked last. -/
def invalidate (i : Nat) (p : Pool) : Pool :=
  if p.lastGood = some i then { p with lastGood := none } else p

/-- Closes the pool and the channels in its slots, which it then forgets.  A pool is closed once. -/
def close (p : Pool) : Pool :=
  if p.closed then p
  else
    let kept := p.slots.filterMap id
    let p := { p with closed := true, lastGood := none, slots := p.slots.map fun _ => none }
    kept.foldl (fun p channel => (p.closeChannel channel).2) p

/-! ## Diagnostics -/

/-- A pool in diagnostics. -/
def debug (p : Pool) : String :=
  let addresses := ", ".intercalate (p.endpoints.map fun n => Text.quoted n.address)
  let lastGood := match p.lastGood with
    | none => "None"
    | some i => s!"Some({i})"
  "ConnectionPool \x7b endpoints: [" ++ addresses ++ s!"], disabled: {p.disabled.length}" ++
    s!", last_good: {lastGood}, leased: {p.leased}, closed: {p.closed} " ++ "\x7d"

/-- A lease in diagnostics. -/
def leaseText (p : Pool) (l : Lease) : String :=
  "PooledConnection \x7b index: " ++ toString l.index ++ ", endpoint: " ++ Text.quoted l.endpoint ++
    ", state: " ++ (p.stateOf l).name ++ " \x7d"

end Pool
end LedgerClient
