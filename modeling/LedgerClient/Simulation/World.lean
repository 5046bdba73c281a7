import LedgerClient.Session.Submit
import LedgerClient.Session.Subscribe
import LedgerClient.Simulation.Script

/-!
# A world of scripted nodes

A world is a session, the scripted nodes it talks to, and a clock.  It answers what programs ask
the network for, and keeps a record of what reached the nodes.
-/

namespace LedgerClient.Simulation

open Rpc Settings Time Transport

/-! ## State -/

/-- Something that reached a node. -/
inductive Event where
  | dial (node : Nat) (limit time : Millis)
  | close (node : Nat)
  | call (node : Nat) (c : Call) (time : Millis)
  deriving DecidableEq

/-- How endpoints are dialed. -/
inductive Dialer where
  /-- The scripted nodes are asked. -/
  | scripted
  /-- What a dial needs is checked, and there is no network behind it. -/
  | isolated (files : Storage.Files)

/-- A session among scripted nodes. -/
structure World where
  session : Session
  nodes : List ScriptedNode
  dialer : Dialer := .scripted
  streams : List Stream := []
  now : Millis := 0
  /-- What has happened, the latest first. -/
  events : List Event := []

/-- What a program waits for, and what it goes on with. -/
inductive Wait (α : Type) where
  /-- Nothing. -/
  | over (a : α)
  | timer (t : Millis) (a : α)
  | never
  /-- A ticket of a client's account locks. -/
  | turn (client ticket : Nat) (a : α)
  /-- An item of a feed, up to a time. -/
  | item (feed : Nat) (t : Millis) (a : α)

namespace Wait

variable {α β : Type}

def map (f : α → β) : Wait α → Wait β
  | .over a => .over (f a)
  | timer t a => .timer t (f a)
  | never => never
  | turn client ticket a => turn client ticket (f a)
  | item feed t a => item feed t (f a)

/-- The time at which the wait is over by itself. -/
def time? : Wait α → Option Millis
  | timer t _ | item _ t _ => some t
  | _ => none

/-- What follows, if the wait is over. -/
def result? (now : Millis) (s : Session) : Wait α → Option α
  | .over a => some a
  | timer t a => if t ≤ now then some a else none
  | never => none
  | turn client ticket a =>
    if (s.clients client).locks.isWaiting ticket then none else some a
  | item feed t a => if t ≤ now || s.hasReading feed then some a else none

end Wait

namespace World

variable {α : Type}

/-- Puts down that something happened. -/
def record (e : Event) (w : World) : World := { w with events := e :: w.events }

/-- The node of an order to close, if the channel was linked to it directly. -/
def closedNode? (s : Session) (channel : Nat) : Option Nat :=
  match s.pool.channels[channel]? with
  | some c => if c.link = .direct then some c.endpoint else none
  | none => none

/-- Goes on with another state of the session, and puts down the orders to close that were given
on the way. -/
def adopt (s : Session) (w : World) : World :=
  let given := s.pool.closeOrders.length - w.session.pool.closeOrders.length
  let closed := (s.pool.closeOrders.take given).filterMap (closedNode? s)
  { w with session := s, events := closed.map .close ++ w.events }

/-- Changes a node, and passes on what the change yields. -/
def onNode (i : Nat) (otherwise : α) (f : ScriptedNode → α × ScriptedNode) (w : World) :
    α × World :=
  match w.nodes[i]? with
  | none => (otherwise, w)
  | some n =>
    let (a, n) := f n
    (a, { w with nodes := w.nodes.set i n })

/-! ## Answers -/

/-- The wait for something that comes after a delay, unless the patience ends first.  What comes
over a connection is not there at once. -/
def await (w : World) (link : Link) (delay : Option Millis) (a expired : α)
    (patience : Option Millis) : Wait α :=
  let late (d p : Millis) : Bool := match link with
    | .direct => p < d
    | .connection => p ≤ d
  match delay, patience with
  | none, none => .never
  | none, some p => if p = 0 then .over expired else .timer (w.now + p) expired
  | some d, some p => if late d p then .timer (w.now + p) expired else ready link d
  | some d, none => ready link d
where
  /-- What comes after a delay. -/
  ready (link : Link) (d : Millis) : Wait α :=
    if link = .direct ∧ d = 0 then .over a else .timer (w.now + d) a

/-- What comes of a scripted dial. -/
def dialReply (address : String) (link : Link) : DialOutcome → Option DialReply
  | .accept => some (.connected link)
  | .refuse reason => some (.failed (.connect address reason))
  | .badTls reason => some (.failed (.tls address reason))
  | .silence => none

/-- Answers a dial. -/
def dial (i : Nat) (limit : Millis) (w : World) : Wait DialReply × World :=
  match w.dialer with
  | .isolated files =>
    let reply := match w.session.pool.endpoints[i]? with
      | none => .expired
      | some node => .failed (Transport.dialUnreachable files node)
    (.over reply, w)
  | .scripted =>
    let w := w.record (.dial i limit w.now)
    let ((script, link), w) := w.onNode i ({}, .direct) fun n =>
      let (script, n) := n.nextDial
      ((script, n.link), n)
    match dialReply (w.session.pool.address i) link script.outcome with
    | none => (w.await .direct none .expired .expired (some limit), w)
    | some reply => (w.await .direct (some script.delay) reply .expired (some limit), w)

/-- How a call ended whose deadline the transport itself has watched over. -/
def timeoutExpired : Status := ⟨.cancelled, "Timeout expired"⟩

/-- How a call ended that was handed to a node after its channel was shut down. -/
def channelClosed : Status := ⟨.unavailable, "closed"⟩

/-- The outcome of a script, and after which delay it comes. -/
def outcome (r : ScriptedReply) : Option Millis × Except Status Bytes :=
  match r.outcome with
  | .data b => (some r.delay, .ok b)
  | .failed s => (some r.delay, .error s)
  | .silence => (none, .ok [])

/-- Has the node of a channel answer a call; `read` makes the answer out of the script. -/
def answerCall (c : Call) (w : World)
    (read : Channel → ScriptedReply → Except Status Bytes → World → Except Status α × World) :
    Wait (Reply α) × World :=
  match w.session.pool.channels[c.channel]? with
  | none => (.never, w)
  | some channel =>
    if channel.link = .direct ∧ channel.state = .shutdown then
      (.over (.ended (.error channelClosed)), w)
    else if channel.link = .connection ∧ c.patience = some 0 then (.over .expired, w)
    else
      let w := w.record (.call channel.endpoint c w.now)
      let (script, w) := w.onNode channel.endpoint { outcome := .silence }
        (ScriptedNode.nextReply c.method)
      let (delay, result) := outcome script
      let (result, w) := read channel script result w
      match channel.link, c.timeout with
      | .connection, some t =>
        (w.await .connection delay (.ended result) (.ended (.error timeoutExpired)) (some t.span),
          w)
      | link, _ => (w.await link delay (.ended result) .expired c.patience, w)

/-- Answers a call. -/
def call (c : Call) (w : World) : Wait (Reply Bytes) × World :=
  w.answerCall c fun _ _ r w => (r, w)

/-- Answers a call for a stream. -/
def stream (c : Call) (w : World) : Wait (Reply Nat) × World :=
  w.answerCall c fun channel script r w =>
    match r with
    | .error s => (.error s, w)
    | .ok _ =>
      let opened : Stream :=
        { link := channel.link, frames := script.frames, staysOpen := script.staysOpen,
          since := w.now + script.delay }
      (.ok w.streams.length, { w with streams := w.streams ++ [opened] })

/-- Answers what a program asks for. -/
def answer (w : World) : (r : NetworkRequest) → Wait (Network.Answer r) × World
  | .dial i limit => w.dial i limit
  | .call c => w.call c
  | .stream c => w.stream c
  | .turn client ticket => (.turn client ticket (), w)
  | .item feed patience => (.item feed (w.now + patience) (), w)

end World
end LedgerClient.Simulation
