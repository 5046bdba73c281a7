import LedgerClient.Session.Call

/-!
# Subscriptions of a session

Opening a subscription leases a channel for as long as its worker runs.  The worker is moved on by
whoever runs the session, one step at a time.
-/

namespace LedgerClient

open Ledger Rpc Settings Time Wire

/-- The most places that a queue can have. -/
def queueLimit : Nat := Nat.pow 2 61 - 1

namespace Session

/-! ## Feeds -/

/-- A feed or a scope around it is cancelled. -/
def isCancelled (s : Session) (f : Feed) : Bool :=
  f.cancelled || s.cancelledScopes.any fun scope => scope.isPrefixOf f.scope

/-- Adds a feed, and yields its number. -/
def addFeed (f : Feed) (s : Session) : Nat × Session :=
  (s.feeds.length, { s with feeds := s.feeds ++ [f] })

/-- Changes a feed. -/
def alterFeed (id : Nat) (f : Feed → Feed) (s : Session) : Session :=
  match s.feeds[id]? with
  | none => s
  | some feed => { s with feeds := s.feeds.set id (f feed) }

/-- One step of the worker of a feed.  A worker that ends gives its lease back. -/
def stepFeed (id : Nat) (arrival : Option Frame) (s : Session) : Session :=
  match s.feeds[id]? with
  | none => s
  | some feed =>
    let after := feed.step (s.isCancelled feed) arrival
    let s := { s with feeds := s.feeds.set id after }
    if feed.reason?.isNone && after.reason?.isSome then s.release else s

/-- The reader of a feed looks for an item and takes it. -/
def takeItem (id : Nat) (s : Session) : Reading × Session :=
  match s.feeds[id]? with
  | none => (.ended, s)
  | some feed =>
    let (r, feed) := feed.take
    (r, { s with feeds := s.feeds.set id feed })

/-- The reader of a feed would find an item, or the end. -/
def hasReading (s : Session) (id : Nat) : Bool :=
  match s.takeItem id with
  | (.pending, _) => false
  | _ => true

/-- Cancels a feed. -/
def cancelFeed (id : Nat) (s : Session) : Session :=
  s.alterFeed id fun f => { f with cancelled := true }

/-- The reader of a feed goes, which cancels the feed. -/
def dropFeed (id : Nat) (s : Session) : Session :=
  s.alterFeed id fun f => { f with cancelled := true, abandoned := true }

/-- Cancels a scope. -/
def cancelScope (scope : Scope) (s : Session) : Session :=
  { s with cancelledScopes := scope :: s.cancelledScopes }

end Session

/-! ## Opening -/

/-- Starts a feed over an opened stream.  A crash gives the lease back that the worker would have
taken over. -/
def startFeed (c : Nat) (topic : Topic) (scope : Scope) (stream : Nat) :
    Program (Except ClientError Nat) :=
  Task.get.bind fun s =>
    let capacity := max (s.clients c).settings.queues.subscriptionBuffer.toNat 1
    if queueLimit < capacity then
      (Task.modify Session.release).bind fun _ => .crash .queueTooLarge
    else
      (Task.transition (Session.addFeed { topic, stream, scope, capacity })).bind fun id =>
        .done (.ok id)

/-- Opens a stream and starts a feed over it.  The lease is given back unless a worker takes it
over. -/
def openFeed {Req Res : Type} [Message Req] (c : Nat) (op : Operation) (m : Method Req Res)
    (request : Session → Req) (topic : Topic) (scope : Scope) : Program (Except ClientError Nat) :=
  Task.get.bind fun s =>
    let deadline := op.deadline (s.clients c).settings.deadlines
    acquire.andThen fun l =>
      let message : Call :=
        { channel := l.channel, method := m.name, payload := Message.encode (request s),
          account := some (s.address c).text, patience := some deadline }
      ((exchange l.channel (Program.stream message) .ok).onDrop Session.release).bind fun reply =>
        (settle op deadline l reply).bind fun
          | .ok stream => startFeed c topic scope stream
          | .error e => (Task.modify Session.release).bind fun _ => .done (.error e)

/-- Subscribes to what happens on the ledger. -/
def subscribe (c : Nat) (scope : Scope) (kind : SubscriptionKind) (extra : Bytes) :
    Program (Except ClientError Nat) :=
  openFeed c (.query "subscribe" Deadlines.query) Method.subscribe
    (fun _ => { type := kind.number, extra }) (.live kind) scope

/-- Subscribes to what is audited of the client's account from a height on. -/
def subscribeAudit (c : Nat) (scope : Scope) (blockHeight : UInt64) (extra : Bytes) :
    Program (Except ClientError Nat) :=
  openFeed c (.query "subscribe_audit" Deadlines.query) Method.subscribeAudit
    (fun s => { nodeId := (s.address c).text, blockHeight, extra }) .audit scope

/-- Streams the headers of a range of blocks. -/
def streamHeaders (c : Nat) (scope : Scope) (first last : UInt64) :
    Program (Except ClientError Nat) :=
  openFeed c (.query "get_block_header" Deadlines.blocks) Method.headers
    (fun _ => { first, last }) .headers scope

/-- Streams the interchain wrappers for a peer in a range of blocks. -/
def streamWrappers (c : Nat) (scope : Scope) (peer : String) (first last : UInt64) :
    Program (Except ClientError Nat) :=
  openFeed c (.query "get_interchain_tx_wrappers" Deadlines.blocks) Method.wrappers
    (fun _ => { first, last, peer }) .wrappers scope

/-! ## Reading -/

/-- Takes the next item of a feed, and waits for it as long as `patience`. -/
def nextItem (feed : Nat) (patience : Millis) : Program Reading :=
  (Task.transition (Session.takeItem feed)).bind fun
    | .pending =>
      if patience = 0 then .done .pending
      else (Program.item feed patience).bind fun _ => Task.transition (Session.takeItem feed)
    | r => .done r

end LedgerClient
