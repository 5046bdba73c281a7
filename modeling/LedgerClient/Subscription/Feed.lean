import LedgerClient.Subscription.Topic

/-!
# Feeds

A feed is a running subscription: a worker that pulls frames from a stream and pushes what it reads
into a bounded queue, and a reader that takes items out of the queue.  The worker looks whether the
feed is cancelled before it pulls and again before it pushes, and nothing can be pushed once the
reader has gone.  It ends once, for one reason, and pushes nothing afterwards; items already in the
queue stay readable.
-/

namespace LedgerClient

open Rpc

/-- Something that arrives from a stream. -/
inductive Frame where
  | data (b : Bytes)
  | failed (s : Status)
  /-- Nothing more will arrive. -/
  | ended
  deriving DecidableEq, Repr

/-- What a worker does next. -/
inductive Phase where
  /-- It has not run yet. -/
  | opening
  /-- It waits for a frame. -/
  | pulling
  /-- It waits for room in the queue. -/
  | pushing (item : Item)
  | closed (reason : CloseReason)
  deriving DecidableEq

/-- The scopes around a feed, the outermost first. -/
abbrev Scope := List String

/-- A running subscription. -/
structure Feed where
  topic : Topic
  /-- The number of the stream it reads. -/
  stream : Nat
  scope : Scope
  /-- The number of places in the queue. -/
  capacity : Nat
  /-- The feed itself was cancelled. -/
  cancelled : Bool := false
  /-- The reader has gone. -/
  abandoned : Bool := false
  /-- The items not taken yet, the oldest first. -/
  queue : List Item := []
  phase : Phase := .opening
  deriving DecidableEq

/-- What a feed shows of itself. -/
inductive FeedState where
  | opening
  | streaming
  /-- The worker has ended, and items are left in the queue. -/
  | draining
  | closed (reason : CloseReason)
  deriving DecidableEq, Repr

/-- What a reader finds in a feed. -/
inductive Reading where
  | item (i : Item)
  /-- Nothing yet. -/
  | pending
  /-- Nothing, and nothing will come. -/
  | ended
  deriving DecidableEq

namespace Feed

/-- Why the worker ended, once it has. -/
def reason? (f : Feed) : Option CloseReason :=
  match f.phase with
  | .closed reason => some reason
  | _ => none

/-- What the feed shows of itself. -/
def state (f : Feed) : FeedState :=
  match f.phase with
  | .opening => .opening
  | .pulling | .pushing _ => .streaming
  | .closed reason => if f.queue.isEmpty then .closed reason else .draining

/-- There is room in the queue. -/
def hasRoom (f : Feed) : Bool := f.queue.length < f.capacity

/-- The worker reads what arrived from the stream. -/
def receive (f : Feed) : Frame → Feed
  | .ended => { f with phase := .closed .completed }
  | .failed s => { f with phase := .closed (.streamError s.message) }
  | .data b =>
    match f.topic.read b with
    | .ok item => { f with phase := .pushing item }
    | .error reason => { f with phase := .closed reason }

/-- One step of the worker.  `cancelled` says whether the feed or a scope around it is cancelled,
`arrival` is what the stream has to offer. -/
def step (cancelled : Bool) (arrival : Option Frame) (f : Feed) : Feed :=
  match f.phase with
  | .opening => { f with phase := .pulling }
  | .pulling =>
    if cancelled then { f with phase := .closed .cancelled }
    else match arrival with
      | none => f
      | some frame => f.receive frame
  | .pushing item =>
    if cancelled then { f with phase := .closed .cancelled }
    else if f.abandoned then { f with phase := .closed .cancelled }
    else if f.hasRoom then { f with queue := f.queue ++ [item], phase := .pulling }
    else f
  | .closed _ => f

/-- The reader looks for an item and takes it. -/
def take (f : Feed) : Reading × Feed :=
  match f.queue with
  | i :: rest => (.item i, { f with queue := rest })
  | [] => (if f.reason?.isSome then .ended else .pending, f)

end Feed
end LedgerClient
