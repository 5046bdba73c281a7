import LedgerClient.Simulation.World

/-!
# Running programs in a world

Programs that are started together are looked at in their order, again and again, and each goes on
as far as it can.  When none can, the workers of the feeds go on, and when these cannot either, the
clock jumps to the next time that something waits for.  Computing takes no time, so a run is
determined by the scripts.
-/

namespace LedgerClient.Simulation

open Time

variable {α : Type}

/-- A program under way. -/
inductive Fiber (α : Type) where
  | ended (a : α) (time : Millis)
  | crashed (c : Crash)
  | waiting (w : Wait (Program α))

namespace Fiber

def isWaiting : Fiber α → Bool
  | waiting _ => true
  | _ => false

/-- The crash of a program. -/
def crash? : Fiber α → Option Crash
  | crashed c => some c
  | _ => none

/-- The result of a program and the time it ended. -/
def result? : Fiber α → Option (α × Millis)
  | ended a t => some (a, t)
  | _ => none

/-- The time that a program waits for. -/
def time? : Fiber α → Option Millis
  | waiting w => w.time?
  | _ => none

end Fiber

namespace World

/-! ## Programs -/

/-- Runs a program as far as it goes. -/
def drive : Program α → World → Fiber α × World
  | .done a, w => (.ended a w.now, w)
  | .crash c, w => (.crashed c, w)
  | .read next, w => drive (next w.session) w
  | .write s next, w => drive (next ()) (w.adopt s)
  | .pause span _ next, w =>
    if span = 0 then drive (next ()) w else (.waiting (.timer (w.now + span) (next ())), w)
  | .ask r _ next, w =>
    match w.answer r with
    | (.over a, w) => drive (next a) w
    | (wait, w) => (.waiting (wait.map next), w)

/-- Looks at every program once.  The flag says whether one went on. -/
def round : List (Fiber α) → World → (List (Fiber α) × Bool) × World
  | [], w => (([], false), w)
  | .waiting wait :: rest, w =>
    match wait.result? w.now w.session with
    | some t =>
      let (fiber, w) := drive t w
      let ((rest, _), w) := round rest w
      ((fiber :: rest, true), w)
    | none =>
      let ((rest, moved), w) := round rest w
      ((.waiting wait :: rest, moved), w)
  | fiber :: rest, w =>
    let ((rest, moved), w) := round rest w
    ((fiber :: rest, moved), w)

/-! ## Workers -/

/-- Moves the worker of a feed on, with what arrived for it. -/
def moveWorker (id : Nat) (arrival : Option Frame) (w : World) : World :=
  let w := w.adopt (w.session.stepFeed id arrival)
  match w.session.feeds[id]? with
  | some { phase := .pulling, stream, .. } =>
    { w with streams := w.streams.modify stream (Stream.pulled w.now) }
  | _ => w

/-- One step of the worker of a feed, if it can take one. -/
def stepWorker (id : Nat) (w : World) : Option World :=
  match w.session.feeds[id]? with
  | none => none
  | some feed =>
    match feed.phase with
    | .opening => some (w.moveWorker id none)
    | .closed _ => none
    | .pushing _ =>
      if w.session.isCancelled feed || feed.hasRoom then some (w.moveWorker id none) else none
    | .pulling =>
      if w.session.isCancelled feed then some (w.moveWorker id none)
      else
        match (w.streams[feed.stream]?).bind (Stream.next? w.now) with
        | none => none
        | some (frame, stream) =>
          some ({ w with streams := w.streams.set feed.stream stream }.moveWorker id (some frame))

/-- Moves the worker of a feed on as far as it goes, at most so many steps.  The flag says whether
it went on. -/
def runWorker (id : Nat) : Nat → World → Bool × World
  | 0, w => (false, w)
  | steps + 1, w =>
    match w.stepWorker id with
    | none => (false, w)
    | some w => (true, (runWorker id steps w).2)

/-- More steps than the worker of a feed can take without a reader. -/
def workerSteps (w : World) (id : Nat) : Nat :=
  let stream := (w.session.feeds[id]?).bind fun f => w.streams[f.stream]?
  2 * ((stream.map (·.frames.length)).getD 0) + 4

/-- Moves the workers of all feeds on as far as they go. -/
def runWorkers (w : World) : Bool × World :=
  (List.range w.session.feeds.length).foldl
    (fun (moved, w) id =>
      let (m, w) := w.runWorker id (w.workerSteps id)
      (moved || m, w))
    (false, w)

/-- The time that the worker of a feed waits for. -/
def workerTime? (w : World) (f : Feed) : Option Millis :=
  match f.phase with
  | .pulling => (w.streams[f.stream]?).bind Stream.readyAt
  | _ => none

/-! ## Runs -/

/-- The next time after now that something waits for. -/
def nextTime? (fibers : List (Fiber α)) (w : World) : Option Millis :=
  let times := fibers.filterMap Fiber.time? ++ w.session.feeds.filterMap w.workerTime?
  (times.filter (w.now < ·)).min?

/-- Runs programs until all have ended and the workers are idle, or nothing can happen any more, in
at most so many rounds. -/
def runFor : Nat → List (Fiber α) → World → List (Fiber α) × World
  | 0, fibers, w => (fibers, w)
  | rounds + 1, fibers, w =>
    let ((fibers, moved), w) := round fibers w
    let (moved, w) := if moved then (true, w) else w.runWorkers
    if moved then runFor rounds fibers w
    else if fibers.any Fiber.isWaiting then
      match w.nextTime? fibers with
      | some t => runFor rounds fibers { w with now := t }
      | none => (fibers, w)
    else (fibers, w)

/-- The number of rounds after which a run is given up. -/
def roundLimit : Nat := 1000000000

/-- Starts programs together and runs them to their ends.  A program that will never end has no
result. -/
def perform (programs : List (Program α)) (w : World) :
    Except Crash (List (Option (α × Millis)) × World) :=
  let (fibers, w) := runFor roundLimit (programs.map fun t => .waiting (.over t)) w
  match fibers.findSome? Fiber.crash? with
  | some c => .error c
  | none => .ok (fibers.map Fiber.result?, w)

/-- Takes everything that the reader of a feed can get without waiting, at most so many items.  The
flag says whether the feed is at its end. -/
def drainUpTo (id : Nat) : Nat → World → (List Item × Bool) × World
  | 0, w => (([], false), w)
  | items + 1, w =>
    let (_, w) := w.runWorkers
    match w.session.takeItem id with
    | (.item i, s) =>
      let ((rest, ended), w) := drainUpTo id items (w.adopt s)
      ((i :: rest, ended), w)
    | (.pending, _) => (([], false), w)
    | (.ended, _) => (([], true), w)

/-- Takes everything that the reader of a feed can get without waiting. -/
def drain (id : Nat) (w : World) : (List Item × Bool) × World :=
  let queued := ((w.session.feeds[id]?).map (·.queue.length)).getD 0
  w.drainUpTo id (queued + w.workerSteps id)

/-! ## Records -/

/-- Puts the nodes of consecutive closes in order. -/
def sortCloses (pending : List Nat) : List Event → List Event
  | .close n :: rest => sortCloses (n :: pending) rest
  | e :: rest => (pending.mergeSort (· ≤ ·)).map .close ++ e :: sortCloses [] rest
  | [] => (pending.mergeSort (· ≤ ·)).map .close

/-- What has happened since the last look, the earliest first. -/
def takeEvents (w : World) : List Event × World :=
  (sortCloses [] w.events.reverse, { w with events := [] })

end World
end LedgerClient.Simulation
