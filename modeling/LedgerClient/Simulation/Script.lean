import LedgerClient.Subscription.Feed
import LedgerClient.Time.Span
import LedgerClient.Transport.Connectivity

/-!
# Scripted nodes

A scripted node answers dials and calls from lists prepared beforehand.  The last answer to a dial
repeats; answers to calls are used up one by one.
-/

namespace LedgerClient.Simulation

open Rpc Time Transport

/-- What a scripted answer consists of. -/
inductive Outcome where
  | data (b : Bytes)
  | failed (s : Status)
  /-- The answer never comes. -/
  | silence
  deriving DecidableEq

/-- An outcome after a delay. -/
structure Delayed where
  delay : Millis := 0
  outcome : Outcome
  deriving DecidableEq

/-- The answer to a call.  Where a stream is asked for, the frames follow. -/
structure ScriptedReply extends Delayed where
  frames : List Delayed := []
  /-- The stream does not end after its frames. -/
  staysOpen : Bool := false

/-- What comes of a scripted dial. -/
inductive DialOutcome where
  | accept
  | refuse (reason : String)
  | badTls (reason : String)
  | silence
  deriving DecidableEq

/-- The answer to a dial. -/
structure ScriptedDial where
  delay : Millis := 0
  outcome : DialOutcome := .accept

/-- A scripted node. -/
structure ScriptedNode where
  link : Link := .direct
  dials : List ScriptedDial := []
  /-- The answers left, by method. -/
  replies : List (String × List ScriptedReply) := []

namespace ScriptedNode

/-- The answer to the next dial. -/
def nextDial (n : ScriptedNode) : ScriptedDial × ScriptedNode :=
  match n.dials with
  | [] => ({}, n)
  | [d] => (d, n)
  | d :: rest => (d, { n with dials := rest })

/-- Takes the first answer of a method out of a list of answers. -/
def takeReply (method : String) :
    List (String × List ScriptedReply) → Option ScriptedReply × List (String × List ScriptedReply)
  | [] => (none, [])
  | (name, rs) :: rest =>
    if name == method then
      match rs with
      | [] => (none, (name, []) :: rest)
      | r :: rs => (some r, (name, rs) :: rest)
    else
      let (r, rest) := takeReply method rest
      (r, (name, rs) :: rest)

/-- The answer to the next call of a method. -/
def nextReply (method : String) (n : ScriptedNode) : ScriptedReply × ScriptedNode :=
  match takeReply method n.replies with
  | (some r, replies) => (r, { n with replies })
  | (none, _) =>
    ({ outcome := .failed ⟨.unimplemented, s!"no reply scripted for {method}"⟩ }, n)

end ScriptedNode

/-! ## Streams under way -/

/-- A stream that a node answered with. -/
structure Stream where
  link : Link
  /-- The frames still to come. -/
  frames : List Delayed
  staysOpen : Bool
  /-- The time from which the delay of the first frame counts. -/
  since : Millis

namespace Stream

/-- When the next frame is there, if it ever is. -/
def readyAt (s : Stream) : Option Millis :=
  match s.frames with
  | [] => if s.staysOpen then none else some s.since
  | f :: _ => match f.outcome with
    | .silence => none
    | _ => some (s.since + f.delay)

/-- The next frame, if it is there. -/
def next? (now : Millis) (s : Stream) : Option (Frame × Stream) :=
  match s.readyAt with
  | none => none
  | some t =>
    if now < t then none
    else match s.frames with
      | [] => some (.ended, s)
      | f :: rest =>
        let s := { s with frames := rest, since := t }
        match f.outcome with
        | .data b => some (.data b, s)
        | .failed status => some (.failed status, s)
        | .silence => none

/-- Somebody starts to wait for the next frame.  On a connection frames come on their own; a node
linked directly starts on a frame when it is waited for. -/
def pulled (now : Millis) (s : Stream) : Stream :=
  match s.link with
  | .direct => { s with since := now }
  | .connection => s

end Stream
end LedgerClient.Simulation
