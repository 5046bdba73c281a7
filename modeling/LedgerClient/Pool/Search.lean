import LedgerClient.Pool.Basic
import LedgerClient.Transport.Dial

/-!
# Looking for a connection

An acquisition takes the channel of the endpoint that worked last or else searches, attempt by
attempt.  An attempt hands out any channel of the pool that can be used, and otherwise dials the
next endpoint of a rotation.  This module holds what happens to the pool in one moment of that; the
waiting in between is added where sessions run.
-/

namespace LedgerClient

open Transport

/-- What came of a dial. -/
inductive DialReply where
  | connected (link : Link)
  | failed (e : DialError)
  /-- The limit of the dial passed first. -/
  | expired
  deriving DecidableEq, Repr

namespace Pool

/-! ## Beginning -/

/-- How an acquisition begins. -/
inductive Start where
  /-- It has ended at once. -/
  | ended (r : Except ClientError Lease)
  /-- It has to search, in the given order. -/
  | search (rotation : List Nat)

/-- The endpoint that worked last, if its channel may be handed out. -/
def recent? (p : Pool) : Option (Nat × Nat) :=
  p.lastGood.bind fun i => (p.usable? i).map fun channel => (i, channel)

/-- The order of the next search, and the pool after it has been drawn.  The endpoints' own order
is taken where the one foreseen does not name each endpoint once. -/
def drawRotation (p : Pool) : List Nat × Pool :=
  match p.rotations with
  | [] => (List.range p.size, p)
  | r :: rest =>
    (if r.isPerm (List.range p.size) then r else List.range p.size, { p with rotations := rest })

/-- Begins an acquisition. -/
def start (p : Pool) : Start × Pool :=
  if p.closed then (.ended (.error .poolClosed), p)
  else match p.recent? with
    | some (i, channel) =>
      let (l, p) := p.lease i channel
      (.ended (.ok l), p)
    | none =>
      let (rotation, p) := p.drawRotation
      (.search rotation, p)

/-! ## Attempts -/

/-- The first endpoint of a rotation whose channel may be handed out. -/
def reusable? (p : Pool) (rotation : List Nat) : Option (Nat × Nat) :=
  rotation.findSome? fun i => (p.usable? i).map fun channel => (i, channel)

/-- The next endpoint of a rotation that is not disabled, among the next `looks` entries, and the
cursor behind the last entry that was looked at. -/
def nextEnabled (p : Pool) (rotation : List Nat) (cursor : Nat) : Nat → Option Nat × Nat
  | 0 => (none, cursor)
  | looks + 1 =>
    match rotation[cursor % rotation.length]? with
    | none => (none, cursor)
    | some i =>
      if p.disabled.contains i then p.nextEnabled rotation (cursor + 1) looks
      else (some i, cursor + 1)

/-- Empties the slot of an endpoint and closes the channel that was kept there. -/
def vacate (p : Pool) (i : Nat) : Pool :=
  match p.slot? i with
  | none => p
  | some channel => ({ p with slots := p.slots.set i none }.closeChannel channel).2

/-- What an attempt does before it waits. -/
inductive Attempt where
  | ended (r : Except ClientError Lease)
  | dial (i : Nat)

/-- Begins an attempt: any channel of the pool that may be handed out is, otherwise the next
endpoint is to be dialed.  The cursor is passed on. -/
def beginAttempt (rotation : List Nat) (cursor : Nat) (p : Pool) : (Attempt × Nat) × Pool :=
  if p.closed then ((.ended (.error .poolClosed), cursor), p)
  else match p.reusable? rotation with
    | some (i, channel) =>
      let (l, p) := (p.markGood i).lease i channel
      ((.ended (.ok l), cursor), p)
    | none =>
      match p.nextEnabled rotation cursor rotation.length with
      | (none, cursor) => ((.ended (.error (.config "every endpoint is disabled")), cursor), p)
      | (some i, cursor) => ((.dial i, cursor), p.vacate i)

/-- Keeps the new channel of an endpoint and hands it out.  A pool that was closed in the meantime
closes the channel instead. -/
def keep (p : Pool) (i : Nat) (link : Link) : Except ClientError Lease × Pool :=
  let channel := p.channels.length
  let fresh : Channel := { endpoint := i, address := p.address i, link }
  let p := { p with channels := p.channels ++ [fresh] }
  if p.closed then (.error .poolClosed, (p.closeChannel channel).2)
  else
    let (l, p) := ({ p with slots := p.slots.set i (some channel) }.markGood i).lease i channel
    (.ok l, p)

/-- Never dials an endpoint again. -/
def disable (p : Pool) (i : Nat) : Pool :=
  if p.disabled.contains i then p else { p with disabled := p.disabled ++ [i] }

/-- A dial has failed. -/
def failDial (p : Pool) (i : Nat) (e : DialError) : ClientError × Pool :=
  if e.isPermanent then
    let p := p.disable i
    if p.disabled.length = p.size then (.config s!"every endpoint is disabled: {e.message}", p)
    else (.brokenNetwork e.message, p)
  else (.brokenNetwork e.message, p)

/-- Ends an attempt with what came of its dial. -/
def endAttempt (i : Nat) (reply : DialReply) (p : Pool) : Except ClientError Lease × Pool :=
  match reply with
  | .connected link => p.keep i link
  | .failed e => let (e, p) := p.failDial i e; (.error e, p)
  | .expired =>
    let (e, p) := p.failDial i (.timeout (p.address i) p.dialTimeout)
    (.error e, p)

/-- The error of an acquisition whose search failed. -/
def searchError (f : RetryFailure) : ClientError :=
  match f.lastError with
  | .poolClosed => .poolClosed
  | e => .exhaustedPool f.attempts e.message

end Pool
end LedgerClient
