import LedgerClient.Session.Acquire

/-!
# Calls

Every operation leases a channel, makes one call bounded by a deadline, gives the lease back, and
reads a failure according to what was asked.  Where the transport gave out, the pool forgets that
the endpoint worked last.
-/

namespace LedgerClient

open Rpc Settings Time Transport Wire

/-- What is known of an operation besides its call. -/
structure Operation where
  /-- Its name in diagnostics. -/
  name : String
  deadline : Deadlines → Millis
  /-- The error of a status. -/
  classify : Status → ClientError

/-- A query. -/
def Operation.query (name : String) (deadline : Deadlines → Millis) : Operation :=
  ⟨name, deadline, .ofQuery⟩

/-- A submission. -/
def Operation.submission (name : String) : Operation := ⟨name, Deadlines.send, .ofSubmission⟩

/-- Reads the encoded response to a call.  What is no response counts as the node's fault. -/
def readResponse (Res : Type) [Message Res] (data : Bytes) : Except Status Res :=
  match (Message.decode data : Except DecodeError Res) with
  | .ok m => .ok m
  | .error e => .error ⟨.internal, e.message⟩

/-- A call over a channel: refused if the channel was shut down, otherwise `wait` waits for its
answer.  An answer, once read, tells how the connection is. -/
def exchange {α β : Type} (channel : Nat) (wait : Program (Reply α)) (read : α → Except Status β) :
    Program (Reply β) :=
  Task.get.bind fun s =>
    match s.pool.refusal? channel with
    | some status => .done (.ended (.error status))
    | none => wait.bind fun
      | .expired => .done .expired
      | .ended r =>
        let r := r.bind read
        (Task.modify (Session.alterPool (Pool.observe channel r))).bind fun _ => .done (.ended r)

/-- Reads how a call over a lease has ended.  A fault of the transport makes the pool turn to
another endpoint. -/
def settle {α : Type} (op : Operation) (deadline : Millis) (l : Lease) :
    Reply α → Program (Except ClientError α)
  | .ended (.ok a) => .done (.ok a)
  | .ended (.error status) =>
    if status.isTransportFault then
      (Task.modify (Session.alterPool (Pool.invalidate l.index))).bind fun _ =>
        .done (.error (op.classify status))
    else .done (.error (op.classify status))
  | .expired =>
    (Task.modify (Session.alterPool (Pool.invalidate l.index))).bind fun _ =>
      .done (.error (.brokenNetwork s!"{op.name} exceeded its {spanText deadline} deadline"))

/-- One call of client `c`.  The header and the caller's account are fixed before a channel is
looked for. -/
def call {Req Res : Type} [Message Req] [Message Res] (c : Nat) (op : Operation)
    (m : Method Req Res) (request : Req) : Program (Except ClientError Res) :=
  Task.get.bind fun s =>
    let deadline := op.deadline (s.clients c).settings.deadlines
    match Timeout.ofSpan? deadline with
    | none => .crash .deadlineTooLong
    | some timeout =>
      acquire.andThen fun l =>
        let message : Call :=
          { channel := l.channel, method := m.name, payload := Message.encode request,
            account := some (s.address c).text, timeout := some timeout,
            patience := some deadline }
        ((exchange l.channel (Program.call message) (readResponse Res)).ensuring
          Session.release).bind (settle op deadline l)

end LedgerClient
