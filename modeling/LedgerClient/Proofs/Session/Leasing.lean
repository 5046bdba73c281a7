import LedgerClient.Session.Subscribe

/-!
# Operations over a lease

Every operation finds a lease and then does one thing with it: it makes its call, or opens its
stream.  Here the two parts are told apart, so that what is to be said of the second need not
speak of the first.
-/

namespace LedgerClient

open Ledger Rpc Settings Time Transport Wire

/-- What a call does once it has a lease. -/
def callOver (Res : Type) [Message Res] (op : Operation) (deadline : Millis) (message : Call)
    (l : Lease) : Program (Except ClientError Res) :=
  ((exchange l.channel (Program.call { message with channel := l.channel })
    (readResponse Res)).ensuring Session.release).bind (settle op deadline l)

/-- What the opening of a stream does once it has a lease. -/
def openOver (c : Nat) (op : Operation) (deadline : Millis) (message : Call) (topic : Topic)
    (scope : Scope) (l : Lease) : Program (Except ClientError Nat) :=
  ((exchange l.channel (Program.stream { message with channel := l.channel }) .ok).onDrop
    Session.release).bind fun reply =>
      (settle op deadline l reply).bind fun
        | .ok stream => startFeed c topic scope stream
        | .error e => (Task.modify Session.release).bind fun _ => .done (.error e)

/-- A call for any way to write its header.  `call_eq` is the case of the header in use, which would
make the kernel count up to the limit of its number. -/
theorem call_eq_of_header {Req Res : Type} [Message Req] [Message Res] (c : Nat) (op : Operation)
    (m : Method Req Res) (request : Req) (header : Millis → Option Timeout) :
    (Task.get.bind fun s =>
      let deadline := op.deadline (s.clients c).settings.deadlines
      match header deadline with
      | none => .crash .deadlineTooLong
      | some timeout =>
        acquire.andThen fun l =>
          let message : Call :=
            { channel := l.channel, method := m.name, payload := Message.encode request,
              account := some (s.address c).text, timeout := some timeout,
              patience := some deadline }
          ((exchange l.channel (Program.call message) (readResponse Res)).ensuring
            Session.release).bind (settle op deadline l)) =
      Task.get.bind fun s =>
        let deadline := op.deadline (s.clients c).settings.deadlines
        match header deadline with
        | none => .crash .deadlineTooLong
        | some timeout => acquire.andThen (callOver Res op deadline
            { channel := 0, method := m.name, payload := Message.encode request,
              account := some (s.address c).text, timeout := some timeout,
              patience := some deadline }) := rfl

theorem call_eq {Req Res : Type} [Message Req] [Message Res] (c : Nat) (op : Operation)
    (m : Method Req Res) (request : Req) :
    call c op m request = Task.get.bind fun s =>
      let deadline := op.deadline (s.clients c).settings.deadlines
      match Timeout.ofSpan? deadline with
      | none => .crash .deadlineTooLong
      | some timeout => acquire.andThen (callOver Res op deadline
          { channel := 0, method := m.name, payload := Message.encode request,
            account := some (s.address c).text, timeout := some timeout,
            patience := some deadline }) :=
  call_eq_of_header c op m request Timeout.ofSpan?

theorem openFeed_eq {Req Res : Type} [Message Req] (c : Nat) (op : Operation)
    (m : Method Req Res) (request : Session → Req) (topic : Topic) (scope : Scope) :
    openFeed c op m request topic scope = Task.get.bind fun s =>
      let deadline := op.deadline (s.clients c).settings.deadlines
      acquire.andThen (openOver c op deadline
        { channel := 0, method := m.name, payload := Message.encode (request s),
          account := some (s.address c).text, patience := some deadline } topic scope) := rfl

end LedgerClient
