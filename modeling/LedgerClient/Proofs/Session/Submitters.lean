import LedgerClient.Proofs.Session.Submitting
import LedgerClient.Proofs.Task.Party

/-!
# Concurrent submissions

Any number of submissions run over the clients of a session.  Some look their nonces up under the
lock of an account, others bring their own; they take turns wherever they wait, they may fail
anywhere, and they may be dropped except while they wait for their send.

Of the nodes this is assumed: they share one pending nonce for each account, which never goes
down; a lookup is answered with it; and a transaction counts as accepted only when the pending
nonce of the account has risen above its nonce, which happens before the send is answered.  A send
is answered within its deadline.
-/

namespace LedgerClient

open Account Ledger Rpc Wire

/-- Submissions over a session, and what the nodes know of them.  They have numbers in the order in
which they began. -/
structure Submitters where
  party : Party Network Session (Except ClientError String)
  /-- The pending nonce of each account, by the text of the account. -/
  pending : String → Nat
  /-- The turn of each submission that looks its nonce up. -/
  turns : List (Option Turn) := []
  /-- The pending nonce that a node has read for a submission and not told it yet. -/
  served : Nat → Option Nat := fun _ => none
  /-- What the nodes have accepted, by submission and nonce, the latest first. -/
  accepted : List (Nat × UInt64) := []
  /-- The submissions that were granted the lock of their account, in this order. -/
  granted : List Nat := []

namespace Submitters

/-! ## What happens -/

/-- What happens to submissions, to the nodes, or to the session from outside. -/
inductive Event where
  | submit (c : Nat) (d : Draft) (o : SubmitOptions)
  /-- The pause of a submission is over. -/
  | wake (i : Nat)
  /-- A submission is answered, as `reply` answers what it asked for. -/
  | answer (i : Nat) (reply : (r : NetworkRequest) → Network.Answer r)
  /-- A node reads the pending nonce that a submission has asked for. -/
  | look (i : Nat) (account : String)
  /-- A node accepts the transaction of a submission. -/
  | accept (i : Nat) (t : Transaction)
  /-- The pending nonce of an account rises. -/
  | raise (account : String) (nonce : Nat)
  /-- A submission is dropped. -/
  | drop (i : Nat)
  /-- Others use the pool. -/
  | alterPool (f : Pool → Pool)
  /-- The signer of a client is replaced. -/
  | setSigner (c : Nat) (signer : Signer)

/-- The turn of a submission. -/
def turn? (S : Submitters) (i : Nat) : Option Turn := (S.turns[i]?).join

/-- What a submission waits for. -/
def request? (S : Submitters) (i : Nat) : Option NetworkRequest :=
  match S.party.member? i with
  | some (.ask r _ _) => some r
  | _ => none

/-- A submission waits for the answer to a call. -/
def Calls {Req Res : Type} [Message Req] (S : Submitters) (i : Nat) (m : Method Req Res)
    (request : Req) : Prop :=
  match S.request? i with
  | some (.call k) => k.method = m.name ∧ k.payload = Message.encode request
  | _ => False

/-- A submission waits for the answer to its send. -/
def Sends (S : Submitters) (i : Nat) : Prop :=
  match S.request? i with
  | some (.call k) => k.method = Method.sendTransaction.name
  | _ => False

/-- The answer did not come too late. -/
def InTime {α : Type} : Reply α → Prop
  | .ended _ => True
  | .expired => False

/-- What a call may be answered.  A lookup is answered with what was read for it, if with a nonce at
all, and a send is answered in time. -/
def FittingReply (S : Submitters) (i : Nat) (k : Call) (reply : Reply Bytes) : Prop :=
  (k.method = Method.pendingNonce.name → ∀ v ∈ reply.nonce?, S.served i = some v.toNat) ∧
    (k.method = Method.sendTransaction.name → InTime reply)

/-- What a request may be answered.  The turn is granted to whom the mutex was handed. -/
def Fitting (S : Submitters) (i : Nat) : (r : NetworkRequest) → Network.Answer r → Prop
  | .turn c ticket, _ => (S.party.shared.clients c).locks.isWaiting ticket = false
  | .call k, reply => S.FittingReply i k reply
  | _, _ => True

/-- The event may happen. -/
def Allows (S : Submitters) : Event → Prop
  | .answer i reply => ∀ r ∈ S.request? i, S.Fitting i r (reply r)
  | .look i account => S.Calls i Method.pendingNonce { address := account }
  | .accept i t => S.Calls i Method.sendTransaction t ∧
      ∀ p ∈ S.turn? i, t.nonce.toNat < S.pending p.account.text
  | .drop i => ¬ S.Sends i
  | _ => True

/-- The submission that is granted the turn at once when it takes it. -/
def grantedAtOnce (S : Submitters) : Option Turn → List Nat
  | some p =>
    if (S.party.shared.drawTicket p.client p.account).1.standing = .held then [S.turns.length]
    else []
  | none => []

/-- A submission begins. -/
def submit (S : Submitters) (c : Nat) (d : Draft) (o : SubmitOptions) : Submitters :=
  let turn := takenTurn? c d o S.party.shared
  { S with
    party := S.party.step (.enter (LedgerClient.submit c d o))
    turns := S.turns ++ [turn]
    granted := S.granted ++ S.grantedAtOnce turn }

/-- The submission that an answer to `r` grants its turn. -/
def grantedBy (i : Nat) : Option NetworkRequest → List Nat
  | some (.turn _ _) => [i]
  | _ => []

/-- What comes of an event. -/
def next (S : Submitters) : Event → Submitters
  | .submit c d o => S.submit c d o
  | .wake i => { S with party := S.party.step (.wake i) }
  | .answer i reply =>
    { S with
      party := S.party.step (.answer i reply)
      served := Function.update S.served i none
      granted := S.granted ++ grantedBy i (S.request? i) }
  | .look i account => { S with served := Function.update S.served i (some (S.pending account)) }
  | .accept i t => { S with accepted := (i, t.nonce) :: S.accepted }
  | .raise account nonce =>
    { S with pending := fun a => if a = account then max (S.pending a) nonce else S.pending a }
  | .drop i => { S with party := S.party.step (.leave i) }
  | .alterPool f => { S with party := S.party.step (.change (Session.alterPool f)) }
  | .setSigner c signer => { S with party := S.party.step (.change (Session.setSigner c signer)) }

/-- What comes of some events. -/
def after (S : Submitters) (events : List Event) : Submitters := events.foldl next S

/-- The events may happen one after the other. -/
def AllowsAll (S : Submitters) : List Event → Prop
  | [] => True
  | e :: es => S.Allows e ∧ (S.next e).AllowsAll es

/-- Nothing has begun yet, and no lock is taken. -/
def start (s : Session) (pending : String → Nat) : Submitters :=
  { party := { shared := s }, pending }

/-- A submission has ended, with a result, in a crash or by being dropped. -/
def Ended (S : Submitters) (i : Nat) : Prop :=
  S.party.members[i]? = some none ∨ ∃ t, S.party.member? i = some t ∧ t.Ended

/-- If both get the lock of one account, `i` has ended, and what it had accepted has a smaller nonce
than what `j` has. -/
def Precedes (S : Submitters) (i j : Nat) : Prop :=
  ∀ p q, S.turn? i = some p → S.turn? j = some q → p.Rivals q →
    S.Ended i ∧ ∀ v w, (i, v) ∈ S.accepted → (j, w) ∈ S.accepted → v < w

/-! ### Whether an event may happen can be computed -/

instance {Req Res : Type} [Message Req] (S : Submitters) (i : Nat) (m : Method Req Res)
    (request : Req) : Decidable (S.Calls i m request) := by
  unfold Calls
  split <;> exact inferInstance

instance (S : Submitters) (i : Nat) : Decidable (S.Sends i) := by
  unfold Sends
  split <;> exact inferInstance

instance {α : Type} : (r : Reply α) → Decidable (InTime r)
  | .ended _ => .isTrue trivial
  | .expired => .isFalse id

instance decidableFittingReply (S : Submitters) (i : Nat) (k : Call) (reply : Reply Bytes) :
    Decidable (S.FittingReply i k reply) :=
  have : Decidable (∀ v ∈ reply.nonce?, S.served i = some v.toNat) :=
    Option.decidableForallMem _
  inferInstanceAs (Decidable ((k.method = _ → ∀ v ∈ reply.nonce?, S.served i = some v.toNat) ∧
    (k.method = _ → InTime reply)))

instance (S : Submitters) (i : Nat) :
    (r : NetworkRequest) → (a : Network.Answer r) → Decidable (S.Fitting i r a)
  | .turn c ticket, _ =>
    inferInstanceAs (Decidable ((S.party.shared.clients c).locks.isWaiting ticket = false))
  | .call k, reply => S.decidableFittingReply i k reply
  | .dial .., _ | .stream _, _ | .item .., _ => .isTrue trivial

instance (S : Submitters) : (e : Event) → Decidable (S.Allows e)
  | .answer i reply =>
    inferInstanceAs (Decidable (∀ r ∈ S.request? i, S.Fitting i r (reply r)))
  | .look i account =>
    inferInstanceAs (Decidable (S.Calls i Method.pendingNonce { address := account }))
  | .accept i t =>
    inferInstanceAs (Decidable (S.Calls i Method.sendTransaction t ∧
      ∀ p ∈ S.turn? i, t.nonce.toNat < S.pending p.account.text))
  | .drop i => inferInstanceAs (Decidable (¬ S.Sends i))
  | .submit .. | .wake _ | .raise .. | .alterPool _ | .setSigner .. => .isTrue trivial

instance decidableAllowsAll : (S : Submitters) → (events : List Event) →
    Decidable (S.AllowsAll events)
  | _, [] => .isTrue trivial
  | S, e :: es =>
    have := decidableAllowsAll (S.next e) es
    inferInstanceAs (Decidable (S.Allows e ∧ (S.next e).AllowsAll es))

/-! ### What is seen of a submission -/

section seen

variable {S : Submitters} {i : Nat}

theorem turn?_append (turn : Option Turn) (P : Party Network Session (Except ClientError String)) :
    ({ S with party := P, turns := S.turns ++ [turn] } : Submitters).turn? =
      Function.update S.turn? S.turns.length turn := by
  funext i
  show ((S.turns ++ [turn])[i]?).join = _
  by_cases hi : i = S.turns.length
  · subst hi
    simp
  · rw [Function.update_of_ne hi, turn?]
    rcases Nat.lt_or_gt_of_ne hi with hlt | hlt
    · rw [List.getElem?_append_left hlt]
    · rw [List.getElem?_eq_none (by simp; omega), List.getElem?_eq_none (Nat.le_of_lt hlt)]

theorem turn?_length (S : Submitters) : S.turn? S.turns.length = none := by
  simp [turn?]

theorem request?_eq_some {r : NetworkRequest} (h : S.request? i = some r) :
    ∃ dropped next, S.party.member? i = some (.ask r dropped next) := by
  unfold request? at h
  split at h
  · rename_i r' dropped next hi
    cases h
    exact ⟨dropped, next, hi⟩
  · cases h

theorem calls_iff {Req Res : Type} [Message Req] {m : Method Req Res} {request : Req} :
    S.Calls i m request ↔ ∃ k, S.request? i = some (.call k) ∧ k.method = m.name ∧
      k.payload = Message.encode request := by
  unfold Calls
  split
  · rename_i k hk
    simp [hk]
  · rename_i hk
    constructor
    · exact False.elim
    · rintro ⟨k, hk', -⟩
      exact hk k hk'

end seen

end Submitters
end LedgerClient
