import LedgerClient.Proofs.Pool.Slots
import LedgerClient.Proofs.Session.Courses
import LedgerClient.Proofs.Task.Party
import Mathlib.Data.List.Induction

/-!
# What calls tell of their connection

Calls over one connection overlap, and end in any order.  The state of the connection is what the
last ended call told of it, if it told something: an answer that it is ready, the status
`unavailable` that it has given out.  Shutting the connection down is final.  Whatever is answered
from then on to calls that began before does not revive it, and a call that begins later is refused
on the spot.

`state_of_history` says so of every connection and every history of calls, unary or opening a
stream, with whatever else happens to the session in between.
-/

namespace LedgerClient

open Rpc Transport Wire

/-! ## A call from its beginning to its end -/

/-- How a call ended, without what it brought. -/
def Reply.void {α : Type} (r : Reply α) : Reply Unit := r.read fun _ => .ok ()

/-- What the end of a call tells of the connection, if it tells anything. -/
def Reply.verdict? : Reply Unit → Option Connectivity
  | .ended (.ok _) => some .ready
  | .ended (.error status) => if status.code = .unavailable then some .transientFailure else none
  | .expired => none

/-- The pool after a call over a channel has ended. -/
def Reply.tell (channel : Nat) : Reply Unit → Pool → Pool
  | .ended r => Pool.observe channel r
  | .expired => id

/-- A call: one with a single response, or one that opens a stream. -/
inductive ChannelCall where
  | unary (Res : Type) [Message Res] (message : Call)
  | opening (message : Call)

namespace ChannelCall

/-- What the network is asked for. -/
def request : ChannelCall → Network.Request
  | unary _ message => NetworkRequest.call message
  | opening message => NetworkRequest.stream message

/-- What makes the call over a channel.  It yields how the call ends. -/
def program (channel : Nat) : ChannelCall → Program (Reply Unit)
  | unary Res message =>
    (exchange channel (Program.call message) (readResponse Res)).bind fun r => .done r.void
  | opening message =>
    (exchange channel (Program.stream message) .ok).bind fun r => .done r.void

/-- How the call ends by the replies of the network. -/
def outcome (reply : (r : Network.Request) → Network.Answer r) : ChannelCall → Reply Unit
  | unary Res message =>
    let r : Reply Bytes := reply (NetworkRequest.call message)
    (r.read (readResponse Res)).void
  | opening message =>
    let r : Reply Nat := reply (NetworkRequest.stream message)
    (r.read .ok).void

/-- The task waits for the reply to the call over a channel.  With the reply it ends, and the
channel is told of it. -/
def Waits (channel : Nat) (c : ChannelCall) (t : Program (Reply Unit)) : Prop :=
  ∃ next, t = .ask c.request id next ∧ ∀ reply s,
    (next (reply c.request)).advance s =
      (.done (c.outcome reply), s.alterPool ((c.outcome reply).tell channel))

/-- What follows the reply of the network in an exchange. -/
def conclude {α β : Type} (channel : Nat) (read : α → Except Status β) :
    Reply α → Program (Reply β)
  | .expired => .done .expired
  | .ended r =>
    (Task.modify (Session.alterPool (Pool.observe channel (r.bind read)))).bind fun _ =>
      .done (.ended (r.bind read))

/-- The channel is told of the reply, and the call ends. -/
theorem advance_conclude {α β : Type} (channel : Nat) (read : α → Except Status β) (r : Reply α)
    (s : Session) :
    ((conclude channel read r).bind fun r => .done r.void).advance s =
      (.done (r.read read).void, s.alterPool ((r.read read).void.tell channel)) := by
  rcases r with r | _
  · dsimp only [conclude, Reply.read]
    generalize r.bind read = r
    cases r <;> rfl
  · rfl

/-- A call is refused at once, or it waits for its reply. -/
theorem advance_program (channel : Nat) (c : ChannelCall) (s : Session) :
    (∃ status, s.pool.refusal? channel = some status ∧
      (c.program channel).advance s = (.done (.ended (.error status)), s)) ∨
    (s.pool.refusal? channel = none ∧
      ∃ t, c.Waits channel t ∧ (c.program channel).advance s = (t, s)) := by
  cases c with
  | unary Res message =>
    unfold program exchange
    simp only [Task.get, Task.bind, Task.advance]
    cases s.pool.refusal? channel with
    | some status => exact .inl ⟨status, rfl, rfl⟩
    | none =>
      exact .inr ⟨rfl, _, ⟨_, rfl, fun reply s =>
        advance_conclude channel (readResponse Res) (reply (NetworkRequest.call message)) s⟩, rfl⟩
  | opening message =>
    unfold program exchange
    simp only [Task.get, Task.bind, Task.advance]
    cases s.pool.refusal? channel with
    | some status => exact .inl ⟨status, rfl, rfl⟩
    | none =>
      exact .inr ⟨rfl, _, ⟨_, rfl, fun reply s =>
        advance_conclude channel .ok (reply (NetworkRequest.stream message)) s⟩, rfl⟩

end ChannelCall

/-! ## A channel and what is done to it -/

namespace Pool

variable {p : Pool} {k : Nat}

theorem alter_channels_self (f : Channel → Channel) :
    (p.alter k f).channels[k]? = (p.channels[k]?).map f := by
  unfold alter
  cases h : p.channels[k]? with
  | none => simp [h]
  | some c =>
    have hk : k < p.channels.length := (List.getElem?_eq_some_iff.1 h).1
    simp [hk]

end Pool

/-- What can happen to a channel, and to the session around it. -/
inductive ChannelUse (channel : Nat) where
  | begin (c : ChannelCall)
  | answer (i : Nat) (reply : (r : Network.Request) → Network.Answer r)
  /-- A call is dropped. -/
  | abandon (i : Nat)
  | close
  /-- Something else becomes of the session. -/
  | elsewhere (f : Session → Session)
    (h : ∀ s, (f s).pool.channels[channel]? = s.pool.channels[channel]?)

/-- Calls over a session. -/
abbrev Exchanges : Type := Party Network Session (Reply Unit)

namespace ChannelUse

variable {channel : Nat}

/-- A use as it happens to the calls. -/
def event : ChannelUse channel → Party.Event Network Session (Reply Unit)
  | begin c => .enter (c.program channel)
  | answer i reply => .answer i reply
  | abandon i => .leave i
  | close => .change (Session.alterPool fun p => (p.closeChannel channel).2)
  | elsewhere f _ => .change f

def isClose : ChannelUse channel → Bool
  | close => true
  | _ => false

/-- How a call ends at a use, if one does. -/
def ending? (p : Exchanges) (u : ChannelUse channel) : Option (Reply Unit) :=
  match p.stop? u.event with
  | some (.done r) => some r
  | _ => none

/-- The calls after some uses. -/
def run (p : Exchanges) (uses : List (ChannelUse channel)) : Exchanges :=
  uses.foldl (fun p u => p.step u.event) p

/-- How calls ended in the course of some uses, in the order in which they did. -/
def endings (p : Exchanges) : List (ChannelUse channel) → List (Reply Unit)
  | [] => []
  | u :: uses => (ending? p u).toList ++ endings (p.step u.event) uses

theorem run_concat (p : Exchanges) (uses : List (ChannelUse channel)) (u : ChannelUse channel) :
    run p (uses ++ [u]) = (run p uses).step u.event := by
  simp [run]

theorem endings_concat (p : Exchanges) (uses : List (ChannelUse channel)) (u : ChannelUse channel) :
    endings p (uses ++ [u]) = endings p uses ++ (ending? (run p uses) u).toList := by
  induction uses generalizing p with
  | nil => simp [endings, run]
  | cons u' uses ih => simp [endings, run, ih]

end ChannelUse

/-- The state of a connection by its history: whether it was shut down, and how calls over it
ended. -/
def historyState (closed : Bool) (endings : List (Reply Unit)) : Connectivity :=
  if closed then .shutdown else (endings.filterMap Reply.verdict?).getLastD .ready

section historyState

variable (endings : List (Reply Unit))

/-- The last call that told something decides. -/
theorem historyState_concat (r : Reply Unit) :
    historyState false (endings ++ [r]) = r.verdict?.getD (historyState false endings) := by
  simp only [historyState, Bool.false_eq_true, if_false, List.filterMap_append,
    List.getLastD_eq_getLast?, List.getLast?_append]
  cases h : r.verdict? <;> simp [h]

theorem historyState_ne_shutdown : historyState false endings ≠ .shutdown := by
  induction endings using List.reverseRecOn with
  | nil => exact nofun
  | append_singleton endings r ih =>
    rw [historyState_concat]
    rcases r with (status | _) | _
    · rw [Reply.verdict?]
      split
      · exact nofun
      · exact ih
    · exact nofun
    · exact ih

theorem observe_of_ne_shutdown {state : Connectivity} (h : state ≠ .shutdown)
    (r : Except Status Unit) : state.observe r = (Reply.ended r).verdict?.getD state := by
  rcases r with status | _
  · by_cases hcode : status.code = .unavailable
    · cases state <;> simp_all [Connectivity.observe, Reply.verdict?]
    · cases state <;> simp_all [Connectivity.observe, Reply.verdict?]
  · cases state <;> simp_all [Connectivity.observe, Reply.verdict?]

/-- A call that ends leaves the state to its history. -/
theorem observe_historyState (closed : Bool) (r : Except Status Unit) :
    (historyState closed endings).observe r = historyState closed (endings ++ [.ended r]) := by
  cases closed with
  | true => rfl
  | false => rw [historyState_concat, observe_of_ne_shutdown (historyState_ne_shutdown endings)]

end historyState

namespace ChannelUse

variable {channel : Nat} {fresh : Channel} {p : Exchanges} {closed : Bool}
  {endings : List (Reply Unit)}

/-- The state of the channel is that of its history, and every call has ended or waits for its
reply. -/
structure Sound (channel : Nat) (fresh : Channel) (p : Exchanges) (closed : Bool)
    (endings : List (Reply Unit)) : Prop where
  channel_eq :
    p.shared.pool.channels[channel]? = some { fresh with state := historyState closed endings }
  rests : ∀ i t, p.member? i = some t → (∃ r, t = .done r) ∨ ∃ c : ChannelCall, c.Waits channel t

/-- A channel is told of a call that has ended. -/
theorem channels_tell {pool : Pool} (hlink : fresh.link = .connection)
    (h : pool.channels[channel]? = some { fresh with state := historyState closed endings })
    (r : Reply Unit) :
    (r.tell channel pool).channels[channel]? =
      some { fresh with state := historyState closed (endings ++ [r]) } := by
  cases r with
  | ended r =>
    rw [Reply.tell, Pool.observe, Pool.alter_channels_self, h, Option.map_some, Channel.observe]
    simp only [hlink, observe_historyState]
  | expired =>
    rw [Reply.tell, id_eq, h]
    cases closed with
    | true => rfl
    | false => rw [historyState_concat]; rfl

theorem refusal?_of_history {pool : Pool} (hlink : fresh.link = .connection)
    (h : pool.channels[channel]? = some { fresh with state := historyState closed endings }) :
    pool.refusal? channel =
      if closed then some ⟨.unavailable, s!"connection to {fresh.address} is closed"⟩
      else none := by
  rw [Pool.refusal?, h, Option.bind_some, Channel.refusal?]
  cases closed with
  | true => simp only [hlink, historyState, if_true]
  | false =>
    simp only [hlink]
    split
    · rename_i hstate
      exact absurd hstate (historyState_ne_shutdown endings)
    · rfl

/-- An order to close finds a channel open that was not closed before. -/
theorem closeChannel_of_history {pool : Pool}
    (h : pool.channels[channel]? = some { fresh with state := historyState closed endings }) :
    (pool.closeChannel channel).1 = !closed := by
  rw [Pool.closeChannel, h, Option.any_some, Channel.close]
  cases closed with
  | true => rfl
  | false => exact bne_iff_ne.2 (historyState_ne_shutdown endings)

/-- The reply to a call that waits ends it, and the channel is told. -/
theorem answer_of_waits {c : ChannelCall} {i : Nat} {t : Program (Reply Unit)}
    (hi : p.member? i = some t) (h : c.Waits channel t)
    (reply : (r : Network.Request) → Network.Answer r) :
    p.stop? (.answer i reply) = some (.done (c.outcome reply)) ∧
      (p.step (.answer i reply)).shared = p.shared.alterPool ((c.outcome reply).tell channel) := by
  obtain ⟨next, rfl, hnext⟩ := h
  have hgoes := Party.next?_answer hi reply
  constructor
  · rw [Party.stop?, hgoes, Option.map_some, hnext]
  · rw [Party.step_answer, hgoes, Option.map_some, Option.getD_some, Party.resume, hnext]

namespace Sound

/-- A call that begins leaves the session as it is.  It is refused if the channel was shut down, and
waits otherwise. -/
theorem begin (h : Sound channel fresh p closed endings) (hlink : fresh.link = .connection)
    (c : ChannelCall) :
    (p.step (ChannelUse.begin c : ChannelUse channel).event).shared = p.shared ∧
    if closed then
      p.stop? (ChannelUse.begin c : ChannelUse channel).event = some (.done (.ended (.error
        ⟨.unavailable, s!"connection to {fresh.address} is closed"⟩)))
    else ∃ t, p.stop? (ChannelUse.begin c : ChannelUse channel).event = some t ∧
      c.Waits channel t := by
  have hrefusal := refusal?_of_history hlink h.channel_eq
  simp only [event, Party.step, Party.stop?, Party.next?, Option.map_some]
  cases closed with
  | true =>
    obtain ⟨status, hstatus, hadvance⟩ | ⟨hnone, -⟩ := c.advance_program channel p.shared
    · cases hstatus.symm.trans hrefusal
      rw [hadvance]
      exact ⟨rfl, rfl⟩
    · cases hnone.symm.trans hrefusal
  | false =>
    obtain ⟨status, hstatus, -⟩ | ⟨-, t, ht, hadvance⟩ := c.advance_program channel p.shared
    · cases hstatus.symm.trans hrefusal
    · rw [hadvance]
      exact ⟨rfl, t, rfl, ht⟩

/-- A reply ends the call that waits for it, and is lost on any other. -/
theorem answer (h : Sound channel fresh p closed endings) (i : Nat)
    (reply : (r : Network.Request) → Network.Answer r) :
    (p.stop? (.answer i reply) = none ∧ p.step (.answer i reply) = p) ∨
    ∃ c : ChannelCall, p.stop? (.answer i reply) = some (.done (c.outcome reply)) ∧
      (p.step (.answer i reply)).shared =
        p.shared.alterPool ((c.outcome reply).tell channel) := by
  have lost (hnext : p.next? (.answer i reply) = none) :
      p.stop? (.answer i reply) = none ∧ p.step (.answer i reply) = p := by
    rw [Party.stop?, Party.step_answer, hnext]
    exact ⟨rfl, rfl⟩
  cases hi : p.member? i with
  | none =>
    have hask : ∀ r dropped next, p.member? i ≠ some (.ask r dropped next) := by simp [hi]
    exact .inl (lost (Party.next?_answer_eq_none hask reply))
  | some t =>
    rcases h.rests i t hi with ⟨r, rfl⟩ | ⟨c, hwaits⟩
    · have hask : ∀ r dropped next, p.member? i ≠ some (.ask r dropped next) := by simp [hi]
      exact .inl (lost (Party.next?_answer_eq_none hask reply))
    · exact .inr ⟨c, answer_of_waits hi hwaits reply⟩

/-- Whoever goes on at a use has ended there or waits for its reply. -/
theorem rests_stop? (h : Sound channel fresh p closed endings) (hlink : fresh.link = .connection)
    (u : ChannelUse channel) {t : Program (Reply Unit)} (ht : p.stop? u.event = some t) :
    (∃ r, t = .done r) ∨ ∃ c : ChannelCall, c.Waits channel t := by
  cases u with
  | begin c =>
    obtain ⟨-, hbegin⟩ := h.begin hlink c
    split at hbegin
    · exact .inl ⟨_, Option.some.inj (ht.symm.trans hbegin)⟩
    · obtain ⟨t', ht', hwaits⟩ := hbegin
      obtain rfl := Option.some.inj (ht.symm.trans ht')
      exact .inr ⟨c, hwaits⟩
  | answer i reply =>
    rcases h.answer i reply with ⟨hnone, -⟩ | ⟨c, hstop, -⟩
    · cases hnone.symm.trans ht
    · exact .inl ⟨_, Option.some.inj (ht.symm.trans hstop)⟩
  | abandon i => cases ht
  | close => cases ht
  | elsewhere f hf => cases ht

/-- A call that is dropped leaves no trace. -/
theorem shared_leave (h : Sound channel fresh p closed endings) (i : Nat) :
    (p.step (.leave i)).shared = p.shared := by
  rw [Party.step]
  split
  · rename_i t hi
    rcases h.rests i t hi with ⟨r, rfl⟩ | ⟨c, next, rfl, -⟩ <;> rfl
  · rfl

/-- What one use does. -/
theorem step (h : Sound channel fresh p closed endings) (hlink : fresh.link = .connection)
    (u : ChannelUse channel) :
    Sound channel fresh (p.step u.event) (closed || u.isClose)
      (endings ++ (ending? p u).toList) := by
  refine ⟨?_, fun i t hi => ?_⟩
  · cases u with
    | begin c =>
      obtain ⟨hshared, hbegin⟩ := h.begin hlink c
      simp only [hshared, h.channel_eq, isClose, Bool.or_false]
      cases closed with
      | true => rfl
      | false =>
        obtain ⟨t, ht, next, rfl, -⟩ := hbegin
        rw [ending?, ht]
        simp
    | answer i reply =>
      simp only [isClose, Bool.or_false, ending?]
      rcases h.answer i reply with ⟨hnone, hstep⟩ | ⟨c, hstop, hshared⟩
      · rw [event, hnone, hstep, h.channel_eq]
        simp
      · rw [event, hstop, hshared]
        exact channels_tell hlink h.channel_eq _
    | abandon i =>
      have hending : (ending? p (.abandon i : ChannelUse channel)).toList = [] := rfl
      rw [event, h.shared_leave, h.channel_eq, hending, List.append_nil]
      simp only [isClose, Bool.or_false]
    | close =>
      have hchannels : (p.step (close : ChannelUse channel).event).shared.pool.channels =
          (p.shared.pool.alter channel fun c => c.close.2).channels := rfl
      rw [hchannels, Pool.alter_channels_self, h.channel_eq]
      simp only [isClose, Bool.or_true]
      rfl
    | elsewhere f hf =>
      have hending : (ending? p (.elsewhere f hf : ChannelUse channel)).toList = [] := rfl
      rw [hending, List.append_nil]
      simp only [isClose, Bool.or_false]
      exact (hf p.shared).trans h.channel_eq
  · rcases Party.member?_step hi with hi | hstop
    · exact h.rests i t hi
    · exact h.rests_stop? hlink u hstop

end Sound

theorem sound_run {s : Session} (h : s.pool.channels[channel]? = some fresh)
    (hlink : fresh.link = .connection) (hstate : fresh.state = .ready)
    (uses : List (ChannelUse channel)) :
    Sound channel fresh (run { shared := s } uses) (uses.any isClose)
      (ChannelUse.endings { shared := s } uses) := by
  induction uses using List.reverseRecOn with
  | nil =>
    refine ⟨?_, fun i t hi => ?_⟩
    · obtain ⟨endpoint, address, link, state⟩ := fresh
      cases hstate
      exact h
    · simp [Party.member?, run] at hi
  | append_singleton uses u ih =>
    rw [run_concat, endings_concat, List.any_append]
    simpa using ih.step hlink u

end ChannelUse

/-- The state of a connection that a dial has given is what its history says: `shutdown` from the
first order to close on, and before that what the last call told of it that told something, or
`ready`.  An order to close finds the connection open if it is the first.  A call that begins waits
for the network if the connection was not closed, and else is refused without asking it.  The reply
to a call that waits is how the call ends, whenever it comes. -/
theorem state_of_history (s : Session) (endpoint : Nat)
    (uses : List (ChannelUse s.pool.channels.length)) :
    let channel := s.pool.channels.length
    let dialed : Exchanges := { shared := s.alterPool fun p => p.grow endpoint .connection }
    let p := ChannelUse.run dialed uses
    let closed := uses.any ChannelUse.isClose
    (p.shared.pool.channels[channel]?).map (·.state) =
        some (historyState closed (ChannelUse.endings dialed uses)) ∧
      (p.shared.pool.closeChannel channel).1 = !closed ∧
      (∀ c : ChannelCall,
        if closed then
          p.stop? (.enter (c.program channel)) = some (.done (.ended (.error
            ⟨.unavailable, s!"connection to {s.pool.address endpoint} is closed"⟩)))
        else ∃ t, p.stop? (.enter (c.program channel)) = some t ∧ c.Waits channel t) ∧
      ∀ (c : ChannelCall) (i : Nat) (reply : (r : Network.Request) → Network.Answer r),
        (∃ t, p.member? i = some t ∧ c.Waits channel t) →
          ChannelUse.ending? p (.answer i reply : ChannelUse channel) =
            some (c.outcome reply) := by
  intro channel dialed p closed
  let fresh : Channel := { endpoint, address := s.pool.address endpoint, link := .connection }
  have hfresh : dialed.shared.pool.channels[channel]? = some fresh := by
    simp [dialed, channel, fresh, Session.alterPool, Pool.grow]
  have hsound : ChannelUse.Sound channel fresh p closed (ChannelUse.endings dialed uses) :=
    ChannelUse.sound_run hfresh rfl rfl uses
  refine ⟨?_, ChannelUse.closeChannel_of_history hsound.channel_eq,
    fun c => (hsound.begin rfl c).2, ?_⟩
  · rw [hsound.channel_eq]
    rfl
  · rintro c i reply ⟨t, hi, hwaits⟩
    rw [ChannelUse.ending?, ChannelUse.event, (ChannelUse.answer_of_waits hi hwaits reply).1]

end LedgerClient
