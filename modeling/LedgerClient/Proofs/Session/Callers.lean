import LedgerClient.Proofs.Session.Mandates
import LedgerClient.Proofs.Session.Nonces

/-!
# Callers and the signer they read

Any number of errands run over the clients of a session.  They take turns wherever they wait, may
be answered anything, may fail anywhere, and may be dropped.  The signer of a client may be replaced
at any moment, and others use the pool.  Of the outside this alone is assumed: the turn is granted
to whom the mutex was handed.

`signer_read_once` says that an errand is bound, from the moment it begins, to one signer and to one
account.  The account that a call names in its header as its caller has no part in this; it is the
client's at the time of the call.
-/

namespace LedgerClient

open Account Ledger Rpc Wire

/-- Errands over a session.  They have numbers in the order in which they began. -/
abbrev Callers := Party Network Session (Except ClientError Outcome)

namespace Callers

/-! ## What happens -/

/-- What happens to errands, or to the session from outside. -/
inductive Event where
  | begin (e : Errand)
  /-- The pause of an errand is over. -/
  | wake (i : Nat)
  /-- An errand is answered, as `reply` answers what it asked for. -/
  | answer (i : Nat) (reply : (r : NetworkRequest) → Network.Answer r)
  /-- An errand is dropped. -/
  | drop (i : Nat)
  /-- The signer of a client is replaced. -/
  | setSigner (c : Nat) (signer : Signer)
  /-- Others use the pool. -/
  | alterPool (f : Pool → Pool)

/-- What an errand waits for. -/
def request? (S : Callers) (i : Nat) : Option NetworkRequest :=
  match S.member? i with
  | some (.ask r _ _) => some r
  | _ => none

/-- A turn that is asked for has been handed its mutex. -/
def Handed (S : Callers) : Option NetworkRequest → Prop
  | some (.turn c ticket) => (S.shared.clients c).locks.isWaiting ticket = false
  | _ => True

/-- The event may happen. -/
def Allows (S : Callers) : Event → Prop
  | .answer i _ => S.Handed (S.request? i)
  | _ => True

/-- What comes of an event. -/
def next (S : Callers) : Event → Callers
  | .begin e => S.step (.enter e.task)
  | .wake i => S.step (.wake i)
  | .answer i reply => S.step (.answer i reply)
  | .drop i => S.step (.leave i)
  | .setSigner c signer => S.step (.change (Session.setSigner c signer))
  | .alterPool f => S.step (.change (Session.alterPool f))

/-- What comes of some events. -/
def after (S : Callers) (events : List Event) : Callers := events.foldl next S

/-- The events may happen one after the other. -/
def AllowsAll (S : Callers) : List Event → Prop
  | [] => True
  | e :: es => S.Allows e ∧ (S.next e).AllowsAll es

/-- Nothing has begun yet. -/
def start (s : Session) : Callers := { shared := s }

/-! ### What is seen of an errand -/

/-- The call that an errand waits for. -/
def call? (S : Callers) (i : Nat) : Option Call :=
  match S.request? i with
  | some (.call k) => some k
  | _ => none

/-- An errand waits for the answer to such a call. -/
def Calls {Req Res : Type} [Message Req] (S : Callers) (i : Nat) (m : Method Req Res)
    (request : Req) : Prop :=
  ∃ k ∈ S.call? i, k.method = m.name ∧ k.payload = Message.encode request

/-- The transaction that an errand has prepared. -/
def prepared? (S : Callers) (i : Nat) : Option SignedTransaction :=
  match S.member? i with
  | some (.done (.ok (.prepared t))) => some t
  | _ => none

/-- An errand is sending the transaction, or has prepared it. -/
def Delivers (S : Callers) (i : Nat) (t : Transaction) : Prop :=
  S.Calls i Method.sendTransaction t ∨ S.prepared? i = some ⟨t⟩

/-- An errand has begun and has not come to an end. -/
def Runs (S : Callers) (i : Nat) : Prop := ∃ t, S.member? i = some t ∧ ¬ t.Ended

/-- Errand `e`, of number `i`, keeps to a signer, to an account and to a ticket for its lock. -/
structure KeepsTo (S : Callers) (i : Nat) (e : Errand) (signer : Signer) (account : Address)
    (ticket : Nat) : Prop where
  signed : ∀ t, S.Delivers i t → e.draft.SignedBy signer t
  /-- The calls are lookups for the account, and sends. -/
  calls : (S.call? i).isSome →
    (e.options.nonceSource = .ok .remote ∧
        S.Calls i Method.pendingNonce { address := account.text }) ∨
      (e.purpose = .submit ∧ ∃ t, S.Calls i Method.sendTransaction t)
  /-- The turn it waits for is that of the ticket. -/
  waits : ∀ c n, S.request? i = some (.turn c n) → c = e.client ∧ n = ticket
  /-- Whoever looks a nonce up has the ticket until the end, and has the lock of the account except
  while it waits for its turn. -/
  locks : e.draft.sender.isSome → e.options.nonceSource = .ok .remote → S.Runs i →
    ∃ k, (S.shared.clients e.client).locks.ticket? ticket = some k ∧ k.account = account ∧
      (S.request? i ≠ some (.turn e.client ticket) → k.Owns)
  /-- Where no other account is named, the account is the one that a signature is traced to. -/
  recovered : e.options.lookup = none → account = signer.address ∧
    ∀ t, S.Delivers i t → signer.Verifies t → t.recoverSender = .ok account

/-! ### Whether an event may happen can be computed -/

instance (S : Callers) : (r : Option NetworkRequest) → Decidable (S.Handed r)
  | some (.turn c ticket) =>
    inferInstanceAs (Decidable ((S.shared.clients c).locks.isWaiting ticket = false))
  | none | some (.dial ..) | some (.call _) | some (.stream _) | some (.item ..) => .isTrue trivial

instance (S : Callers) : (e : Event) → Decidable (S.Allows e)
  | .answer i _ => inferInstanceAs (Decidable (S.Handed (S.request? i)))
  | .begin _ | .wake _ | .drop _ | .setSigner .. | .alterPool _ => .isTrue trivial

instance decidableAllowsAll : (S : Callers) → (events : List Event) →
    Decidable (S.AllowsAll events)
  | _, [] => .isTrue trivial
  | S, e :: es =>
    have := decidableAllowsAll (S.next e) es
    inferInstanceAs (Decidable (S.Allows e ∧ (S.next e).AllowsAll es))

instance {Req Res : Type} [Message Req] (S : Callers) (i : Nat) (m : Method Req Res)
    (request : Req) : Decidable (S.Calls i m request) :=
  Option.decidableExistsMem _

/-! ## The invariant -/

/-- The errands stand as their mandates say.  The mandates are listed in the order in which the
errands began, and so the tickets of one client increase. -/
structure Sound (S : Callers) (mandates : List Mandate) : Prop where
  wellFormed : ∀ c, (S.shared.clients c).locks.WellFormed
  length_eq : mandates.length = S.members.length
  ticket_lt : ∀ m ∈ mandates, ∀ p, m.turn? = some p →
    p.ticket < (S.shared.clients p.client).locks.nextTicket
  increase : mandates.Pairwise fun m n => ∀ p q, m.turn? = some p → n.turn? = some q →
    p.client = q.client → p.ticket < q.ticket
  stands : ∀ i m t, mandates[i]? = some m → S.member? i = some t → m.Stands S.shared t

variable {S : Callers} {mandates : List Mandate} {m : Mandate} {i : Nat} {s : Session}

theorem sound_start (hs : ∀ c, (s.clients c).locks = {}) : (start s).Sound [] where
  wellFormed c := by
    show (s.clients c).locks.WellFormed
    rw [hs c]
    exact LockTable.wellFormed_empty
  length_eq := rfl
  ticket_lt := nofun
  increase := .nil
  stands := nofun

/-- The session changes, and every errand that is still there stands as it may. -/
theorem Sound.follow (h : S.Sound mandates) {P : Callers}
    {gone : Nat → Nat → Prop} (hlength : P.members.length = S.members.length)
    (hfollows : S.shared.Follows gone P.shared)
    (hstands : ∀ i m t, mandates[i]? = some m → P.member? i = some t → m.Stands P.shared t) :
    P.Sound mandates where
  wellFormed c := (hfollows c).1 (h.wellFormed c)
  length_eq := h.length_eq.trans hlength.symm
  ticket_lt m hm p hp := Nat.lt_of_lt_of_le (h.ticket_lt m hm p hp) (hfollows p.client).2.next_le
  increase := h.increase
  stands := hstands

/-- The tickets of two errands differ. -/
theorem Sound.not_owner (h : S.Sound mandates) {j : Nat} {n : Mandate} (hi : mandates[i]? = some m)
    (hj : mandates[j]? = some n) (hji : j ≠ i) {p : Turn} (hp : n.turn? = some p) :
    ¬ m.Owner p.client p.ticket := by
  -- Whichever of the two began first has the smaller ticket.
  rintro ⟨q, hq, hclient, hticket⟩
  obtain ⟨hilt, rfl⟩ := List.getElem?_eq_some_iff.1 hi
  obtain ⟨hjlt, rfl⟩ := List.getElem?_eq_some_iff.1 hj
  rcases Nat.lt_or_gt_of_ne hji with hlt | hlt
  · have := List.pairwise_iff_getElem.1 h.increase j i hjlt hilt hlt p q hp hq hclient.symm
    omega
  · have := List.pairwise_iff_getElem.1 h.increase i j hilt hjlt hlt q p hq hp hclient
    omega

/-- One errand comes to a wait or to its end, or is gone, and gives back no ticket but its own. -/
theorem Sound.set (h : S.Sound mandates) (hi : mandates[i]? = some m)
    {s' : Session} {o : Option (Program (Except ClientError Outcome))}
    (hfollows : S.shared.Follows m.Owner s') (ho : ∀ t, o = some t → m.Stands s' t) :
    Sound { shared := s', members := S.members.set i o } mandates := by
  refine h.follow (by simp) hfollows fun j n t hj ht => ?_
  by_cases hji : j = i
  · subst hji
    obtain rfl : n = m := Option.some.inj (hj.symm.trans hi)
    have hlt : j < S.members.length := by
      rw [← h.length_eq]
      exact (List.getElem?_eq_some_iff.1 hi).1
    rw [Party.member?_eq_some, List.getElem?_set_self hlt] at ht
    exact ho t (Option.some.inj ht)
  · rw [Party.member?_eq_some, List.getElem?_set_ne (Ne.symm hji), ← Party.member?_eq_some] at ht
    exact (h.stands j n t hj ht).follows hfollows fun p hp => h.not_owner hi hj hji hp

theorem Sound.resume (h : S.Sound mandates) (hi : mandates[i]? = some m)
    {t : Program (Except ClientError Outcome)} (ht : m.Goes S.shared t) :
    Sound (S.resume i t) mandates :=
  h.set hi ht.1 fun _ hu => Option.some.inj hu ▸ ht.2

/-- Whoever is there has a mandate. -/
theorem Sound.exists_mandate (h : S.Sound mandates) {t : Program (Except ClientError Outcome)}
    (hi : S.member? i = some t) : ∃ m, mandates[i]? = some m ∧ m.Stands S.shared t := by
  have hlt : i < mandates.length := by
    rw [h.length_eq]
    exact (List.getElem?_eq_some_iff.1 (Party.member?_eq_some.1 hi)).1
  have hm : mandates[i]? = some mandates[i] := List.getElem?_eq_getElem hlt
  exact ⟨_, hm, h.stands i _ t hm hi⟩

/-! ### Beginning -/

/-- An errand has read its mandate and drawn its ticket, and does nothing yet. -/
theorem Sound.enter (h : S.Sound mandates) (e : Errand) :
    let m := e.mandate S.shared
    Sound { shared := m.opened S.shared, members := S.members ++ [none] } (mandates ++ [m]) := by
  intro m
  have hfollows : S.shared.Follows (fun _ _ => False) (m.opened S.shared) := by
    unfold Mandate.opened
    split
    · exact Session.follows_drawTicket _ _ _ _
    · exact Session.follows_of_locks_eq _ fun _ => rfl
  refine ⟨fun c => (hfollows c).1 (h.wellFormed c), by simp [h.length_eq], ?_, ?_, ?_⟩
  · intro n hn p hp
    rcases List.mem_append.1 hn with hn | hn
    · exact Nat.lt_of_lt_of_le (h.ticket_lt n hn p hp) (hfollows p.client).2.next_le
    · rw [List.mem_singleton.1 hn] at hp
      have hopened : m.opened S.shared = (S.shared.drawTicket p.client p.account).2 := by
        simp only [Mandate.opened, hp]
      rw [e.ticket_of_mandate hp, hopened, Session.drawTicket_snd, Session.alterLocks_locks_self,
        LockTable.draw_nextTicket]
      exact Nat.lt_succ_self _
  · refine List.pairwise_append.2 ⟨h.increase, List.pairwise_singleton .., ?_⟩
    intro n hn m' hm' p q hp hq hclient
    rw [List.mem_singleton.1 hm'] at hq
    rw [e.ticket_of_mandate hq, ← hclient]
    exact h.ticket_lt n hn p hp
  · intro i n t hi ht
    rw [Party.member?_eq_some, List.getElem?_append] at ht
    split at ht
    · rename_i hlt
      rw [List.getElem?_append_left (by rwa [h.length_eq])] at hi
      exact (h.stands i n t hi (Party.member?_eq_some.2 ht)).follows hfollows fun _ _ => id
    · cases List.mem_singleton.1 (List.mem_of_getElem? ht)

theorem Sound.begin (h : S.Sound mandates) (e : Errand) :
    (S.next (.begin e)).Sound (mandates ++ [e.mandate S.shared]) := by
  -- The place of the errand is empty until it has drawn its ticket, and is then filled by its task.
  obtain ⟨t, hadvance, hgoes⟩ := e.goes S.shared
  have hi : (mandates ++ [e.mandate S.shared])[S.members.length]? = some (e.mandate S.shared) := by
    rw [← h.length_eq]
    exact List.getElem?_concat_length
  have hnext : S.next (.begin e) =
      Party.resume
        { shared := (e.mandate S.shared).opened S.shared, members := S.members ++ [none] }
        S.members.length t := by
    simp [next, Party.step, Party.resume, hadvance]
  rw [hnext]
  exact (h.enter e).resume hi hgoes

/-! ### Going on -/

theorem Sound.wake (h : S.Sound mandates) (i : Nat) : (S.next (.wake i)).Sound mandates := by
  simp only [next, Party.step]
  split
  · rename_i hi
    obtain ⟨m, hm, hstands⟩ := h.exists_mandate hi
    exact h.resume hm hstands.wake
  · exact h

theorem Sound.answer (h : S.Sound mandates) (i : Nat)
    {reply : (r : NetworkRequest) → Network.Answer r} (hallows : S.Allows (.answer i reply)) :
    (S.next (.answer i reply)).Sound mandates := by
  simp only [next, Party.step]
  split
  · rename_i r dropped next hi
    obtain ⟨m, hm, hstands⟩ := h.exists_mandate hi
    refine h.resume hm (hstands.answer h.wellFormed ?_ (reply r))
    rintro c n rfl
    have hhanded : S.Handed (S.request? i) := hallows
    rw [request?, hi] at hhanded
    exact hhanded
  · exact h

theorem Sound.drop (h : S.Sound mandates) (i : Nat) : (S.next (.drop i)).Sound mandates := by
  simp only [next, Party.step]
  split
  · rename_i t hi
    obtain ⟨m, hm, hstands⟩ := h.exists_mandate hi
    exact h.set hm hstands.drop fun _ ht => by cases ht
  · exact h

/-- Others change the session, but no lock table. -/
theorem Sound.change (h : S.Sound mandates) {f : Session → Session}
    (hf : ∀ c, ((f S.shared).clients c).locks = (S.shared.clients c).locks) :
    Sound (S.step (.change f)) mandates := by
  have hfollows : S.shared.Follows (fun _ _ => False) (f S.shared) :=
    Session.follows_of_locks_eq _ hf
  exact h.follow rfl hfollows fun i m t hi ht =>
    (h.stands i m t hi ht).follows hfollows fun _ _ => id

/-- Whatever may happen leaves the mandates in force, and adds that of an errand that begins. -/
theorem Sound.next (h : S.Sound mandates) {e : Event} (he : S.Allows e) :
    ∃ more, (S.next e).Sound (mandates ++ more) := by
  have unchanged (h : (S.next e).Sound mandates) : ∃ more, (S.next e).Sound (mandates ++ more) :=
    ⟨[], by rwa [List.append_nil]⟩
  cases e with
  | begin e => exact ⟨_, h.begin e⟩
  | wake i => exact unchanged (h.wake i)
  | answer i reply => exact unchanged (h.answer i he)
  | drop i => exact unchanged (h.drop i)
  | setSigner c signer => exact unchanged (h.change (Session.setSigner_locks c signer S.shared))
  | alterPool f => exact unchanged (h.change (f := Session.alterPool f) fun _ => rfl)

theorem Sound.after (h : S.Sound mandates) {events : List Event} (hevents : S.AllowsAll events) :
    ∃ more, (S.after events).Sound (mandates ++ more) := by
  induction events generalizing S mandates with
  | nil => exact ⟨[], by rwa [List.append_nil]⟩
  | cons e es ih =>
    obtain ⟨more, hnext⟩ := h.next hevents.1
    obtain ⟨more', hafter⟩ := ih hnext hevents.2
    exact ⟨more ++ more', by rwa [← List.append_assoc]⟩

/-! ## One signer and one account -/

theorem allowsAll_append {before later : List Event} :
    S.AllowsAll (before ++ later) ↔ S.AllowsAll before ∧ (S.after before).AllowsAll later := by
  induction before generalizing S with
  | nil => exact ⟨fun h => ⟨trivial, h⟩, fun h => h.2⟩
  | cons e es ih =>
    show S.Allows e ∧ (S.next e).AllowsAll (es ++ later) ↔ (S.Allows e ∧ _) ∧ _
    rw [ih, and_assoc]
    rfl

theorem request?_eq_some {r : NetworkRequest} (h : S.request? i = some r) :
    ∃ dropped next, S.member? i = some (.ask r dropped next) := by
  unfold request? at h
  split at h
  · rename_i dropped next hi
    cases h
    exact ⟨dropped, next, hi⟩
  · cases h

theorem call?_eq_some {k : Call} (h : S.call? i = some k) : S.request? i = some (.call k) := by
  unfold call? at h
  split at h
  · rename_i hi
    cases h
    exact hi
  · cases h

theorem prepared?_eq_some {t : SignedTransaction} (h : S.prepared? i = some t) :
    S.member? i = some (.done (.ok (.prepared t))) := by
  unfold prepared? at h
  split at h
  · rename_i hi
    cases h
    exact hi
  · cases h

/-- What an errand asks for is its turn, or what its mandate says. -/
theorem Sound.asks (h : S.Sound mandates) (hm : mandates[i]? = some m) {r : NetworkRequest}
    (hr : S.request? i = some r) :
    (∃ p, m.turn? = some p ∧ r = .turn p.client p.ticket) ∨ m.Asks r := by
  obtain ⟨dropped, next, hi⟩ := request?_eq_some hr
  exact (h.stands i m _ hm hi).asks

/-- What an errand delivers was signed under its mandate. -/
theorem Sound.signs (h : S.Sound mandates) (hm : mandates[i]? = some m) {t : Transaction}
    (ht : S.Delivers i t) : m.Signs t := by
  rcases ht with hcalls | hprepared
  · obtain ⟨k, hk, hmethod, hpayload⟩ := hcalls
    rcases h.asks hm (call?_eq_some hk) with ⟨p, -, heq⟩ | ⟨p, -, hlookup, -⟩ | ⟨-, -, u, hu, hsent⟩
    · cases heq
    · rw [hmethod] at hlookup
      exact absurd hlookup (by decide)
    · rw [hpayload] at hsent
      rwa [Submitters.transaction_inj hsent]
  · exact (h.stands i m _ hm (prepared?_eq_some hprepared)).yields

theorem Sound.keepsTo (h : S.Sound mandates) {e : Errand}
    (hm : mandates[i]? = some (e.mandate s)) :
    let signer := e.options.signer.getD (s.clients e.client).signer
    S.KeepsTo i e signer (e.options.lookup.getD signer.address)
      (s.clients e.client).locks.nextTicket where
  signed _ ht := h.signs hm ht
  calls hcalls := by
    obtain ⟨k, hk⟩ := Option.isSome_iff_exists.1 hcalls
    rcases h.asks hm (call?_eq_some hk) with ⟨p, -, heq⟩ | ⟨p, hturn, hmethod, hpayload⟩ |
      ⟨hpurpose, hmethod, t, -, hpayload⟩
    · cases heq
    · obtain ⟨-, hsource, rfl⟩ := Errand.mandate_turn?_eq_some_iff.1 hturn
      exact .inl ⟨hsource, k, hk, hmethod, hpayload⟩
    · exact .inr ⟨hpurpose, t, k, hk, hmethod, hpayload⟩
  waits c n hr := by
    rcases h.asks hm hr with ⟨p, hturn, heq⟩ | hasks
    · obtain ⟨-, -, rfl⟩ := Errand.mandate_turn?_eq_some_iff.1 hturn
      cases heq
      exact ⟨rfl, rfl⟩
    · exact hasks.elim
  locks hsender hsource hruns := by
    obtain ⟨t, ht, hrunning⟩ := hruns
    have hturn := Errand.mandate_turn?_eq_some_iff (s := s).2 ⟨hsender, hsource, rfl⟩
    have hfound {k : Ticket} (hk : k ∈ (S.shared.clients e.client).locks.tickets)
        (hid : k.id = (s.clients e.client).locks.nextTicket) :
        (S.shared.clients e.client).locks.ticket? (s.clients e.client).locks.nextTicket =
          some k := by
      rw [← hid]
      exact (h.wellFormed e.client).ticket?_eq_some hk
    rcases (h.stands i _ t hm ht).turn_cases hturn with ⟨⟨dropped, next, rfl⟩, k, hk, hid, ha⟩ |
      ⟨k, hk, hid, ha, ho⟩ | hended
    · refine ⟨k, hfound hk hid, ha, fun hwaits => ?_⟩
      exact absurd (by rw [request?, ht]) hwaits
    · exact ⟨k, hfound hk hid, ha, fun _ => ho⟩
    · exact absurd hended hrunning
  recovered hlookup := by
    simp only [hlookup, Option.getD_none, true_and]
    exact fun _ _ hverifies => hverifies.recoverSender

/-- Whatever happens before and after an errand begins, signers being replaced among it, the errand
signs with one signer: the one it brings, or the client's at the moment it begins.  If no account is
named for the lookup, the account whose lock it takes, the account it looks the nonce up for, and
the address that is found in what it signed are the address of this signer. -/
theorem signer_read_once (s : Session) (hs : ∀ c, (s.clients c).locks = {})
    (before : List Event) (e : Errand) (later : List Event)
    (hevents : (start s).AllowsAll (before ++ .begin e :: later)) :
    let S₀ := (start s).after before
    let signer := e.options.signer.getD (S₀.shared.clients e.client).signer
    KeepsTo ((start s).after (before ++ .begin e :: later)) S₀.members.length e signer
      (e.options.lookup.getD signer.address) (S₀.shared.clients e.client).locks.nextTicket := by
  intro S₀ signer
  obtain ⟨hbefore, -, hlater⟩ := allowsAll_append.1 hevents
  obtain ⟨mandates, hsound⟩ := (sound_start hs).after hbefore
  obtain ⟨more, hsound'⟩ := (hsound.begin e).after hlater
  have hafter : (start s).after (before ++ .begin e :: later) =
      (S₀.next (.begin e)).after later := List.foldl_append ..
  rw [hafter]
  refine hsound'.keepsTo ?_
  rw [← hsound.length_eq]
  simp [S₀]

/-! ### A run -/

/-- The key whose seed is 32 ones. -/
def keyOfOnes : SigningKey := ⟨List.replicate 32 1, rfl⟩

/-- A client of one endpoint that signs with this key. -/
def keyed : Session :=
  { Submitters.oneNode with clients := fun _ => { settings := {}, signer := .ofKey keyOfOnes } }

/-- A draft that is to be signed by the client's own signer. -/
def plainErrand (purpose : Purpose) : Errand :=
  { purpose, client := 0, draft := Submitters.plainDraft }

/-- A submission has begun while the same draft was being prepared.  The signer is replaced while
the submission waits for the lock, and again while it waits for its nonce. -/
def replacements : List Event :=
  let other : Signer := ⟨[], .ok⟩
  [.setSigner 0 other, .answer 0 (Submitters.obliging []), .answer 0 (Submitters.obliging [53]),
   .answer 1 (Submitters.obliging []), .setSigner 0 (.failing [1] "no card"),
   .answer 1 (Submitters.obliging [54])]

/-- The submission signs with the key all the same, and its address is found in what it sends. -/
theorem signer_read_once_replaced :
    let before : List Event := [.begin (plainErrand .prepare)]
    let e := plainErrand .submit
    let S := (start keyed).after (before ++ .begin e :: replacements)
    let t := Submitters.plainDraft.signedWith default 6 keyOfOnes
    (∀ c, (keyed.clients c).locks = {}) ∧
      (start keyed).AllowsAll (before ++ .begin e :: replacements) ∧
      (S.shared.clients 0).signer.publicKey = [1] ∧ S.Calls 1 Method.sendTransaction t ∧
      t.recoverSender = .ok keyOfOnes.address := by
  intro before e S t
  have hlocks : ∀ c, (keyed.clients c).locks = {} := fun _ => rfl
  have hallowed : (start keyed).AllowsAll (before ++ .begin e :: replacements) := by decide +kernel
  have hcalls : S.Calls 1 Method.sendTransaction t := by decide +kernel
  have hpoint : (Curve.Point.decode? keyOfOnes.publicKey).isSome = true := by decide +kernel
  have hverify : ∀ a, Curve.Point.decode? keyOfOnes.publicKey = some a →
      Curve.verifyWith a keyOfOnes.publicKey t.signingBytes
        (Curve.signWith keyOfOnes.seed keyOfOnes.publicKey t.signingBytes) = true := by
    rw [← Option.all_eq_true]
    decide +kernel
  have hkeeps : S.KeepsTo 1 e (.ofKey keyOfOnes) keyOfOnes.address 1 :=
    signer_read_once keyed hlocks before e replacements hallowed
  have hverifies := (hkeeps.signed t (.inl hcalls)).verifies hpoint hverify
  exact ⟨hlocks, hallowed, by decide +kernel, hcalls,
    (hkeeps.recovered rfl).2 t (.inl hcalls) hverifies⟩

end Callers
end LedgerClient
