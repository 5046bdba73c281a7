import LedgerClient.Proofs.Session.Seating
import LedgerClient.Proofs.Wire.Injective

/-!
# What leaves submissions in order

Whatever may happen to submissions, to the nodes and to the session around them leaves the
submissions in order: one lemma for each event, and `Sound.after` for a run of them.
-/

namespace LedgerClient

open Account Ledger Rpc Wire

namespace Submitters

variable {S : Submitters} {phase : Nat → Turn.Phase} {i : Nat} {p : Turn}
  {t : Program (Except ClientError String)}

/-! ## Going on -/

/-- Where a submission that has not been dropped can stand. -/
theorem Sound.member_cases (h : S.Sound phase none) (hi : S.party.member? i = some t) :
    (S.turn? i = none ∧ ∃ told s₀ s, t.Obeys freely (leaving fun _ => True) () told s₀ s) ∨
      ∃ p, S.turn? i = some p ∧
        ((phase i = .queued ∧ AwaitsTurn p t) ∨
          (∃ floor, phase i = .holding floor ∧ HasTurn p floor t) ∨
          (phase i = .past ∧ t.Ended)) := by
  have hfits := h.fits i _ nofun (Party.member?_eq_some.1 hi)
  cases hturn : S.turn? i with
  | none =>
    rw [hturn] at hfits
    exact .inl ⟨rfl, hfits t rfl⟩
  | some p =>
    rw [hturn] at hfits
    refine .inr ⟨p, rfl, ?_⟩
    cases hphase : phase i with
    | queued =>
      rw [hphase] at hfits
      obtain ⟨_, ⟨⟩, hawaits⟩ := hfits
      exact .inl ⟨rfl, hawaits⟩
    | holding floor =>
      rw [hphase] at hfits
      obtain ⟨_, ⟨⟩, hhas⟩ := hfits
      exact .inr (.inl ⟨floor, rfl, hhas⟩)
    | past =>
      rw [hphase] at hfits
      exact .inr (.inr ⟨rfl, hfits t rfl⟩)

theorem Sound.lt_of_request (h : S.Sound phase none) {r : NetworkRequest}
    (hi : S.request? i = some r) : i < S.turns.length := by
  obtain ⟨_, _, hi⟩ := request?_eq_some hi
  rw [h.length_eq]
  exact (List.getElem?_eq_some_iff.1 (Party.member?_eq_some.1 hi)).1

/-- A submission with a turn that waits for a call has been granted the turn. -/
theorem Sound.turnAsks (h : S.Sound phase none) {k : Call} (hi : S.request? i = some (.call k))
    (hturn : S.turn? i = some p) :
    ∃ floor, phase i = .holding floor ∧ TurnAsks p floor (.call k) := by
  obtain ⟨dropped, next, hmember⟩ := request?_eq_some hi
  rcases h.member_cases hmember with ⟨hnone, -⟩ | ⟨q, hq, hcases⟩
  · rw [hnone] at hturn
    cases hturn
  · obtain rfl : q = p := Option.some.inj (hq.symm.trans hturn)
    rcases hcases with ⟨-, u, next', heq, -⟩ | ⟨floor, hphase, ⟨_, _, _, hobeys⟩, -⟩ | ⟨-, hended⟩
    · cases heq
    · obtain ⟨-, -, _, hasks, -⟩ := hobeys
      exact ⟨floor, hphase, hasks⟩
    · exact hended.elim

/-- The pause of a submission is over. -/
theorem Sound.wake (h : S.Sound phase none) (i : Nat) :
    ∃ phase', (S.next (.wake i)).Sound phase' none := by
  simp only [next, Party.step]
  split
  · rename_i span dropped next hi
    rcases h.member_cases hi with ⟨hturn, _, _, _, hobeys⟩ | ⟨p, hturn, hcases⟩
    · exact ⟨phase, h.proceed_freely hturn (hobeys.2.2 _ trivial)⟩
    · rcases hcases with ⟨-, u, next', heq, -⟩ | ⟨floor, hphase, ⟨_, _, _, hobeys⟩, -⟩ | ⟨-, hended⟩
      · cases heq
      · exact h.proceed (.inl rfl) hturn hphase (hobeys.2.2 _ trivial)
      · exact hended.elim
  · exact ⟨phase, h⟩

/-- A submission has been told something. -/
theorem Sound.unserve (h : S.Sound phase none) (i : Nat) :
    Sound { S with served := Function.update S.served i none } phase none where
  seated := h.seated.of_eq rfl rfl rfl
  numbered := h.numbered.unserve i
  length_eq := h.length_eq
  unknown := by
    intro j hj
    refine ⟨?_, (h.unknown j hj).2⟩
    by_cases hji : j = i
    · rw [hji]
      exact Function.update_self ..
    · exact (Function.update_of_ne hji ..).trans (h.unknown j hj).1
  fits := h.fits

/-- The lock is granted to a submission that the mutex has been handed to. -/
theorem Sound.grant_answered (h : S.Sound phase none) (hturn : S.turn? i = some p)
    (hphase : phase i = .queued)
    (hhanded : (S.party.shared.clients p.client).locks.isWaiting p.ticket = false)
    {dropped : Session → Session} {go : Unit → Program (Except ClientError String)}
    (hawaits : AwaitsTurn p (.ask (.turn p.client p.ticket) dropped go)) :
    ∃ phase', Sound { S with
      party := S.party.resume i (go ())
      granted := S.granted ++ [i] } phase' none := by
  obtain ⟨u, go', heq, hgo, hobeys⟩ := hawaits
  cases heq
  have hpolled : Sound { S with party := { S.party with shared := S.party.shared.poll p } }
      phase (some i) := by
    refine ⟨?_, h.numbered.relock _, h.length_eq, h.unknown, fun j m _ => h.fits j m nofun⟩
    have hself : ((S.party.shared.poll p).clients p.client).locks =
        (S.party.shared.clients p.client).locks.poll p.ticket := Session.alterLocks_locks_self ..
    have hother : ∀ b ≠ p.client, ((S.party.shared.poll p).clients b).locks =
        (S.party.shared.clients b).locks := fun b hb => Session.alterLocks_locks_ne hb ..
    exact h.seated.relock hself hother ((h.seated.wellFormed p.client).poll p.ticket)
      (LockTable.follows_poll _ _) fun _ _ _ => .inl ⟨rfl, fun _ => id⟩
  have howned : ({ S with party := { S.party with shared := S.party.shared.poll p } }.docket
      phase).Owned p := by
    have hpast : phase i ≠ .past := by
      rw [hphase]
      nofun
    obtain ⟨k, hk, hid, ha, -⟩ := h.seated.present hturn hpast
    rw [← hid] at hhanded
    have hstanding := (h.seated.wellFormed p.client).owns_of_isWaiting_eq_false hk hhanded
    obtain ⟨l, hl, hlid, hla, hlo⟩ := (LockTable.follows_poll _ p.ticket).kept k hk id
    refine ⟨l, ?_, hlid.trans hid, hla.trans ha, hlo hstanding⟩
    show l ∈ ((S.party.shared.poll p).clients p.client).locks.tickets
    rw [Session.poll, Session.alterLocks_locks_self]
    exact hl
  obtain ⟨phase', hsound⟩ := (hpolled.grant hturn hphase howned).proceed (.inr rfl) hturn
    (Function.update_self ..) (hobeys _ _)
  refine ⟨phase', ?_⟩
  have hparty : S.party.resume i (go ()) =
      Party.resume { S.party with shared := S.party.shared.poll p } i u := by
    simp [Party.resume, hgo]
  rw [hparty]
  exact hsound

/-- A submission is answered. -/
theorem Sound.answer (h : S.Sound phase none) (i : Nat)
    (reply : (r : NetworkRequest) → Network.Answer r) (hallows : S.Allows (.answer i reply)) :
    ∃ phase', (S.next (.answer i reply)).Sound phase' none := by
  have hunserved := h.unserve i
  cases hrequest : S.request? i with
  | none =>
    have hnext : S.next (.answer i reply) =
        { S with served := Function.update S.served i none } := by
      have hstep : S.party.step (.answer i reply) = S.party := by
        simp only [Party.step]
        split
        · rename_i hi
          rw [request?, hi] at hrequest
          cases hrequest
        · rfl
      simp [next, hstep, hrequest, grantedBy]
    rw [hnext]
    exact ⟨phase, hunserved⟩
  | some r =>
    obtain ⟨dropped, go, hi⟩ := request?_eq_some hrequest
    have hnext : S.next (.answer i reply) =
        { S with
          party := S.party.resume i (go (reply r))
          served := Function.update S.served i none
          granted := S.granted ++ grantedBy i (some r) } := by
      simp [next, Party.step, hi, hrequest]
    have hfitting := hallows r hrequest
    rw [hnext]
    rcases h.member_cases hi with ⟨hturn, _, _, _, hobeys⟩ | ⟨p, hturn, hcases⟩
    · obtain ⟨-, -, _, hasks, hgo⟩ := hobeys
      have hgranted : grantedBy i (some r) = [] := by
        cases r with
        | turn c ticket => exact absurd rfl (hasks c ticket)
        | dial | call | stream | item => rfl
      rw [hgranted, List.append_nil]
      exact ⟨phase, hunserved.proceed_freely hturn (hgo _ trivial _ trivial)⟩
    · rcases hcases with ⟨hphase, hawaits⟩ | ⟨floor, hphase, ⟨_, _, _, hobeys⟩, -⟩ | ⟨-, hended⟩
      · obtain ⟨u, go', heq, hrest⟩ := hawaits
        cases heq
        exact hunserved.grant_answered hturn hphase hfitting ⟨u, _, rfl, hrest⟩
      · obtain ⟨-, -, _, hasks, hgo⟩ := hobeys
        have hgranted : grantedBy i (some r) = [] := by
          cases r with
          | turn c ticket => exact hasks.elim
          | dial | call | stream | item => rfl
        rw [hgranted, List.append_nil]
        refine hunserved.proceed (.inl rfl) hturn hphase (hgo _ ?_ _ trivial)
        -- What a lookup is told has been read since the turn began.
        cases r with
        | call k =>
          exact fun hk v hv => h.numbered.floor_le_served hturn hphase (hfitting.1 hk v hv)
        | dial | turn | stream | item => trivial
      · exact hended.elim

/-- A submission is dropped. -/
theorem Sound.drop (h : S.Sound phase none) (i : Nat) :
    ∃ phase', (S.next (.drop i)).Sound phase' none := by
  simp only [next, Party.step]
  split
  · rename_i t hi
    rcases h.member_cases hi with ⟨hturn, _, _, _, hobeys⟩ | ⟨p, hturn, hcases⟩
    · have hclients : (t.drop S.party.shared).clients = S.party.shared.clients :=
        hobeys.drops_drop trivial rfl
      have hdocket : ({ S with party :=
          { shared := t.drop S.party.shared, members := S.party.members.set i none } } :
          Submitters).docket phase = S.docket phase := docket_eq hclients
      refine ⟨phase, h.rest (.inl rfl) rfl (fun _ _ => rfl) ?_ ?_ ?_⟩
      · rw [hdocket]
        exact h.seated
      · rw [hdocket]
        exact h.numbered
      · rw [hturn]
        exact fun _ ht => by cases ht
    · have hgone : (t.drop S.party.shared).clients = (S.party.shared.giveUp p).clients →
          ∃ phase', Sound { S with party :=
            { shared := t.drop S.party.shared, members := S.party.members.set i none } }
            phase' none := by
        intro hclients
        exact ⟨_, h.finish (.inl rfl) hturn rfl hclients fun _ ht => by cases ht⟩
      rcases hcases with ⟨-, u, next', rfl, -⟩ | ⟨floor, -, ⟨_, _, _, hobeys⟩, hwaits⟩ |
        ⟨hphase, hended⟩
      · exact hgone rfl
      · cases t with
        | pause span dropped next => exact hgone (hobeys.2.1 _ trivial)
        | ask r dropped next => exact hgone (hobeys.2.1 _ trivial)
        | done a | crash c | read next | write s next => exact hwaits.elim
      · -- What has come to its end has given its ticket back before.
        rw [hended.drop_eq]
        refine ⟨phase, h.rest (.inl rfl) rfl (fun _ _ => rfl) h.seated h.numbered ?_⟩
        rw [hturn, hphase]
        exact fun _ ht => by cases ht
  · exact ⟨phase, h⟩

/-! ## Nodes, and others -/

theorem transaction_inj {t u : Transaction} (h : Message.encode t = Message.encode u) : t = u :=
  Message.encode_inj (by decide) h

theorem accountQuery_inj {q r : AccountQuery} (h : Message.encode q = Message.encode r) : q = r :=
  Message.encode_inj (by decide) h

/-- A node reads a pending nonce. -/
theorem Sound.look (h : S.Sound phase none) {account : String}
    (hallows : S.Allows (.look i account)) : (S.next (.look i account)).Sound phase none := by
  obtain ⟨k, hk, hmethod, hpayload⟩ := calls_iff.1 hallows
  have hlt := h.lt_of_request hk
  refine ⟨h.seated.of_eq rfl rfl rfl, h.numbered.serve i fun p hturn => ?_, h.length_eq, ?_, h.fits⟩
  · obtain ⟨floor, hphase, ⟨-, hasked⟩ | ⟨hsend, -⟩⟩ := h.turnAsks hk hturn
    · rw [hpayload] at hasked
      have haccount := congrArg AccountQuery.address (accountQuery_inj hasked)
      refine ⟨?_, congrArg S.pending haccount⟩
      rw [show (S.docket phase).phase i = _ from hphase]
      nofun
    · rw [hmethod] at hsend
      exact absurd hsend (by decide)
  · intro j hj
    have hji : j ≠ i := fun hji => absurd hlt (by rw [← hji]; exact Nat.not_lt.2 hj)
    exact ⟨(Function.update_of_ne hji ..).trans (h.unknown j hj).1, (h.unknown j hj).2⟩

/-- A node accepts a transaction. -/
theorem Sound.accept (h : S.Sound phase none) {t : Transaction}
    (hallows : S.Allows (.accept i t)) : (S.next (.accept i t)).Sound phase none := by
  obtain ⟨hcalls, hraised⟩ := hallows
  obtain ⟨k, hk, hmethod, hpayload⟩ := calls_iff.1 hcalls
  have hlt := h.lt_of_request hk
  refine ⟨h.seated.of_eq rfl rfl rfl, h.numbered.accept i t.nonce fun p hturn => ?_, h.length_eq,
    ?_, h.fits⟩
  · refine ⟨hraised p hturn, ?_⟩
    obtain ⟨floor, hphase, ⟨hlookup, -⟩ | ⟨-, u, hsent, hfloor⟩⟩ := h.turnAsks hk hturn
    · rw [hmethod] at hlookup
      exact absurd hlookup (by decide)
    · rw [hpayload] at hsent
      rw [transaction_inj hsent]
      exact ⟨floor, hphase, hfloor⟩
  · intro j hj
    have hji : j ≠ i := fun hji => absurd hlt (by rw [← hji]; exact Nat.not_lt.2 hj)
    refine ⟨(h.unknown j hj).1, fun v hv => ?_⟩
    rcases List.mem_cons.1 hv with hv | hv
    · exact hji (congrArg Prod.fst hv)
    · exact (h.unknown j hj).2 v hv

/-- Others change the session, but no lock table. -/
theorem Sound.change (h : S.Sound phase none) {f : Session → Session}
    (hf : ∀ c, ((f S.party.shared).clients c).locks = (S.party.shared.clients c).locks) :
    Sound { S with party := S.party.step (.change f) } phase none where
  seated := h.seated.of_eq (funext hf) rfl rfl
  numbered := h.numbered.relock _
  length_eq := h.length_eq
  unknown := h.unknown
  fits := h.fits

/-- Whatever may happen leaves the submissions in order. -/
theorem Sound.next (h : S.Sound phase none) {e : Event} (he : S.Allows e) :
    ∃ phase', (S.next e).Sound phase' none := by
  cases e with
  | submit c d o => exact h.submit c d o
  | wake i => exact h.wake i
  | answer i reply => exact h.answer i reply he
  | look i account => exact ⟨phase, h.look he⟩
  | accept i t => exact ⟨phase, h.accept he⟩
  | raise account nonce =>
    refine ⟨phase, h.seated.of_eq rfl rfl rfl, h.numbered.raise fun a => ?_, h.length_eq, h.unknown,
      h.fits⟩
    show S.pending a ≤ if a = account then max (S.pending a) nonce else S.pending a
    split
    · exact Nat.le_max_left ..
    · exact Nat.le_refl _
  | drop i => exact h.drop i
  | alterPool f => exact ⟨phase, h.change fun _ => rfl⟩
  | setSigner c signer => exact ⟨phase, h.change (Session.setSigner_locks c signer _)⟩

theorem Sound.after (h : S.Sound phase none) {events : List Event} (hevents : S.AllowsAll events) :
    ∃ phase', (S.after events).Sound phase' none := by
  induction events generalizing S phase with
  | nil => exact ⟨phase, h⟩
  | cons e es ih =>
    obtain ⟨phase', hnext⟩ := h.next hevents.1
    exact ih hnext hevents.2

end Submitters
end LedgerClient
