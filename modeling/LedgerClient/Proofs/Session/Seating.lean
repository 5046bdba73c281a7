import LedgerClient.Proofs.Session.Submitters

/-!
# Where submissions stand

A submission with a turn is queued for it, holds the lock of its account, or is past.  `Sound` says
that every submission stands where its phase says, and that the docket of all of them, which is what
the lock tables and the nodes know, is in order.  The steps out of which every event is made are
here: a submission comes to rest, or is granted its turn, or gives it back, or begins.
-/

namespace LedgerClient

open Account Ledger Rpc Wire

namespace Submitters

/-! ## The invariant -/

/-- What the nodes and the lock tables know of the submissions. -/
def docket (S : Submitters) (phase : Nat → Turn.Phase) : Docket where
  locks c := (S.party.shared.clients c).locks
  turn? := S.turn?
  phase
  pending := S.pending
  served := S.served
  accepted := S.accepted
  granted := S.granted

/-- A submission stands where its phase says. -/
def Fits : Option Turn → Turn.Phase → Option (Program (Except ClientError String)) → Prop
  | none, _, m => ∀ t ∈ m, ∃ told s₀ s, t.Obeys freely (leaving fun _ => True) () told s₀ s
  | some p, .queued, m => ∃ t, m = some t ∧ AwaitsTurn p t
  | some p, .holding floor, m => ∃ t, m = some t ∧ HasTurn p floor t
  | some _, .past, m => ∀ t ∈ m, t.Ended

/-- The submissions are in order.  The place of a busy one is not looked at. -/
structure Sound (S : Submitters) (phase : Nat → Turn.Phase) (busy : Option Nat) : Prop where
  seated : (S.docket phase).Seated
  numbered : (S.docket phase).Numbered
  length_eq : S.turns.length = S.party.members.length
  unknown : ∀ i, S.turns.length ≤ i → S.served i = none ∧ ∀ v, (i, v) ∉ S.accepted
  fits : ∀ i m, some i ≠ busy → S.party.members[i]? = some m → Fits (S.turn? i) (phase i) m

variable {S : Submitters} {phase : Nat → Turn.Phase} {busy : Option Nat} {i : Nat} {p : Turn}
  {floor : Nat} {t u : Program (Except ClientError String)} {told : Option Network.Told}

theorem Sound.lt_of_turn (h : S.Sound phase busy) (hi : S.turn? i = some p) :
    i < S.party.members.length := by
  rw [← h.length_eq]
  by_contra hlt
  rw [turn?, List.getElem?_eq_none (Nat.le_of_not_lt hlt)] at hi
  cases hi

/-- The busy submission comes to rest, and may have changed the session. -/
theorem Sound.rest (h : S.Sound phase busy) (hbusy : busy = none ∨ busy = some i)
    {P : Party Network Session (Except ClientError String)}
    {m : Option (Program (Except ClientError String))} {phase' : Nat → Turn.Phase}
    (hmembers : P.members = S.party.members.set i m) (hothers : ∀ j ≠ i, phase' j = phase j)
    (hseated : ({ S with party := P }.docket phase').Seated)
    (hnumbered : ({ S with party := P }.docket phase').Numbered)
    (hfits : Fits (S.turn? i) (phase' i) m) : Sound { S with party := P } phase' none where
  seated := hseated
  numbered := hnumbered
  length_eq := by rw [hmembers, List.length_set, h.length_eq]
  unknown := h.unknown
  fits := by
    intro j n _ hj
    rw [show ({ S with party := P } : Submitters).party.members = _ from hmembers] at hj
    by_cases hji : j = i
    · subst hji
      obtain ⟨hlt, -⟩ := List.getElem?_eq_some_iff.1 hj
      rw [List.getElem?_set_self (by simpa using hlt)] at hj
      rw [← Option.some.inj hj]
      exact hfits
    · rw [List.getElem?_set_ne (Ne.symm hji)] at hj
      rw [hothers j hji]
      refine h.fits j n ?_ hj
      rcases hbusy with rfl | rfl
      · nofun
      · exact fun hsame => hji (Option.some.inj hsame)

/-- The busy submission is where its phase says. -/
theorem Sound.settle (h : S.Sound phase (some i))
    (hfits : ∀ m, S.party.members[i]? = some m → Fits (S.turn? i) (phase i) m) :
    S.Sound phase none where
  seated := h.seated
  numbered := h.numbered
  length_eq := h.length_eq
  unknown := h.unknown
  fits := by
    intro j m _ hm
    by_cases hji : j = i
    · subst hji
      exact hfits m hm
    · exact h.fits j m (fun hsame => hji (Option.some.inj hsame)) hm

/-- Nothing that a docket shows of a session is changed with the clients left as they are. -/
theorem docket_eq {P : Party Network Session (Except ClientError String)}
    (h : P.shared.clients = S.party.shared.clients) :
    { S with party := P }.docket phase = S.docket phase := by
  unfold docket
  rw [h]
  rfl

/-- A submission gives its ticket back and is gone, or has come to its end. -/
theorem Sound.finish (h : S.Sound phase busy) (hbusy : busy = none ∨ busy = some i)
    (hi : S.turn? i = some p) {P : Party Network Session (Except ClientError String)}
    {m : Option (Program (Except ClientError String))}
    (hmembers : P.members = S.party.members.set i m)
    (hshared : P.shared.clients = (S.party.shared.giveUp p).clients)
    (hm : ∀ t ∈ m, t.Ended) :
    Sound { S with party := P } (Function.update phase i .past) none := by
  refine h.rest hbusy hmembers (fun j hj => Function.update_of_ne hj ..) ?_ ?_ ?_
  · refine h.seated.giveUp hi ?_ ?_
    · show (P.shared.clients p.client).locks = _
      rw [hshared]
      exact Session.alterLocks_locks_self ..
    · intro b hb
      show (P.shared.clients b).locks = _
      rw [hshared]
      exact Session.alterLocks_locks_ne hb ..
  · exact h.numbered.giveUp _ i
  · rw [hi, Function.update_self]
    exact hm

/-- A submission that has the turn goes on, up to its next wait or to its end. -/
theorem Sound.proceed (h : S.Sound phase busy) (hbusy : busy = none ∨ busy = some i)
    (hi : S.turn? i = some p) (hphase : phase i = .holding floor)
    (hu : u.Obeys (havingTurn p floor) (returning p) () told S.party.shared S.party.shared) :
    ∃ phase', Sound { S with party := S.party.resume i u } phase' none := by
  rcases hu.advance_cases with ⟨a, ha, hgone⟩ | ⟨c, hc, s', hmoves, hdropped⟩ | ⟨hwaits, hclients⟩
  · refine ⟨_, h.finish hbusy hi rfl hgone ?_⟩
    rintro _ ⟨⟩
    rw [ha]
    trivial
  · refine ⟨_, h.finish hbusy hi rfl (hdropped.trans (Session.giveUp_clients p hmoves)) ?_⟩
    rintro _ ⟨⟩
    rw [hc]
    trivial
  · have hdocket : { S with party := S.party.resume i u }.docket phase = S.docket phase :=
      docket_eq hclients
    refine ⟨phase, h.rest hbusy rfl (fun _ _ => rfl) ?_ ?_ ?_⟩
    · rw [hdocket]
      exact h.seated
    · rw [hdocket]
      exact h.numbered
    · rw [hi, hphase]
      exact ⟨_, rfl, ⟨told, S.party.shared, _, hu.advance⟩, hwaits⟩

/-- A submission without a turn goes on. -/
theorem Sound.proceed_freely (h : S.Sound phase none) (hi : S.turn? i = none)
    (hu : u.Obeys freely (leaving fun _ => True) () told S.party.shared S.party.shared) :
    Sound { S with party := S.party.resume i u } phase none := by
  have hdocket : { S with party := S.party.resume i u }.docket phase = S.docket phase :=
    docket_eq hu.clients_advance
  refine h.rest (.inl rfl) rfl (fun _ _ => rfl) ?_ ?_ ?_
  · rw [hdocket]
    exact h.seated
  · rw [hdocket]
    exact h.numbered
  · rw [hi]
    rintro _ ⟨⟩
    exact ⟨told, S.party.shared, _, hu.advance⟩

/-- The busy submission is granted its turn. -/
theorem Sound.grant (h : S.Sound phase (some i)) (hi : S.turn? i = some p)
    (hphase : phase i = .queued) (howned : (S.docket phase).Owned p) :
    Sound { S with granted := S.granted ++ [i] }
      (Function.update phase i (.holding (S.pending p.account.text))) (some i) where
  seated := (h.seated.grant hi howned _).of_eq rfl rfl rfl
  numbered := h.numbered.grant hi hphase fun _ _ _ hj hrivals hholding =>
    h.seated.eq_of_owned hj hi hrivals (h.seated.owned hj hholding) howned
  length_eq := h.length_eq
  unknown := h.unknown
  fits := by
    intro j m hj hm
    have hji : j ≠ i := fun hji => hj (by rw [hji])
    rw [Function.update_of_ne hji]
    exact h.fits j m hj hm

/-! ## Beginning -/

/-- The places of the submissions that began before, when another one begins. -/
theorem Sound.fits_append (h : S.Sound phase none) {turn : Option Turn}
    {P : Party Network Session (Except ClientError String)} {m : Option (Program _)}
    (hmembers : P.members = S.party.members ++ [m]) {phase' : Nat → Turn.Phase}
    (hphase : ∀ j ≠ S.turns.length, phase' j = phase j) {j : Nat} (hj : j ≠ S.turns.length)
    {n : Option (Program (Except ClientError String))} (hn : P.members[j]? = some n) :
    Fits (({ S with party := P, turns := S.turns ++ [turn] } : Submitters).turn? j)
      (phase' j) n := by
  rw [turn?_append, Function.update_of_ne hj, hphase j hj]
  have hlt : j < S.party.members.length := by
    have := (List.getElem?_eq_some_iff.1 hn).1
    rw [hmembers, List.length_append, List.length_singleton, ← h.length_eq] at this
    rw [← h.length_eq]
    omega
  rw [hmembers, List.getElem?_append_left hlt] at hn
  exact h.fits j n nofun hn

/-- A submission has drawn its ticket, and is busy. -/
theorem Sound.draw (h : S.Sound phase none) {c : Nat} {a : Address}
    {m : Option (Program (Except ClientError String))} :
    Sound { S with
      party := { shared := (S.party.shared.drawTicket c a).2, members := S.party.members ++ [m] }
      turns := S.turns ++ [some ⟨c, a, (S.party.shared.clients c).locks.nextTicket⟩] }
      (Function.update phase S.turns.length .queued) (some S.turns.length) := by
  obtain ⟨hserved, haccepted⟩ := h.unknown S.turns.length (Nat.le_refl _)
  have hnone : (S.docket phase).turn? S.turns.length = none := S.turn?_length
  have hself : ((S.party.shared.drawTicket c a).2.clients c).locks =
      ((S.party.shared.clients c).locks.draw a).2 := by
    simp [Session.drawTicket, Session.alterClient]
  have hother : ∀ b ≠ c, ((S.party.shared.drawTicket c a).2.clients b).locks =
      (S.party.shared.clients b).locks := by
    intro b hb
    simp [Session.drawTicket, Session.alterClient, hb]
  refine ⟨?_, ?_, ?_, ?_, ?_⟩
  · exact (h.seated.draw hnone hself hother).of_eq rfl (turn?_append ..) rfl
  · have := h.numbered.draw hnone hserved haccepted
      (fun b => ((S.party.shared.drawTicket c a).2.clients b).locks)
      ⟨c, a, (S.party.shared.clients c).locks.nextTicket⟩
    unfold docket at this ⊢
    rw [turn?_append]
    exact this
  · simp [h.length_eq]
  · intro i hi
    refine h.unknown i ?_
    have : S.turns.length + 1 ≤ i := by simpa using hi
    omega
  · intro i n hi hn
    have hi : i ≠ S.turns.length := fun hlength => hi (by rw [hlength])
    exact h.fits_append rfl (fun j hj => Function.update_of_ne hj ..) hi hn

/-- The lock of an account that nobody has is held at once. -/
theorem owned_of_held {c : Nat} {a : Address}
    (h : (S.party.shared.drawTicket c a).1.standing = .held)
    {m : Option (Program (Except ClientError String))} {n : Nat → Turn.Phase} :
    (({ S with
        party := { shared := (S.party.shared.drawTicket c a).2, members := S.party.members ++ [m] }
        turns := S.turns ++ [some ⟨c, a, (S.party.shared.clients c).locks.nextTicket⟩] } :
        Submitters).docket n).Owned
      ⟨c, a, (S.party.shared.clients c).locks.nextTicket⟩ := by
  refine ⟨(S.party.shared.drawTicket c a).1, ?_, ?_, ?_, ?_⟩
  · show _ ∈ ((S.party.shared.drawTicket c a).2.clients c).locks.tickets
    simp [Session.drawTicket, Session.alterClient]
  · simp [Session.drawTicket, LockTable.draw_fst]
  · simp [Session.drawTicket, LockTable.draw_fst]
  · simp [Ticket.Owns, h]

theorem Sound.submit_of_none (h : S.Sound phase none) {c : Nat} {d : Draft} {o : SubmitOptions}
    (hturn : takenTurn? c d o S.party.shared = none) : (S.submit c d o).Sound phase none := by
  have hobeys := obeys_submit_of_none hturn
  have hclients : (S.party.step (.enter (LedgerClient.submit c d o))).shared.clients =
      S.party.shared.clients := hobeys.clients_advance
  have hnext : S.submit c d o = { S with
      party := S.party.step (.enter (LedgerClient.submit c d o))
      turns := S.turns ++ [none] } := by
    simp [Submitters.submit, hturn, grantedAtOnce]
  have hdocket : (S.submit c d o).docket phase = S.docket phase := by
    unfold docket
    rw [hnext, turn?_append, hclients, ← S.turn?_length, Function.update_eq_self]
  refine ⟨?_, ?_, ?_, ?_, ?_⟩
  · rw [hdocket]
    exact h.seated
  · rw [hdocket]
    exact h.numbered
  · simp [hnext, Party.step, h.length_eq]
  · intro i hi
    rw [hnext] at hi ⊢
    refine h.unknown i ?_
    have : S.turns.length + 1 ≤ i := by simpa using hi
    omega
  · intro i m _ hm
    rw [hnext] at hm ⊢
    by_cases hi : i = S.turns.length
    · subst hi
      rw [turn?_append, Function.update_self]
      have hm : some ((LedgerClient.submit c d o).advance S.party.shared).1 = m := by
        simpa [Party.step, h.length_eq] using hm
      rintro t rfl
      rw [← Option.some.inj hm]
      exact ⟨none, S.party.shared, _, hobeys.advance⟩
    · exact h.fits_append rfl (fun _ _ => rfl) hi hm

theorem Sound.submit_of_turn (h : S.Sound phase none) {c : Nat} {d : Draft} {o : SubmitOptions}
    (hturn : takenTurn? c d o S.party.shared = some p) :
    ∃ phase', (S.submit c d o).Sound phase' none := by
  have hp : p = ⟨p.client, p.account, (S.party.shared.clients p.client).locks.nextTicket⟩ := by
    rw [← ticket_of_takenTurn? hturn]
  obtain ⟨hheld, hwaiting⟩ := advance_submit_of_turn hturn
  have hself : ({ S with turns := S.turns ++ [some p] } : Submitters).turn? S.turns.length =
      some p := by
    rw [turn?_append, Function.update_self]
  by_cases hstanding : (S.party.shared.drawTicket p.client p.account).1.standing = .held
  · obtain ⟨u, hadvance, hobeys⟩ := hheld hstanding
    have hdrawn := h.draw (c := p.client) (a := p.account) (m := none)
    have howned := owned_of_held hstanding (m := none)
      (n := Function.update phase S.turns.length .queued)
    rw [← hp] at hdrawn howned
    obtain ⟨phase', hsound⟩ := (hdrawn.grant hself (Function.update_self ..) howned).proceed
      (.inr rfl) hself (Function.update_self ..) (hobeys _ _)
    refine ⟨phase', ?_⟩
    have hnext : S.submit c d o = { S with
        party := Party.resume
          { shared := (S.party.shared.drawTicket p.client p.account).2
            members := S.party.members ++ [none] } S.turns.length u
        turns := S.turns ++ [some p]
        granted := S.granted ++ [S.turns.length] } := by
      simp [Submitters.submit, hturn, grantedAtOnce, hstanding, Party.step, Party.resume, hadvance,
        h.length_eq]
    rw [hnext]
    exact hsound
  · obtain ⟨t, hadvance, hawaits⟩ := hwaiting hstanding
    have hdrawn := h.draw (c := p.client) (a := p.account) (m := some t)
    rw [← hp] at hdrawn
    refine ⟨Function.update phase S.turns.length .queued, ?_⟩
    have hnext : S.submit c d o = { S with
        party := { shared := (S.party.shared.drawTicket p.client p.account).2
                   members := S.party.members ++ [some t] }
        turns := S.turns ++ [some p] } := by
      simp [Submitters.submit, hturn, grantedAtOnce, hstanding, Party.step, hadvance]
    rw [hnext]
    refine hdrawn.settle fun m hm => ?_
    rw [Function.update_self]
    refine (congrArg (Fits · .queued m) hself).mpr ?_
    have hm : some t = m := by simpa [h.length_eq] using hm
    exact ⟨t, hm.symm, hawaits⟩

/-- A submission begins. -/
theorem Sound.submit (h : S.Sound phase none) (c : Nat) (d : Draft) (o : SubmitOptions) :
    ∃ phase', (S.submit c d o).Sound phase' none := by
  cases hturn : takenTurn? c d o S.party.shared with
  | none => exact ⟨phase, h.submit_of_none hturn⟩
  | some p => exact h.submit_of_turn hturn

end Submitters
end LedgerClient
