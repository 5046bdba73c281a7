import LedgerClient.Proofs.Submission.Queues
import Mathlib.Logic.Function.Basic

/-!
# Turns at an account lock

A submission that looks its nonce up takes its *turn* at the lock of an account: it draws a
ticket, waits until the mutex is its own, is told the pending nonce of the account, has a
transaction accepted that carries this nonce, and gives the ticket back.  A `Docket` keeps what
matters of many such submissions, of any clients and accounts, and of what the nodes know.

Two things hold of a docket throughout.  `Docket.Seated` ties the submissions to the tickets in the
lock tables, and so excludes that two of one account have the turn at a time.  `Docket.Numbered`
ties them to the nonces.  Whoever has the turn has a *floor*, which is the pending nonce as it was
when the turn began: what others of the account had accepted is below the floor, and what the
submission is told is not.  That nonces increase from turn to turn follows.
-/

namespace LedgerClient

open Account

/-! ## What a move leaves of the other tickets -/

namespace LockTable

/-- `u` comes after `t`.  A ticket of `t` is still there, unless it is one of `gone`, and who owned
a mutex still does; a ticket that was gone in `t` has not come back. -/
structure Follows (gone : Nat → Prop) (t u : LockTable) : Prop where
  next_le : t.nextTicket ≤ u.nextTicket
  kept : ∀ k ∈ t.tickets, ¬ gone k.id →
    ∃ l ∈ u.tickets, l.id = k.id ∧ l.account = k.account ∧ (k.Owns → l.Owns)
  old : ∀ l ∈ u.tickets, l.id < t.nextTicket → ∃ k ∈ t.tickets, k.id = l.id

variable {t : LockTable}

@[simp] theorem draw_nextTicket (a : Address) : (t.draw a).2.nextTicket = t.nextTicket + 1 := by
  simp [draw]

theorem follows_draw (t : LockTable) (a : Address) :
    t.Follows (fun _ => False) (t.draw a).2 where
  next_le := by simp
  kept k hk _ := ⟨k, by simp [hk], rfl, rfl, id⟩
  old l hl hlt := by
    rw [draw_tickets, List.mem_append, List.mem_singleton] at hl
    rcases hl with hl | rfl
    · exact ⟨l, hl, rfl⟩
    · rw [draw_fst] at hlt
      exact absurd hlt (Nat.lt_irrefl _)

theorem follows_poll (t : LockTable) (id : Nat) : t.Follows (fun _ => False) (t.poll id) where
  next_le := Nat.le_refl _
  kept k hk _ := by
    refine ⟨notice id k, ?_, notice_id id k, notice_account id k, fun ho hw => ?_⟩
    · rw [poll_tickets]
      exact List.mem_map_of_mem hk
    · exact ho ((notice_waiting id k).1 hw)
  old l hl _ := by
    rw [poll_tickets] at hl
    obtain ⟨k, hk, rfl⟩ := List.mem_map.1 hl
    exact ⟨k, hk, (notice_id id k).symm⟩

theorem giveUp_tickets (id : Nat) :
    (t.giveUp id).tickets =
      match t.ticket? id with
      | none => t.tickets
      | some k => (t.remove k).tickets := by
  unfold giveUp
  cases t.ticket? id with
  | none => rfl
  | some k =>
    dsimp only
    split <;> rfl

theorem giveUp_nextTicket (id : Nat) : (t.giveUp id).nextTicket = t.nextTicket := by
  unfold giveUp
  cases t.ticket? id with
  | none => rfl
  | some k =>
    dsimp only
    split <;> rfl

/-- The numbers of the tickets that are left when one is given up. -/
theorem map_id_giveUp (id : Nat) :
    (t.giveUp id).tickets.map (·.id) = (t.tickets.map (·.id)).filter (· != id) := by
  rw [giveUp_tickets, List.filter_map]
  cases hk : t.ticket? id with
  | none =>
    have hne : ∀ k ∈ t.tickets, k.id ≠ id := by
      simpa [ticket?, List.find?_eq_none] using hk
    rw [List.filter_eq_self.2 (by simpa using hne)]
  | some k =>
    rw [map_remove (by simp), others, (mem_of_ticket? hk).2]
    rfl

theorem ne_of_mem_giveUp {id : Nat} {l : Ticket} (hl : l ∈ (t.giveUp id).tickets) : l.id ≠ id := by
  have := List.mem_map_of_mem (f := fun k : Ticket => k.id) hl
  rw [map_id_giveUp, List.mem_filter] at this
  simpa using this.2

/-- Handing a mutex on takes it from nobody. -/
theorem exists_mem_grantFirst (m : Nat) {ks : List Ticket} {k : Ticket} (hk : k ∈ ks) :
    ∃ l ∈ grantFirst m ks, l.id = k.id ∧ l.account = k.account ∧ (k.Owns → l.Owns) := by
  induction ks with
  | nil => simp at hk
  | cons f ks ih =>
    rw [grantFirst]
    split
    · rcases List.mem_cons.1 hk with rfl | hk
      · exact ⟨_, List.mem_cons_self, rfl, rfl, fun _ => by simp [Ticket.Owns]⟩
      · exact ⟨k, List.mem_cons_of_mem _ hk, rfl, rfl, id⟩
    · rcases List.mem_cons.1 hk with rfl | hk
      · exact ⟨k, List.mem_cons_self, rfl, rfl, id⟩
      · obtain ⟨l, hl, hlk⟩ := ih hk
        exact ⟨l, List.mem_cons_of_mem _ hl, hlk⟩

theorem follows_giveUp (t : LockTable) (id : Nat) : t.Follows (· = id) (t.giveUp id) where
  next_le := Nat.le_of_eq (giveUp_nextTicket id).symm
  kept k hk hne := by
    rw [giveUp_tickets]
    cases hf : t.ticket? id with
    | none => exact ⟨k, hk, rfl, rfl, fun ho => ho⟩
    | some f =>
      have hk' : k ∈ t.others f := mem_others.2 ⟨hk, by rwa [(mem_of_ticket? hf).2]⟩
      dsimp only
      rw [remove_tickets]
      split
      · exact ⟨k, hk', rfl, rfl, fun ho => ho⟩
      · exact exists_mem_grantFirst _ hk'
  old l hl _ := by
    have := List.mem_map_of_mem (f := fun k : Ticket => k.id) hl
    rw [map_id_giveUp, List.mem_filter] at this
    exact List.mem_map.1 this.1

end LockTable

/-! ## Dockets -/

/-- A submission's turn at the lock of an account. -/
structure Turn where
  client : Nat
  account : Address
  ticket : Nat

/-- Two turns exclude each other. -/
def Turn.Rivals (p q : Turn) : Prop := p.client = q.client ∧ p.account = q.account

theorem Turn.Rivals.symm {p q : Turn} (h : p.Rivals q) : q.Rivals p := ⟨h.1.symm, h.2.symm⟩

/-- How far a submission has come with its turn. -/
inductive Turn.Phase where
  | queued
  /-- The turn is its own, and began with the given pending nonce. -/
  | holding (floor : Nat)
  | past

/-- Submissions and what nodes know of them. -/
structure Docket where
  /-- The account locks of each client. -/
  locks : Nat → LockTable
  /-- The turn of each submission that takes one. -/
  turn? : Nat → Option Turn
  phase : Nat → Turn.Phase
  /-- The pending nonce of each account, by the text of the account. -/
  pending : String → Nat
  /-- The nonce that a submission is about to be told. -/
  served : Nat → Option Nat
  /-- The accepted transactions by submission and nonce. -/
  accepted : List (Nat × UInt64)
  /-- The submissions that have been granted their turn, in this order. -/
  granted : List Nat

namespace Docket

variable {D : Docket} {i j n : Nat} {p q : Turn}

/-- What stands at a place after a change is what was put there, or what stood there before. -/
theorem update_eq_cases {α : Type} {f : Nat → α} {x y : α} (h : Function.update f i x j = y) :
    (j = i ∧ y = x) ∨ (j ≠ i ∧ f j = y) := by
  by_cases hji : j = i
  · subst hji
    rw [Function.update_self] at h
    exact .inl ⟨rfl, h.symm⟩
  · rw [Function.update_of_ne hji] at h
    exact .inr ⟨hji, h⟩

theorem of_update {α : Type} {f : Nat → α} {x y : α} (hxy : y ≠ x)
    (h : Function.update f i x j = y) : j ≠ i ∧ f j = y := by
  rcases update_eq_cases h with ⟨-, hy⟩ | h
  · exact absurd hy hxy
  · exact h

/-! ### Submissions and tickets -/

/-- Every submission stands where its phase says. -/
structure Seated (D : Docket) : Prop where
  wellFormed : ∀ c, (D.locks c).WellFormed
  ticket_lt : ∀ {i p}, D.turn? i = some p → p.ticket < (D.locks p.client).nextTicket
  ticket_inj : ∀ {i j p q}, D.turn? i = some p → D.turn? j = some q → p.client = q.client →
    p.ticket = q.ticket → i = j
  present : ∀ {i p}, D.turn? i = some p → D.phase i ≠ .past →
    ∃ k ∈ (D.locks p.client).tickets, k.id = p.ticket ∧ k.account = p.account ∧
      ∀ f, D.phase i = .holding f → k.Owns
  absent : ∀ {i p}, D.turn? i = some p → D.phase i = .past →
    ∀ k ∈ (D.locks p.client).tickets, k.id ≠ p.ticket

theorem Seated.of_eq (h : D.Seated) {E : Docket} (hlocks : E.locks = D.locks)
    (hturn : E.turn? = D.turn?) (hphase : E.phase = D.phase) : E.Seated := by
  obtain ⟨locks, turn, phase, pending, served, accepted, granted⟩ := E
  subst hlocks hturn hphase
  exact { h with }

/-- The ticket of the turn owns its mutex. -/
def Owned (D : Docket) (p : Turn) : Prop :=
  ∃ k ∈ (D.locks p.client).tickets, k.id = p.ticket ∧ k.account = p.account ∧ k.Owns

theorem Seated.owned (h : D.Seated) (hi : D.turn? i = some p) {f : Nat}
    (hf : D.phase i = .holding f) : D.Owned p := by
  obtain ⟨k, hk, hid, ha, ho⟩ := h.present hi (by rw [hf]; nofun)
  exact ⟨k, hk, hid, ha, ho f hf⟩

/-- Of rivals one has the turn at most. -/
theorem Seated.eq_of_owned (h : D.Seated) (hi : D.turn? i = some p) (hj : D.turn? j = some q)
    (hpq : p.Rivals q) (hp : D.Owned p) (hq : D.Owned q) : i = j := by
  obtain ⟨hclient, haccount⟩ := hpq
  obtain ⟨k, hk, hkid, hka, hko⟩ := hp
  obtain ⟨l, hl, hlid, hla, hlo⟩ := hq
  rw [← hclient] at hl
  have hkl := (h.wellFormed p.client).eq_of_owns hk hl (by rw [hka, hla, haccount]) hko hlo
  exact h.ticket_inj hi hj hclient (by rw [← hkid, ← hlid, hkl])

/-- The lock table of client `c` becomes `u`.  Each submission stays in its phase with its ticket,
or is past and has lost it. -/
theorem Seated.relock (h : D.Seated) {c : Nat} {u : LockTable} {gone : Nat → Prop}
    {L : Nat → LockTable} {phase : Nat → Turn.Phase} (hc : L c = u) (hne : ∀ b ≠ c, L b = D.locks b)
    (hu : u.WellFormed) (hfollows : (D.locks c).Follows gone u)
    (hphase : ∀ i p, D.turn? i = some p →
      (phase i = D.phase i ∧ (p.client = c → ¬ gone p.ticket)) ∨
        (phase i = .past ∧ p.client = c ∧ ∀ l ∈ u.tickets, l.id ≠ p.ticket)) :
    Seated { D with locks := L, phase } where
  wellFormed b := by
    by_cases hb : b = c
    · show (L b).WellFormed
      rwa [hb, hc]
    · show (L b).WellFormed
      rw [hne b hb]
      exact h.wellFormed b
  ticket_lt {i p} hi := by
    show p.ticket < (L p.client).nextTicket
    by_cases hb : p.client = c
    · rw [hb, hc]
      exact Nat.lt_of_lt_of_le (hb ▸ h.ticket_lt hi) hfollows.next_le
    · rw [hne _ hb]
      exact h.ticket_lt hi
  ticket_inj := h.ticket_inj
  present {i p} hi hpast := by
    show ∃ k ∈ (L p.client).tickets, k.id = p.ticket ∧ k.account = p.account ∧
      ∀ f, phase i = .holding f → k.Owns
    rcases hphase i p hi with ⟨heq, hgone⟩ | ⟨heq, -⟩
    · have hpast' : D.phase i ≠ .past := heq ▸ hpast
      obtain ⟨k, hk, hid, ha, ho⟩ := h.present hi hpast'
      rw [heq]
      by_cases hb : p.client = c
      · obtain ⟨l, hl, hlid, hla, hlo⟩ :=
          hfollows.kept k (hb ▸ hk) (by rw [hid]; exact hgone hb)
        rw [hb, hc]
        exact ⟨l, hl, hlid.trans hid, hla.trans ha, fun f hf => hlo (ho f hf)⟩
      · rw [hne _ hb]
        exact ⟨k, hk, hid, ha, ho⟩
    · exact absurd heq hpast
  absent {i p} hi hpast := by
    show ∀ k ∈ (L p.client).tickets, k.id ≠ p.ticket
    rcases hphase i p hi with ⟨heq, -⟩ | ⟨-, hb, hlost⟩
    · have habsent := h.absent hi (heq ▸ hpast)
      by_cases hb : p.client = c
      · rw [hb, hc]
        intro l hl hlid
        have hlt : l.id < (D.locks c).nextTicket := by
          rw [hlid, ← hb]
          exact h.ticket_lt hi
        obtain ⟨k, hk, hkl⟩ := hfollows.old l hl hlt
        exact habsent k (hb ▸ hk) (hkl.trans hlid)
      · rw [hne _ hb]
        exact habsent
    · rw [hb, hc]
      exact hlost

/-- A submission draws a ticket. -/
theorem Seated.draw (h : D.Seated) (hn : D.turn? n = none) {c : Nat} {a : Address}
    {L : Nat → LockTable} (hc : L c = ((D.locks c).draw a).2)
    (hne : ∀ b ≠ c, L b = D.locks b) :
    Seated { D with
      locks := L
      turn? := Function.update D.turn? n (some ⟨c, a, (D.locks c).nextTicket⟩)
      phase := Function.update D.phase n .queued } := by
  have hold : Seated { D with locks := L, phase := D.phase } :=
    h.relock hc hne ((h.wellFormed c).draw a) ((D.locks c).follows_draw a)
      fun i p _ => .inl ⟨rfl, fun _ => id⟩
  have hlt : ∀ {i p}, D.turn? i = some p → p.client = c → p.ticket < (D.locks c).nextTicket :=
    fun hi hb => hb ▸ h.ticket_lt hi
  have hcases : ∀ {i p},
      Function.update D.turn? n (some ⟨c, a, (D.locks c).nextTicket⟩) i = some p →
        (i = n ∧ p = ⟨c, a, (D.locks c).nextTicket⟩) ∨ (i ≠ n ∧ D.turn? i = some p) := by
    intro i p hi
    simpa using update_eq_cases hi
  exact {
    wellFormed := hold.wellFormed
    ticket_lt := by
      intro i p hi
      rcases hcases hi with ⟨-, rfl⟩ | ⟨-, hi⟩
      · show (D.locks c).nextTicket < (L c).nextTicket
        rw [hc, LockTable.draw_nextTicket]
        exact Nat.lt_succ_self _
      · exact hold.ticket_lt hi
    ticket_inj := by
      intro i j p q hi hj hclient hticket
      rcases hcases hi with ⟨rfl, rfl⟩ | ⟨-, hi'⟩ <;> rcases hcases hj with ⟨rfl, rfl⟩ | ⟨-, hj'⟩
      · rfl
      · exact absurd hticket.symm (Nat.ne_of_lt (hlt hj' hclient.symm))
      · exact absurd hticket (Nat.ne_of_lt (hlt hi' hclient))
      · exact h.ticket_inj hi' hj' hclient hticket
    present := by
      intro i p hi hpast
      rcases hcases hi with ⟨rfl, rfl⟩ | ⟨hin, hi⟩
      · refine ⟨((D.locks c).draw a).1, ?_, ?_, ?_, ?_⟩
        · show _ ∈ (L c).tickets
          rw [hc, LockTable.draw_tickets]
          exact List.mem_append_right _ (List.mem_singleton.2 rfl)
        · rw [LockTable.draw_fst]
        · rw [LockTable.draw_fst]
        · intro f hf
          simp only [Function.update_self] at hf
          cases hf
      · simp only [Function.update_of_ne hin] at hpast ⊢
        exact hold.present hi hpast
    absent := by
      intro i p hi hpast
      rcases hcases hi with ⟨rfl, -⟩ | ⟨hin, hi⟩
      · simp only [Function.update_self] at hpast
        cases hpast
      · simp only [Function.update_of_ne hin] at hpast
        exact hold.absent hi hpast }

/-- A submission whose ticket owns the mutex has its turn. -/
theorem Seated.grant (h : D.Seated) (hi : D.turn? i = some p) (hp : D.Owned p) (f : Nat) :
    Seated { D with phase := Function.update D.phase i (.holding f) } := by
  refine ⟨h.wellFormed, h.ticket_lt, h.ticket_inj, ?_, ?_⟩
  · intro j q hj hpast
    by_cases hij : j = i
    · subst hij
      obtain rfl : p = q := Option.some.inj (hi.symm.trans hj)
      obtain ⟨k, hk, hid, ha, ho⟩ := hp
      exact ⟨k, hk, hid, ha, fun _ _ => ho⟩
    · simp only [Function.update_of_ne hij] at hpast ⊢
      exact h.present hj hpast
  · intro j q hj hpast
    by_cases hij : j = i
    · subst hij
      simp at hpast
    · simp only [Function.update_of_ne hij] at hpast
      exact h.absent hj hpast

/-- A submission gives its ticket back. -/
theorem Seated.giveUp (h : D.Seated) (hi : D.turn? i = some p) {L : Nat → LockTable}
    (hc : L p.client = (D.locks p.client).giveUp p.ticket)
    (hne : ∀ b ≠ p.client, L b = D.locks b) :
    Seated { D with locks := L, phase := Function.update D.phase i .past } := by
  refine h.relock hc hne ((h.wellFormed _).giveUp _) (LockTable.follows_giveUp _ _) ?_
  intro j q hj
  by_cases hij : j = i
  · subst hij
    obtain rfl : p = q := Option.some.inj (hi.symm.trans hj)
    exact .inr ⟨Function.update_self .., rfl, fun l hl => LockTable.ne_of_mem_giveUp hl⟩
  · refine .inl ⟨Function.update_of_ne hij .., fun hclient hticket => hij ?_⟩
    exact h.ticket_inj hj hi hclient hticket

/-! ### Submissions and nonces -/

/-- The nonces of a docket are in order. -/
structure Numbered (D : Docket) : Prop where
  alone : ∀ {i j p q f g}, D.turn? i = some p → D.turn? j = some q → p.Rivals q →
    D.phase i = .holding f → D.phase j = .holding g → i = j
  floor_le : ∀ {i p f}, D.turn? i = some p → D.phase i = .holding f → f ≤ D.pending p.account.text
  floor_le_served : ∀ {i p f v}, D.turn? i = some p → D.phase i = .holding f →
    D.served i = some v → f ≤ v
  not_served : ∀ {i p}, D.turn? i = some p → D.phase i = .queued → D.served i = none
  /-- What rivals had accepted is below the floor. -/
  lt_floor : ∀ {i j p q f v}, D.turn? i = some p → D.turn? j = some q → p.Rivals q → j ≠ i →
    D.phase i = .holding f → (j, v) ∈ D.accepted → v.toNat < f
  lt_pending : ∀ {i p v}, D.turn? i = some p → (i, v) ∈ D.accepted →
    v.toNat < D.pending p.account.text
  granted_of_accepted : ∀ {i p v}, D.turn? i = some p → (i, v) ∈ D.accepted → i ∈ D.granted
  granted_of_holding : ∀ {i p f}, D.turn? i = some p → D.phase i = .holding f → i ∈ D.granted
  granted_nodup : D.granted.Nodup
  begun : ∀ {i}, i ∈ D.granted → (∃ p, D.turn? i = some p) ∧ D.phase i ≠ .queued
  /-- A turn begins when those of all rivals granted before are over, and the nonces increase. -/
  increase : D.granted.Pairwise fun i j => ∀ p q, D.turn? i = some p → D.turn? j = some q →
    p.Rivals q → D.phase i = .past ∧
      ∀ v w, (i, v) ∈ D.accepted → (j, w) ∈ D.accepted → v.toNat < w.toNat

theorem Numbered.relock (h : D.Numbered) (L : Nat → LockTable) :
    Numbered { D with locks := L } := { h with }

/-- A submission queues up that nothing is known of yet. -/
theorem Numbered.draw (h : D.Numbered) (hn : D.turn? n = none) (hserved : D.served n = none)
    (haccepted : ∀ v, (n, v) ∉ D.accepted) (L : Nat → LockTable) (p : Turn) :
    Numbered { D with
      locks := L
      turn? := Function.update D.turn? n (some p)
      phase := Function.update D.phase n .queued } := by
  have hgranted : ∀ {i}, i ∈ D.granted → i ≠ n := by
    rintro i hi rfl
    obtain ⟨q, hq⟩ := (h.begun hi).1
    rw [hn] at hq
    cases hq
  have hknown : ∀ {i v}, (i, v) ∈ D.accepted → i ≠ n := by
    rintro i v hv rfl
    exact haccepted v hv
  have hother : ∀ {i q}, i ≠ n → Function.update D.turn? n (some p) i = some q →
      D.turn? i = some q := by
    intro i q hin hi
    rwa [Function.update_of_ne hin] at hi
  have hholding : ∀ {i f}, Function.update D.phase n .queued i = .holding f →
      i ≠ n ∧ D.phase i = .holding f := fun hi => of_update (by simp) hi
  exact {
    alone := by
      intro i j q r f g hi hj hqr hf hg
      obtain ⟨hin, hf⟩ := hholding hf
      obtain ⟨hjn, hg⟩ := hholding hg
      exact h.alone (hother hin hi) (hother hjn hj) hqr hf hg
    floor_le := by
      intro i q f hi hf
      obtain ⟨hin, hf⟩ := hholding hf
      exact h.floor_le (hother hin hi) hf
    floor_le_served := by
      intro i q f v hi hf hv
      obtain ⟨hin, hf⟩ := hholding hf
      exact h.floor_le_served (hother hin hi) hf hv
    not_served := by
      intro i q hi hqueued
      rcases update_eq_cases hqueued with ⟨rfl, -⟩ | ⟨hin, hqueued⟩
      · exact hserved
      · exact h.not_served (hother hin hi) hqueued
    lt_floor := by
      intro i j q r f v hi hj hqr hji hf hv
      obtain ⟨hin, hf⟩ := hholding hf
      exact h.lt_floor (hother hin hi) (hother (hknown hv) hj) hqr hji hf hv
    lt_pending := fun hi hv => h.lt_pending (hother (hknown hv) hi) hv
    granted_of_accepted := fun hi hv => h.granted_of_accepted (hother (hknown hv) hi) hv
    granted_of_holding := by
      intro i q f hi hf
      obtain ⟨hin, hf⟩ := hholding hf
      exact h.granted_of_holding (hother hin hi) hf
    granted_nodup := h.granted_nodup
    begun := by
      intro i hi
      simp only [Function.update_of_ne (hgranted hi)]
      exact h.begun hi
    increase := by
      refine h.increase.imp_of_mem fun {i j} hi hj hij => ?_
      simp only [Function.update_of_ne (hgranted hi), Function.update_of_ne (hgranted hj)]
      exact hij }

/-- A turn begins while no rival has its own. -/
theorem Numbered.grant (h : D.Numbered) (hi : D.turn? i = some p) (hqueued : D.phase i = .queued)
    (hfree : ∀ j q f, D.turn? j = some q → q.Rivals p → D.phase j = .holding f → j = i) :
    Numbered { D with
      phase := Function.update D.phase i (.holding (D.pending p.account.text))
      granted := D.granted ++ [i] } := by
  have hgranted : ∀ {j}, j ∈ D.granted → j ≠ i := by
    rintro j hj rfl
    exact (h.begun hj).2 hqueued
  have hsame : ∀ {q}, D.turn? i = some q → q = p := fun hq => Option.some.inj (hq.symm.trans hi)
  have hcases : ∀ {j f}, Function.update D.phase i (.holding (D.pending p.account.text)) j =
      .holding f → (j = i ∧ f = D.pending p.account.text) ∨ (j ≠ i ∧ D.phase j = .holding f) := by
    intro j f hf
    simpa using update_eq_cases hf
  exact {
    alone := by
      intro j k q r f g hj hk hqr hf hg
      rcases hcases hf with ⟨rfl, -⟩ | ⟨-, hf'⟩ <;>
        rcases hcases hg with ⟨rfl, -⟩ | ⟨-, hg'⟩
      · rfl
      · exact (hfree k r g hk (hsame hj ▸ hqr.symm) hg').symm
      · exact hfree j q f hj (hsame hk ▸ hqr) hf'
      · exact h.alone hj hk hqr hf' hg'
    floor_le := by
      intro j q f hj hf
      rcases hcases hf with ⟨rfl, rfl⟩ | ⟨-, hf⟩
      · exact Nat.le_of_eq (hsame hj ▸ rfl)
      · exact h.floor_le hj hf
    floor_le_served := by
      intro j q f v hj hf hv
      rcases hcases hf with ⟨rfl, -⟩ | ⟨-, hf⟩
      · exact absurd ((h.not_served hi hqueued).symm.trans hv) nofun
      · exact h.floor_le_served hj hf hv
    not_served := by
      intro j q hj hq
      have hq : D.phase j = .queued := (of_update (by simp) hq).2
      exact h.not_served hj hq
    lt_floor := by
      intro j k q r f v hj hk hqr hkj hf hv
      rcases hcases hf with ⟨rfl, rfl⟩ | ⟨-, hf⟩
      · -- Whatever was accepted for the account has raised the pending nonce.
        rw [← hsame hj, hqr.2]
        exact h.lt_pending hk hv
      · exact h.lt_floor hj hk hqr hkj hf hv
    lt_pending := h.lt_pending
    granted_of_accepted := fun hj hv => List.mem_append_left _ (h.granted_of_accepted hj hv)
    granted_of_holding := by
      intro j q f hj hf
      rcases hcases hf with ⟨rfl, -⟩ | ⟨-, hf⟩
      · exact List.mem_append_right _ List.mem_cons_self
      · exact List.mem_append_left _ (h.granted_of_holding hj hf)
    granted_nodup := by
      refine List.nodup_append.2 ⟨h.granted_nodup, by simp, fun j hj k hk => ?_⟩
      rw [List.mem_singleton.1 hk]
      exact hgranted hj
    begun := by
      intro j hj
      rcases List.mem_append.1 hj with hj | hj
      · simp only [Function.update_of_ne (hgranted hj)]
        exact h.begun hj
      · obtain rfl := List.mem_singleton.1 hj
        simp only [Function.update_self]
        exact ⟨⟨p, hi⟩, nofun⟩
    increase := by
      refine List.pairwise_append.2 ⟨?_, by simp, ?_⟩
      · refine h.increase.imp_of_mem fun {j k} hj _ hjk => ?_
        simp only [Function.update_of_ne (hgranted hj)]
        exact hjk
      · intro j hj k hk q r hq hr hqr
        obtain rfl := List.mem_singleton.1 hk
        obtain rfl := hsame hr
        simp only [Function.update_of_ne (hgranted hj)]
        refine ⟨?_, fun v w _ hw => absurd rfl (hgranted (h.granted_of_accepted hi hw))⟩
        cases hphase : D.phase j with
        | queued => exact absurd hphase (h.begun hj).2
        | holding f => exact absurd (hfree j q f hq hqr hphase) (hgranted hj)
        | past => rfl }

/-- A turn ends, or the submission leaves before it began. -/
theorem Numbered.giveUp (h : D.Numbered) (L : Nat → LockTable) (i : Nat) :
    Numbered { D with locks := L, phase := Function.update D.phase i .past } := by
  have hholding : ∀ {j f}, Function.update D.phase i .past j = .holding f →
      D.phase j = .holding f := fun hj => (of_update (by simp) hj).2
  have hqueued : ∀ {j}, Function.update D.phase i .past j = .queued → D.phase j = .queued :=
    fun hj => (of_update (by simp) hj).2
  exact {
    alone := fun hj hk hqr hf hg => h.alone hj hk hqr (hholding hf) (hholding hg)
    floor_le := fun hj hf => h.floor_le hj (hholding hf)
    floor_le_served := fun hj hf => h.floor_le_served hj (hholding hf)
    not_served := fun hj hq => h.not_served hj (hqueued hq)
    lt_floor := fun hj hk hqr hkj hf => h.lt_floor hj hk hqr hkj (hholding hf)
    lt_pending := h.lt_pending
    granted_of_accepted := h.granted_of_accepted
    granted_of_holding := fun hj hf => h.granted_of_holding hj (hholding hf)
    granted_nodup := h.granted_nodup
    begun := fun hj => ⟨(h.begun hj).1, fun hq => (h.begun hj).2 (hqueued hq)⟩
    increase := by
      refine h.increase.imp fun {j k} hjk q r hq hr hqr => ?_
      obtain ⟨hj, hlt⟩ := hjk q r hq hr hqr
      refine ⟨?_, hlt⟩
      by_cases hji : j = i
      · rw [hji]
        exact Function.update_self ..
      · simp only [Function.update_of_ne hji]
        exact hj }

/-- A node is about to tell a submission the pending nonce of its account. -/
theorem Numbered.serve (h : D.Numbered) (i : Nat) {v : Nat}
    (hi : ∀ p, D.turn? i = some p → D.phase i ≠ .queued ∧ v = D.pending p.account.text) :
    Numbered { D with served := Function.update D.served i (some v) } := by
  refine { h with floor_le_served := ?_, not_served := ?_ }
  · intro j q f w hj hf hw
    have hw : Function.update D.served i (some v) j = some w := hw
    rcases update_eq_cases hw with ⟨rfl, hwv⟩ | ⟨-, hw⟩
    · rw [Option.some.inj hwv, (hi q hj).2]
      exact h.floor_le hj hf
    · exact h.floor_le_served hj hf hw
  · intro j q hj hqueued
    have hji : j ≠ i := by
      rintro rfl
      exact (hi q hj).1 hqueued
    simp only [Function.update_of_ne hji]
    exact h.not_served hj hqueued

/-- A submission has been told something. -/
theorem Numbered.unserve (h : D.Numbered) (i : Nat) :
    Numbered { D with served := Function.update D.served i none } := by
  have hof : ∀ {j w}, Function.update D.served i none j = some w → D.served j = some w :=
    fun hw => (of_update (by simp) hw).2
  refine { h with
    floor_le_served := fun hj hf hw => h.floor_le_served hj hf (hof hw)
    not_served := ?_ }
  intro j q hj hqueued
  by_cases hji : j = i
  · rw [hji]
    exact Function.update_self ..
  · simp only [Function.update_of_ne hji]
    exact h.not_served hj hqueued

/-- Pending nonces rise. -/
theorem Numbered.raise (h : D.Numbered) {pending : String → Nat}
    (hrise : ∀ a, D.pending a ≤ pending a) : Numbered { D with pending } := by
  refine { h with floor_le := ?_, lt_pending := ?_ }
  · intro i p f hi hf
    exact Nat.le_trans (h.floor_le hi hf) (hrise _)
  · intro i p v hi hv
    exact Nat.lt_of_lt_of_le (h.lt_pending hi hv) (hrise _)

/-- A transaction is accepted.  If its submission has a turn, its nonce is at or above the floor,
and the pending nonce of the account has risen above it. -/
theorem Numbered.accept (h : D.Numbered) (i : Nat) (v : UInt64)
    (hi : ∀ p, D.turn? i = some p → v.toNat < D.pending p.account.text ∧
      ∃ f, D.phase i = .holding f ∧ f ≤ v.toNat) :
    Numbered { D with accepted := (i, v) :: D.accepted } := by
  have hcases : ∀ {j w}, (j, w) ∈ (i, v) :: D.accepted → (j = i ∧ w = v) ∨ (j, w) ∈ D.accepted := by
    intro j w hw
    simpa using List.mem_cons.1 hw
  refine { h with lt_floor := ?_, lt_pending := ?_, granted_of_accepted := ?_, increase := ?_ }
  · intro j k q r f w hj hk hqr hkj hf hw
    rcases hcases hw with ⟨rfl, rfl⟩ | hw
    · obtain ⟨g, hg, -⟩ := (hi r hk).2
      exact absurd (h.alone hk hj hqr.symm hg hf) hkj
    · exact h.lt_floor hj hk hqr hkj hf hw
  · intro j q w hj hw
    rcases hcases hw with ⟨rfl, rfl⟩ | hw
    · exact (hi q hj).1
    · exact h.lt_pending hj hw
  · intro j q w hj hw
    rcases hcases hw with ⟨rfl, rfl⟩ | hw
    · obtain ⟨f, hf, -⟩ := (hi q hj).2
      exact h.granted_of_holding hj hf
    · exact h.granted_of_accepted hj hw
  · refine (List.Pairwise.and_mem.1 h.increase).imp fun {j k} hjk q r hq hr hqr => ?_
    obtain ⟨-, -, hjk⟩ := hjk
    obtain ⟨hj, hlt⟩ := hjk q r hq hr hqr
    refine ⟨hj, fun x y hx hy => ?_⟩
    rcases hcases hx with ⟨rfl, rfl⟩ | hx'
    · obtain ⟨f, hf, -⟩ := (hi q hq).2
      exact absurd (hj.symm.trans hf) nofun
    · rcases hcases hy with ⟨rfl, rfl⟩ | hy'
      · obtain ⟨f, hf, hle⟩ := (hi r hr).2
        have hjk : j ≠ k := by
          rintro rfl
          exact absurd (hj.symm.trans hf) nofun
        exact Nat.lt_of_lt_of_le (h.lt_floor hr hq hqr.symm hjk hf hx') hle
      · exact hlt x y hx' hy'

end Docket
end LedgerClient
