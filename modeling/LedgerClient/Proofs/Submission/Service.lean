import LedgerClient.Proofs.Submission.Turns

/-!
# The order of service

The tickets of an account stand in a line, in the order in which they were drawn.  Whoever owns the
mutex of the account stands at the front, so the mutex goes through the line: nobody overtakes
somebody who is still there, and the front is never left waiting.  The lines of different accounts
have nothing to do with each other.  As long as anybody stands in a line, the table keeps the one
mutex of its account.  And nobody gets lost: a ticket that was drawn is in its line until it is
given up, and is then gone for good.

`served_in_order` says all this of every sequence of moves.
-/

namespace LedgerClient.LockTable

open Account

/-! ## Lines and holders -/

/-- The tickets of an account, the oldest first. -/
def line (t : LockTable) (a : Address) : List Ticket := t.tickets.filter (·.account == a)

/-- The account that a move is about. -/
def subject? (t : LockTable) : Move → Option Address
  | .draw a => some a
  | .poll id | .giveUp id => (t.ticket? id).map (·.account)

/-- The accounts for which tickets were drawn, the earliest first. -/
def drawn (moves : List Move) : List Address :=
  moves.filterMap fun
    | .draw a => some a
    | _ => none

/-- The ticket is given up by one of the moves, after it was drawn. -/
def GivenUp (moves : List Move) (n : Nat) : Prop :=
  ∃ before later, moves = before ++ .giveUp n :: later ∧ n < (drawn before).length

/-- The tickets that come to hold their mutexes by a move. -/
def newHolders (t : LockTable) (m : Move) : List Ticket :=
  (t.move m).tickets.filter fun k => k.standing == .held && !t.isHeld k.id

/-- The tickets that came to hold their mutexes in the course of some moves, the earliest first. -/
def holders (moves : List Move) : List Ticket :=
  (moves.foldl (fun h m => (h.1.move m, h.2 ++ h.1.newHolders m)) (({} : LockTable), [])).2

variable {t : LockTable} {a b : Address}

@[simp] theorem mem_line {k : Ticket} : k ∈ t.line a ↔ k ∈ t.tickets ∧ k.account = a := by
  simp [line]

theorem holders_concat (moves : List Move) (m : Move) :
    holders (moves ++ [m]) = holders moves ++ (after moves).newHolders m := by
  have hfst : ∀ ms : List Move,
      (ms.foldl (fun h m => (h.1.move m, h.2 ++ h.1.newHolders m)) (({} : LockTable), [])).1 =
        after ms := by
    intro ms
    induction ms using List.reverseRecOn with
    | nil => rfl
    | append_singleton ms m ih => rw [List.foldl_concat, after_concat, ih]
  rw [holders, List.foldl_concat, hfst]
  rfl

theorem drawn_concat (moves : List Move) (m : Move) :
    drawn (moves ++ [m]) = drawn moves ++ drawn [m] := List.filterMap_append

/-- Nobody gives up what was not drawn. -/
theorem GivenUp.lt {moves : List Move} {n : Nat} (h : GivenUp moves n) :
    n < (drawn moves).length := by
  obtain ⟨before, later, rfl, hlt⟩ := h
  rw [drawn, List.filterMap_append, List.length_append]
  exact Nat.lt_add_right _ hlt

theorem givenUp_concat (moves : List Move) (m : Move) (n : Nat) :
    GivenUp (moves ++ [m]) n ↔
      GivenUp moves n ∨ m = .giveUp n ∧ n < (drawn moves).length := by
  constructor
  · rintro ⟨before, later, heq, hlt⟩
    rcases List.eq_nil_or_concat later with rfl | ⟨later, m', rfl⟩
    · obtain ⟨rfl, hm⟩ := List.append_inj' heq rfl
      exact .inr ⟨List.singleton_inj.1 hm, hlt⟩
    · rw [List.concat_eq_append, ← List.cons_append, ← List.append_assoc] at heq
      exact .inl ⟨before, later, List.append_inj_left' heq rfl, hlt⟩
  · rintro (⟨before, later, rfl, hlt⟩ | ⟨rfl, hlt⟩)
    · exact ⟨before, later ++ [m], by simp, hlt⟩
    · exact ⟨moves, [], rfl, hlt⟩

namespace WellFormed

/-- The owner of a mutex stands before everybody else of its account. -/
theorem id_le_of_owns (h : t.WellFormed) {k l : Ticket} (hk : k ∈ t.tickets) (hl : l ∈ t.tickets)
    (ha : l.account = k.account) (hko : k.Owns) : k.id ≤ l.id := by
  have hkq : k ∈ t.queue k.mutex := mem_queue.2 ⟨hk, rfl⟩
  have hlq : l ∈ t.queue k.mutex := mem_queue.2 ⟨hl, h.mutex_eq_of_account_eq hl hk ha⟩
  have hsorted : (t.queue k.mutex).Pairwise (·.id < ·.id) := h.ids_increase.filter _
  have hserved := h.served k.mutex
  cases hq : t.queue k.mutex with
  | nil =>
    rw [hq] at hkq
    cases hkq
  | cons f rest =>
    rw [hq] at hkq hlq hsorted hserved
    obtain rfl : k = f := hserved.eq_of_owns hkq List.mem_cons_self hko hserved.1
    rcases List.mem_cons.1 hlq with rfl | hlq
    · exact Nat.le_refl _
    · exact Nat.le_of_lt (List.rel_of_pairwise_cons hsorted hlq)

/-- Whoever stands before everybody else of its account owns the mutex. -/
theorem owns_of_id_le (h : t.WellFormed) {k : Ticket} (hk : k ∈ t.tickets)
    (hfirst : ∀ l ∈ t.line k.account, k.id ≤ l.id) : k.Owns := by
  obtain ⟨l, hl, hla, hlo⟩ := h.exists_owner hk
  have hle := h.id_le_of_owns hl hk hla.symm hlo
  have hge := hfirst l (mem_line.2 ⟨hl, hla⟩)
  rwa [h.eq_of_id_eq hk hl (Nat.le_antisymm hge hle)]

/-- The front of a line holds the mutex as soon as its taker looks. -/
theorem isHeld_poll (h : t.WellFormed) {k : Ticket} (hk : k ∈ t.tickets) (hko : k.Owns) :
    (t.poll k.id).isHeld k.id = true := by
  have hmem : notice k.id k ∈ (t.poll k.id).tickets := by
    rw [poll_tickets]
    exact List.mem_map_of_mem hk
  have hfind := (h.poll k.id).ticket?_eq_some hmem
  rw [notice_id] at hfind
  have hheld : (notice k.id k).standing = .held := by
    unfold notice
    cases hs : k.standing with
    | waiting => exact absurd hs hko
    | granted => simp
    | held => simp [hs]
  simp [isHeld, hfind, hheld]

theorem mutex?_eq_some (h : t.WellFormed) {m : Nat} (hm : (a, m) ∈ t.mutexes) :
    t.mutex? a = some m := by
  cases hf : t.mutex? a with
  | none => exact absurd (List.mem_map_of_mem (f := Prod.fst) hm) (mutex?_eq_none.1 hf)
  | some n =>
    have hn := LockTable.mutex?_eq_some hf
    exact congrArg (fun e : Address × Nat => some e.2)
      (List.inj_on_of_nodup_map h.accounts_nodup hn hm rfl)

end WellFormed

/-! ## What a move does to a ticket -/

/-- Handing a mutex on changes nothing of a ticket that owns its mutex. -/
theorem exists_of_mem_grantFirst {m : Nat} {ks : List Ticket} {l : Ticket}
    (hl : l ∈ grantFirst m ks) :
    ∃ k ∈ ks, l.id = k.id ∧ l.account = k.account ∧ l.mutex = k.mutex ∧ (k.Owns → l = k) := by
  induction ks with
  | nil => cases hl
  | cons f ks ih =>
    rw [grantFirst] at hl
    split at hl
    · rename_i hf
      simp only [Bool.and_eq_true, beq_iff_eq] at hf
      rcases List.mem_cons.1 hl with rfl | hl
      · exact ⟨f, List.mem_cons_self, rfl, rfl, rfl, fun ho => absurd hf.2 ho⟩
      · exact ⟨l, List.mem_cons_of_mem _ hl, rfl, rfl, rfl, fun _ => rfl⟩
    · rcases List.mem_cons.1 hl with rfl | hl
      · exact ⟨l, List.mem_cons_self, rfl, rfl, rfl, fun _ => rfl⟩
      · obtain ⟨k, hk, hlk⟩ := ih hl
        exact ⟨k, List.mem_cons_of_mem _ hk, hlk⟩

/-- A ticket has been there before, where it held its mutex only if it still does, or it is drawn
now. -/
theorem mem_move {m : Move} {l : Ticket} (hl : l ∈ (t.move m).tickets) :
    (∃ k ∈ t.tickets, l.id = k.id ∧ l.account = k.account ∧ l.mutex = k.mutex ∧
        (k.standing = .held → l.standing = .held)) ∨
      ∃ a, m = .draw a ∧ l = (t.draw a).1 := by
  cases m with
  | draw a =>
    rw [move, draw_tickets, List.mem_append, List.mem_singleton] at hl
    rcases hl with hl | rfl
    · exact .inl ⟨l, hl, rfl, rfl, rfl, id⟩
    · exact .inr ⟨a, rfl, rfl⟩
  | poll id =>
    rw [move, poll_tickets] at hl
    obtain ⟨k, hk, rfl⟩ := List.mem_map.1 hl
    refine .inl ⟨k, hk, notice_id id k, notice_account id k, notice_mutex id k, fun hs => ?_⟩
    simp [notice, hs]
  | giveUp id =>
    rw [move, giveUp_tickets] at hl
    refine .inl ?_
    cases hk : t.ticket? id with
    | none =>
      rw [hk] at hl
      exact ⟨l, hl, rfl, rfl, rfl, fun hs => hs⟩
    | some k =>
      simp only [hk, remove_tickets] at hl
      split at hl
      · exact ⟨l, (mem_others.1 hl).1, rfl, rfl, rfl, fun hs => hs⟩
      · obtain ⟨o, ho, hid, ha, hm, hsame⟩ := exists_of_mem_grantFirst hl
        refine ⟨o, (mem_others.1 ho).1, hid, ha, hm, fun hs => ?_⟩
        rw [hsame (by simp [Ticket.Owns, hs]), hs]

/-- A ticket stands at the mutex at which the tickets of its account stood before. -/
theorem WellFormed.mutex_eq_of_mem_move (h : t.WellFormed) {m : Move} {k l : Ticket}
    (hk : k ∈ t.tickets) (hl : l ∈ (t.move m).tickets) (ha : l.account = k.account) :
    l.mutex = k.mutex := by
  rcases mem_move hl with ⟨o, ho, -, hoa, hom, -⟩ | ⟨a, rfl, rfl⟩
  · rw [hom, h.mutex_eq_of_account_eq ho hk (hoa ▸ ha)]
  · have hk' : k ∈ (t.move (.draw a)).tickets := by
      rw [LockTable.move, draw_tickets]
      exact List.mem_append_left _ hk
    exact (h.move _).mutex_eq_of_account_eq hl hk' ha

/-! ## Other accounts -/

theorem filter_grantFirst_account {m : Nat} {ks : List Ticket}
    (hm : ∀ k ∈ ks, k.mutex = m → k.account ≠ b) :
    (grantFirst m ks).filter (·.account == b) = ks.filter (·.account == b) := by
  induction ks with
  | nil => rfl
  | cons k ks ih =>
    have hrest := ih fun l hl => hm l (List.mem_cons_of_mem _ hl)
    rw [grantFirst]
    split
    · rename_i hk
      simp only [Bool.and_eq_true, beq_iff_eq] at hk
      have hkb := hm k List.mem_cons_self hk.1
      simp [hkb]
    · simp [List.filter_cons, hrest]

/-- A ticket of another account than the one that a move is about is not the one it names. -/
theorem ne_of_subject? {id : Nat} {k : Ticket} (hk : t.ticket? id = some k)
    (hb : (t.ticket? id).map (·.account) ≠ some b) : k.account ≠ b := by
  intro hkb
  rw [hk] at hb
  exact hb (congrArg some hkb)

theorem WellFormed.line_poll (h : t.WellFormed) {id : Nat}
    (hb : (t.ticket? id).map (·.account) ≠ some b) : (t.poll id).line b = t.line b := by
  have hsame : ∀ l ∈ t.line b, notice id l = l := by
    intro l hl
    obtain ⟨hl, hlb⟩ := mem_line.1 hl
    have hid : l.id ≠ id := by
      rintro rfl
      exact ne_of_subject? (h.ticket?_eq_some hl) hb hlb
    simp [notice, hid]
  have hcomm : (t.poll id).line b = (t.line b).map (notice id) := by
    simp [line, poll_tickets, List.filter_map, Function.comp_def]
  rw [hcomm, List.map_congr_left hsame, List.map_id']

theorem WellFormed.line_remove (h : t.WellFormed) {k : Ticket} (hk : k ∈ t.tickets)
    (hkb : k.account ≠ b) : (t.remove k).line b = t.line b := by
  have hothers : (t.others k).filter (·.account == b) = t.line b := by
    rw [others, List.filter_comm]
    refine List.filter_eq_self.2 fun l hl => ?_
    obtain ⟨hl, hlb⟩ := mem_line.1 hl
    have hid : l.id ≠ k.id := fun hid => hkb (by rw [← h.eq_of_id_eq hl hk hid, hlb])
    simpa using hid
  rw [line, remove_tickets]
  split
  · exact hothers
  · rw [filter_grantFirst_account, hothers]
    intro l hl hm
    rwa [h.account_eq_of_mutex_eq (mem_others.1 hl).1 hk hm]

theorem mutex?_ensureMutex (hb : a ≠ b) : (t.ensureMutex a).2.mutex? b = t.mutex? b := by
  unfold ensureMutex
  split
  · rfl
  · simp [mutex?, List.find?_append, hb]

theorem mutex?_forget (hb : a ≠ b) : (t.forget a).mutex? b = t.mutex? b := by
  have hkeep : ∀ e : Address × Nat,
      ((e.1 != a || t.isUsed e.2) = true ∧ (e.1 == b) = true) ↔ (e.1 == b) = true := by
    intro e
    by_cases he : e.1 = b
    · simp [he, Ne.symm hb]
    · simp [he]
  simp only [mutex?, forget, List.find?_filter, hkeep, Bool.decide_eq_true]

/-- A move changes nothing for the accounts that it is not about. -/
theorem WellFormed.move_line (h : t.WellFormed) {m : Move} (hb : t.subject? m ≠ some b) :
    (t.move m).line b = t.line b ∧ (t.move m).mutex? b = t.mutex? b := by
  cases m with
  | draw a =>
    have hab : a ≠ b := fun hab => hb (congrArg some hab)
    refine ⟨?_, mutex?_ensureMutex hab⟩
    rw [LockTable.move, line, draw_tickets, List.filter_append, draw_fst]
    simp [hab, line]
  | poll id => exact ⟨h.line_poll hb, rfl⟩
  | giveUp id =>
    rw [LockTable.move]
    unfold LockTable.giveUp
    cases hk : t.ticket? id with
    | none => exact ⟨rfl, rfl⟩
    | some k =>
      have hkb := ne_of_subject? hk hb
      have hline := h.line_remove (mem_of_ticket? hk).1 hkb
      dsimp only
      split
      · exact ⟨hline, mutex?_forget hkb⟩
      · exact ⟨hline, rfl⟩

/-! ## The order in which the mutex is held -/

theorem mem_newHolders {m : Move} {k : Ticket} :
    k ∈ t.newHolders m ↔
      k ∈ (t.move m).tickets ∧ k.standing = .held ∧ t.isHeld k.id = false := by
  simp [newHolders]

theorem WellFormed.isHeld_iff (h : t.WellFormed) {k : Ticket} (hk : k ∈ t.tickets) :
    t.isHeld k.id = true ↔ k.standing = .held := by
  simp [isHeld, h.ticket?_eq_some hk]

/-- A new holder stands at the front of the line of its account. -/
theorem WellFormed.id_le_of_newHolder (h : t.WellFormed) {m : Move} {k l : Ticket}
    (hk : k ∈ t.newHolders m) (hl : l ∈ (t.move m).line k.account) : k.id ≤ l.id := by
  obtain ⟨hk, hheld, -⟩ := mem_newHolders.1 hk
  obtain ⟨hl, ha⟩ := mem_line.1 hl
  exact (h.move m).id_le_of_owns hk hl ha (by simp [Ticket.Owns, hheld])

/-- A move makes one ticket the holder of its mutex at most. -/
theorem WellFormed.newHolders_pairwise (h : t.WellFormed) (m : Move) :
    (t.newHolders m).Pairwise (·.id < ·.id) :=
  (h.move m).ids_increase.filter _

/-! ### The live tickets -/

/-- The tickets by the order in which they were drawn. -/
theorem tickets_drawn (moves : List Move) :
    (after moves).nextTicket = (drawn moves).length ∧
      ∀ k ∈ (after moves).tickets, (drawn moves)[k.id]? = some k.account := by
  induction moves using List.reverseRecOn with
  | nil => exact ⟨rfl, nofun⟩
  | append_singleton moves m ih =>
    obtain ⟨hnext, hdrawn⟩ := ih
    rw [after_concat, drawn_concat]
    constructor
    · cases m with
      | draw a => simp [move, drawn, hnext]
      | poll id =>
        show (after moves).nextTicket = _
        simp [drawn, hnext]
      | giveUp id => simp [move, drawn, giveUp_nextTicket, hnext]
    · intro k hk
      rcases mem_move hk with ⟨l, hl, hid, ha, -⟩ | ⟨a, rfl, rfl⟩
      · rw [hid, ha]
        have := hdrawn l hl
        rwa [List.getElem?_append_left (List.getElem?_eq_some_iff.1 this).1]
      · rw [draw_fst, hnext]
        simp [drawn]

/-- The numbers of the tickets that are left by a move. -/
theorem map_id_move (t : LockTable) (m : Move) :
    (t.move m).tickets.map (·.id) = match m with
      | .draw _ => t.tickets.map (·.id) ++ [t.nextTicket]
      | .poll _ => t.tickets.map (·.id)
      | .giveUp id => (t.tickets.map (·.id)).filter (· != id) := by
  cases m with
  | draw a => simp [move, draw_tickets, draw_fst]
  | poll id => simp [move, poll_tickets, Function.comp_def]
  | giveUp id => exact map_id_giveUp id

/-- Who is there has drawn a ticket and not given it up. -/
theorem mem_ids_iff (moves : List Move) (n : Nat) :
    n ∈ (after moves).tickets.map (·.id) ↔ n < (drawn moves).length ∧ ¬ GivenUp moves n := by
  induction moves using List.reverseRecOn with
  | nil => simp [drawn]
  | append_singleton moves m ih =>
    rw [after_concat, map_id_move, drawn_concat, givenUp_concat]
    cases m with
    | draw a =>
      have hlength : (drawn moves ++ drawn [.draw a]).length = (drawn moves).length + 1 := by
        simp [drawn]
      simp only [List.mem_append, List.mem_singleton, ih, (tickets_drawn moves).1, hlength,
        reduceCtorEq, false_and, or_false]
      constructor
      · rintro (⟨hlt, hkept⟩ | rfl)
        · exact ⟨Nat.lt_succ_of_lt hlt, hkept⟩
        · exact ⟨Nat.lt_succ_self _, fun h => Nat.lt_irrefl _ h.lt⟩
      · rintro ⟨hlt, hkept⟩
        rcases Nat.lt_succ_iff_lt_or_eq.1 hlt with hlt | heq
        · exact .inl ⟨hlt, hkept⟩
        · exact .inr heq
    | poll id => simpa [drawn] using ih
    | giveUp id =>
      simp only [List.mem_filter, ih, bne_iff_ne, Move.giveUp.injEq]
      have hlength : (drawn moves ++ drawn [.giveUp id]).length = (drawn moves).length := by
        simp [drawn]
      rw [hlength]
      constructor
      · rintro ⟨⟨hlt, hkept⟩, hne⟩
        exact ⟨hlt, fun h => h.elim hkept fun h => hne h.1.symm⟩
      · rintro ⟨hlt, hkept⟩
        exact ⟨⟨hlt, fun h => hkept (.inl h)⟩, fun heq => hkept (.inr ⟨heq.symm, hlt⟩)⟩

/-- The live tickets are the draws that were not given up. -/
theorem exists_ticket_iff (moves : List Move) (n : Nat) (a : Address) :
    (∃ k ∈ (after moves).tickets, k.id = n ∧ k.account = a) ↔
      (drawn moves)[n]? = some a ∧ ¬ GivenUp moves n := by
  constructor
  · rintro ⟨k, hk, rfl, rfl⟩
    exact ⟨(tickets_drawn moves).2 k hk, ((mem_ids_iff moves k.id).1 (List.mem_map_of_mem hk)).2⟩
  · rintro ⟨hdrawn, hkept⟩
    have hlt : n < (drawn moves).length := (List.getElem?_eq_some_iff.1 hdrawn).1
    obtain ⟨k, hk, rfl⟩ := List.mem_map.1 ((mem_ids_iff moves n).2 ⟨hlt, hkept⟩)
    have haccount := (tickets_drawn moves).2 k hk
    exact ⟨k, hk, rfl, Option.some.inj (haccount.symm.trans hdrawn)⟩

/-! ### Those who have held a mutex -/

/-- Whoever has held the mutex of an account is at the front of its line, or gone together with
everybody before it. -/
structure HeldInOrder (t : LockTable) (hs : List Ticket) : Prop where
  id_lt : ∀ k ∈ hs, k.id < t.nextTicket
  front : ∀ k ∈ hs, ∀ l ∈ t.line k.account, k.id < l.id ∨ (k.id = l.id ∧ l.standing = .held)
  increase : ∀ a, (hs.filter (·.account == a)).Pairwise (·.id < ·.id)

theorem HeldInOrder.move {hs : List Ticket} (ho : t.HeldInOrder hs) (h : t.WellFormed) (m : Move) :
    (t.move m).HeldInOrder (hs ++ t.newHolders m) where
  id_lt k hk := by
    rcases List.mem_append.1 hk with hk | hk
    · have hle : t.nextTicket ≤ (t.move m).nextTicket := by
        cases m with
        | draw a => exact (follows_draw t a).next_le
        | poll id => exact (follows_poll t id).next_le
        | giveUp id => exact (follows_giveUp t id).next_le
      exact Nat.lt_of_lt_of_le (ho.id_lt k hk) hle
    · exact (h.move m).id_lt k (mem_newHolders.1 hk).1
  front k hkm l hl := by
    rcases List.mem_append.1 hkm with hk | hk
    · obtain ⟨hl, hla⟩ := mem_line.1 hl
      rcases mem_move hl with ⟨o, hmem, hid, hoa, -, hheld⟩ | ⟨a, rfl, rfl⟩
      · rw [hid]
        have := ho.front k hk o (mem_line.2 ⟨hmem, hoa ▸ hla⟩)
        exact this.imp id fun hfront => ⟨hfront.1, hheld hfront.2⟩
      · rw [draw_fst]
        exact .inl (ho.id_lt k hk)
    · rcases Nat.lt_or_eq_of_le (h.id_le_of_newHolder hk hl) with hlt | heq
      · exact .inl hlt
      · obtain ⟨hk, hheld, -⟩ := mem_newHolders.1 hk
        rw [(h.move m).eq_of_id_eq (mem_line.1 hl).1 hk heq.symm]
        exact .inr ⟨rfl, hheld⟩
  increase a := by
    rw [List.filter_append, List.pairwise_append]
    refine ⟨ho.increase a, (h.newHolders_pairwise m).filter _, fun k hk l hl => ?_⟩
    obtain ⟨hk, hka⟩ := List.mem_filter.1 hk
    obtain ⟨hl, hla⟩ := List.mem_filter.1 hl
    simp only [beq_iff_eq] at hka hla
    obtain ⟨hlmem, -, hnew⟩ := mem_newHolders.1 hl
    rcases mem_move hlmem with ⟨o, hmem, hid, hoa, -⟩ | ⟨b, rfl, rfl⟩
    · rcases ho.front k hk o (mem_line.2 ⟨hmem, by rw [← hoa, hla, hka]⟩) with hlt | ⟨-, hheld⟩
      · rwa [hid]
      · -- Somebody who has held the mutex does not come to hold it anew.
        rw [hid, (h.isHeld_iff hmem).2 hheld] at hnew
        cases hnew
    · rw [draw_fst]
      exact ho.id_lt k hk

theorem heldInOrder_after (moves : List Move) : (after moves).HeldInOrder (holders moves) := by
  induction moves using List.reverseRecOn with
  | nil => exact ⟨nofun, nofun, fun _ => List.Pairwise.nil⟩
  | append_singleton moves m ih =>
    rw [after_concat, holders_concat]
    exact ih.move (wellFormed_after moves) m

theorem holders_drawn (moves : List Move) :
    ∀ k ∈ holders moves, (drawn moves)[k.id]? = some k.account := by
  induction moves using List.reverseRecOn with
  | nil => exact nofun
  | append_singleton moves m ih =>
    intro k hk
    rw [holders_concat, List.mem_append] at hk
    rcases hk with hk | hk
    · rw [drawn_concat, List.getElem?_append_left (List.getElem?_eq_some_iff.1 (ih k hk)).1]
      exact ih k hk
    · refine (tickets_drawn (moves ++ [m])).2 k ?_
      rw [after_concat]
      exact (mem_newHolders.1 hk).1

/-- After any moves: those who were drawn and not given up are there, and nobody else, in the order
in which they were drawn; an account has one holder at most; those of an account who came to hold
its mutex did so in the order in which their tickets were drawn, each before everybody else who was
still there; who stands first where nobody holds the mutex has it at the next look; a move leaves
the other accounts as they were; and the table keeps the mutex at which the tickets of an account
stand, which is the same for all of them and stays the same. -/
theorem served_in_order (moves : List Move) :
    let t := after moves
    (t.tickets.Pairwise (·.id < ·.id) ∧
      ∀ n a, (∃ k ∈ t.tickets, k.id = n ∧ k.account = a) ↔
        (drawn moves)[n]? = some a ∧ ¬ GivenUp moves n) ∧
    (∀ k ∈ t.tickets, ∀ l ∈ t.tickets, k.account = l.account →
      k.standing = .held → l.standing = .held → k = l) ∧
    ((∀ k, k ∈ t.tickets ∨ k ∈ holders moves → (drawn moves)[k.id]? = some k.account) ∧
      (∀ a, ((holders moves).filter (·.account == a)).Pairwise (·.id < ·.id)) ∧
      ∀ m, ∀ k ∈ t.newHolders m, ∀ l ∈ (t.move m).line k.account, k.id ≤ l.id) ∧
    (∀ k ∈ t.tickets, (∀ l ∈ t.line k.account, k.id ≤ l.id ∧ l.standing ≠ .held) →
      (t.poll k.id).isHeld k.id = true) ∧
    (∀ m b, t.subject? m ≠ some b →
      (t.move m).line b = t.line b ∧ (t.move m).mutex? b = t.mutex? b) ∧
    (t.mutexes.map Prod.fst).Nodup ∧
    (∀ k ∈ t.tickets, t.mutex? k.account = some k.mutex) ∧
    ∀ m, ∀ k ∈ t.tickets, ∀ l ∈ (t.move m).tickets, l.account = k.account → l.mutex = k.mutex := by
  intro t
  have h : t.WellFormed := wellFormed_after moves
  refine ⟨⟨h.ids_increase, exists_ticket_iff moves⟩, ?_,
    ⟨?_, (heldInOrder_after moves).increase, ?_⟩, ?_, fun m b => h.move_line, h.accounts_nodup,
    ?_, ?_⟩
  · intro k hk l hl ha hks hls
    exact h.eq_of_owns hk hl ha (by simp [Ticket.Owns, hks]) (by simp [Ticket.Owns, hls])
  · rintro k (hk | hk)
    · exact (tickets_drawn moves).2 k hk
    · exact holders_drawn moves k hk
  · exact fun m k hk l hl => h.id_le_of_newHolder hk hl
  · exact fun k hk hfirst => h.isHeld_poll hk (h.owns_of_id_le hk fun l hl => (hfirst l hl).1)
  · exact fun k hk => h.mutex?_eq_some (h.mutex_mem k hk)
  · exact fun m k hk l hl ha => h.mutex_eq_of_mem_move hk hl ha

/-- Three takers of one account, and one of another.  The second gives up while it waits, then the
first is done, and the third looks. -/
def handOver : List Move :=
  [.draw default, .draw default, .draw ⟨List.replicate addressLength 1, rfl⟩, .draw default,
    .giveUp 1, .giveUp 0, .poll 3]

/-- The mutex goes from the first taker to the third, and the other account is not touched. -/
theorem served_in_order_handOver :
    let t := after handOver
    t.tickets.map (fun k => (k.id, k.standing)) = [(2, .held), (3, .held)] ∧
      (holders handOver).map (·.id) = [0, 2, 3] ∧ GivenUp handOver 1 ∧ ¬ GivenUp handOver 3 ∧
      t.mutexes.length = 2 := by
  intro t
  obtain ⟨⟨-, hlive⟩, -⟩ := served_in_order handOver
  refine ⟨by decide, by decide, ?_, ?_, by decide⟩
  · by_contra hkept
    have hgone : ¬ ∃ k ∈ t.tickets, k.id = 1 ∧ k.account = default := by decide
    exact hgone ((hlive 1 default).2 ⟨by decide, hkept⟩)
  · have hthere : ∃ k ∈ t.tickets, k.id = 3 ∧ k.account = default := by decide
    exact ((hlive 3 default).1 hthere).2

end LedgerClient.LockTable
