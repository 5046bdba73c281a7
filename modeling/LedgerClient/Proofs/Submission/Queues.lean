import LedgerClient.Submission.Locks
import Mathlib.Data.List.Induction
import Mathlib.Data.List.Nodup

/-!
# Queues of a lock table

The tickets of one mutex form a queue, the oldest ticket first.  In every table that comes about
by drawing, polling and giving up tickets, the front of each queue owns the mutex and everybody
behind it waits.  Exclusion, the order of service and the absence of a stuck queue all follow
from this one fact, which is kept as `LockTable.WellFormed` together with the one-to-one
correspondence between accounts and mutexes.
-/

namespace LedgerClient

open Account

/-- The ticket has been handed its mutex, whether its taker has noticed or not. -/
def Ticket.Owns (k : Ticket) : Prop := k.standing ≠ .waiting

instance (k : Ticket) : Decidable k.Owns := inferInstanceAs (Decidable (k.standing ≠ .waiting))

namespace LockTable

/-! ## Moves -/

/-- What takers do to a table. -/
inductive Move where
  | draw (a : Address)
  | poll (id : Nat)
  | giveUp (id : Nat)

/-- The table after a move. -/
def move (t : LockTable) : Move → LockTable
  | .draw a => (t.draw a).2
  | .poll id => t.poll id
  | .giveUp id => t.giveUp id

/-- The table after some moves on the empty one. -/
def after (moves : List Move) : LockTable := moves.foldl move {}

@[simp] theorem after_nil : after [] = {} := rfl

@[simp] theorem after_concat (moves : List Move) (m : Move) :
    after (moves ++ [m]) = (after moves).move m := by
  simp [after]

/-! ## Queues and their service -/

/-- The tickets of a mutex, the oldest first. -/
def queue (t : LockTable) (m : Nat) : List Ticket := t.tickets.filter (·.mutex == m)

/-- The front of the queue owns the mutex, and the others wait. -/
def Served : List Ticket → Prop
  | [] => True
  | k :: ks => k.Owns ∧ ∀ l ∈ ks, l.standing = .waiting

theorem Served.eq_of_owns {ks : List Ticket} (h : Served ks) {k l : Ticket} (hk : k ∈ ks)
    (hl : l ∈ ks) (hko : k.Owns) (hlo : l.Owns) : k = l := by
  cases ks with
  | nil => simp at hk
  | cons f rest =>
    have front : ∀ x ∈ f :: rest, x.Owns → x = f := by
      intro x hx hxo
      rcases List.mem_cons.1 hx with rfl | hx
      · rfl
      · exact absurd (h.2 x hx) hxo
    rw [front k hk hko, front l hl hlo]

theorem Served.exists_owns {ks : List Ticket} (h : Served ks) {k : Ticket} (hk : k ∈ ks) :
    ∃ l ∈ ks, l.Owns := by
  cases ks with
  | nil => simp at hk
  | cons f rest => exact ⟨f, List.mem_cons_self, h.1⟩

theorem Served.concat_waiting {ks : List Ticket} (h : Served ks) (hne : ks ≠ []) {k : Ticket}
    (hk : k.standing = .waiting) : Served (ks ++ [k]) := by
  cases ks with
  | nil => exact absurd rfl hne
  | cons f rest =>
    refine ⟨h.1, fun l hl => ?_⟩
    rcases List.mem_append.1 hl with hl | hl
    · exact h.2 l hl
    · rw [List.mem_singleton.1 hl, hk]

/-- What the tickets of a table and its mutexes have to do with each other. -/
structure WellFormed (t : LockTable) : Prop where
  accounts_nodup : (t.mutexes.map Prod.fst).Nodup
  numbers_nodup : (t.mutexes.map Prod.snd).Nodup
  number_lt : ∀ e ∈ t.mutexes, e.2 < t.nextMutex
  /-- A ticket stands at the mutex that its account has. -/
  mutex_mem : ∀ k ∈ t.tickets, (k.account, k.mutex) ∈ t.mutexes
  ids_increase : t.tickets.Pairwise (·.id < ·.id)
  id_lt : ∀ k ∈ t.tickets, k.id < t.nextTicket
  served : ∀ m, Served (t.queue m)

theorem wellFormed_empty : WellFormed {} where
  accounts_nodup := by simp
  numbers_nodup := by simp
  number_lt := by simp
  mutex_mem := by simp
  ids_increase := by simp
  id_lt := by simp
  served m := by simp [queue, Served]

variable {t : LockTable}

@[simp] theorem mem_queue {m : Nat} {k : Ticket} : k ∈ t.queue m ↔ k ∈ t.tickets ∧ k.mutex = m := by
  simp [queue]

namespace WellFormed

theorem mutex_eq_of_account_eq (h : t.WellFormed) {k l : Ticket} (hk : k ∈ t.tickets)
    (hl : l ∈ t.tickets) (ha : k.account = l.account) : k.mutex = l.mutex := by
  have := List.inj_on_of_nodup_map h.accounts_nodup (h.mutex_mem k hk) (h.mutex_mem l hl) ha
  exact congrArg Prod.snd this

theorem account_eq_of_mutex_eq (h : t.WellFormed) {k l : Ticket} (hk : k ∈ t.tickets)
    (hl : l ∈ t.tickets) (hm : k.mutex = l.mutex) : k.account = l.account := by
  have := List.inj_on_of_nodup_map h.numbers_nodup (h.mutex_mem k hk) (h.mutex_mem l hl) hm
  exact congrArg Prod.fst this

theorem eq_of_id_eq (h : t.WellFormed) {k l : Ticket} (hk : k ∈ t.tickets) (hl : l ∈ t.tickets)
    (hid : k.id = l.id) : k = l := by
  have hnodup : (t.tickets.map (·.id)).Nodup := by
    rw [List.nodup_iff_pairwise_ne, List.pairwise_map]
    exact h.ids_increase.imp fun hlt => Nat.ne_of_lt hlt
  exact List.inj_on_of_nodup_map hnodup hk hl hid

/-- An account's mutex has one owner. -/
theorem eq_of_owns (h : t.WellFormed) {k l : Ticket} (hk : k ∈ t.tickets) (hl : l ∈ t.tickets)
    (ha : k.account = l.account) (hko : k.Owns) (hlo : l.Owns) : k = l :=
  (h.served l.mutex).eq_of_owns (mem_queue.2 ⟨hk, h.mutex_eq_of_account_eq hk hl ha⟩)
    (mem_queue.2 ⟨hl, rfl⟩) hko hlo

/-- Nobody waits for a mutex that nobody owns. -/
theorem exists_owner (h : t.WellFormed) {k : Ticket} (hk : k ∈ t.tickets) :
    ∃ l ∈ t.tickets, l.account = k.account ∧ l.Owns := by
  obtain ⟨l, hl, hlo⟩ := (h.served k.mutex).exists_owns (mem_queue.2 ⟨hk, rfl⟩)
  obtain ⟨hl, hm⟩ := mem_queue.1 hl
  exact ⟨l, hl, h.account_eq_of_mutex_eq hl hk hm, hlo⟩

theorem ticket?_eq_some (h : t.WellFormed) {k : Ticket} (hk : k ∈ t.tickets) :
    t.ticket? k.id = some k := by
  cases hf : t.ticket? k.id with
  | none =>
    have := List.find?_eq_none.1 hf k hk
    simp at this
  | some l =>
    have hl := List.mem_of_find?_eq_some hf
    have hid : l.id = k.id := by simpa using List.find?_some hf
    rw [h.eq_of_id_eq hl hk hid]

theorem owns_of_isWaiting_eq_false (h : t.WellFormed) {k : Ticket} (hk : k ∈ t.tickets)
    (hhanded : t.isWaiting k.id = false) : k.Owns := by
  intro hw
  rw [isWaiting, h.ticket?_eq_some hk] at hhanded
  simp [hw] at hhanded

end WellFormed

theorem mem_of_ticket? {id : Nat} {k : Ticket} (h : t.ticket? id = some k) :
    k ∈ t.tickets ∧ k.id = id :=
  ⟨List.mem_of_find?_eq_some h, by simpa using List.find?_some h⟩

/-! ## Handing a mutex on -/

/-- Handing a mutex on changes nothing of a ticket but its standing. -/
theorem map_grantFirst {β : Type} {f : Ticket → β} (m : Nat)
    (hf : ∀ k, f { k with standing := .granted } = f k) (ks : List Ticket) :
    (grantFirst m ks).map f = ks.map f := by
  induction ks with
  | nil => rfl
  | cons k ks ih =>
    rw [grantFirst]
    split
    · simp [hf]
    · simp [ih]

theorem filter_grantFirst_self (m : Nat) (ks : List Ticket) :
    (grantFirst m ks).filter (·.mutex == m) = grantFirst m (ks.filter (·.mutex == m)) := by
  induction ks with
  | nil => rfl
  | cons k ks ih =>
    by_cases hm : k.mutex = m <;> by_cases hs : k.standing = .waiting <;>
      simp [grantFirst, hm, hs, ih]

theorem filter_grantFirst_ne {m n : Nat} (hne : n ≠ m) (ks : List Ticket) :
    (grantFirst m ks).filter (·.mutex == n) = ks.filter (·.mutex == n) := by
  induction ks with
  | nil => rfl
  | cons k ks ih =>
    by_cases hm : k.mutex = m <;> by_cases hs : k.standing = .waiting <;>
      simp [grantFirst, hm, hs, ih, Ne.symm hne, List.filter_cons]

/-- A queue that has lost its owner is served again once the mutex has been handed on. -/
theorem served_grantFirst {m : Nat} {ks : List Ticket} (hm : ∀ k ∈ ks, k.mutex = m)
    (hw : ∀ k ∈ ks, k.standing = .waiting) : Served (grantFirst m ks) := by
  cases ks with
  | nil => trivial
  | cons k ks =>
    have hk : k.mutex = m ∧ k.standing = .waiting :=
      ⟨hm k List.mem_cons_self, hw k List.mem_cons_self⟩
    rw [grantFirst, if_pos (by simp [hk.1, hk.2])]
    exact ⟨by simp [Ticket.Owns], fun l hl => hw l (List.mem_cons_of_mem _ hl)⟩

/-! ## What the moves keep -/

theorem isOwned_iff {m : Nat} : t.isOwned m = true ↔ ∃ k ∈ t.queue m, k.Owns := by
  simp [isOwned, Ticket.Owns, and_assoc]

theorem isUsed_iff {m : Nat} : t.isUsed m = true ↔ ∃ k ∈ t.tickets, k.mutex = m := by
  simp [isUsed]

theorem mutex?_eq_some {a : Address} {m : Nat} (h : t.mutex? a = some m) : (a, m) ∈ t.mutexes := by
  obtain ⟨⟨b, n⟩, he, rfl⟩ := Option.map_eq_some_iff.1 h
  have hb : b = a := by simpa using List.find?_some he
  simpa [hb] using List.mem_of_find?_eq_some he

theorem mutex?_eq_none {a : Address} : t.mutex? a = none ↔ a ∉ t.mutexes.map Prod.fst := by
  simp [mutex?, List.find?_eq_none]
  grind

@[simp] theorem ensureMutex_tickets (a : Address) : (t.ensureMutex a).2.tickets = t.tickets := by
  unfold ensureMutex
  split <;> rfl

@[simp] theorem ensureMutex_nextTicket (a : Address) :
    (t.ensureMutex a).2.nextTicket = t.nextTicket := by
  unfold ensureMutex
  split <;> rfl

/-- The account has the mutex afterwards, and no other entry is touched. -/
theorem mem_ensureMutex {a : Address} {e : Address × Nat} :
    e ∈ (t.ensureMutex a).2.mutexes ↔ e ∈ t.mutexes ∨ e = (a, (t.ensureMutex a).1) := by
  unfold ensureMutex
  split
  · rename_i m hm
    have := mutex?_eq_some hm
    grind
  · simp

theorem WellFormed.ensureMutex (h : t.WellFormed) (a : Address) :
    (t.ensureMutex a).2.WellFormed := by
  unfold LockTable.ensureMutex
  split
  · exact h
  · rename_i hnone
    have hfresh : ∀ e ∈ t.mutexes, e.2 ≠ t.nextMutex := fun e he => Nat.ne_of_lt (h.number_lt e he)
    exact {
      accounts_nodup := by
        simp only [List.map_append, List.map_cons, List.map_nil]
        exact List.nodup_append.2 ⟨h.accounts_nodup, by simp, by
          intro b hb c hc
          rw [List.mem_singleton.1 hc]
          exact fun hba => mutex?_eq_none.1 hnone (hba ▸ hb)⟩
      numbers_nodup := by
        simp only [List.map_append, List.map_cons, List.map_nil]
        exact List.nodup_append.2 ⟨h.numbers_nodup, by simp, by
          intro b hb c hc
          rw [List.mem_singleton.1 hc]
          obtain ⟨e, he, rfl⟩ := List.mem_map.1 hb
          exact hfresh e he⟩
      number_lt := by
        intro e he
        rcases List.mem_append.1 he with he | he
        · exact Nat.lt_succ_of_lt (h.number_lt e he)
        · rw [List.mem_singleton.1 he]
          exact Nat.lt_succ_self _
      mutex_mem := fun k hk => List.mem_append_left _ (h.mutex_mem k hk)
      ids_increase := h.ids_increase
      id_lt := h.id_lt
      served := h.served }

/-- The ticket that a draw yields. -/
theorem draw_fst (a : Address) :
    (t.draw a).1 = ⟨t.nextTicket, a, (t.ensureMutex a).1,
      if (t.ensureMutex a).2.isOwned (t.ensureMutex a).1 then .waiting else .held⟩ := by
  simp [draw]

@[simp] theorem draw_tickets (a : Address) :
    (t.draw a).2.tickets = t.tickets ++ [(t.draw a).1] := by
  simp [draw]

@[simp] theorem draw_mutexes (a : Address) :
    (t.draw a).2.mutexes = (t.ensureMutex a).2.mutexes := rfl

theorem WellFormed.draw (h : t.WellFormed) (a : Address) : (t.draw a).2.WellFormed := by
  have h' := h.ensureMutex a
  have hmem : ∀ k ∈ (t.draw a).2.tickets, k ∈ t.tickets ∨ k = (t.draw a).1 := by
    simp
  exact {
    accounts_nodup := h'.accounts_nodup
    numbers_nodup := h'.numbers_nodup
    number_lt := h'.number_lt
    mutex_mem := by
      intro k hk
      rcases hmem k hk with hk | rfl
      · exact h'.mutex_mem k (by simpa using hk)
      · simp [draw_fst, mem_ensureMutex]
    ids_increase := by
      rw [draw_tickets, List.pairwise_append]
      refine ⟨h.ids_increase, by simp, fun k hk l hl => ?_⟩
      rw [List.mem_singleton.1 hl, draw_fst]
      exact h.id_lt k hk
    id_lt := by
      intro k hk
      have hnext : (t.draw a).2.nextTicket = t.nextTicket + 1 := by simp [LockTable.draw]
      rw [hnext]
      rcases hmem k hk with hk | rfl
      · exact Nat.lt_succ_of_lt (h.id_lt k hk)
      · simp [draw_fst]
    served := by
      intro m
      have hqueue : (t.draw a).2.queue m =
          t.queue m ++ if (t.ensureMutex a).1 = m then [(t.draw a).1] else [] := by
        by_cases hm : (t.ensureMutex a).1 = m <;> simp [queue, draw_fst, hm]
      rw [hqueue]
      by_cases hm : (t.ensureMutex a).1 = m
      · rw [if_pos hm]
        have hq : (t.ensureMutex a).2.queue m = t.queue m := by simp [queue]
        by_cases hempty : t.queue m = []
        · -- Nobody is at the mutex, so nobody owns it and the new ticket holds it at once.
          have hfree : ¬ (t.ensureMutex a).2.isOwned m = true := by
            rw [isOwned_iff, hq, hempty]
            simp
          rw [hempty, draw_fst, hm, if_neg hfree]
          exact ⟨by simp [Ticket.Owns], by simp⟩
        · have howned : (t.ensureMutex a).2.isOwned m = true := by
            obtain ⟨k, hk⟩ := List.exists_mem_of_ne_nil _ hempty
            rw [isOwned_iff, hq]
            exact (h.served m).exists_owns hk
          refine (h.served m).concat_waiting hempty ?_
          rw [draw_fst, hm, if_pos howned]
      · rw [if_neg hm, List.append_nil]
        exact h.served m }

/-- What a poll makes of one ticket. -/
def notice (id : Nat) (k : Ticket) : Ticket :=
  if k.id == id && k.standing == .granted then { k with standing := .held } else k

@[simp] theorem notice_id (id : Nat) (k : Ticket) : (notice id k).id = k.id := by
  unfold notice
  split <;> rfl

@[simp] theorem notice_account (id : Nat) (k : Ticket) : (notice id k).account = k.account := by
  unfold notice
  split <;> rfl

@[simp] theorem notice_mutex (id : Nat) (k : Ticket) : (notice id k).mutex = k.mutex := by
  unfold notice
  split <;> rfl

theorem notice_waiting (id : Nat) (k : Ticket) :
    (notice id k).standing = .waiting ↔ k.standing = .waiting := by
  unfold notice
  split
  · rename_i h
    simp only [Bool.and_eq_true, beq_iff_eq] at h
    simp [h.2]
  · rfl

theorem poll_tickets (id : Nat) : (t.poll id).tickets = t.tickets.map (notice id) := rfl

theorem queue_poll (id m : Nat) : (t.poll id).queue m = (t.queue m).map (notice id) := by
  simp [queue, poll_tickets, List.filter_map, Function.comp_def]

theorem WellFormed.poll (h : t.WellFormed) (id : Nat) : (t.poll id).WellFormed where
  accounts_nodup := h.accounts_nodup
  numbers_nodup := h.numbers_nodup
  number_lt := h.number_lt
  mutex_mem := by
    intro k hk
    rw [poll_tickets] at hk
    obtain ⟨l, hl, rfl⟩ := List.mem_map.1 hk
    rw [notice_account, notice_mutex]
    exact h.mutex_mem l hl
  ids_increase := by
    rw [poll_tickets, List.pairwise_map]
    simpa using h.ids_increase
  id_lt := by
    intro k hk
    rw [poll_tickets] at hk
    obtain ⟨l, hl, rfl⟩ := List.mem_map.1 hk
    rw [notice_id]
    exact h.id_lt l hl
  served := by
    intro m
    rw [queue_poll]
    have hs := h.served m
    cases hq : t.queue m with
    | nil => trivial
    | cons k ks =>
      rw [hq] at hs
      refine ⟨fun hw => hs.1 ((notice_waiting id k).1 hw), fun l hl => ?_⟩
      obtain ⟨l', hl', rfl⟩ := List.mem_map.1 hl
      exact (notice_waiting id l').2 (hs.2 l' hl')

/-- The tickets that are left when `k` goes. -/
def others (t : LockTable) (k : Ticket) : List Ticket := t.tickets.filter (·.id != k.id)

theorem mem_others {k l : Ticket} : l ∈ t.others k ↔ l ∈ t.tickets ∧ l.id ≠ k.id := by
  simp [others]

theorem remove_tickets (k : Ticket) :
    (t.remove k).tickets =
      if k.standing = .waiting then t.others k else grantFirst k.mutex (t.others k) := by
  simp [remove, others]

/-- A removal leaves the other tickets as they were, but for the standing of one. -/
theorem map_remove {β : Type} {f : Ticket → β} (hf : ∀ k, f { k with standing := .granted } = f k)
    (k : Ticket) : (t.remove k).tickets.map f = (t.others k).map f := by
  rw [remove_tickets]
  split
  · rfl
  · exact map_grantFirst _ hf _

theorem queue_remove_self (k : Ticket) :
    (t.remove k).queue k.mutex =
      let rest := (t.queue k.mutex).filter (·.id != k.id)
      if k.standing = .waiting then rest else grantFirst k.mutex rest := by
  have hcomm : (t.others k).filter (·.mutex == k.mutex) =
      (t.queue k.mutex).filter (·.id != k.id) := List.filter_comm ..
  unfold queue at hcomm ⊢
  rw [remove_tickets]
  split
  · exact hcomm
  · rw [filter_grantFirst_self, hcomm]

theorem WellFormed.queue_remove_ne (h : t.WellFormed) {k : Ticket} (hk : k ∈ t.tickets) {m : Nat}
    (hm : m ≠ k.mutex) : (t.remove k).queue m = t.queue m := by
  have hothers : (t.others k).filter (·.mutex == m) = t.queue m := by
    rw [others, List.filter_comm]
    refine List.filter_eq_self.2 fun l hl => ?_
    obtain ⟨hlt, hlm⟩ := mem_queue.1 hl
    have hid : l.id ≠ k.id := fun hid => hm (by rw [← hlm, h.eq_of_id_eq hlt hk hid])
    simpa using hid
  rw [queue, remove_tickets]
  split
  · exact hothers
  · rw [filter_grantFirst_ne hm, hothers]

/-- A queue without its owner has waiting tickets only. -/
theorem WellFormed.waiting_of_ne_owner (h : t.WellFormed) {k l : Ticket} (hk : k ∈ t.tickets)
    (hko : k.Owns) (hl : l ∈ t.queue k.mutex) (hid : l.id ≠ k.id) : l.standing = .waiting := by
  by_contra hlo
  exact hid (by rw [(h.served k.mutex).eq_of_owns hl (mem_queue.2 ⟨hk, rfl⟩) hlo hko])

theorem WellFormed.served_remove_self (h : t.WellFormed) {k : Ticket} (hk : k ∈ t.tickets) :
    Served ((t.remove k).queue k.mutex) := by
  rw [queue_remove_self]
  by_cases hw : k.standing = .waiting
  · -- The front owns the mutex, so it is not the ticket that goes.
    have hs := h.served k.mutex
    simp only [hw, if_true]
    cases hq : t.queue k.mutex with
    | nil => trivial
    | cons f rest =>
      rw [hq] at hs
      have hf : f ∈ t.tickets := (mem_queue.1 (hq ▸ List.mem_cons_self : f ∈ t.queue k.mutex)).1
      have hfk : f.id ≠ k.id := fun hid => hs.1 (by rw [h.eq_of_id_eq hf hk hid, hw])
      rw [List.filter_cons_of_pos (by simpa using hfk)]
      exact ⟨hs.1, fun l hl => hs.2 l (List.mem_filter.1 hl).1⟩
  · simp only [hw, if_false]
    refine served_grantFirst ?_ ?_
    · intro l hl
      exact (mem_queue.1 (List.mem_filter.1 hl).1).2
    · intro l hl
      obtain ⟨hl, hid⟩ := List.mem_filter.1 hl
      exact h.waiting_of_ne_owner hk hw hl (by simpa using hid)

theorem WellFormed.remove (h : t.WellFormed) {k : Ticket} (hk : k ∈ t.tickets) :
    (t.remove k).WellFormed where
  accounts_nodup := h.accounts_nodup
  numbers_nodup := h.numbers_nodup
  number_lt := h.number_lt
  mutex_mem := by
    have hmem : ∀ e ∈ (t.remove k).tickets.map fun l => (l.account, l.mutex), e ∈ t.mutexes := by
      rw [map_remove (by simp)]
      intro e he
      obtain ⟨l, hl, rfl⟩ := List.mem_map.1 he
      exact h.mutex_mem l (mem_others.1 hl).1
    exact fun l hl => hmem _ (List.mem_map_of_mem hl)
  ids_increase := by
    have hids : ((t.remove k).tickets.map (·.id)).Pairwise (· < ·) := by
      rw [map_remove (by simp), List.pairwise_map]
      exact h.ids_increase.filter _
    exact List.pairwise_map.1 hids
  id_lt := by
    have hlt : ∀ i ∈ (t.remove k).tickets.map (·.id), i < t.nextTicket := by
      rw [map_remove (by simp)]
      intro i hi
      obtain ⟨l, hl, rfl⟩ := List.mem_map.1 hi
      exact h.id_lt l (mem_others.1 hl).1
    exact fun l hl => hlt _ (List.mem_map_of_mem hl)
  served := by
    intro m
    by_cases hm : m = k.mutex
    · exact hm ▸ h.served_remove_self hk
    · rw [h.queue_remove_ne hk hm]
      exact h.served m

theorem WellFormed.forget (h : t.WellFormed) (a : Address) : (t.forget a).WellFormed where
  accounts_nodup := h.accounts_nodup.sublist (List.filter_sublist.map _)
  numbers_nodup := h.numbers_nodup.sublist (List.filter_sublist.map _)
  number_lt := fun e he => h.number_lt e (List.mem_filter.1 he).1
  mutex_mem := by
    intro k hk
    refine List.mem_filter.2 ⟨h.mutex_mem k hk, ?_⟩
    simp only [Bool.or_eq_true]
    exact .inr (isUsed_iff.2 ⟨k, hk, rfl⟩)
  ids_increase := h.ids_increase
  id_lt := h.id_lt
  served := h.served

theorem WellFormed.giveUp (h : t.WellFormed) (id : Nat) : (t.giveUp id).WellFormed := by
  unfold LockTable.giveUp
  split
  · exact h
  · rename_i k hk
    have hremove := h.remove (mem_of_ticket? hk).1
    split
    · exact hremove.forget _
    · exact hremove

theorem WellFormed.move (h : t.WellFormed) (m : Move) : (t.move m).WellFormed := by
  cases m with
  | draw a => exact h.draw a
  | poll id => exact h.poll id
  | giveUp id => exact h.giveUp id

theorem wellFormed_after (moves : List Move) : (after moves).WellFormed := by
  induction moves using List.reverseRecOn with
  | nil => exact wellFormed_empty
  | append_singleton moves m ih =>
    rw [after_concat]
    exact ih.move m

end LockTable
end LedgerClient
