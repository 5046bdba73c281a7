import LedgerClient.Proofs.Submission.Queues
import Mathlib.Data.Finset.Card
import Mathlib.Data.Finset.Dedup

/-!
# Which accounts a lock table remembers

A table remembers the accounts whose mutexes it keeps.  An account with a live ticket is
remembered.  The last ticket of an account owns its mutex; if it is held when it is given up, the
account is forgotten with it.  If it had been handed the mutex and its taker had not noticed, only
the ticket goes, and the account stays behind until somebody holds its mutex again.

`tracked_eq_card` counts both kinds, over every sequence of moves.
-/

namespace LedgerClient.LockTable

open Account

/-! ## What has been given up -/

/-- The ticket that a move gives up, as it stands before. -/
def departing? (t : LockTable) : Move → Option Ticket
  | .giveUp id => t.ticket? id
  | _ => none

/-- A table and the tickets given up on the way to it, the latest first. -/
def history (moves : List Move) : LockTable × List Ticket :=
  moves.foldl (fun h m => (h.1.move m, (h.1.departing? m).toList ++ h.2)) ({}, [])

theorem history_fst (moves : List Move) : (history moves).1 = after moves := by
  induction moves using List.reverseRecOn with
  | nil => rfl
  | append_singleton moves m ih => simp [history, after] at ih ⊢; rw [ih]

/-- The tickets given up in the course of some moves, each as it stood then, the latest first. -/
def departed (moves : List Move) : List Ticket := (history moves).2

@[simp] theorem departed_nil : departed [] = [] := rfl

theorem departed_concat (moves : List Move) (m : Move) :
    departed (moves ++ [m]) = ((after moves).departing? m).toList ++ departed moves := by
  rw [← history_fst]
  simp [departed, history]

/-- How far the last ticket of an account had come that was given up. -/
def lastStanding? (moves : List Move) (a : Address) : Option Standing :=
  ((departed moves).find? (·.account == a)).map (·.standing)

theorem lastStanding?_concat (moves : List Move) (m : Move) (a : Address) :
    lastStanding? (moves ++ [m]) a =
      match (after moves).departing? m with
      | some k => if k.account = a then some k.standing else lastStanding? moves a
      | none => lastStanding? moves a := by
  unfold lastStanding?
  rw [departed_concat]
  cases (after moves).departing? m with
  | none => rfl
  | some k => by_cases ha : k.account = a <;> simp [ha]

/-! ## Who is remembered -/

/-- The accounts that have a live ticket. -/
def liveAccounts (t : LockTable) : Finset Address := (t.tickets.map (·.account)).toFinset

/-- The accounts whose mutexes the table keeps. -/
def remembered (t : LockTable) : Finset Address := (t.mutexes.map Prod.fst).toFinset

variable {t : LockTable} {a : Address}

theorem mem_liveAccounts : a ∈ t.liveAccounts ↔ ∃ k ∈ t.tickets, k.account = a := by
  simp [liveAccounts]

theorem mem_remembered : a ∈ t.remembered ↔ ∃ m, (a, m) ∈ t.mutexes := by
  simp [remembered]

theorem WellFormed.tracked_eq (h : t.WellFormed) : t.tracked = t.remembered.card := by
  rw [remembered, List.toFinset_card_of_nodup h.accounts_nodup, List.length_map, tracked]

theorem WellFormed.live_remembered (h : t.WellFormed) (ha : a ∈ t.liveAccounts) :
    a ∈ t.remembered := by
  obtain ⟨k, hk, rfl⟩ := mem_liveAccounts.1 ha
  exact mem_remembered.2 ⟨k.mutex, h.mutex_mem k hk⟩

/-! ### Drawing and polling -/

theorem mem_remembered_draw {b : Address} :
    b ∈ (t.draw a).2.remembered ↔ b ∈ t.remembered ∨ b = a := by
  simp only [mem_remembered, draw_mutexes, mem_ensureMutex, Prod.mk.injEq]
  constructor
  · rintro ⟨m, hm | ⟨rfl, -⟩⟩
    · exact .inl ⟨m, hm⟩
    · exact .inr rfl
  · rintro (⟨m, hm⟩ | rfl)
    · exact ⟨m, .inl hm⟩
    · exact ⟨_, .inr ⟨rfl, rfl⟩⟩

theorem mem_liveAccounts_draw {b : Address} :
    b ∈ (t.draw a).2.liveAccounts ↔ b ∈ t.liveAccounts ∨ b = a := by
  have hk : (t.draw a).1.account = a := by rw [draw_fst]
  simp only [mem_liveAccounts, draw_tickets, List.mem_append, List.mem_singleton]
  constructor
  · rintro ⟨k, hk' | rfl, hkb⟩
    · exact .inl ⟨k, hk', hkb⟩
    · exact .inr (hkb ▸ hk)
  · rintro (⟨k, hk', hkb⟩ | rfl)
    · exact ⟨k, .inl hk', hkb⟩
    · exact ⟨_, .inr rfl, hk⟩

theorem liveAccounts_poll (id : Nat) : (t.poll id).liveAccounts = t.liveAccounts := by
  simp [liveAccounts, poll_tickets, Function.comp_def]

/-! ### Giving up -/

@[simp] theorem remembered_remove (k : Ticket) : (t.remove k).remembered = t.remembered := rfl

@[simp] theorem liveAccounts_forget : (t.forget a).liveAccounts = t.liveAccounts := rfl

theorem mem_liveAccounts_remove {k : Ticket} :
    a ∈ (t.remove k).liveAccounts ↔ ∃ l ∈ t.others k, l.account = a := by
  rw [liveAccounts, map_remove (by simp)]
  simp

/-- Other accounts keep their tickets when a ticket goes. -/
theorem WellFormed.mem_liveAccounts_remove_of_ne (h : t.WellFormed) {k : Ticket}
    (hk : k ∈ t.tickets) (ha : k.account ≠ a) :
    a ∈ (t.remove k).liveAccounts ↔ a ∈ t.liveAccounts := by
  rw [mem_liveAccounts_remove, mem_liveAccounts]
  constructor
  · rintro ⟨l, hl, hla⟩
    exact ⟨l, (mem_others.1 hl).1, hla⟩
  · rintro ⟨l, hl, hla⟩
    have hid : l.id ≠ k.id := fun hid => ha (by rw [← hla, h.eq_of_id_eq hl hk hid])
    exact ⟨l, mem_others.2 ⟨hl, hid⟩, hla⟩

/-- A waiting ticket never leaves its account alone: somebody else owns the mutex. -/
theorem WellFormed.live_of_remove_waiting (h : t.WellFormed) {k : Ticket} (hk : k ∈ t.tickets)
    (hw : k.standing = .waiting) : k.account ∈ (t.remove k).liveAccounts := by
  obtain ⟨l, hl, hla, hlo⟩ := h.exists_owner hk
  have hid : l.id ≠ k.id := fun hid => hlo (by rw [h.eq_of_id_eq hl hk hid, hw])
  exact mem_liveAccounts_remove.2 ⟨l, mem_others.2 ⟨hl, hid⟩, hla⟩

theorem mem_mutexes_forget {e : Address × Nat} :
    e ∈ (t.forget a).mutexes ↔ e ∈ t.mutexes ∧ (e.1 = a → ∃ k ∈ t.tickets, k.mutex = e.2) := by
  rw [← isUsed_iff]
  by_cases hea : e.1 = a <;> simp [forget, hea]

/-- An account is forgotten exactly if no ticket stands at its mutex. -/
theorem WellFormed.mem_remembered_forget (h : t.WellFormed) {b : Address} :
    b ∈ (t.forget a).remembered ↔ b ∈ t.remembered ∧ (b = a → b ∈ t.liveAccounts) := by
  simp only [mem_remembered, mem_mutexes_forget]
  constructor
  · rintro ⟨m, hm, hused⟩
    refine ⟨⟨m, hm⟩, fun hba => ?_⟩
    obtain ⟨k, hk, hkm⟩ := hused hba
    have hkb : (k.account, k.mutex) = (b, m) :=
      List.inj_on_of_nodup_map h.numbers_nodup (h.mutex_mem k hk) hm hkm
    exact mem_liveAccounts.2 ⟨k, hk, congrArg Prod.fst hkb⟩
  · rintro ⟨⟨m, hm⟩, hlive⟩
    refine ⟨m, hm, fun hba => ?_⟩
    obtain ⟨k, hk, hkb⟩ := mem_liveAccounts.1 (hlive hba)
    have hkm : (k.account, k.mutex) = (b, m) :=
      List.inj_on_of_nodup_map h.accounts_nodup (h.mutex_mem k hk) hm hkb
    exact ⟨k, hk, congrArg Prod.snd hkm⟩

/-! ## The account of all moves -/

/-- An account is remembered exactly if it has a live ticket or its last one went unnoticed. -/
theorem mem_remembered_after (moves : List Move) (a : Address) :
    a ∈ (after moves).remembered ↔
      a ∈ (after moves).liveAccounts ∨ lastStanding? moves a = some .granted := by
  induction moves using List.reverseRecOn with
  | nil => simp [remembered, liveAccounts, lastStanding?]
  | append_singleton moves m ih =>
    have h := wellFormed_after moves
    rw [after_concat, lastStanding?_concat]
    cases m with
    | draw b =>
      rw [move, mem_remembered_draw, mem_liveAccounts_draw, ih]
      simp only [departing?]
      tauto
    | poll id =>
      rw [move, liveAccounts_poll]
      exact ih
    | giveUp id =>
      simp only [move, giveUp, departing?]
      cases hk : (after moves).ticket? id with
      | none => exact ih
      | some k =>
        have hmem := (mem_of_ticket? hk).1
        have hlive : k.account ∈ (after moves).remembered :=
          h.live_remembered (mem_liveAccounts.2 ⟨k, hmem, rfl⟩)
        have hforget := (h.remove hmem).mem_remembered_forget (a := k.account) (b := a)
        by_cases hka : k.account = a
        · subst hka
          cases hs : k.standing with
          | waiting => simp [hs, hlive, h.live_of_remove_waiting hmem hs]
          | granted => simp [hs, hlive]
          | held => simp [hs, hforget, hlive]
        · have hother := h.mem_liveAccounts_remove_of_ne hmem hka
          by_cases hs : k.standing = .held <;>
            simp [hs, hforget, hka, Ne.symm hka, hother, ih]

/-- The accounts whose last ticket was given up after the mutex had been handed to it and before
its taker noticed. -/
def unnoticed (moves : List Move) : Finset Address :=
  ((departed moves).map (·.account)).toFinset.filter fun a =>
    lastStanding? moves a = some .granted

theorem mem_unnoticed (moves : List Move) :
    a ∈ unnoticed moves ↔ lastStanding? moves a = some .granted := by
  simp only [unnoticed, Finset.mem_filter, List.mem_toFinset, List.mem_map, and_iff_right_iff_imp]
  intro h
  obtain ⟨k, hk, -⟩ := Option.map_eq_some_iff.1 h
  exact ⟨k, List.mem_of_find?_eq_some hk, by simpa using List.find?_some hk⟩

theorem remembered_after (moves : List Move) :
    (after moves).remembered = (after moves).liveAccounts ∪ unnoticed moves := by
  ext a
  rw [mem_remembered_after, Finset.mem_union, mem_unnoticed]

/-- A table tracks the accounts that somebody holds or waits for, and besides exactly those that
were left behind unnoticed; so it tracks nobody else if and only if nobody was left behind. -/
theorem tracked_eq_card_live (moves : List Move) :
    (after moves).tracked =
        (after moves).liveAccounts.card + (unnoticed moves \ (after moves).liveAccounts).card ∧
      ((after moves).tracked = (after moves).liveAccounts.card ↔
        ∀ a, lastStanding? moves a = some .granted →
          ∃ k ∈ (after moves).tickets, k.account = a) := by
  have hcount : (after moves).tracked =
      (after moves).liveAccounts.card + (unnoticed moves \ (after moves).liveAccounts).card := by
    rw [(wellFormed_after moves).tracked_eq, remembered_after, ← Finset.union_sdiff_self_eq_union]
    exact Finset.card_union_of_disjoint Finset.disjoint_sdiff
  refine ⟨hcount, ?_⟩
  calc (after moves).tracked = (after moves).liveAccounts.card
      ↔ unnoticed moves \ (after moves).liveAccounts = ∅ := by
        rw [hcount, ← Finset.card_eq_zero]
        omega
    _ ↔ unnoticed moves ⊆ (after moves).liveAccounts := Finset.sdiff_eq_empty_iff_subset
    _ ↔ ∀ a, lastStanding? moves a = some .granted →
          ∃ k ∈ (after moves).tickets, k.account = a := by
        simp only [Finset.subset_iff, mem_unnoticed, mem_liveAccounts]

/-- A ticket that is handed the mutex and given up before its taker notices leaves its account
tracked, with nobody there. -/
theorem tracked_without_ticket :
    let t := after [.draw default, .draw default, .giveUp 0, .giveUp 1]
    t.tickets = [] ∧ t.tracked = 1 ∧ t.tracked ≠ t.liveAccounts.card := by
  refine ⟨?_, ?_, ?_⟩ <;> decide

end LedgerClient.LockTable
