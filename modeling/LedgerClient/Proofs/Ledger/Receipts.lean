import LedgerClient.Ledger.Receipt
import LedgerClient.Proofs.Wire.Enumerations

/-!
# Receipts that report success

A receipt carries the number of its status, and a number that names no status is read as `SUCCESS`.
So a receipt reports success for every number but that of `FAILED`.
`Receipt.isSuccess_iff_of_decode` says so of every receipt that can be read, with the number taken
from the bytes.
-/

namespace LedgerClient.Ledger

open Wire

/-- The number of the status that the fields of a receipt carry. -/
def Receipt.carriedStatus (fields : List (Nat × Content)) : Int32 :=
  (carriedNumbers 4 fields).getLastD 0

namespace Receipt

theorem statuses_name? (v : Int32) :
    statuses.name? v = if v = 0 then some "SUCCESS" else if v = 1 then some "FAILED" else none := by
  by_cases h0 : v = 0
  · subst h0
    rfl
  · by_cases h1 : v = 1
    · subst h1
      rfl
    · have h0' : ((0 : Int32) == v) = false := beq_false_of_ne (Ne.symm h0)
      have h1' : ((1 : Int32) == v) = false := beq_false_of_ne (Ne.symm h1)
      simp only [Enumeration.name?, statuses, List.find?_cons, h0', h1', if_neg h0, if_neg h1]
      rfl

/-- A number that names no status reads as `SUCCESS`. -/
theorem isSuccess_iff (r : Receipt) : r.isSuccess = true ↔ r.status ≠ 1 := by
  rw [isSuccess, statusName, Enumeration.nameOrDefault, statuses_name?]
  split
  · rename_i h
    exact iff_of_true rfl (h ▸ by decide)
  · split
    · rename_i h
      exact iff_of_false (by decide) (not_not.2 h)
    · rename_i h
      exact iff_of_true rfl h

/-- A receipt that was read carries its status on the wire, and reports success exactly for those
numbers that do not name the status `FAILED`.  It so reports the status `SUCCESS` and no other
exactly if the number names a status at all. -/
theorem isSuccess_iff_of_decode {b : Bytes} {r : Receipt} (h : Message.decode b = .ok r) :
    (∃ fields, SpellsFields nestingLimit fields b) ∧
      ∀ fields, SpellsFields nestingLimit fields b →
        r.status = carriedStatus fields ∧
        (r.isSuccess = true ↔ carriedStatus fields ≠ 1) ∧
        ((r.isSuccess = true ↔ carriedStatus fields = 0) ↔
          (statuses.name? (carriedStatus fields)).isSome) := by
  obtain ⟨m, hm, rfl⟩ := map_eq_ok_iff.1 h
  have hlayout : (Message.layout Receipt).Mapless := trivial
  obtain ⟨hspelled, hlast⟩ := @Layout.enumeration?_of_decode b 4 _ hlayout _ m hm rfl
  refine ⟨hspelled, fun fields hfields => ?_⟩
  have hstatus : (Message.ofRecord m : Receipt).status = carriedStatus fields :=
    Option.some.inj (hlast fields hfields)
  have hsuccess := isSuccess_iff (Message.ofRecord m)
  rw [hstatus] at hsuccess
  refine ⟨hstatus, hsuccess, ?_⟩
  rw [hsuccess, statuses_name?]
  by_cases hsucceeded : carriedStatus fields = 0
  · simp [hsucceeded]
  · by_cases hfailed : carriedStatus fields = 1 <;> simp [hsucceeded, hfailed]

/-- The status `FAILED` and after it a number of 33 bits, of which 32 count: the receipt carries the
status `SUCCESS`. -/
theorem isSuccess_iff_of_decode_repeated :
    let b : Bytes := [32, 1, 32, 128, 128, 128, 128, 16]
    let fields := [(4, Content.varint 1), (4, .varint 4294967296)]
    Message.decode b = .ok ({} : Receipt) ∧ SpellsFields nestingLimit fields b ∧
      (({} : Receipt).isSuccess = true ↔ carriedStatus fields = 0) := by
  intro b fields
  have hkey : IsKey [32] 4 .varint := by decide +kernel
  have hone : Varint.Spells [1] 1 := by decide +kernel
  have hlarge : Varint.Spells [128, 128, 128, 128, 16] 4294967296 := by decide +kernel
  have hfields : SpellsFields nestingLimit fields b :=
    @AreFields.cons _ [32] [1] _ 4 (.varint 1) _ hkey hone <|
    @AreFields.cons _ [32] [128, 128, 128, 128, 16] [] 4 (.varint 4294967296) [] hkey hlarge .nil
  have hdecode : Message.decode b = .ok ({} : Receipt) := by decide +kernel
  exact ⟨hdecode, hfields, ((isSuccess_iff_of_decode hdecode).2 fields hfields).2.2.2 (by decide)⟩

/-- The number 2 names no status, and the receipt that carries it reports success. -/
theorem unknown_status_reported_successful :
    ∃ (b : Bytes) (r : Receipt) (fields : List (Nat × Content)),
      Message.decode b = .ok r ∧ SpellsFields nestingLimit fields b ∧
      carriedStatus fields = 2 ∧ r.isSuccess = true := by
  have hkey : IsKey [32] 4 .varint := by decide +kernel
  have htwo : Varint.Spells [2] 2 := by decide +kernel
  exact ⟨[32, 2], { status := 2 }, [(4, .varint 2)], by decide +kernel,
    @AreFields.cons _ [32] [2] [] 4 (.varint 2) [] hkey htwo .nil, by decide, by decide⟩

end Receipt
end LedgerClient.Ledger
