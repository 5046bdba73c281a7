import LedgerClient.Bytes

/-!
# Maps from text to byte strings

The entries are kept in strictly increasing order of their keys, so that two maps with the same
entries are equal.  Inserting under a key that is present replaces its value.
-/

namespace LedgerClient.Wire

namespace ByteMap

/-- Puts an entry into a list of entries in increasing order of keys. -/
def insertEntry (key : String) (value : Bytes) :
    List (String × Bytes) → List (String × Bytes)
  | [] => [(key, value)]
  | e :: es =>
    if key < e.1 then (key, value) :: e :: es
    else if key = e.1 then (key, value) :: es
    else e :: insertEntry key value es

/-- The keys increase strictly. -/
def Sorted (es : List (String × Bytes)) : Prop := es.Pairwise fun a b => a.1 < b.1

theorem mem_insertEntry {key : String} {value : Bytes} {es : List (String × Bytes)}
    {e : String × Bytes} (h : e ∈ insertEntry key value es) : e = (key, value) ∨ e ∈ es := by
  induction es with
  | nil => simpa [insertEntry] using h
  | cons x es ih =>
    simp only [insertEntry] at h
    split at h
    · simpa using h
    · split at h
      · rcases List.mem_cons.1 h with h | h
        · exact .inl h
        · exact .inr (List.mem_cons_of_mem _ h)
      · rcases List.mem_cons.1 h with h | h
        · exact .inr (h ▸ List.mem_cons_self)
        · exact (ih h).imp_right (List.mem_cons_of_mem _)

theorem sorted_insertEntry (key : String) (value : Bytes) {es : List (String × Bytes)}
    (h : Sorted es) : Sorted (insertEntry key value es) := by
  induction es with
  | nil => simp [Sorted, insertEntry]
  | cons x es ih =>
    obtain ⟨hx, hes⟩ := List.pairwise_cons.1 h
    simp only [insertEntry]
    split
    · rename_i hlt
      refine List.pairwise_cons.2 ⟨fun y hy => ?_, h⟩
      rcases List.mem_cons.1 hy with rfl | hy
      · exact hlt
      · exact String.lt_trans hlt (hx y hy)
    · split
      · rename_i heq
        subst heq
        exact List.pairwise_cons.2 ⟨hx, hes⟩
      · rename_i hlt hne
        refine List.pairwise_cons.2 ⟨fun y hy => ?_, ih hes⟩
        rcases mem_insertEntry hy with rfl | hy
        · exact Std.lt_of_le_of_ne (Std.not_lt.1 hlt) (Ne.symm hne)
        · exact hx y hy

end ByteMap

/-- A map from text to byte strings. -/
structure ByteMap where
  entries : List (String × Bytes)
  sorted : ByteMap.Sorted entries := by exact List.Pairwise.nil

namespace ByteMap

@[ext] theorem ext {a b : ByteMap} (h : a.entries = b.entries) : a = b := by
  cases a; cases b; cases h; rfl

instance : DecidableEq ByteMap := fun a b =>
  decidable_of_iff (a.entries = b.entries) ⟨ext, fun h => h ▸ rfl⟩

/-- The map without entries. -/
def empty : ByteMap := { entries := [] }

instance : Inhabited ByteMap := ⟨empty⟩

/-- Puts `value` under `key`, in place of any value there. -/
def insert (m : ByteMap) (key : String) (value : Bytes) : ByteMap :=
  ⟨insertEntry key value m.entries, sorted_insertEntry key value m.sorted⟩

/-- The map that holds the entries of `es`, of equal keys the last. -/
def ofList (es : List (String × Bytes)) : ByteMap :=
  es.foldl (fun m e => m.insert e.1 e.2) empty

end ByteMap
end LedgerClient.Wire
