import LedgerClient.Proofs.Wire.Extension

/-!
# The number that an enumeration field carries

A message may repeat a field that it has only once.  The last number on the wire then counts, cut
to 32 bits, whether or not it names a value of the enumeration; without the field the number is
zero.  `Layout.enumeration?_of_decode` says so of every layout without maps, and of every way in
which its bytes fall into fields.

It rests on this: what reads a value ends where passing over the value would have ended.  So the
fields that are read are those that are spelled, one by one.  Maps are left out since the wire type
of their entries is not looked at.
-/

namespace LedgerClient.Wire

/-! ## Reading and passing over -/

variable {n budget : Nat} {w : WireType} {b rest : Bytes}

/-- A value that is read could also have been passed over. -/
theorem skipValue_of_read {s : Scalar} {v : s.Value} (h : s.read w b = .ok (v, rest)) :
    skipValue (budget + 1) n w b = .ok rest := by
  have ofNumber {x : Nat} (hx : Varint.read b = .ok (x, rest)) :
      skipValue (budget + 1) n .varint b = .ok rest := by
    rw [skipValue, hx]
    rfl
  have ofDelimited {x : Bytes} (hx : readDelimited b = .ok (x, rest)) :
      skipValue (budget + 1) n .lengthDelimited b = .ok rest := by
    rw [skipValue, hx]
    rfl
  unfold Scalar.read at h
  split at h
  · cases h
  · rename_i hwire
    obtain rfl := not_not.1 hwire
    cases s with
    | string =>
      simp only at h
      split at h
      · cases h
      · rename_i hx
        split at h
        · cases h
        · cases h
          exact ofDelimited hx
    | bytes => exact ofDelimited h
    | uint64 | int64 | int32 | bool | enumeration _ =>
      simp only at h
      split at h
      · cases h
      · rename_i hx
        cases h
        exact ofNumber hx

theorem skipValue_of_mergeNested {α : Type}
    {step : Nat → α → Bytes → Except DecodeError (α × Bytes)}
    (hstep : ∀ budget, IsLocal (step budget)) {a a' : α}
    (h : requireDelimited w (mergeNested step (budget + 1) a b) = .ok (a', rest)) :
    skipValue (budget + 1) n w b = .ok rest := by
  unfold requireDelimited at h
  split at h
  · rename_i hwire
    obtain ⟨x, body, hx, rfl, -⟩ := exists_of_mergeNested hstep h
    rw [hwire, skipValue, readDelimited_eq_ok_iff.2 ⟨x, hx, rfl⟩]
    rfl
  · cases h

namespace Layout

/-- None of the fields is a map. -/
def Mapless : Layout → Prop
  | .done => True
  | .one _ _ _ rest | .many _ _ _ rest | .message _ _ _ _ rest | .messages _ _ _ _ rest =>
    rest.Mapless
  | .map .. => False

variable {owner : String}

/-- A field behind the first one was read. -/
theorem exists_of_map_map {α β γ ε : Type} {o : Option (Except ε (α × γ))} {x : β} {r : β × α}
    {c : γ} (h : (o.map (·.map fun (s, c) => ((x, s), c))) = some (.ok (r, c))) :
    o = some (.ok (r.2, c)) ∧ r.1 = x := by
  obtain ⟨e, rfl, he⟩ := Option.map_eq_some_iff.1 h
  obtain ⟨⟨s, c'⟩, rfl, hs⟩ := map_eq_ok_iff.1 he
  cases hs
  exact ⟨rfl, rfl⟩

theorem skipValue_of_mergeValue {l : Layout} (hl : l.Mapless) {r r' : Record l}
    (h : l.mergeValue owner (budget + 1) n w b r = some (.ok (r', rest))) :
    skipValue (budget + 1) n w b = .ok rest := by
  induction l with
  | done => cases h
  | one m name type l ih | many m name type l ih =>
    rw [mergeValue] at h
    split at h
    · obtain ⟨⟨v, rest'⟩, hread, hv⟩ := map_eq_ok_iff.1 (Option.some.inj h)
      cases hv
      exact skipValue_of_read (mapError_eq_ok_iff.1 hread)
    · exact ih hl (exists_of_map_map h).1
  | message m name typeName inner l _ ih | messages m name typeName inner l _ ih =>
    rw [mergeValue] at h
    split at h
    · obtain ⟨⟨v, rest'⟩, hread, hv⟩ := map_eq_ok_iff.1 (Option.some.inj h)
      cases hv
      exact skipValue_of_mergeNested (inner.isLocal_mergeField typeName)
        (mapError_eq_ok_iff.1 hread)
    · exact ih hl (exists_of_map_map h).1
  | map => exact hl.elim

/-- A field that is read could also have been passed over. -/
theorem exists_of_mergeField {l : Layout} (hl : l.Mapless) {r r' : Record l}
    (h : l.mergeField owner (budget + 1) r b = .ok (r', rest)) :
    ∃ key, readKey b = .ok key ∧
      skipValue (budget + 1) key.number key.wire key.rest = .ok rest := by
  unfold mergeField mergeValue.mergeFieldBy at h
  split at h
  · cases h
  · rename_i key hkey
    refine ⟨key, hkey, ?_⟩
    split at h
    · rename_i hvalue
      exact skipValue_of_mergeValue hl (hvalue.trans (congrArg some h))
    · obtain ⟨rest', hskip, hrest⟩ := map_eq_ok_iff.1 h
      cases hrest
      exact mapError_eq_ok_iff.1 hskip

/-- Whatever can be read consists of fields. -/
theorem spellsFields_of_runs {l : Layout} (hl : l.Mapless) {r r' : Record l} {b : Bytes}
    (h : Runs (l.mergeField owner (budget + 1)) r b r') :
    ∃ fields, SpellsFields (budget + 1) fields b := by
  induction h with
  | nil => exact ⟨[], .nil⟩
  | @cons r r₁ r' x b hx htakes _ ih =>
    obtain ⟨fields, hfields⟩ := ih
    have hstep := htakes []
    obtain ⟨key, hkey, hskip⟩ := exists_of_mergeField hl hstep
    obtain ⟨k, hk, hxk⟩ := readKey_eq_ok_iff.1 hkey
    obtain ⟨c, value, hwire, hvalue, hrest⟩ := skipValue_eq_ok_iff.1 hskip
    have hxk : x = k ++ value := by simpa [hrest] using hxk
    exact ⟨(key.number, c) :: fields, hxk ▸ .cons (hwire ▸ hk) hvalue hfields⟩

end Layout

/-! ## Enumeration fields -/

/-- The number that a scalar field holds if it is an enumeration. -/
def Scalar.number? : (s : Scalar) → s.Value → Option Int32
  | .enumeration _, v => some v
  | _, _ => none

/-- The number that a content holds, cut to 32 bits. -/
def Content.number? : Content → Option Int32
  | varint n => some (UInt32.ofNat n).toInt32
  | _ => none

/-- The numbers that fields of a number hold on the wire, in their order. -/
def carriedNumbers (m : Nat) (fields : List (Nat × Content)) : List Int32 :=
  fields.filterMap fun f => if f.1 = m then f.2.number? else none

theorem carriedNumbers_cons (m : Nat) (f : Nat × Content) (fields : List (Nat × Content)) :
    carriedNumbers m (f :: fields) = carriedNumbers m [f] ++ carriedNumbers m fields := by
  rw [carriedNumbers, carriedNumbers, carriedNumbers, ← List.filterMap_append]
  rfl

/-- A number that is read is cut to 32 bits. -/
theorem Scalar.number?_of_read {s : Scalar} {u v : s.Value} {number : Int32}
    (h : s.read w b = .ok (v, rest)) (hu : s.number? u = some number) :
    w = .varint ∧ ∃ x, Varint.read b = .ok (x, rest) ∧
      s.number? v = some (UInt32.ofNat x).toInt32 := by
  cases s with
  | enumeration e =>
    unfold Scalar.read at h
    split at h
    · cases h
    · rename_i hwire
      simp only at h
      split at h
      · cases h
      · rename_i x rest' hx
        cases h
        exact ⟨not_not.1 hwire, x, hx, rfl⟩
  | _ => cases hu

namespace Layout

/-- The number that the enumeration field of a number holds, if there is such a field. -/
def enumeration? (n : Nat) : (l : Layout) → Record l → Option Int32
  | .done, _ => none
  | .one m _ type rest, r => if m = n then type.number? r.1 else rest.enumeration? n r.2
  | .many m _ _ rest, r | .message m _ _ _ rest, r | .messages m _ _ _ rest, r | .map m _ rest, r =>
    if m = n then none else rest.enumeration? n r.2

variable {owner : String} {m : Nat} {number : Int32}

/-- Only a field of its own number changes the number that an enumeration field holds. -/
theorem enumeration?_of_mergeValue {l : Layout} {r r' : Record l}
    (h : l.mergeValue owner budget n w b r = some (.ok (r', rest)))
    (hnumber : l.enumeration? m r = some number) :
    (n ≠ m → l.enumeration? m r' = some number) ∧
      (n = m → w = .varint ∧ ∃ x, Varint.read b = .ok (x, rest) ∧
        l.enumeration? m r' = some (UInt32.ofNat x).toInt32) := by
  induction l with
  | done => cases h
  | one p name type l ih =>
    rw [mergeValue] at h
    by_cases hpm : p = m
    · simp only [enumeration?, if_pos hpm] at hnumber ⊢
      split at h
      · rename_i hp
        obtain ⟨⟨v, rest'⟩, hread, hv⟩ := map_eq_ok_iff.1 (Option.some.inj h)
        cases hv
        exact ⟨fun hne => absurd (hp.symm.trans hpm) hne,
          fun _ => Scalar.number?_of_read (mapError_eq_ok_iff.1 hread) hnumber⟩
      · rename_i hp
        obtain ⟨-, hfirst⟩ := exists_of_map_map h
        exact ⟨fun _ => hfirst ▸ hnumber, fun heq => absurd (hpm.trans heq.symm) hp⟩
    · simp only [enumeration?, if_neg hpm] at hnumber ⊢
      split at h
      · rename_i hp
        obtain ⟨⟨v, rest'⟩, -, hv⟩ := map_eq_ok_iff.1 (Option.some.inj h)
        cases hv
        exact ⟨fun _ => hnumber, fun heq => absurd (hp.trans heq) hpm⟩
      · exact ih (exists_of_map_map h).1 hnumber
  | many p name type l ih | message p name typeName inner l _ ih
  | messages p name typeName inner l _ ih | map p name l ih =>
    rw [mergeValue] at h
    by_cases hpm : p = m
    · simp only [enumeration?, if_pos hpm] at hnumber
      cases hnumber
    · simp only [enumeration?, if_neg hpm] at hnumber ⊢
      split at h
      · rename_i hp
        obtain ⟨⟨v, rest'⟩, -, hv⟩ := map_eq_ok_iff.1 (Option.some.inj h)
        cases hv
        exact ⟨fun _ => hnumber, fun heq => absurd (hp.trans heq) hpm⟩
      · exact ih (exists_of_map_map h).1 hnumber

theorem mem_numbers_of_enumeration? {l : Layout} {r : Record l}
    (h : l.enumeration? m r = some number) : m ∈ l.numbers := by
  induction l with
  | done => cases h
  | one p _ _ _ ih | many p _ _ _ ih | message p _ _ _ _ _ ih | messages p _ _ _ _ _ ih
  | map p _ _ ih =>
    by_cases hpm : p = m
    · exact List.mem_cons.2 (.inl hpm.symm)
    · rw [enumeration?, if_neg hpm] at h
      exact List.mem_cons_of_mem _ (ih h)

/-- The number is the one that a field of its own number on the wire holds, or else the one
before. -/
theorem enumeration?_of_mergeField {l : Layout} {r r' : Record l} {key value : Bytes} {c : Content}
    (hkey : IsKey key n c.wire) (hvalue : c.Spells (budget + 1) n value)
    (h : l.mergeField owner (budget + 1) r (key ++ value ++ b) = .ok (r', b))
    (hnumber : l.enumeration? m r = some number) :
    l.enumeration? m r' = some ((carriedNumbers m [(n, c)]).getLastD number) := by
  rw [mergeField, mergeValue.mergeFieldBy, hkey.readKey_append] at h
  simp only at h
  split at h
  · rename_i result hresult
    subst h
    obtain ⟨hother, hown⟩ := enumeration?_of_mergeValue hresult hnumber
    by_cases hn : n = m
    · obtain ⟨hwire, x, hx, hr'⟩ := hown hn
      cases c with
      | varint y =>
        have hy : Varint.Spells value y := hvalue
        rw [Varint.read_eq_ok_iff.2 ⟨value, hy, rfl⟩] at hx
        cases hx
        rw [hr']
        simp [carriedNumbers, Content.number?, hn]
      | _ => cases hwire
    · rw [hother hn]
      simp [carriedNumbers, hn]
  · rename_i hnone
    obtain ⟨_, -, hr'⟩ := map_eq_ok_iff.1 h
    cases hr'
    have hn : n ≠ m := by
      rintro rfl
      obtain ⟨read, -, hsome⟩ := l.hasReaders owner (budget + 1) n
        (mem_numbers_of_enumeration? hnumber) c.wire r
      cases hnone.symm.trans (hsome _)
    simpa [carriedNumbers, hn] using hnumber

/-- The last number on the wire counts, or else the one before. -/
theorem enumeration?_of_mergeUntil {l : Layout} (hl : l.Mapless) {fields : List (Nat × Content)}
    (hfields : SpellsFields (budget + 1) fields b) {r r' : Record l}
    (h : mergeUntil (l.mergeField owner (budget + 1)) 0 r b = .ok (r', rest))
    (hnumber : l.enumeration? m r = some number) :
    l.enumeration? m r' = some ((carriedNumbers m fields).getLastD number) := by
  induction hfields generalizing r number with
  | nil =>
    rw [mergeUntil_done (Nat.le_refl 0)] at h
    cases h
    exact hnumber
  | @cons key value b n c fields hkey hvalue _ ih =>
    have hpos := List.length_pos_of_ne_nil hkey.ne_nil
    rw [mergeUntil, if_neg (by simp [hkey.ne_nil])] at h
    split at h
    · cases h
    · rename_i r₁ b₁ hstep
      -- The reader ends where the field does, since it could have been passed over.
      obtain ⟨k, hk, hskip⟩ := exists_of_mergeField hl hstep
      cases (hkey.readKey_append value b).symm.trans hk
      obtain rfl : b = b₁ := Except.ok.inj ((skipValue_of_spells hvalue b).symm.trans hskip)
      rw [if_pos (by simp; omega)] at h
      rw [ih h (enumeration?_of_mergeField hkey hvalue hstep hnumber),
        carriedNumbers_cons m (n, c) fields]
      simp only [List.getLastD_eq_getLast?, List.getLast?_append, Option.getD_or]

/-- Bytes that can be read consist of fields, and an enumeration field then holds the number that
they carry last, or zero. -/
theorem enumeration?_of_decode {l : Layout} (hl : l.Mapless) {label : String} {r : Record l}
    (h : l.decode label b = .ok r) (hempty : l.enumeration? m l.empty = some 0) :
    (∃ fields, SpellsFields nestingLimit fields b) ∧
      ∀ fields, SpellsFields nestingLimit fields b →
        l.enumeration? m r = some ((carriedNumbers m fields).getLastD 0) := by
  obtain ⟨⟨_, rest⟩, hrun, rfl⟩ := map_eq_ok_iff.1 h
  refine ⟨?_, fun fields hfields => enumeration?_of_mergeUntil hl hfields hrun hempty⟩
  obtain ⟨x, hx, rfl, hrest⟩ := (l.isLocal_mergeField label nestingLimit).runs_of_mergeUntil hrun
  rw [List.length_eq_zero_iff.1 (Nat.le_zero.1 hrest), List.append_nil]
  exact spellsFields_of_runs hl hx

end Layout
end LedgerClient.Wire
