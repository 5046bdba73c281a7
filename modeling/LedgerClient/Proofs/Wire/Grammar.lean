import LedgerClient.Proofs.Wire.RoundTrip

/-!
# The grammar of fields on the wire

What a run of bytes says, told without a reader: which fields it consists of, one after the other,
and what they hold.  A number may be spelled with more groups than it needs.  A group holds fields
again, and groups nest less deep than a given limit.

The readers accept this grammar and nothing else: `Varint.read_eq_ok_iff`, `readKey_eq_ok_iff`,
`readDelimited_eq_ok_iff` and, for the value of a field of any wire type, `skipValue_eq_ok_iff`.
-/

namespace LedgerClient.Wire

/-! ## Numbers -/

namespace Varint

/-- Groups of seven bits, the lowest first.  Every byte but the last has its high bit set. -/
inductive Groups : Bytes → Nat → Prop where
  | last {x : UInt8} (h : x < 128) : Groups [x] x.toNat
  | more {x : UInt8} {b : Bytes} {n : Nat} (h : ¬ x < 128) (hb : Groups b n) :
    Groups (x :: b) (x.toNat % 128 + 128 * n)

/-- The bytes spell a 64-bit number. -/
structure Spells (b : Bytes) (n : Nat) : Prop where
  groups : Groups b n
  length_le : b.length ≤ 10
  lt : n < UInt64.size

theorem Groups.length_pos {b : Bytes} {n : Nat} (h : Groups b n) : 0 < b.length := by
  cases h <;> simp

theorem readGroups_of_groups {x : Bytes} {n k : Nat} (h : Groups x n) (hlength : x.length ≤ k + 1)
    (hn : n < 2 * Nat.pow 128 k) (rest : Bytes) :
    readGroups (k + 1) (x ++ rest) = some (n, rest) := by
  induction h generalizing k with
  | @last x hx =>
    rw [List.singleton_append, readGroups, if_pos hx, if_neg]
    rintro ⟨rfl, hlarge⟩
    replace hn : x.toNat < 2 := hn
    rw [UInt8.lt_iff_toNat_lt, UInt8.toNat_one] at hlarge
    omega
  | @more x b n hx hb ih =>
    have hpos := hb.length_pos
    rw [List.length_cons] at hlength
    obtain ⟨k, rfl⟩ := Nat.exists_eq_succ_of_ne_zero (show k ≠ 0 by omega)
    replace hn : x.toNat % 128 + 128 * n < 2 * (Nat.pow 128 k * 128) := hn
    rw [List.cons_append, readGroups, if_neg hx, ih (by omega) (by omega)]
    rfl

theorem groups_of_readGroups {k n : Nat} {b rest : Bytes}
    (h : readGroups (k + 1) b = some (n, rest)) :
    ∃ x, Groups x n ∧ x.length ≤ k + 1 ∧ n < 2 * Nat.pow 128 k ∧ b = x ++ rest := by
  induction k generalizing b n with
  | zero =>
    cases b with
    | nil => simp [readGroups] at h
    | cons x b =>
      rw [readGroups] at h
      split at h
      · rename_i hx
        split at h
        · cases h
        · rename_i hsmall
          cases h
          have hle : ¬ 1 < x := fun hlt => hsmall ⟨rfl, hlt⟩
          rw [UInt8.lt_iff_toNat_lt, UInt8.toNat_one] at hle
          exact ⟨[x], .last hx, by simp, by simp; omega, rfl⟩
      · cases b <;> simp [readGroups] at h
  | succ k ih =>
    cases b with
    | nil => simp [readGroups] at h
    | cons x b =>
      rw [readGroups] at h
      split at h
      · rename_i hx
        rw [if_neg (by simp)] at h
        cases h
        rw [UInt8.lt_iff_toNat_lt] at hx
        have hpow : 0 < Nat.pow 128 k := Nat.pow_pos (by decide)
        have hlt : x.toNat < 2 * (Nat.pow 128 k * 128) := by
          have : x.toNat < 128 := hx
          omega
        exact ⟨[x], .last (UInt8.lt_iff_toNat_lt.2 hx), by simp, hlt, rfl⟩
      · rename_i hx
        obtain ⟨⟨m, r⟩, hm, hr⟩ := Option.map_eq_some_iff.1 h
        cases hr
        obtain ⟨y, hy, hlength, hlt, rfl⟩ := ih hm
        have hlt : x.toNat % 128 + 128 * m < 2 * (Nat.pow 128 k * 128) := by omega
        exact ⟨x :: y, .more hx hy, by simpa using hlength, hlt, rfl⟩

/-- A number is read if the bytes begin with a spelling of it, and no further. -/
theorem read_eq_ok_iff {b rest : Bytes} {n : Nat} :
    read b = .ok (n, rest) ↔ ∃ x, Spells x n ∧ b = x ++ rest := by
  constructor
  · intro h
    unfold read at h
    split at h
    · rename_i hr
      cases h
      obtain ⟨x, hx, hlength, hlt, rfl⟩ := groups_of_readGroups (k := 9) hr
      exact ⟨x, ⟨hx, hlength, hlt⟩, rfl⟩
    · cases h
  · rintro ⟨x, hx, rfl⟩
    rw [read, readGroups_of_groups (k := 9) hx.groups hx.length_le hx.lt]

theorem spells_iff {b : Bytes} {n : Nat} : Spells b n ↔ read b = .ok (n, []) := by
  simp [read_eq_ok_iff]

instance (b : Bytes) (n : Nat) : Decidable (Spells b n) := decidable_of_iff' _ spells_iff

end Varint

/-! ## Keys and delimited bytes -/

/-- The bytes spell the key of a field. -/
def IsKey (b : Bytes) (number : Nat) (wire : WireType) : Prop :=
  Varint.Spells b (8 * number + wire.number) ∧ IsFieldNumber number

instance (b : Bytes) (n : Nat) (w : WireType) : Decidable (IsKey b n w) :=
  inferInstanceAs (Decidable (_ ∧ _))

theorem IsKey.ne_nil {b : Bytes} {n : Nat} {w : WireType} (h : IsKey b n w) : b ≠ [] :=
  List.ne_nil_of_length_pos h.1.groups.length_pos

theorem WireType.number_of_ofNumber? {n : Nat} {w : WireType} (h : WireType.ofNumber? n = some w) :
    w.number = n := by
  unfold WireType.ofNumber? at h
  split at h <;> cases h <;> rfl

theorem readKey_eq_ok_iff {b : Bytes} {key : KeyAt} :
    readKey b = .ok key ↔ ∃ x, IsKey x key.number key.wire ∧ b = x ++ key.rest := by
  constructor
  · intro h
    unfold readKey at h
    split at h
    · cases h
    · rename_i code rest hread
      split at h
      · cases h
      · rename_i hfits
        split at h
        · cases h
        · rename_i wire hwire
          split at h
          · cases h
          · rename_i hnumber
            cases h
            obtain ⟨x, hx, rfl⟩ := Varint.read_eq_ok_iff.1 hread
            have hlow := WireType.number_of_ofNumber? hwire
            have hcode : 8 * (code / 8) + wire.number = code := by omega
            have hlt : code / 8 < UInt32.size / 8 :=
              Nat.div_lt_div_of_lt_of_dvd (by decide) (Nat.lt_of_not_le hfits)
            exact ⟨x, ⟨by simpa only [hcode] using hx, Nat.pos_of_ne_zero hnumber, hlt⟩, rfl⟩
  · obtain ⟨n, w, rest⟩ := key
    rintro ⟨x, ⟨hx, hpos, hlt⟩, rfl⟩
    have hw := w.number_lt
    have hmod : (8 * n + w.number) % 8 = w.number := by omega
    have hdiv : (8 * n + w.number) / 8 = n := by omega
    have hfits : 8 * n + w.number < UInt32.size := by simp only at hlt; omega
    rw [readKey, Varint.read_eq_ok_iff.2 ⟨x, hx, rfl⟩]
    simp only [if_neg (Nat.not_le.2 hfits), hmod, hdiv, WireType.ofNumber?_number,
      if_neg (Nat.ne_of_gt hpos)]

theorem IsKey.readKey_append {key : Bytes} {n : Nat} {w : WireType} (h : IsKey key n w)
    (value b : Bytes) : readKey (key ++ value ++ b) = .ok ⟨n, w, value ++ b⟩ :=
  readKey_eq_ok_iff.2 ⟨key, h, List.append_assoc ..⟩

theorem takeBytes_eq_ok_iff {n : Nat} {b v rest : Bytes} :
    takeBytes n b = .ok (v, rest) ↔ v.length = n ∧ b = v ++ rest := by
  constructor
  · intro h
    unfold takeBytes at h
    split at h
    · cases h
    · cases h
      exact ⟨by rw [List.length_take]; omega, (List.take_append_drop n b).symm⟩
  · rintro ⟨rfl, rfl⟩
    exact takeBytes_append v rest

theorem readDelimited_eq_ok_iff {b v rest : Bytes} :
    readDelimited b = .ok (v, rest) ↔ ∃ x, Varint.Spells x v.length ∧ b = x ++ v ++ rest := by
  constructor
  · intro h
    unfold readDelimited at h
    split at h
    · cases h
    · rename_i n rest' hread
      obtain ⟨x, hx, rfl⟩ := Varint.read_eq_ok_iff.1 hread
      obtain ⟨rfl, rfl⟩ := takeBytes_eq_ok_iff.1 h
      exact ⟨x, hx, (List.append_assoc ..).symm⟩
  · rintro ⟨x, hx, rfl⟩
    rw [readDelimited, Varint.read_eq_ok_iff.2 ⟨x, hx, List.append_assoc ..⟩]
    exact takeBytes_eq_ok_iff.2 ⟨rfl, rfl⟩

/-! ## Fields -/

/-- What a field on the wire holds. -/
inductive Content where
  | varint (n : Nat)
  | sixtyFourBit (b : Bytes)
  | delimited (b : Bytes)
  | group (fields : List (Nat × Content))
  | thirtyTwoBit (b : Bytes)

/-- The wire type that announces a content. -/
def Content.wire : Content → WireType
  | varint _ => .varint
  | sixtyFourBit _ => .sixtyFourBit
  | delimited _ => .lengthDelimited
  | group _ => .startGroup
  | thirtyTwoBit _ => .thirtyTwoBit

/-- The bytes are those of the fields, one after the other, where `spells` tells of each content,
given its field's number, by which bytes it is spelled. -/
inductive AreFields (spells : Nat → Content → Bytes → Prop) :
    List (Nat × Content) → Bytes → Prop where
  | nil : AreFields spells [] []
  | cons {key value b : Bytes} {number : Nat} {c : Content} {fields : List (Nat × Content)}
    (hkey : IsKey key number c.wire) (hvalue : spells number c value)
    (hfields : AreFields spells fields b) :
    AreFields spells ((number, c) :: fields) (key ++ value ++ b)

/-- The bytes spell the content of a field of the given number, in which groups nest less deep than
`limit`.  A group ends with a key of its own number. -/
def Content.Spells : (limit number : Nat) → Content → Bytes → Prop
  | 0, _, _, _ => False
  | _ + 1, _, varint n, b => Varint.Spells b n
  | _ + 1, _, sixtyFourBit v, b => v.length = 8 ∧ b = v
  | _ + 1, _, delimited v, b => ∃ x, Varint.Spells x v.length ∧ b = x ++ v
  | limit + 1, number, group fields, b =>
    ∃ x close, AreFields (Content.Spells limit) fields x ∧ IsKey close number .endGroup ∧
      b = x ++ close
  | _ + 1, _, thirtyTwoBit v, b => v.length = 4 ∧ b = v

/-- The bytes spell the fields, in which groups nest less deep than `limit`. -/
abbrev SpellsFields (limit : Nat) (fields : List (Nat × Content)) (b : Bytes) : Prop :=
  AreFields (Content.Spells limit) fields b

theorem Content.wire_ne_endGroup (c : Content) : c.wire ≠ .endGroup := by
  cases c <;> exact nofun

/-! ### Passing over fields -/

section skipGroup

variable {skip : Nat → WireType → Bytes → Except Fault Bytes}
  {spells : Nat → Content → Bytes → Prop} {number : Nat} {rest : Bytes}

/-- The fields of a group and its end are passed over. -/
theorem skipGroup_of_areFields
    (hskip : ∀ n c x b, spells n c x → skip n c.wire (x ++ b) = .ok b) {close : Bytes}
    (hclose : IsKey close number .endGroup) {fields : List (Nat × Content)} {b : Bytes}
    (h : AreFields spells fields b) : skipGroup skip number (b ++ close ++ rest) = .ok rest := by
  induction h with
  | nil =>
    have hread : readKey ([] ++ close ++ rest) = .ok ⟨number, .endGroup, rest⟩ :=
      readKey_eq_ok_iff.2 ⟨close, hclose, rfl⟩
    rw [skipGroup, hread]
    simp
  | @cons key value b n c fields hkey hvalue _ ih =>
    have hread : readKey (key ++ value ++ b ++ close ++ rest) =
        .ok ⟨n, c.wire, value ++ (b ++ close ++ rest)⟩ :=
      readKey_eq_ok_iff.2 ⟨key, hkey, by simp⟩
    have hlength := List.length_pos_of_ne_nil hkey.ne_nil
    rw [skipGroup, hread]
    simp only [if_neg c.wire_ne_endGroup, hskip n c value _ hvalue]
    rw [if_pos (by simp; omega)]
    exact ih

/-- A group that is passed over consists of fields and its end. -/
theorem areFields_of_skipGroup
    (hskip : ∀ n w b rest, skip n w b = .ok rest → ∃ c x, c.wire = w ∧ spells n c x ∧ b = x ++ rest)
    {b : Bytes} (h : skipGroup skip number b = .ok rest) :
    ∃ fields x close, AreFields spells fields x ∧ IsKey close number .endGroup ∧
      b = x ++ close ++ rest := by
  induction hn : b.length using Nat.strongRecOn generalizing b with
  | ind _ ih =>
    subst hn
    rw [skipGroup] at h
    split at h
    · cases h
    · rename_i key hkey
      obtain ⟨k, hk, rfl⟩ := readKey_eq_ok_iff.1 hkey
      split at h
      · rename_i hwire
        split at h
        · rename_i hnumber
          cases h
          exact ⟨[], [], k, .nil, hnumber ▸ hwire ▸ hk, rfl⟩
        · cases h
      · split at h
        · cases h
        · rename_i after hafter
          obtain ⟨c, x, hwire, hx, hrest⟩ := hskip _ _ _ _ hafter
          have hlength := List.length_pos_of_ne_nil hk.ne_nil
          rw [hrest] at h ih ⊢
          rw [if_pos (by simp; omega)] at h
          obtain ⟨fields, y, close, hy, hclose, rfl⟩ := ih _ (by simp; omega) h rfl
          exact ⟨(key.number, c) :: fields, k ++ x ++ y, close, .cons (hwire ▸ hk) hx hy, hclose,
            by simp⟩

end skipGroup

theorem skipValue_of_spells {limit n : Nat} {c : Content} {x : Bytes}
    (h : c.Spells limit n x) (rest : Bytes) : skipValue limit n c.wire (x ++ rest) = .ok rest := by
  induction limit generalizing n c x rest with
  | zero => exact h.elim
  | succ limit ih =>
    cases c with
    | varint v =>
      have hx : Varint.Spells x v := h
      simp only [skipValue, Content.wire, Varint.read_eq_ok_iff.2 ⟨x, hx, rfl⟩]
      rfl
    | sixtyFourBit v =>
      obtain ⟨hlength, rfl⟩ := h
      simp only [skipValue, Content.wire, takeBytes_eq_ok_iff.2 ⟨hlength, rfl⟩]
      rfl
    | delimited v =>
      obtain ⟨y, hy, rfl⟩ := h
      simp only [skipValue, Content.wire, readDelimited_eq_ok_iff.2 ⟨y, hy, rfl⟩]
      rfl
    | group fields =>
      obtain ⟨y, close, hy, hclose, rfl⟩ := h
      have hskip : ∀ n c x b, Content.Spells limit n c x →
          skipValue limit n c.wire (x ++ b) = .ok b := fun n c x b hx => ih hx b
      exact skipGroup_of_areFields hskip hclose hy
    | thirtyTwoBit v =>
      obtain ⟨hlength, rfl⟩ := h
      simp only [skipValue, Content.wire, takeBytes_eq_ok_iff.2 ⟨hlength, rfl⟩]
      rfl

theorem spells_of_skipValue {limit n : Nat} {w : WireType} {b rest : Bytes}
    (h : skipValue limit n w b = .ok rest) :
    ∃ (c : Content) (x : Bytes), c.wire = w ∧ c.Spells limit n x ∧ b = x ++ rest := by
  induction limit generalizing n w b rest with
  | zero => cases h
  | succ limit ih =>
    have ofMap {α : Type} {r : Except Fault (α × Bytes)} (hr : r.map (·.2) = .ok rest) :
        ∃ a, r = .ok (a, rest) := by
      cases r with
      | error e => cases hr
      | ok r => exact ⟨r.1, by cases hr; rfl⟩
    cases w with
    | varint =>
      obtain ⟨v, hv⟩ := ofMap h
      obtain ⟨x, hx, rfl⟩ := Varint.read_eq_ok_iff.1 hv
      exact ⟨.varint v, x, rfl, hx, rfl⟩
    | sixtyFourBit =>
      obtain ⟨v, hv⟩ := ofMap h
      obtain ⟨hlength, rfl⟩ := takeBytes_eq_ok_iff.1 hv
      exact ⟨.sixtyFourBit v, v, rfl, ⟨hlength, rfl⟩, rfl⟩
    | lengthDelimited =>
      obtain ⟨v, hv⟩ := ofMap h
      obtain ⟨x, hx, rfl⟩ := readDelimited_eq_ok_iff.1 hv
      exact ⟨.delimited v, x ++ v, rfl, ⟨x, hx, rfl⟩, rfl⟩
    | startGroup =>
      have hskip : ∀ n w b rest, skipValue limit n w b = .ok rest →
          ∃ (c : Content) (x : Bytes), c.wire = w ∧ c.Spells limit n x ∧ b = x ++ rest :=
        fun _ _ _ _ => ih
      obtain ⟨fields, x, close, hx, hclose, rfl⟩ := areFields_of_skipGroup hskip h
      exact ⟨.group fields, x ++ close, rfl, ⟨x, close, hx, hclose, rfl⟩, rfl⟩
    | endGroup => cases h
    | thirtyTwoBit =>
      obtain ⟨v, hv⟩ := ofMap h
      obtain ⟨hlength, rfl⟩ := takeBytes_eq_ok_iff.1 hv
      exact ⟨.thirtyTwoBit v, v, rfl, ⟨hlength, rfl⟩, rfl⟩

/-- A value is passed over if the bytes begin with a content that its wire type announces, and no
further. -/
theorem skipValue_eq_ok_iff {limit n : Nat} {w : WireType} {b rest : Bytes} :
    skipValue limit n w b = .ok rest ↔
      ∃ (c : Content) (x : Bytes), c.wire = w ∧ c.Spells limit n x ∧ b = x ++ rest := by
  constructor
  · exact spells_of_skipValue
  · rintro ⟨c, x, rfl, hx, rfl⟩
    exact skipValue_of_spells hx rest

end LedgerClient.Wire
