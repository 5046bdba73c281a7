import LedgerClient.Wire.Message

/-!
# Two messages with the same bytes are the same

What is written can be taken apart from the front.  A number, a key, delimited bytes and hence a
field determine where they end, whatever follows them.  The values of one field number end where
a key of another number begins, or where the message ends.  So a layout whose numbers differ
gives no two records the same bytes, although defaults are left out and nothing tells how many
elements a repeated field has.
-/

namespace LedgerClient.Wire

/-! ## Numbers and keys -/

theorem Varint.encode_append_inj {x y : Nat} {a b : Bytes}
    (h : Varint.encode x ++ a = Varint.encode y ++ b) : x = y ∧ a = b := by
  induction x using Nat.strongRecOn generalizing y with
  | ind x ih =>
    rw [Varint.encode, Varint.encode.eq_1 y] at h
    split at h <;> split at h
    · obtain ⟨hxy, hab⟩ := List.cons.inj h
      have := congrArg UInt8.toNat hxy
      simp only [UInt8.toNat_ofNat'] at this
      exact ⟨by omega, hab⟩
    · have := congrArg UInt8.toNat (List.cons.inj h).1
      simp only [UInt8.toNat_ofNat'] at this
      omega
    · have := congrArg UInt8.toNat (List.cons.inj h).1
      simp only [UInt8.toNat_ofNat'] at this
      omega
    · obtain ⟨hlow, hrest⟩ := List.cons.inj h
      have := congrArg UInt8.toNat hlow
      simp only [UInt8.toNat_ofNat'] at this
      obtain ⟨hhigh, hab⟩ := ih (x / 128) (by omega) hrest
      exact ⟨by omega, hab⟩

theorem WireType.number_lt (w : WireType) : w.number < 8 := by
  cases w <;> decide

theorem WireType.number_inj {v w : WireType} (h : v.number = w.number) : v = w :=
  Option.some.inj (by rw [← ofNumber?_number v, h, ofNumber?_number w])

theorem encodeKey_append_inj {m n : Nat} {v w : WireType} {a b : Bytes}
    (h : encodeKey m v ++ a = encodeKey n w ++ b) : m = n ∧ v = w ∧ a = b := by
  obtain ⟨hkey, hab⟩ := Varint.encode_append_inj h
  have hv := v.number_lt
  have hw := w.number_lt
  exact ⟨by omega, WireType.number_inj (by omega), hab⟩

theorem encodeDelimited_append_inj {x y a b : Bytes}
    (h : encodeDelimited x ++ a = encodeDelimited y ++ b) : x = y ∧ a = b := by
  unfold encodeDelimited at h
  rw [List.append_assoc, List.append_assoc] at h
  obtain ⟨hlength, hrest⟩ := Varint.encode_append_inj h
  exact List.append_inj hrest hlength

/-! ## Fields -/

theorem Scalar.encode_append_inj {s : Scalar} {v w : s.Value} {a b : Bytes}
    (h : s.encode v ++ a = s.encode w ++ b) : v = w ∧ a = b := by
  have ofInt64 : ∀ {x y : Int64}, x.toUInt64.toNat = y.toUInt64.toNat → x = y := by
    intro x y hxy
    rw [← x.toInt64_toUInt64, UInt64.toNat_inj.1 hxy, y.toInt64_toUInt64]
  have ofInt32 : ∀ {x y : Int32}, x.toInt64.toUInt64.toNat = y.toInt64.toUInt64.toNat → x = y := by
    intro x y hxy
    have := congrArg Int64.toInt32 (ofInt64 hxy)
    simpa using this
  cases s with
  | uint64 => exact (Varint.encode_append_inj h).imp_left UInt64.toNat_inj.1
  | int64 => exact (Varint.encode_append_inj h).imp_left ofInt64
  | int32 | enumeration _ => exact (Varint.encode_append_inj h).imp_left ofInt32
  | bool =>
    refine (Varint.encode_append_inj h).imp_left fun hvw => ?_
    cases v <;> cases w <;> simp_all
  | string =>
    refine (encodeDelimited_append_inj h).imp_left fun hvw => ?_
    have := congrArg Text.ofUtf8? hvw
    simpa using this
  | bytes => exact encodeDelimited_append_inj h

theorem encodeScalar_append_inj {n : Nat} {s : Scalar} {v w : s.Value} {a b : Bytes}
    (h : encodeScalar n s v ++ a = encodeScalar n s w ++ b) : v = w ∧ a = b := by
  unfold encodeScalar at h
  rw [List.append_assoc, List.append_assoc] at h
  exact Scalar.encode_append_inj (encodeKey_append_inj h).2.2

theorem encodeNested_append_inj {n : Nat} {x y a b : Bytes}
    (h : encodeNested n x ++ a = encodeNested n y ++ b) : x = y ∧ a = b := by
  unfold encodeNested at h
  rw [List.append_assoc, List.append_assoc] at h
  exact encodeDelimited_append_inj (encodeKey_append_inj h).2.2

/-! ## Fields of one number -/

/-- The bytes begin with a key of field `n`. -/
def BeginsWith (n : Nat) (b : Bytes) : Prop := ∃ w rest, b = encodeKey n w ++ rest

theorem beginsWith_encodeScalar (n : Nat) (s : Scalar) (v : s.Value) (b : Bytes) :
    BeginsWith n (encodeScalar n s v ++ b) :=
  ⟨s.wire, s.encode v ++ b, List.append_assoc ..⟩

theorem beginsWith_encodeNested (n : Nat) (body b : Bytes) :
    BeginsWith n (encodeNested n body ++ b) :=
  ⟨.lengthDelimited, encodeDelimited body ++ b, List.append_assoc ..⟩

theorem BeginsWith.unique {m n : Nat} {b : Bytes} (hm : BeginsWith m b) (hn : BeginsWith n b) :
    m = n := by
  obtain ⟨v, x, rfl⟩ := hm
  obtain ⟨w, y, h⟩ := hn
  exact (encodeKey_append_inj h).1

/-- Values written one after the other, each with a key of field `n`, end where the bytes no longer
begin with such a key. -/
theorem flatMap_append_inj {α : Type} {n : Nat} {e : α → Bytes}
    (hkey : ∀ x b, BeginsWith n (e x ++ b))
    (hinj : ∀ {x y : α} {a b : Bytes}, e x ++ a = e y ++ b → x = y ∧ a = b) {xs ys : List α}
    {a b : Bytes} (ha : ¬ BeginsWith n a) (hb : ¬ BeginsWith n b)
    (h : xs.flatMap e ++ a = ys.flatMap e ++ b) : xs = ys ∧ a = b := by
  induction xs generalizing ys with
  | nil =>
    cases ys with
    | nil => exact ⟨rfl, h⟩
    | cons y ys =>
      rw [List.flatMap_nil, List.nil_append, List.flatMap_cons, List.append_assoc] at h
      exact absurd (h ▸ hkey y _) ha
  | cons x xs ih =>
    rw [List.flatMap_cons, List.append_assoc] at h
    cases ys with
    | nil =>
      rw [List.flatMap_nil, List.nil_append] at h
      exact absurd (h ▸ hkey x _) hb
    | cons y ys =>
      rw [List.flatMap_cons, List.append_assoc] at h
      obtain ⟨rfl, hrest⟩ := hinj h
      obtain ⟨rfl, hab⟩ := ih hrest
      exact ⟨rfl, hab⟩

/-- The values of a single field that are written. -/
def written (s : Scalar) (v : s.Value) : List s.Value := if v = s.default then [] else [v]

theorem written_inj {s : Scalar} {v w : s.Value} (h : written s v = written s w) : v = w := by
  unfold written at h
  split at h <;> split at h
  · rename_i hv hw
    rw [hv, hw]
  · cases h
  · cases h
  · exact (List.cons.inj h).1

theorem encodeUnlessDefault_eq (n : Nat) (s : Scalar) (v : s.Value) :
    encodeUnlessDefault n s v = (written s v).flatMap (encodeScalar n s) := by
  unfold encodeUnlessDefault written
  split <;> simp

theorem encodeUnlessDefault_append_inj {n : Nat} {s : Scalar} {v w : s.Value} {a b : Bytes}
    (ha : ¬ BeginsWith n a) (hb : ¬ BeginsWith n b)
    (h : encodeUnlessDefault n s v ++ a = encodeUnlessDefault n s w ++ b) : v = w ∧ a = b := by
  rw [encodeUnlessDefault_eq, encodeUnlessDefault_eq] at h
  exact (flatMap_append_inj (beginsWith_encodeScalar n s) encodeScalar_append_inj ha hb h).imp_left
    written_inj

theorem not_beginsWith_nil (n : Nat) : ¬ BeginsWith n [] := by
  rintro ⟨w, rest, h⟩
  have hkey : encodeKey n w = [] := (List.append_eq_nil_iff.1 h.symm).1
  unfold encodeKey Varint.encode at hkey
  split at hkey <;> cases hkey

/-- What is written for the elements of one field begins with that field's key, or not at all. -/
theorem beginsWith_flatMap_append {α : Type} {m n : Nat} {e : α → Bytes}
    (hkey : ∀ x b, BeginsWith m (e x ++ b)) {xs : List α} {b : Bytes}
    (h : BeginsWith n (xs.flatMap e ++ b)) : n = m ∨ BeginsWith n b := by
  cases xs with
  | nil => exact .inr h
  | cons x xs =>
    rw [List.flatMap_cons, List.append_assoc] at h
    exact .inl (h.unique (hkey x _))

/-! ## Entries of maps -/

theorem encodeEntry_inj {x y : String × Bytes} (h : encodeEntry x = encodeEntry y) : x = y := by
  have htail : ∀ v : Bytes, ¬ BeginsWith 1 (encodeUnlessDefault 2 .bytes v) := by
    intro v hv
    rw [encodeUnlessDefault_eq, ← List.append_nil (List.flatMap ..)] at hv
    rcases beginsWith_flatMap_append (beginsWith_encodeScalar 2 .bytes) hv with hv | hv
    · cases hv
    · exact not_beginsWith_nil 1 hv
  obtain ⟨hkey, hvalue⟩ := encodeUnlessDefault_append_inj (htail x.2) (htail y.2) h
  have hvalue : x.2 = y.2 :=
    (encodeUnlessDefault_append_inj (s := .bytes) (not_beginsWith_nil 2) (not_beginsWith_nil 2)
      (congrArg (· ++ []) hvalue)).1
  exact Prod.ext hkey hvalue

/-! ## Layouts -/

/-- No field has the number of another one, in the nested messages either. -/
def Layout.Distinct : Layout → Prop
  | .done => True
  | .one n _ _ rest | .many n _ _ rest | .map n _ rest => n ∉ rest.numbers ∧ rest.Distinct
  | .message n _ _ inner rest | .messages n _ _ inner rest =>
    n ∉ rest.numbers ∧ inner.Distinct ∧ rest.Distinct

instance Layout.decidableDistinct : (l : Layout) → Decidable l.Distinct
  | .done => .isTrue trivial
  | .one n _ _ rest | .many n _ _ rest | .map n _ rest =>
    have := rest.decidableDistinct
    inferInstanceAs (Decidable (n ∉ rest.numbers ∧ rest.Distinct))
  | .message n _ _ inner rest | .messages n _ _ inner rest =>
    have := inner.decidableDistinct
    have := rest.decidableDistinct
    inferInstanceAs (Decidable (n ∉ rest.numbers ∧ inner.Distinct ∧ rest.Distinct))

/-- A message begins with the key of one of its fields, if with any. -/
theorem Layout.mem_of_beginsWith {l : Layout} {r : Record l} {n : Nat}
    (h : BeginsWith n (l.encode r)) : n ∈ l.numbers := by
  induction l with
  | done => exact absurd h (not_beginsWith_nil n)
  | one m name s rest ih =>
    rw [Layout.encode, encodeUnlessDefault_eq] at h
    exact List.mem_cons.2 ((beginsWith_flatMap_append (beginsWith_encodeScalar m s) h).imp_right ih)
  | many m name s rest ih =>
    exact List.mem_cons.2 ((beginsWith_flatMap_append (beginsWith_encodeScalar m s) h).imp_right ih)
  | message m name typeName inner rest _ ih =>
    obtain ⟨o, r⟩ := r
    cases o with
    | none => exact List.mem_cons_of_mem _ (ih h)
    | some x =>
      exact List.mem_cons.2 (.inl (h.unique (beginsWith_encodeNested m (inner.encode x) _)))
  | messages m name typeName inner rest _ ih =>
    exact List.mem_cons.2 ((beginsWith_flatMap_append
      (fun x => beginsWith_encodeNested m (inner.encode x)) h).imp_right ih)
  | map m name rest ih =>
    exact List.mem_cons.2 ((beginsWith_flatMap_append
      (fun e => beginsWith_encodeNested m (encodeEntry e)) h).imp_right ih)

theorem Layout.not_beginsWith {l : Layout} {n : Nat} (h : n ∉ l.numbers) (r : Record l) :
    ¬ BeginsWith n (l.encode r) := fun hr => h (mem_of_beginsWith hr)

/-- Two records with the same bytes are the same. -/
theorem Layout.encode_inj {l : Layout} (hl : l.Distinct) {r s : Record l}
    (h : l.encode r = l.encode s) : r = s := by
  induction l with
  | done => rfl
  | one n name type rest ih =>
    obtain ⟨hv, hrest⟩ := encodeUnlessDefault_append_inj (Layout.not_beginsWith hl.1 r.2)
      (Layout.not_beginsWith hl.1 s.2) h
    exact Prod.ext hv (ih hl.2 hrest)
  | many n name type rest ih =>
    obtain ⟨hvs, hrest⟩ := flatMap_append_inj (beginsWith_encodeScalar n type)
      encodeScalar_append_inj (Layout.not_beginsWith hl.1 r.2) (Layout.not_beginsWith hl.1 s.2) h
    exact Prod.ext hvs (ih hl.2 hrest)
  | message n name typeName inner rest ihInner ih =>
    have hlist : ∀ t : Record (.message n name typeName inner rest),
        Layout.encode _ t = t.1.toList.flatMap (fun m => encodeNested n (inner.encode m)) ++
          rest.encode t.2 := by
      rintro ⟨_ | m, t⟩ <;> simp [Layout.encode]
    rw [hlist, hlist] at h
    obtain ⟨hm, hrest⟩ := flatMap_append_inj
      (fun x => beginsWith_encodeNested n (inner.encode x))
      (fun h => (encodeNested_append_inj h).imp_left (ihInner hl.2.1))
      (Layout.not_beginsWith hl.1 r.2) (Layout.not_beginsWith hl.1 s.2) h
    have hm : r.1 = s.1 := by simpa using congrArg List.head? hm
    exact Prod.ext hm (ih hl.2.2 hrest)
  | messages n name typeName inner rest ihInner ih =>
    obtain ⟨hms, hrest⟩ := flatMap_append_inj
      (fun x => beginsWith_encodeNested n (inner.encode x))
      (fun h => (encodeNested_append_inj h).imp_left (ihInner hl.2.1))
      (Layout.not_beginsWith hl.1 r.2) (Layout.not_beginsWith hl.1 s.2) h
    exact Prod.ext hms (ih hl.2.2 hrest)
  | map n name rest ih =>
    obtain ⟨hes, hrest⟩ := flatMap_append_inj (fun e => beginsWith_encodeNested n (encodeEntry e))
      (fun h => (encodeNested_append_inj h).imp_left encodeEntry_inj)
      (Layout.not_beginsWith hl.1 r.2) (Layout.not_beginsWith hl.1 s.2) h
    exact Prod.ext (ByteMap.ext hes) (ih hl.2 hrest)

/-- Two messages with the same bytes are the same. -/
theorem Message.encode_inj {M : Type} [Message M] (hM : (Message.layout M).Distinct) {m n : M}
    (h : Message.encode m = Message.encode n) : m = n :=
  Message.toRecord_injective (Layout.encode_inj hM h)

end LedgerClient.Wire
