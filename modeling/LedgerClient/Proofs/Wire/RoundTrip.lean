import LedgerClient.Ledger.Catalogue
import LedgerClient.Proofs.Wire.Injective
import Mathlib.Data.List.Perm.Basic

/-!
# Messages read back from their bytes

Reading undoes writing.  Every reader of a number, a key, delimited bytes or a field, given what
was written and then anything else, returns what was written and leaves the rest.  A message is
read field by field into a record that is still empty behind the fields read so far, so the reading
of a layout follows the layout.  `Layout.decode_encodeBy` is the result for every layout whose
field numbers differ and fit a key, and whose messages do not nest too deep;
`Message.decode_encodeBy` is the result for the messages of the service.

The entries of a map may have been written in any order.
-/

namespace LedgerClient.Wire

/-! ## Numbers, keys and delimited bytes -/

namespace Varint

theorem readGroups_encode {k n : Nat} (h : n < 2 * Nat.pow 128 k) (b : Bytes) :
    readGroups (k + 1) (encode n ++ b) = some (n, b) := by
  induction k generalizing n with
  | zero =>
    replace h : n < 2 := h
    have hbyte : (UInt8.ofNat n).toNat = n := by
      rw [UInt8.toNat_ofNat']
      omega
    rw [encode, if_pos (by omega)]
    simp [readGroups, UInt8.lt_iff_toNat_lt, hbyte]
    omega
  | succ k ih =>
    rw [encode]
    split
    · have hbyte : (UInt8.ofNat n).toNat = n := by
        rw [UInt8.toNat_ofNat']
        omega
      simp [readGroups, UInt8.lt_iff_toNat_lt, hbyte]
      omega
    · have hbyte : (UInt8.ofNat (n % 128 + 128)).toNat = n % 128 + 128 := by
        rw [UInt8.toNat_ofNat']
        omega
      have hrest : n / 128 < 2 * Nat.pow 128 k := by
        replace h : n < 2 * (Nat.pow 128 k * 128) := h
        omega
      rw [List.cons_append, readGroups, if_neg (by rw [UInt8.lt_iff_toNat_lt, hbyte]; simp),
        ih hrest, hbyte]
      simp
      omega

theorem read_encode {n : Nat} (h : n < UInt64.size) (b : Bytes) :
    read (encode n ++ b) = .ok (n, b) := by
  rw [read, readGroups_encode (k := 9) h b]

end Varint

/-- The numbers that a field may have: with a wire type behind them they fit 32 bits. -/
def IsFieldNumber (n : Nat) : Prop := 0 < n ∧ n < UInt32.size / 8

instance (n : Nat) : Decidable (IsFieldNumber n) := inferInstanceAs (Decidable (_ ∧ _))

theorem readKey_encodeKey {n : Nat} (h : IsFieldNumber n) (w : WireType) (b : Bytes) :
    readKey (encodeKey n w ++ b) = .ok ⟨n, w, b⟩ := by
  obtain ⟨hpos, hlt⟩ := h
  have hw := w.number_lt
  have hkey : 8 * n + w.number < UInt32.size := by omega
  have hmod : (8 * n + w.number) % 8 = w.number := by omega
  have hdiv : (8 * n + w.number) / 8 = n := by omega
  rw [readKey, encodeKey, Varint.read_encode (Nat.lt_trans hkey (by decide))]
  simp only [if_neg (Nat.not_le.2 hkey), hmod, hdiv, WireType.ofNumber?_number,
    if_neg (Nat.ne_of_gt hpos)]

theorem takeBytes_append (x b : Bytes) : takeBytes x.length (x ++ b) = .ok (x, b) := by
  rw [takeBytes, if_neg (by simp), List.take_left, List.drop_left]

theorem readDelimited_encodeDelimited {x : Bytes} (h : x.length < UInt64.size) (b : Bytes) :
    readDelimited (encodeDelimited x ++ b) = .ok (x, b) := by
  rw [readDelimited, encodeDelimited, List.append_assoc, Varint.read_encode h]
  exact takeBytes_append x b

theorem length_le_encodeDelimited (x : Bytes) : x.length ≤ (encodeDelimited x).length := by
  simp [encodeDelimited]

/-! ## Scalars -/

/-- A number extended to 64 bits by its sign gives its 32 bits back. -/
theorem toInt32_toUInt32_toInt64 (v : Int32) : v.toInt64.toUInt64.toUInt32.toInt32 = v := by
  apply Int32.toBitVec_inj.1
  ext i hi
  simp [BitVec.getLsbD_signExtend, hi]
  omega

theorem Scalar.read_encode {s : Scalar} {v : s.Value} (h : (s.encode v).length < UInt64.size)
    (b : Bytes) : s.read s.wire (s.encode v ++ b) = .ok (v, b) := by
  have hnumber : ∀ n : UInt64, Varint.read (Varint.encode n.toNat ++ b) = .ok (n.toNat, b) :=
    fun n => Varint.read_encode n.toNat_lt b
  cases s with
  | uint64 => simp [Scalar.read, Scalar.wire, Scalar.encode, hnumber, Scalar.ofVarint]
  | int64 => simp [Scalar.read, Scalar.wire, Scalar.encode, hnumber, Scalar.ofVarint]
  | int32 | enumeration _ =>
    simp [Scalar.read, Scalar.wire, Scalar.encode, hnumber, Scalar.ofVarint,
      toInt32_toUInt32_toInt64]
  | bool =>
    have hfalse : Varint.read (Varint.encode 0 ++ b) = .ok (0, b) := hnumber 0
    have htrue : Varint.read (Varint.encode 1 ++ b) = .ok (1, b) := hnumber 1
    cases v <;> simp [Scalar.read, Scalar.wire, Scalar.encode, hfalse, htrue, Scalar.ofVarint]
  | string =>
    have := Nat.lt_of_le_of_lt (length_le_encodeDelimited (Text.toUtf8 v)) h
    simp [Scalar.read, Scalar.wire, Scalar.encode, readDelimited_encodeDelimited this]
  | bytes =>
    have := Nat.lt_of_le_of_lt (length_le_encodeDelimited v) h
    simp [Scalar.read, Scalar.wire, Scalar.encode, readDelimited_encodeDelimited this]

/-! ## Reading up to a place -/

section mergeUntil

variable {α β ι ε : Type} {step : α → Bytes → Except ε (α × Bytes)} {stop : Nat}

theorem mergeUntil_done {a : α} {b : Bytes} (h : b.length ≤ stop) :
    mergeUntil step stop a b = .ok (a, b) := by
  rw [mergeUntil, if_pos h]

/-- A field that lies before the place is read, and what follows it is read next. -/
theorem mergeUntil_append {a a' : α} {x b : Bytes} (hx : x ≠ []) (hb : stop ≤ b.length)
    (h : step a (x ++ b) = .ok (a', b)) :
    mergeUntil step stop a (x ++ b) = mergeUntil step stop a' b := by
  have hlength := List.length_pos_of_ne_nil hx
  rw [mergeUntil, if_neg (by rw [List.length_append]; omega), h]
  simp only [List.length_append]
  rw [if_pos (by omega)]

/-- Fields one after the other are read one after the other. -/
theorem mergeUntil_flatMap (put : β → α) {f : β → ι → β} {e : ι → Bytes} {xs : List ι} {b : Bytes}
    (he : ∀ x, e x ≠ []) (hb : stop ≤ b.length)
    (h : ∀ x ∈ xs, ∀ s b, step (put s) (e x ++ b) = .ok (put (f s x), b)) (s : β) :
    mergeUntil step stop (put s) (xs.flatMap e ++ b) =
      mergeUntil step stop (put (xs.foldl f s)) b := by
  induction xs generalizing s with
  | nil => rfl
  | cons x xs ih =>
    rw [List.flatMap_cons, List.append_assoc, List.foldl_cons,
      mergeUntil_append (he x) (by rw [List.length_append]; omega) (h x List.mem_cons_self s _)]
    exact ih (fun y hy => h y (List.mem_cons_of_mem _ hy)) (f s x)

end mergeUntil

theorem encodeKey_ne_nil (n : Nat) (w : WireType) : encodeKey n w ≠ [] :=
  fun h => not_beginsWith_nil n ⟨w, [], by rw [h]; rfl⟩

theorem encodeScalar_ne_nil (n : Nat) (s : Scalar) (v : s.Value) : encodeScalar n s v ≠ [] :=
  fun h => encodeKey_ne_nil n s.wire (List.append_eq_nil_iff.1 h).1

theorem encodeNested_ne_nil (n : Nat) (body : Bytes) : encodeNested n body ≠ [] :=
  fun h => encodeKey_ne_nil n .lengthDelimited (List.append_eq_nil_iff.1 h).1

/-- A single value is read back, the default from the message without the field. -/
theorem mergeUntil_unlessDefault {α ε : Type} {step : α → Bytes → Except ε (α × Bytes)}
    {stop n : Nat} {s : Scalar} (put : s.Value → α) {v : s.Value} {b : Bytes} (hb : stop ≤ b.length)
    (h : (s.encode v).length ≤ (encodeUnlessDefault n s v).length →
      step (put s.default) (encodeScalar n s v ++ b) = .ok (put v, b)) :
    mergeUntil step stop (put s.default) (encodeUnlessDefault n s v ++ b) =
      mergeUntil step stop (put v) b := by
  unfold encodeUnlessDefault at h ⊢
  split
  · rename_i hv
    rw [hv]
    rfl
  · rename_i hv
    refine mergeUntil_append (encodeScalar_ne_nil n s v) hb (h ?_)
    rw [if_neg hv, encodeScalar, List.length_append]
    omega

/-- The fields of a nested message end where its declared length does. -/
theorem mergeNested_encodeDelimited {α : Type}
    {step : Nat → α → Bytes → Except DecodeError (α × Bytes)} {budget : Nat} {a a' : α}
    {body : Bytes} (hbody : body.length < UInt64.size) {b : Bytes}
    (h : mergeUntil (step budget) b.length a (body ++ b) = .ok (a', b)) :
    mergeNested step (budget + 1) a (encodeDelimited body ++ b) = .ok (a', b) := by
  have hlength : (body ++ b).length - body.length = b.length := by simp
  rw [mergeNested, encodeDelimited, List.append_assoc, Varint.read_encode hbody]
  simp only [hlength, h]
  rw [if_neg (by simp), if_pos trivial]

/-! ## Maps -/

namespace ByteMap

theorem insertEntry_perm {key : String} {value : Bytes} {es : List (String × Bytes)}
    (h : key ∉ es.map Prod.fst) : (insertEntry key value es).Perm ((key, value) :: es) := by
  induction es with
  | nil => exact .refl _
  | cons e es ih =>
    rw [List.map_cons, List.mem_cons, not_or] at h
    simp only [insertEntry]
    split
    · exact .refl _
    · rw [if_neg h.1]
      exact ((ih h.2).cons e).trans (.swap ..)

theorem foldl_insert_perm {es : List (String × Bytes)} {m : ByteMap}
    (h : ((m.entries ++ es).map Prod.fst).Nodup) :
    (es.foldl (fun m e => m.insert e.1 e.2) m).entries.Perm (m.entries ++ es) := by
  induction es generalizing m with
  | nil => simp
  | cons e es ih =>
    have hperm : (m.insert e.1 e.2).entries.Perm (e :: m.entries) := by
      refine insertEntry_perm fun hmem => ?_
      rw [List.map_append, List.map_cons] at h
      exact (List.nodup_append.1 h).2.2 _ hmem _ List.mem_cons_self rfl
    have hmoved : ((m.insert e.1 e.2).entries ++ es).Perm (m.entries ++ e :: es) :=
      (hperm.append_right es).trans List.perm_middle.symm
    exact (ih ((hmoved.map _).nodup_iff.2 h)).trans hmoved

theorem nodup_keys (m : ByteMap) : (m.entries.map Prod.fst).Nodup := by
  rw [List.Nodup, List.pairwise_map]
  exact m.sorted.imp fun {a b} h (he : a.1 = b.1) => String.lt_irrefl b.1 (he ▸ h)

/-- The entries of a map, put into the empty map in any order, give the map. -/
theorem ofList_of_perm {m : ByteMap} {es : List (String × Bytes)} (h : es.Perm m.entries) :
    ofList es = m := by
  have hperm : (ofList es).entries.Perm m.entries :=
    (foldl_insert_perm (m := empty) ((h.map _).nodup_iff.2 m.nodup_keys)).trans h
  exact ext (hperm.eq_of_pairwise (fun a b _ _ hab hba => absurd hba (String.lt_asymm hab))
    (ofList es).sorted m.sorted)

end ByteMap

theorem mergeEntryField_key (budget : Nat) {k : String} (e : String × Bytes)
    (h : (Scalar.string.encode k).length < UInt64.size) (b : Bytes) :
    mergeEntryField budget e (encodeScalar 1 .string k ++ b) = .ok ((k, e.2), b) := by
  rw [mergeEntryField, encodeScalar, List.append_assoc, readKey_encodeKey (by decide)]
  simp [Scalar.read_encode h, Except.map, Except.mapError]

theorem mergeEntryField_value (budget : Nat) {v : Bytes} (e : String × Bytes)
    (h : (Scalar.bytes.encode v).length < UInt64.size) (b : Bytes) :
    mergeEntryField budget e (encodeScalar 2 .bytes v ++ b) = .ok ((e.1, v), b) := by
  rw [mergeEntryField, encodeScalar, List.append_assoc, readKey_encodeKey (by decide)]
  simp [Scalar.read_encode h, Except.map, Except.mapError]

/-- An entry is read back, a default key or value from the empty entry. -/
theorem mergeUntil_encodeEntry {budget : Nat} {e : String × Bytes}
    (h : (encodeEntry e).length < UInt64.size) (b : Bytes) :
    mergeUntil (mergeEntryField budget) b.length ("", []) (encodeEntry e ++ b) = .ok (e, b) := by
  rw [encodeEntry, List.length_append] at h
  rw [encodeEntry, List.append_assoc]
  calc
    _ = mergeUntil (mergeEntryField budget) b.length (e.1, [])
        (encodeUnlessDefault 2 .bytes e.2 ++ b) :=
      mergeUntil_unlessDefault (s := .string) (fun k => (k, ([] : Bytes)))
        (by rw [List.length_append]; omega) fun hk => mergeEntryField_key budget _ (by omega) _
    _ = mergeUntil (mergeEntryField budget) b.length e b :=
      mergeUntil_unlessDefault (s := .bytes) (fun v => (e.1, v)) (Nat.le_refl _)
        fun hv => mergeEntryField_value budget _ (by omega) _
    _ = .ok (e, b) := mergeUntil_done (Nat.le_refl _)

/-! ## Layouts -/

namespace Layout

/-- Every field number fits a key, and messages nest no deeper than the budget. -/
def Fits : Nat → Layout → Prop
  | _, .done => True
  | budget, .one n _ _ rest | budget, .many n _ _ rest => IsFieldNumber n ∧ rest.Fits budget
  | budget, .map n _ rest => IsFieldNumber n ∧ 0 < budget ∧ rest.Fits budget
  | budget, .message n _ _ inner rest | budget, .messages n _ _ inner rest =>
    IsFieldNumber n ∧ 0 < budget ∧ inner.Fits (budget - 1) ∧ rest.Fits budget

instance decidableFits : (budget : Nat) → (l : Layout) → Decidable (l.Fits budget)
  | _, .done => .isTrue trivial
  | budget, .one n _ _ rest | budget, .many n _ _ rest =>
    have := rest.decidableFits budget
    inferInstanceAs (Decidable (IsFieldNumber n ∧ rest.Fits budget))
  | budget, .map n _ rest =>
    have := rest.decidableFits budget
    inferInstanceAs (Decidable (IsFieldNumber n ∧ 0 < budget ∧ rest.Fits budget))
  | budget, .message n _ _ inner rest | budget, .messages n _ _ inner rest =>
    have := inner.decidableFits (budget - 1)
    have := rest.decidableFits budget
    inferInstanceAs (Decidable
      (IsFieldNumber n ∧ 0 < budget ∧ inner.Fits (budget - 1) ∧ rest.Fits budget))

/-- The bytes of a message with the entries of its maps in the given order. -/
def encodeBy (order : ByteMap → List (String × Bytes)) : (l : Layout) → Record l → Bytes
  | .done, _ => []
  | .one number _ type rest, r => encodeUnlessDefault number type r.1 ++ rest.encodeBy order r.2
  | .many number _ type rest, r =>
    r.1.flatMap (encodeScalar number type) ++ rest.encodeBy order r.2
  | .message number _ _ inner rest, r =>
    (r.1.toList.flatMap fun m => encodeNested number (inner.encodeBy order m)) ++
      rest.encodeBy order r.2
  | .messages number _ _ inner rest, r =>
    (r.1.flatMap fun m => encodeNested number (inner.encodeBy order m)) ++
      rest.encodeBy order r.2
  | .map number _ rest, r => encodeEntries number (order r.1) ++ rest.encodeBy order r.2

/-- Messages are written with the entries of their maps in the order of the keys. -/
theorem encode_eq_encodeBy (l : Layout) (r : Record l) :
    l.encode r = l.encodeBy ByteMap.entries r := by
  induction l with
  | done => rfl
  | one n name type rest ih | many n name type rest ih | map n name rest ih =>
    rw [encode, encodeBy, ih]
  | message n name typeName inner rest ihInner ih =>
    obtain ⟨_ | m, r⟩ := r <;> simp [encode, encodeBy, ih, ihInner]
  | messages n name typeName inner rest ihInner ih =>
    rw [encode, encodeBy, ih]
    simp only [ihInner]

/-- Merges one field into a message with the given layout, which is called `owner`. -/
def mergeField (l : Layout) (owner : String) (budget : Nat) (r : Record l) (b : Bytes) :
    Except DecodeError (Record l × Bytes) :=
  mergeValue.mergeFieldBy (fun number wire b r => l.mergeValue owner budget number wire b r)
    budget r b

section mergeValue

variable {owner name typeName : String} {budget n : Nat} {w : WireType} {type : Scalar}
  {v : type.Value} {inner rest : Layout} {m : Record inner} {b b' : Bytes}

theorem mergeValue_one (h : type.read w b = .ok (v, b')) (r : Record (.one n name type rest)) :
    mergeValue owner budget n w b _ r = some (.ok ((v, r.2), b')) := by
  rw [mergeValue, if_pos rfl, h]
  rfl

theorem mergeValue_many (h : type.read w b = .ok (v, b')) (r : Record (.many n name type rest)) :
    mergeValue owner budget n w b _ r = some (.ok ((r.1 ++ [v], r.2), b')) := by
  rw [mergeValue, if_pos rfl, h]
  rfl

theorem mergeValue_message {r : Record (.message n name typeName inner rest)}
    (h : mergeNested (inner.mergeField typeName) budget (r.1.getD inner.empty) b = .ok (m, b')) :
    mergeValue owner budget n .lengthDelimited b _ r = some (.ok ((some m, r.2), b')) := by
  rw [mergeValue, if_pos rfl]
  exact congrArg (fun x => some ((Except.mapError _ x).map _)) h

theorem mergeValue_messages
    (h : mergeNested (inner.mergeField typeName) budget inner.empty b = .ok (m, b'))
    (r : Record (.messages n name typeName inner rest)) :
    mergeValue owner budget n .lengthDelimited b _ r = some (.ok ((r.1 ++ [m], r.2), b')) := by
  rw [mergeValue, if_pos rfl]
  exact congrArg (fun x => some ((Except.mapError _ x).map _)) h

theorem mergeValue_map {e : String × Bytes}
    (h : mergeNested mergeEntryField budget ("", []) b = .ok (e, b'))
    (r : Record (.map n name rest)) :
    mergeValue owner budget n w b _ r = some (.ok ((r.1.insert e.1 e.2, r.2), b')) := by
  rw [mergeValue, if_pos rfl, h]
  rfl

end mergeValue

theorem mergeFieldBy_encodeKey {α : Type} {n : Nat} (hn : IsFieldNumber n) {w : WireType}
    {value : Nat → WireType → Bytes → α → Option (Except DecodeError (α × Bytes))}
    {budget : Nat} {a : α} {b : Bytes} {result : Except DecodeError (α × Bytes)}
    (h : value n w b a = some result) :
    mergeValue.mergeFieldBy value budget a (encodeKey n w ++ b) = result := by
  rw [mergeValue.mergeFieldBy, readKey_encodeKey hn]
  simp only [h]

/-- `step` merges the fields of a layout into the record that is held in its state, where `put`
tells the state of each record. -/
def Reads {α : Type} (l : Layout) (owner : String) (budget : Nat)
    (step : α → Bytes → Except DecodeError (α × Bytes)) (put : Record l → α) : Prop :=
  ∀ n ∈ l.numbers, IsFieldNumber n → ∀ w b r r' b',
    l.mergeValue owner budget n w b r = some (.ok (r', b')) →
      step (put r) (encodeKey n w ++ b) = .ok (put r', b')

theorem reads_mergeField (l : Layout) (owner : String) (budget : Nat) :
    l.Reads owner budget (l.mergeField owner budget) id :=
  fun _ _ hn _ _ _ _ _ h => mergeFieldBy_encodeKey hn h

/-- A reader of a layout reads the fields behind the first one, which is held. -/
theorem Reads.tail {α : Type} {l rest : Layout} {owner : String} {budget n : Nat}
    {step : α → Bytes → Except DecodeError (α × Bytes)} {put : Record l → α}
    (h : l.Reads owner budget step put) (hnumbers : l.numbers = n :: rest.numbers)
    (hn : n ∉ rest.numbers) {hold : Record rest → Record l}
    (hvalue : ∀ m ≠ n, ∀ w b s, l.mergeValue owner budget m w b (hold s) =
      (rest.mergeValue owner budget m w b s).map (·.map fun (s, b) => (hold s, b))) :
    rest.Reads owner budget step (put ∘ hold) := by
  intro m hm hnumber w b s s' b' hs
  refine h m (hnumbers ▸ List.mem_cons_of_mem n hm) hnumber w b _ _ b' ?_
  rw [hvalue m (ne_of_mem_of_not_mem hm hn), hs]
  rfl

/-! ## The fields of one number -/

theorem length_le_encodeNested (n : Nat) (body : Bytes) :
    body.length ≤ (encodeNested n body).length := by
  rw [encodeNested, List.length_append]
  exact Nat.le_add_left_of_le (length_le_encodeDelimited body)

theorem length_le_flatMap {ι : Type} {e : ι → Bytes} {x : ι} {xs : List ι} (h : x ∈ xs) :
    (e x).length ≤ (xs.flatMap e).length := by
  rw [List.flatMap_def]
  exact (List.sublist_flatten_of_mem (List.mem_map_of_mem h)).length_le

theorem foldl_concat {ι : Type} (xs ys : List ι) :
    xs.foldl (fun ys x => ys ++ [x]) ys = ys ++ xs := by
  induction xs generalizing ys with
  | nil => simp
  | cons x xs ih => simp [ih]

section fields

variable {α : Type} {owner name typeName : String} {budget n stop : Nat} {type : Scalar}
  {inner rest : Layout} {step : α → Bytes → Except DecodeError (α × Bytes)} {b : Bytes}

theorem Reads.one {put : Record (.one n name type rest) → α}
    (h : Reads (.one n name type rest) owner budget step put) (hn : IsFieldNumber n)
    {v : type.Value} (hv : (encodeUnlessDefault n type v).length < UInt64.size) (s : Record rest)
    (hb : stop ≤ b.length) :
    mergeUntil step stop (put (type.default, s)) (encodeUnlessDefault n type v ++ b) =
      mergeUntil step stop (put (v, s)) b := by
  refine mergeUntil_unlessDefault (fun v => put (v, s)) hb fun hlength => ?_
  rw [encodeScalar, List.append_assoc]
  exact h n List.mem_cons_self hn _ _ _ _ _
    (mergeValue_one (Scalar.read_encode (Nat.lt_of_le_of_lt hlength hv) _) _)

theorem Reads.many {put : Record (.many n name type rest) → α}
    (h : Reads (.many n name type rest) owner budget step put) (hn : IsFieldNumber n)
    {vs : List type.Value} (hvs : (vs.flatMap (encodeScalar n type)).length < UInt64.size)
    (s : Record rest) (hb : stop ≤ b.length) :
    mergeUntil step stop (put ([], s)) (vs.flatMap (encodeScalar n type) ++ b) =
      mergeUntil step stop (put (vs, s)) b := by
  have hstep : ∀ v ∈ vs, ∀ ws b,
      step (put (ws, s)) (encodeScalar n type v ++ b) = .ok (put (ws ++ [v], s), b) := by
    intro v hv ws b
    have hlength := length_le_flatMap (e := encodeScalar n type) hv
    rw [encodeScalar, List.length_append] at hlength
    rw [encodeScalar, List.append_assoc]
    exact h n List.mem_cons_self hn _ _ _ _ _
      (mergeValue_many (Scalar.read_encode (by omega) _) _)
  rw [mergeUntil_flatMap (fun ws => put (ws, s)) (encodeScalar_ne_nil n type) hb hstep,
    foldl_concat]
  rfl

/-- The bytes of each message, read as those of a nested one, give the message back. -/
def ReadsNested (inner : Layout) (typeName : String) (budget : Nat)
    (body : Record inner → Bytes) : Prop :=
  ∀ m, (body m).length < UInt64.size → ∀ b,
    mergeNested (inner.mergeField typeName) budget inner.empty (encodeDelimited (body m) ++ b) =
      .ok (m, b)

theorem readsNested_of_mergeUntil {body : Record inner → Bytes} (hbudget : 0 < budget)
    (h : ∀ m, (body m).length < UInt64.size → ∀ b,
      mergeUntil (inner.mergeField typeName (budget - 1)) b.length inner.empty (body m ++ b) =
        mergeUntil (inner.mergeField typeName (budget - 1)) b.length m b) :
    inner.ReadsNested typeName budget body := by
  obtain ⟨k, rfl⟩ := Nat.exists_eq_succ_of_ne_zero (Nat.ne_of_gt hbudget)
  intro m hm b
  exact mergeNested_encodeDelimited hm ((h m hm b).trans (mergeUntil_done (Nat.le_refl _)))

theorem Reads.message {put : Record (.message n name typeName inner rest) → α}
    (h : Reads (.message n name typeName inner rest) owner budget step put) (hn : IsFieldNumber n)
    {body : Record inner → Bytes} (hread : inner.ReadsNested typeName budget body)
    {o : Option (Record inner)}
    (ho : (o.toList.flatMap fun m => encodeNested n (body m)).length < UInt64.size)
    (s : Record rest) (hb : stop ≤ b.length) :
    mergeUntil step stop (put (none, s))
        ((o.toList.flatMap fun m => encodeNested n (body m)) ++ b) =
      mergeUntil step stop (put (o, s)) b := by
  cases o with
  | none => rfl
  | some m =>
    rw [Option.toList_some, List.flatMap_singleton] at ho ⊢
    have hbody := Nat.lt_of_le_of_lt (length_le_encodeNested n (body m)) ho
    refine mergeUntil_append (encodeNested_ne_nil n _) hb ?_
    rw [encodeNested, List.append_assoc]
    exact h n List.mem_cons_self hn _ _ _ _ _ (mergeValue_message (hread m hbody b))

theorem Reads.messages {put : Record (.messages n name typeName inner rest) → α}
    (h : Reads (.messages n name typeName inner rest) owner budget step put) (hn : IsFieldNumber n)
    {body : Record inner → Bytes} (hread : inner.ReadsNested typeName budget body)
    {ms : List (Record inner)}
    (hms : (ms.flatMap fun m => encodeNested n (body m)).length < UInt64.size)
    (s : Record rest) (hb : stop ≤ b.length) :
    mergeUntil step stop (put ([], s)) ((ms.flatMap fun m => encodeNested n (body m)) ++ b) =
      mergeUntil step stop (put (ms, s)) b := by
  have hstep : ∀ m ∈ ms, ∀ ls b,
      step (put (ls, s)) (encodeNested n (body m) ++ b) = .ok (put (ls ++ [m], s), b) := by
    intro m hm ls b
    have hlength := length_le_flatMap (e := fun m => encodeNested n (body m)) hm
    have hbody := length_le_encodeNested n (body m)
    rw [encodeNested, List.append_assoc]
    exact h n List.mem_cons_self hn _ _ _ _ _ (mergeValue_messages (hread m (by omega) b) _)
  rw [mergeUntil_flatMap (fun ls => put (ls, s)) (fun m => encodeNested_ne_nil n _) hb hstep,
    foldl_concat]
  rfl

theorem Reads.map {put : Record (.map n name rest) → α}
    (h : Reads (.map n name rest) owner budget step put) (hn : IsFieldNumber n)
    (hbudget : 0 < budget) {es : List (String × Bytes)}
    (hes : (encodeEntries n es).length < UInt64.size) (s : Record rest) (hb : stop ≤ b.length) :
    mergeUntil step stop (put (ByteMap.empty, s)) (encodeEntries n es ++ b) =
      mergeUntil step stop (put (ByteMap.ofList es, s)) b := by
  obtain ⟨k, rfl⟩ := Nat.exists_eq_succ_of_ne_zero (Nat.ne_of_gt hbudget)
  have hstep : ∀ e ∈ es, ∀ m b, step (put (m, s)) (encodeNested n (encodeEntry e) ++ b) =
      .ok (put (m.insert e.1 e.2, s), b) := by
    intro e he m b
    have hlength := length_le_flatMap (e := fun e => encodeNested n (encodeEntry e)) he
    have hbody := length_le_encodeNested n (encodeEntry e)
    rw [encodeEntries] at hes
    rw [encodeNested, List.append_assoc]
    exact h n List.mem_cons_self hn _ _ _ _ _
      (mergeValue_map (mergeNested_encodeDelimited (by omega)
        (mergeUntil_encodeEntry (by omega) b)) _)
  exact mergeUntil_flatMap (fun m => put (m, s)) (fun e => encodeNested_ne_nil n _) hb hstep _

end fields

/-! ## All fields -/

/-- What is written for a record is read back by every reader of its layout. -/
theorem mergeUntil_encodeBy {order : ByteMap → List (String × Bytes)}
    (horder : ∀ m, (order m).Perm m.entries) {l : Layout} (hl : l.Distinct) {budget : Nat}
    (hfits : l.Fits budget) {owner : String} {α : Type}
    {step : α → Bytes → Except DecodeError (α × Bytes)} {put : Record l → α}
    (h : l.Reads owner budget step put) {r : Record l}
    (hr : (l.encodeBy order r).length < UInt64.size) {stop : Nat} {b : Bytes}
    (hb : stop ≤ b.length) :
    mergeUntil step stop (put l.empty) (l.encodeBy order r ++ b) =
      mergeUntil step stop (put r) b := by
  -- In each case the first field is read, and the rest by the reader that holds its value.
  induction l generalizing budget owner α stop b with
  | done => rfl
  | one n name type rest ih =>
    rw [encodeBy, List.length_append] at hr
    rw [encodeBy, List.append_assoc]
    have htail : rest.Reads owner budget step (put ∘ fun s => (r.1, s)) :=
      h.tail rfl hl.1 fun m hm w b s => by rw [mergeValue, if_neg (Ne.symm hm)]
    exact (h.one hfits.1 (by omega) _ (by rw [List.length_append]; omega)).trans
      (ih hl.2 hfits.2 htail (by omega) hb)
  | many n name type rest ih =>
    rw [encodeBy, List.length_append] at hr
    rw [encodeBy, List.append_assoc]
    have htail : rest.Reads owner budget step (put ∘ fun s => (r.1, s)) :=
      h.tail rfl hl.1 fun m hm w b s => by rw [mergeValue, if_neg (Ne.symm hm)]
    exact (h.many hfits.1 (by omega) _ (by rw [List.length_append]; omega)).trans
      (ih hl.2 hfits.2 htail (by omega) hb)
  | message n name typeName inner rest ihInner ih =>
    rw [encodeBy, List.length_append] at hr
    rw [encodeBy, List.append_assoc]
    have htail : rest.Reads owner budget step (put ∘ fun s => (r.1, s)) :=
      h.tail rfl hl.1 fun m hm w b s => by rw [mergeValue, if_neg (Ne.symm hm)]
    have hread : inner.ReadsNested typeName budget (inner.encodeBy order) :=
      readsNested_of_mergeUntil hfits.2.1 fun m hm b =>
        ihInner hl.2.1 hfits.2.2.1 (reads_mergeField inner typeName _) hm (Nat.le_refl _)
    exact (h.message hfits.1 hread (by omega) _ (by rw [List.length_append]; omega)).trans
      (ih hl.2.2 hfits.2.2.2 htail (by omega) hb)
  | messages n name typeName inner rest ihInner ih =>
    rw [encodeBy, List.length_append] at hr
    rw [encodeBy, List.append_assoc]
    have htail : rest.Reads owner budget step (put ∘ fun s => (r.1, s)) :=
      h.tail rfl hl.1 fun m hm w b s => by rw [mergeValue, if_neg (Ne.symm hm)]
    have hread : inner.ReadsNested typeName budget (inner.encodeBy order) :=
      readsNested_of_mergeUntil hfits.2.1 fun m hm b =>
        ihInner hl.2.1 hfits.2.2.1 (reads_mergeField inner typeName _) hm (Nat.le_refl _)
    exact (h.messages hfits.1 hread (by omega) _ (by rw [List.length_append]; omega)).trans
      (ih hl.2.2 hfits.2.2.2 htail (by omega) hb)
  | map n name rest ih =>
    rw [encodeBy, List.length_append] at hr
    rw [encodeBy, List.append_assoc]
    have htail : rest.Reads owner budget step (put ∘ fun s => (r.1, s)) :=
      h.tail rfl hl.1 fun m hm w b s => by rw [mergeValue, if_neg (Ne.symm hm)]
    refine (h.map hfits.1 hfits.2.1 (by omega) rest.empty
      (by rw [List.length_append]; omega)).trans ?_
    rw [ByteMap.ofList_of_perm (horder r.1)]
    exact ih hl.2 hfits.2.2 htail (by omega) hb

/-- A record is read back from its bytes. -/
theorem decode_encodeBy {order : ByteMap → List (String × Bytes)}
    (horder : ∀ m, (order m).Perm m.entries) {l : Layout} (hl : l.Distinct)
    (hfits : l.Fits nestingLimit) {r : Record l} (hr : (l.encodeBy order r).length < UInt64.size)
    (label : String) : l.decode label (l.encodeBy order r) = .ok r := by
  have hread := mergeUntil_encodeBy horder hl hfits (reads_mergeField l label nestingLimit) hr
    (Nat.le_refl ([] : Bytes).length)
  rw [List.append_nil, mergeUntil_done (Nat.le_refl _)] at hread
  exact congrArg (Except.map Prod.fst) hread

end Layout

/-! ## Messages -/

namespace Message

variable {M : Type} [Message M]

/-- The bytes of a message with the entries of its maps in the given order. -/
def encodeBy (order : ByteMap → List (String × Bytes)) (m : M) : Bytes :=
  (layout M).encodeBy order (toRecord m)

theorem encode_eq_encodeBy (m : M) : encode m = encodeBy ByteMap.entries m :=
  Layout.encode_eq_encodeBy ..

theorem decode_encodeBy {order : ByteMap → List (String × Bytes)}
    (horder : ∀ x, (order x).Perm x.entries) (hM : (layout M).Distinct)
    (hfits : (layout M).Fits nestingLimit) {m : M}
    (hm : (encodeBy order m).length < UInt64.size) : decode (encodeBy order m) = .ok m := by
  have hread := Layout.decode_encodeBy horder hM hfits hm (label M)
  exact (congrArg (Except.map ofRecord) hread).trans (congrArg Except.ok (ofRecord_toRecord m))

theorem decode_encode (hM : (layout M).Distinct) (hfits : (layout M).Fits nestingLimit) {m : M}
    (hm : (encode m).length < UInt64.size) : decode (encode m) = .ok m := by
  rw [encode_eq_encodeBy] at hm ⊢
  exact decode_encodeBy (fun x => .refl x.entries) hM hfits hm

end Message
end LedgerClient.Wire

namespace LedgerClient.Ledger

open Wire

theorem messageTypes_fit : ∀ t ∈ messageTypes, t.layout.Distinct ∧ t.layout.Fits nestingLimit := by
  decide

/-- A message of the service that was written with the entries of its map in any order is read back
as it was.  The library itself writes them in the order of the keys. -/
theorem decode_encodeBy_of_mem_messageTypes {M : Type} [Message M]
    (hM : MessageType.of M ∈ messageTypes) (m : M) :
    Message.encode m = Message.encodeBy ByteMap.entries m ∧
      ∀ order : ByteMap → List (String × Bytes), (∀ x, (order x).Perm x.entries) →
        (Message.encodeBy order m).length < UInt64.size →
          Message.decode (Message.encodeBy order m) = .ok m := by
  obtain ⟨hdistinct, hfits⟩ := messageTypes_fit _ hM
  refine ⟨Message.encode_eq_encodeBy m, fun order horder hm => ?_⟩
  exact Message.decode_encodeBy horder hdistinct hfits hm

/-- Two signatures, one of them without an address and the other without bytes, are read back from
the order in which the library would not write them. -/
theorem decode_encodeBy_of_mem_messageTypes_twoSignatures :
    let m : Signatures := { byAddress := ByteMap.ofList [("", [7]), ("a", [])] }
    let backwards : ByteMap → List (String × Bytes) := fun x => x.entries.reverse
    MessageType.of Signatures ∈ messageTypes ∧ (∀ x, (backwards x).Perm x.entries) ∧
      Message.encodeBy backwards m = [10, 3, 10, 1, 97, 10, 3, 18, 1, 7] ∧
      Message.encode m = [10, 3, 18, 1, 7, 10, 3, 10, 1, 97] ∧
      Message.decode (Message.encodeBy backwards m) = .ok m := by
  intro m backwards
  have hM : MessageType.of Signatures ∈ messageTypes := by simp [messageTypes]
  have horder : ∀ x, (backwards x).Perm x.entries := fun x => List.reverse_perm x.entries
  have hbytes : Message.encodeBy backwards m = [10, 3, 10, 1, 97, 10, 3, 18, 1, 7] := by
    decide +kernel
  refine ⟨hM, horder, hbytes, by decide +kernel, ?_⟩
  exact (decode_encodeBy_of_mem_messageTypes hM m).2 backwards horder (by rw [hbytes]; decide)

end LedgerClient.Ledger
