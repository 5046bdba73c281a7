import LedgerClient.Proofs.Wire.Grammar

/-!
# Messages that go on

What a reader makes of the bytes it takes does not depend on the bytes behind them, at any depth
of nesting.  So a message that can be read may be followed by more of it: reading the whole is
reading the one part and merging the other into it.  Fields of numbers that the message does not
have are passed over wherever one field ends and the next begins.
-/

namespace LedgerClient.Wire

/-! ## Readers that look at what they take only -/

section settled

variable {α β ε δ : Type} {read : Bytes → Except ε (α × Bytes)}

/-- What a reader makes of its bytes is settled by those that it takes. -/
def Settled (read : Bytes → Except ε (α × Bytes)) : Prop :=
  ∀ b a rest, read b = .ok (a, rest) → ∃ x, b = x ++ rest ∧ ∀ c, read (x ++ c) = .ok (a, c)

theorem map_eq_ok_iff {r : Except ε α} {f : α → β} {b : β} :
    r.map f = .ok b ↔ ∃ a, r = .ok a ∧ f a = b := by
  cases r <;> simp [Except.map]

theorem mapError_eq_ok_iff {r : Except ε α} {f : ε → δ} {a : α} :
    r.mapError f = .ok a ↔ r = .ok a := by
  cases r <;> simp [Except.mapError]

theorem mapError_map {r : Except ε α} {f : α → β} {g : ε → δ} :
    (r.map f).mapError g = (r.mapError g).map f := by
  cases r <;> rfl

theorem Settled.map (h : Settled read) (f : α → β) :
    Settled fun b => (read b).map fun (a, b) => (f a, b) := by
  intro b _ _ hb
  obtain ⟨⟨a, rest⟩, hread, ⟨⟩⟩ := map_eq_ok_iff.1 hb
  obtain ⟨x, rfl, hx⟩ := h _ _ _ hread
  exact ⟨x, rfl, fun c => map_eq_ok_iff.2 ⟨_, hx c, rfl⟩⟩

theorem Settled.mapError (h : Settled read) (f : ε → δ) : Settled fun b => (read b).mapError f := by
  intro b _ _ hb
  obtain ⟨x, rfl, hx⟩ := h _ _ _ (mapError_eq_ok_iff.1 hb)
  exact ⟨x, rfl, fun c => mapError_eq_ok_iff.2 (hx c)⟩

theorem Settled.requireDelimited {read : Bytes → Except DecodeError (α × Bytes)} (h : Settled read)
    (w : WireType) : Settled fun b => requireDelimited w (read b) := by
  unfold Wire.requireDelimited
  split
  · exact h
  · exact nofun

/-- Passing over a value is settled by its bytes. -/
theorem settled_skipValue (limit n : Nat) (w : WireType) (a : α) :
    Settled fun b => (skipValue limit n w b).map fun b => (a, b) := by
  intro b _ _ hb
  obtain ⟨rest, hskip, ⟨⟩⟩ := map_eq_ok_iff.1 hb
  obtain ⟨c, x, rfl, hx, rfl⟩ := skipValue_eq_ok_iff.1 hskip
  exact ⟨x, rfl, fun b => map_eq_ok_iff.2 ⟨_, skipValue_of_spells hx b, rfl⟩⟩

theorem settled_read (s : Scalar) (w : WireType) : Settled (s.read w) := by
  intro b v rest h
  unfold Scalar.read at h ⊢
  split at h
  · cases h
  · rename_i hwire
    simp only [if_neg hwire]
    -- The two delimited types are read alike, and so are the others.
    cases s with
    | string =>
      simp only at h ⊢
      split at h
      · cases h
      · rename_i text rest' htext
        obtain ⟨x, hx, rfl⟩ := readDelimited_eq_ok_iff.1 htext
        split at h
        · cases h
        · rename_i v' hv
          cases h
          refine ⟨x ++ text, rfl, fun c => ?_⟩
          simp only [readDelimited_eq_ok_iff.2 ⟨x, hx, rfl⟩, hv]
    | bytes =>
      obtain ⟨x, hx, rfl⟩ := readDelimited_eq_ok_iff.1 h
      exact ⟨x ++ v, rfl, fun c => readDelimited_eq_ok_iff.2 ⟨x, hx, rfl⟩⟩
    | uint64 | int64 | int32 | bool | enumeration _ =>
      simp only at h ⊢
      split at h
      · cases h
      · rename_i n rest' hn
        obtain ⟨x, hx, rfl⟩ := Varint.read_eq_ok_iff.1 hn
        cases h
        refine ⟨x, rfl, fun c => ?_⟩
        rw [Varint.read_eq_ok_iff.2 ⟨x, hx, rfl⟩]

end settled

/-! ## Fields one after the other -/

section runs

variable {α ε : Type}

/-- The bytes `x`, whatever follows them, take `step` from the state `a` to `a'`. -/
def Takes (step : α → Bytes → Except ε (α × Bytes)) (a : α) (x : Bytes) (a' : α) : Prop :=
  ∀ rest, step a (x ++ rest) = .ok (a', rest)

/-- Where a step ends is settled by the bytes it takes, and it takes some. -/
def IsLocal (step : α → Bytes → Except ε (α × Bytes)) : Prop :=
  ∀ a b a' rest, step a b = .ok (a', rest) → ∃ x, x ≠ [] ∧ Takes step a x a' ∧ b = x ++ rest

/-- A step that takes a key, and then a value as the key says, is local if the value is settled. -/
theorem isLocal_of_key {step : α → Bytes → Except ε (α × Bytes)} (fail : Fault → ε)
    (value : Nat → WireType → α → Bytes → Except ε (α × Bytes))
    (hstep : ∀ a b, step a b = match readKey b with
      | .error e => .error (fail e)
      | .ok key => value key.number key.wire a key.rest)
    (hvalue : ∀ n w a, Settled (value n w a)) : IsLocal step := by
  intro a b a' rest h
  rw [hstep] at h
  split at h
  · cases h
  · rename_i key hkey
    obtain ⟨k, hk, rfl⟩ := readKey_eq_ok_iff.1 hkey
    obtain ⟨x, hx, hsettled⟩ := hvalue _ _ _ _ _ _ h
    refine ⟨k ++ x, by simp [hk.ne_nil], fun c => ?_, by rw [hx, List.append_assoc]⟩
    rw [hstep, hk.readKey_append]
    exact hsettled c

/-- The bytes, whatever follows them, take `step` from one state to another, field by field. -/
inductive Runs (step : α → Bytes → Except ε (α × Bytes)) : α → Bytes → α → Prop where
  | nil {a : α} : Runs step a [] a
  | cons {a a₁ a' : α} {x b : Bytes} (hx : x ≠ []) (htakes : Takes step a x a₁)
    (hruns : Runs step a₁ b a') : Runs step a (x ++ b) a'

variable {step : α → Bytes → Except ε (α × Bytes)} {stop : Nat} {a a' : α}

/-- Reading goes on behind the fields that were read, if they end before the place or at it. -/
theorem Runs.mergeUntil_append {b c : Bytes} (h : Runs step a b a') (hc : stop ≤ c.length) :
    mergeUntil step stop a (b ++ c) = mergeUntil step stop a' c := by
  induction h with
  | nil => rfl
  | @cons a a₁ a' x b hx htakes _ ih =>
    rw [List.append_assoc, Wire.mergeUntil_append hx (by rw [List.length_append]; omega) (htakes _)]
    exact ih

theorem IsLocal.runs_of_mergeUntil (h : IsLocal step) {b rest : Bytes}
    (hrun : mergeUntil step stop a b = .ok (a', rest)) :
    ∃ x, Runs step a x a' ∧ b = x ++ rest ∧ rest.length ≤ stop := by
  induction hn : b.length using Nat.strongRecOn generalizing a b with
  | ind _ ih =>
    subst hn
    by_cases hb : b.length ≤ stop
    · rw [mergeUntil_done hb] at hrun
      cases hrun
      exact ⟨[], .nil, rfl, hb⟩
    · rw [mergeUntil, if_neg hb] at hrun
      split at hrun
      · cases hrun
      · rename_i a₁ b₁ hstep
        obtain ⟨x, hx, htakes, rfl⟩ := h _ _ _ _ hstep
        have hlength : b₁.length < (x ++ b₁).length := by
          have := List.length_pos_of_ne_nil hx
          rw [List.length_append]
          omega
        rw [if_pos hlength] at hrun
        obtain ⟨y, hy, rfl, hrest⟩ := ih _ hlength hrun rfl
        exact ⟨x ++ y, .cons hx htakes hy, (List.append_assoc ..).symm, hrest⟩

end runs

/-! ## Nested messages -/

/-- What a nested message is made of is delimited, and nothing behind its end has a part in it. -/
theorem exists_of_mergeNested {α : Type} {step : Nat → α → Bytes → Except DecodeError (α × Bytes)}
    (hstep : ∀ budget, IsLocal (step budget)) {budget : Nat} {a a' : α} {b rest : Bytes}
    (h : mergeNested step budget a b = .ok (a', rest)) :
    ∃ x body, Varint.Spells x body.length ∧ b = x ++ body ++ rest ∧
      ∀ c, mergeNested step budget a (x ++ body ++ c) = .ok (a', c) := by
  cases budget with
  | zero => cases h
  | succ budget =>
    rw [mergeNested] at h
    split at h
    · cases h
    · rename_i n inside hn
      obtain ⟨x, hx, rfl⟩ := Varint.read_eq_ok_iff.1 hn
      split at h
      · cases h
      · rename_i hlarge
        split at h
        · cases h
        · rename_i a₁ after hrun
          split at h
          · rename_i hend
            cases h
            obtain ⟨body, hbody, rfl, -⟩ := (hstep budget).runs_of_mergeUntil hrun
            rw [List.length_append] at hlarge hend
            have hlength : body.length = n := by omega
            subst hlength
            refine ⟨x, body, hx, (List.append_assoc ..).symm, fun c => ?_⟩
            rw [List.append_assoc]
            rw [mergeNested, Varint.read_eq_ok_iff.2 ⟨x, hx, rfl⟩]
            have hend : (body ++ c).length - body.length = c.length := by simp
            simp only [hend, hbody.mergeUntil_append (Nat.le_refl c.length),
              mergeUntil_done (Nat.le_refl c.length)]
            rw [if_neg (by rw [List.length_append]; omega), if_pos trivial]
          · cases h

theorem settled_mergeNested {α : Type} {step : Nat → α → Bytes → Except DecodeError (α × Bytes)}
    (hstep : ∀ budget, IsLocal (step budget)) (budget : Nat) (a : α) :
    Settled (mergeNested step budget a) := by
  intro b a' rest h
  obtain ⟨x, body, -, rfl, hagain⟩ := exists_of_mergeNested hstep h
  exact ⟨x ++ body, rfl, hagain⟩

theorem isLocal_mergeEntryField (budget : Nat) : IsLocal (mergeEntryField budget) := by
  refine isLocal_of_key DecodeError.ofFault
    (fun n w e b => Except.mapError DecodeError.ofFault <|
      if n = 1 then (Scalar.string.read w b).map fun r => ((r.1, e.2), r.2)
      else if n = 2 then (Scalar.bytes.read w b).map fun r => ((e.1, r.1), r.2)
      else (skipValue budget n w b).map fun b => (e, b)) ?_ ?_
  · intro e b
    rw [mergeEntryField]
    cases readKey b <;> rfl
  · intro n w e
    refine Settled.mapError ?_ _
    split
    · exact (settled_read .string w).map fun v => (v, e.2)
    · split
      · exact (settled_read .bytes w).map fun v => (e.1, v)
      · exact settled_skipValue budget n w e

/-! ## Layouts -/

namespace Layout

variable {owner : String} {n : Nat} {w : WireType}

theorem mergeValue_eq_none {l : Layout} (hn : n ∉ l.numbers) (budget : Nat) (b : Bytes)
    (r : Record l) : l.mergeValue owner budget n w b r = none := by
  induction l with
  | done => rfl
  | one m _ _ rest ih | many m _ _ rest ih | message m _ _ _ rest _ ih
  | messages m _ _ _ rest _ ih | map m _ rest ih =>
    obtain ⟨hm, hrest⟩ := not_or.1 (fun h => hn (List.mem_cons.2 h))
    rw [mergeValue, if_neg (Ne.symm hm), ih hrest, Option.map_none]

/-- What may not be there is there, and it is a settled reader. -/
def HasReader {α : Type} (value : Bytes → Option (Except DecodeError (α × Bytes))) : Prop :=
  ∃ read, Settled read ∧ ∀ b, value b = some (read b)

theorem HasReader.map {α β : Type} {value : Bytes → Option (Except DecodeError (α × Bytes))}
    (h : HasReader value) (f : α → β) :
    HasReader fun b => (value b).map (·.map fun (a, b) => (f a, b)) := by
  obtain ⟨read, hread, heq⟩ := h
  exact ⟨_, hread.map f, fun b => by simp only [heq, Option.map_some]⟩

/-- The values of the fields of the layout have settled readers. -/
def HasReaders (l : Layout) (owner : String) (budget : Nat) : Prop :=
  ∀ n ∈ l.numbers, ∀ w r, HasReader fun b => l.mergeValue owner budget n w b r

theorem HasReaders.isLocal {l : Layout} {budget : Nat} (h : l.HasReaders owner budget) :
    IsLocal (l.mergeField owner budget) := by
  refine isLocal_of_key DecodeError.ofFault (fun n w r b =>
    match l.mergeValue owner budget n w b r with
    | some result => result
    | none => ((skipValue budget n w b).mapError .ofFault).map fun b => (r, b)) ?_ ?_
  · intro r b
    rw [mergeField, mergeValue.mergeFieldBy]
    cases readKey b with
    | error e => rfl
    | ok key => cases h : l.mergeValue owner budget key.number key.wire key.rest r <;> simp only [h]
  · intro n w r
    by_cases hn : n ∈ l.numbers
    · obtain ⟨read, hread, heq⟩ := h n hn w r
      simpa only [heq] using hread
    · simp only [mergeValue_eq_none hn, ← mapError_map]
      exact (settled_skipValue budget n w r).mapError _

theorem hasReaders (l : Layout) (owner : String) (budget : Nat) : l.HasReaders owner budget := by
  -- A field is the first one, with the reader of its kind, or it has a reader among the others.
  induction l generalizing owner budget with
  | done => exact nofun
  | one m name type rest ih =>
    intro n hn w r
    by_cases hm : m = n
    · simp only [mergeValue, if_pos hm]
      exact ⟨_, ((settled_read type w).mapError _).map fun v => (v, r.2), fun _ => rfl⟩
    · simp only [mergeValue, if_neg hm]
      exact (ih owner budget n ((List.mem_cons.1 hn).resolve_left (Ne.symm hm)) w r.2).map _
  | many m name type rest ih =>
    intro n hn w r
    by_cases hm : m = n
    · simp only [mergeValue, if_pos hm]
      exact ⟨_, ((settled_read type w).mapError _).map fun v => (r.1 ++ [v], r.2), fun _ => rfl⟩
    · simp only [mergeValue, if_neg hm]
      exact (ih owner budget n ((List.mem_cons.1 hn).resolve_left (Ne.symm hm)) w r.2).map _
  | message m name typeName inner rest ihInner ih =>
    intro n hn w r
    by_cases hm : m = n
    · have hinner := settled_mergeNested (fun k => (ihInner typeName k).isLocal) budget
        (r.1.getD inner.empty)
      simp only [mergeValue, if_pos hm]
      exact ⟨_, ((hinner.requireDelimited w).mapError _).map fun m => (some m, r.2), fun _ => rfl⟩
    · simp only [mergeValue, if_neg hm]
      exact (ih owner budget n ((List.mem_cons.1 hn).resolve_left (Ne.symm hm)) w r.2).map _
  | messages m name typeName inner rest ihInner ih =>
    intro n hn w r
    by_cases hm : m = n
    · have hinner := settled_mergeNested (fun k => (ihInner typeName k).isLocal) budget inner.empty
      simp only [mergeValue, if_pos hm]
      exact ⟨_, ((hinner.requireDelimited w).mapError _).map fun m => (r.1 ++ [m], r.2),
        fun _ => rfl⟩
    · simp only [mergeValue, if_neg hm]
      exact (ih owner budget n ((List.mem_cons.1 hn).resolve_left (Ne.symm hm)) w r.2).map _
  | map m name rest ih =>
    intro n hn w r
    by_cases hm : m = n
    · have hentry := settled_mergeNested isLocal_mergeEntryField budget ("", [])
      simp only [mergeValue, if_pos hm]
      exact ⟨_, (hentry.mapError _).map fun e => (r.1.insert e.1 e.2, r.2), fun _ => rfl⟩
    · simp only [mergeValue, if_neg hm]
      exact (ih owner budget n ((List.mem_cons.1 hn).resolve_left (Ne.symm hm)) w r.2).map _

theorem isLocal_mergeField (l : Layout) (owner : String) (budget : Nat) :
    IsLocal (l.mergeField owner budget) := (l.hasReaders owner budget).isLocal

/-- Whoever has read a message goes on with what comes. -/
theorem merge_append {l : Layout} {label : String} {r r' : Record l} {a : Bytes}
    (h : l.merge label r a = .ok r') (b : Bytes) :
    l.merge label r (a ++ b) = l.merge label r' b := by
  obtain ⟨⟨_, rest⟩, hrun, rfl⟩ := map_eq_ok_iff.1 h
  obtain ⟨x, hx, rfl, hrest⟩ := (l.isLocal_mergeField label nestingLimit).runs_of_mergeUntil hrun
  rw [List.length_eq_zero_iff.1 (Nat.le_zero.1 hrest), List.append_nil]
  exact congrArg (Except.map Prod.fst) (hx.mergeUntil_append (Nat.zero_le _))

/-- Fields of numbers that the layout does not have leave the record as it is. -/
theorem runs_unknown {l : Layout} {budget : Nat} {fields : List (Nat × Content)} {u : Bytes}
    (h : SpellsFields budget fields u) (hnumbers : ∀ f ∈ fields, f.1 ∉ l.numbers)
    (owner : String) (r : Record l) : Runs (l.mergeField owner budget) r u r := by
  induction h with
  | nil => exact .nil
  | @cons key value b n c fields hkey hvalue _ ih =>
    refine .cons (by simp [hkey.ne_nil]) (fun rest => ?_)
      (ih fun f hf => hnumbers f (List.mem_cons_of_mem _ hf))
    rw [mergeField, mergeValue.mergeFieldBy, hkey.readKey_append]
    simp only [mergeValue_eq_none (hnumbers _ List.mem_cons_self), skipValue_of_spells hvalue]
    rfl

end Layout

/-! ## Messages -/

namespace Message

variable {M : Type} [Message M]

/-- The bytes are fields of numbers that messages of the type do not have. -/
def IsUnknown (M : Type) [Message M] (u : Bytes) : Prop :=
  ∃ fields, SpellsFields nestingLimit fields u ∧ ∀ f ∈ fields, f.1 ∉ (layout M).numbers

/-- The second bytes are the first with fields put in that messages of the type do not have, behind
bytes that can be read. -/
def Extends (M : Type) [Message M] (before after : Bytes) : Prop :=
  ∃ (a u b : Bytes) (m : M), decode a = .ok m ∧ IsUnknown M u ∧ before = a ++ b ∧
    after = a ++ u ++ b

theorem decode_append {a : Bytes} {m : M} (h : decode a = .ok m) (b : Bytes) :
    (decode (a ++ b) : Except DecodeError M) = merge m b := by
  obtain ⟨r, hr, rfl⟩ := map_eq_ok_iff.1 h
  rw [merge, toRecord_ofRecord]
  exact congrArg (Except.map ofRecord) (Layout.merge_append hr b)

theorem merge_unknown {u : Bytes} (hu : IsUnknown M u) (m : M) (b : Bytes) :
    merge m (u ++ b) = merge m b := by
  obtain ⟨fields, hfields, hnumbers⟩ := hu
  have hruns := Layout.runs_unknown hfields hnumbers (label M) (toRecord m)
  have hrest := congrArg (Except.map Prod.fst) (hruns.mergeUntil_append (Nat.zero_le b.length))
  exact congrArg (Except.map ofRecord) hrest

/-- What was put in changes nothing, neither a message nor an error. -/
theorem Extends.decode_eq {before after : Bytes} (h : Extends M before after) :
    (decode after : Except DecodeError M) = decode before := by
  obtain ⟨a, u, b, m, ha, hu, rfl, rfl⟩ := h
  rw [List.append_assoc, decode_append ha, decode_append ha, merge_unknown hu]

end Message
end LedgerClient.Wire
