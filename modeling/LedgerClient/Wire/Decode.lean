import LedgerClient.Wire.Encode
import LedgerClient.Wire.Unknown

/-!
# Reading messages

A message is read by merging the fields on the wire, in their order, into the empty message: a
later scalar replaces an earlier one, an element is added to a repeated field, a nested message
is merged into the one already there, and a map's entry replaces the one of its key.  A field the
layout does not have is passed over.

A nested message is read from the bytes of the message around it until its declared end is
reached or passed.  Passing it is an error, but one of its own fields may first read beyond it,
so long as the bytes around it last.
-/

namespace LedgerClient.Wire

/-- Nested messages and groups may be this deep. -/
def nestingLimit : Nat := 100

namespace Scalar

/-- The value of a scalar given by its number on the wire; a 32-bit number keeps its low bits. -/
def ofVarint : (s : Scalar) → Nat → s.Value
  | uint64, n => UInt64.ofNat n
  | int64, n => (UInt64.ofNat n).toInt64
  | int32, n => (UInt32.ofNat n).toInt32
  | bool, n => n != 0
  | string, _ => ""
  | bytes, _ => []
  | enumeration _, n => (UInt32.ofNat n).toInt32

/-- Reads a value whose field has been found to be of wire type `wire`. -/
def read (s : Scalar) (wire : WireType) (b : Bytes) : Except Fault (s.Value × Bytes) :=
  if wire ≠ s.wire then .error (.wireTypeMismatch wire s.wire)
  else match s with
    | string =>
      match readDelimited b with
      | .error e => .error e
      | .ok (text, rest) =>
        match Text.ofUtf8? text with
        | none => .error .notUtf8
        | some v => .ok (v, rest)
    | bytes => readDelimited b
    | s =>
      match Varint.read b with
      | .error e => .error e
      | .ok (n, rest) => .ok (s.ofVarint n, rest)

end Scalar

/-- Merges fields by `step` until at most `stop` bytes are left. -/
def mergeUntil {α ε : Type} (step : α → Bytes → Except ε (α × Bytes)) (stop : Nat)
    (a : α) (b : Bytes) : Except ε (α × Bytes) :=
  if b.length ≤ stop then .ok (a, b)
  else match step a b with
    | .error e => .error e
    | .ok (a, rest) =>
      if rest.length < b.length then mergeUntil step stop a rest else .ok (a, rest)
termination_by b.length

/-- Merges into `a` the fields of a nested message, whose length comes first. -/
def mergeNested {α : Type} (step : Nat → α → Bytes → Except DecodeError (α × Bytes))
    (budget : Nat) (a : α) (b : Bytes) : Except DecodeError (α × Bytes) :=
  match budget with
  | 0 => .error (.ofFault .nestedTooDeep)
  | budget + 1 =>
    match Varint.read b with
    | .error e => .error (.ofFault e)
    | .ok (n, rest) =>
      if rest.length < n then .error (.ofFault .underflow)
      else match mergeUntil (step budget) (rest.length - n) a rest with
        | .error e => .error e
        | .ok (a, after) =>
          if after.length = rest.length - n then .ok (a, after)
          else .error (.ofFault .lengthExceeded)

/-- Merges one field of a map's entry. -/
def mergeEntryField (budget : Nat) (e : String × Bytes) (b : Bytes) :
    Except DecodeError ((String × Bytes) × Bytes) :=
  Except.mapError DecodeError.ofFault <|
    match readKey b with
    | .error f => .error f
    | .ok key =>
      if key.number = 1 then
        (Scalar.string.read key.wire key.rest).map fun (v, rest) => ((v, e.2), rest)
      else if key.number = 2 then
        (Scalar.bytes.read key.wire key.rest).map fun (v, rest) => ((e.1, v), rest)
      else (skipValue budget key.number key.wire key.rest).map fun rest => (e, rest)

/-- `f` where `wire` delimits a length, the only type that nested messages have. -/
def requireDelimited {α : Type} (wire : WireType) (f : Except DecodeError α) :
    Except DecodeError α :=
  if wire = .lengthDelimited then f
  else .error (.ofFault (.wireTypeMismatch wire .lengthDelimited))

/-- Merges the value of field `number` into a message called `owner`; `none` if the layout has no
such field.  The wire type of a map's entry is not looked at. -/
def Layout.mergeValue (owner : String) (budget number : Nat) (wire : WireType) (b : Bytes) :
    (l : Layout) → Record l → Option (Except DecodeError (Record l × Bytes))
  | .done, _ => none
  | .one n name type rest, r =>
    if n = number then
      some <| ((type.read wire b).mapError (DecodeError.within owner name ∘ .ofFault)).map
        fun (v, b) => ((v, r.2), b)
    else (rest.mergeValue owner budget number wire b r.2).map (·.map fun (s, b) => ((r.1, s), b))
  | .many n name type rest, r =>
    if n = number then
      some <| ((type.read wire b).mapError (DecodeError.within owner name ∘ .ofFault)).map
        fun (v, b) => ((r.1 ++ [v], r.2), b)
    else (rest.mergeValue owner budget number wire b r.2).map (·.map fun (s, b) => ((r.1, s), b))
  | .message n name typeName inner rest, r =>
    if n = number then
      some <| ((requireDelimited wire <| mergeNested
          (fun budget m b => mergeFieldBy
            (fun number wire b m => inner.mergeValue typeName budget number wire b m) budget m b)
          budget (r.1.getD inner.empty) b).mapError (DecodeError.within owner name)).map
        fun (m, b) => ((some m, r.2), b)
    else (rest.mergeValue owner budget number wire b r.2).map (·.map fun (s, b) => ((r.1, s), b))
  | .messages n name typeName inner rest, r =>
    if n = number then
      some <| ((requireDelimited wire <| mergeNested
          (fun budget m b => mergeFieldBy
            (fun number wire b m => inner.mergeValue typeName budget number wire b m) budget m b)
          budget inner.empty b).mapError (DecodeError.within owner name)).map
        fun (m, b) => ((r.1 ++ [m], r.2), b)
    else (rest.mergeValue owner budget number wire b r.2).map (·.map fun (s, b) => ((r.1, s), b))
  | .map n name rest, r =>
    if n = number then
      some <| ((mergeNested mergeEntryField budget ("", []) b).mapError
          (DecodeError.within owner name)).map
        fun (e, b) => ((r.1.insert e.1 e.2, r.2), b)
    else (rest.mergeValue owner budget number wire b r.2).map (·.map fun (s, b) => ((r.1, s), b))
where
  /-- Reads a key and merges the value after it, or passes over the value of an unknown field. -/
  mergeFieldBy {α : Type}
      (value : Nat → WireType → Bytes → α → Option (Except DecodeError (α × Bytes)))
      (budget : Nat) (a : α) (b : Bytes) : Except DecodeError (α × Bytes) :=
    match readKey b with
    | .error e => .error (.ofFault e)
    | .ok key =>
      match value key.number key.wire key.rest a with
      | some result => result
      | none =>
        ((skipValue budget key.number key.wire key.rest).mapError .ofFault).map fun b => (a, b)

end LedgerClient.Wire
