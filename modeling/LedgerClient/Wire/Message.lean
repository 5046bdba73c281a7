import LedgerClient.Wire.Decode

/-!
# Message types

A type of messages is a structure together with a layout and a one-to-one correspondence between
its values and the records of the layout.  What is defined and proved for layouts so holds for
every message type.
-/

namespace LedgerClient.Wire

namespace Layout

/-- Merges the fields of `b`, which is read to its end, into a record.  The message is called
`label` in diagnostics. -/
def merge (l : Layout) (label : String) (r : Record l) (b : Bytes) :
    Except DecodeError (Record l) :=
  (mergeUntil (mergeValue.mergeFieldBy
    (fun number wire b r => l.mergeValue label nestingLimit number wire b r) nestingLimit)
    0 r b).map (·.1)

/-- Reads a message. -/
def decode (l : Layout) (label : String) (b : Bytes) : Except DecodeError (Record l) :=
  l.merge label l.empty b

end Layout

/-- `M` is a type of messages. -/
class Message (M : Type) where
  /-- The name of the type in the service's interface. -/
  typeName : String
  /-- The name of the type in diagnostics. -/
  label : String := typeName
  layout : Layout
  toRecord : M → Record layout
  ofRecord : Record layout → M
  ofRecord_toRecord : ∀ m, ofRecord (toRecord m) = m := by intro m; rfl
  toRecord_ofRecord : ∀ r, toRecord (ofRecord r) = r := by intro r; rfl

namespace Message

attribute [simp] ofRecord_toRecord toRecord_ofRecord

variable {M : Type} [Message M]

@[simp] theorem ofRecord_comp_toRecord : (ofRecord : _ → M) ∘ toRecord = id := by
  funext m; simp

@[simp] theorem toRecord_comp_ofRecord : (toRecord : M → _) ∘ ofRecord = id := by
  funext r; simp

theorem toRecord_injective {m n : M} (h : toRecord m = toRecord n) : m = n := by
  rw [← ofRecord_toRecord m, h, ofRecord_toRecord]

/-- The bytes of a message. -/
def encode (m : M) : Bytes := (layout M).encode (toRecord m)

/-- Merges the fields of `b` into `m`. -/
def merge (m : M) (b : Bytes) : Except DecodeError M :=
  ((layout M).merge (label M) (toRecord m) b).map ofRecord

/-- Reads a message. -/
def decode (b : Bytes) : Except DecodeError M :=
  ((layout M).decode (label M) b).map ofRecord

end Message
end LedgerClient.Wire
