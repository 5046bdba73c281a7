import LedgerClient.Bytes
import LedgerClient.Wire.Fault

/-!
# Variable-length numbers and field keys

A number is written in groups of seven bits, the lowest first; every byte but the last has its
high bit set.  A 64-bit number takes at most ten bytes, and the tenth holds one bit only.
A *key* is the number that holds a field's number and its wire type.
-/

namespace LedgerClient.Wire

namespace Varint

/-- The groups of `n`. -/
def encode (n : Nat) : Bytes :=
  if n < 128 then [UInt8.ofNat n] else UInt8.ofNat (n % 128 + 128) :: encode (n / 128)

/-- Reads a number of at most `k` groups, of which a tenth is no larger than one. -/
def readGroups : Nat → Bytes → Option (Nat × Bytes)
  | k + 1, b :: rest =>
    if b < 128 then
      if k = 0 ∧ 1 < b then none else some (b.toNat, rest)
    else (readGroups k rest).map fun (n, rest) => (b.toNat % 128 + 128 * n, rest)
  | _, _ => none

/-- Reads a 64-bit number and returns what follows it. -/
def read (b : Bytes) : Except Fault (Nat × Bytes) :=
  match readGroups 10 b with
  | some r => .ok r
  | none => .error .invalidVarint

end Varint

/-! ## Keys -/

/-- The key of a field. -/
def encodeKey (number : Nat) (wire : WireType) : Bytes :=
  Varint.encode (8 * number + wire.number)

/-- A field's number and wire type, and what follows the key. -/
structure KeyAt where
  number : Nat
  wire : WireType
  rest : Bytes

/-- Reads a key.  It fits 32 bits, names a wire type and is of a field other than number zero,
checked in this order. -/
def readKey (b : Bytes) : Except Fault KeyAt :=
  match Varint.read b with
  | .error e => .error e
  | .ok (key, rest) =>
    if UInt32.size ≤ key then .error (.keyOverflow key)
    else match WireType.ofNumber? (key % 8) with
      | none => .error (.unknownWireType (key % 8))
      | some wire =>
        if key / 8 = 0 then .error .fieldNumberZero else .ok ⟨key / 8, wire, rest⟩

/-! ## Delimited bytes -/

/-- The first `n` bytes of `b` and the rest. -/
def takeBytes (n : Nat) (b : Bytes) : Except Fault (Bytes × Bytes) :=
  if b.length < n then .error .underflow else .ok (b.take n, b.drop n)

/-- Reads a length and that many bytes. -/
def readDelimited (b : Bytes) : Except Fault (Bytes × Bytes) :=
  match Varint.read b with
  | .error e => .error e
  | .ok (n, rest) => takeBytes n rest

/-- The length of `b`, then `b`. -/
def encodeDelimited (b : Bytes) : Bytes := Varint.encode b.length ++ b

end LedgerClient.Wire
