import LedgerClient.Wire.Varint

/-!
# Skipping unknown fields

A reader passes over the value of a field it does not know.  A group is passed over field by
field up to the end key of its own number; groups nest at most as deep as the given budget.
-/

namespace LedgerClient.Wire

/-- Passes over the fields of group `number` and its end key, the value of each field by
`skipField`. -/
def skipGroup (skipField : Nat → WireType → Bytes → Except Fault Bytes) (number : Nat)
    (b : Bytes) : Except Fault Bytes :=
  match readKey b with
  | .error e => .error e
  | .ok key =>
    if key.wire = .endGroup then
      if key.number = number then .ok key.rest else .error .unexpectedEndGroup
    else match skipField key.number key.wire key.rest with
      | .error e => .error e
      | .ok rest =>
        if rest.length < b.length then skipGroup skipField number rest else .ok rest
termination_by b.length

/-- Passes over the value of field `number` of wire type `wire`. -/
def skipValue : Nat → Nat → WireType → Bytes → Except Fault Bytes
  | 0, _, _, _ => .error .nestedTooDeep
  | budget + 1, number, wire, b =>
    match wire with
    | .varint => (Varint.read b).map (·.2)
    | .sixtyFourBit => (takeBytes 8 b).map (·.2)
    | .thirtyTwoBit => (takeBytes 4 b).map (·.2)
    | .lengthDelimited => (readDelimited b).map (·.2)
    | .startGroup => skipGroup (skipValue budget) number b
    | .endGroup => .error .unexpectedEndGroup

end LedgerClient.Wire
