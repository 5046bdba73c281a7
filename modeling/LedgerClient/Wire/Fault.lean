/-!
# Faults of an encoded message

A fault is what is wrong with the bytes; a `DecodeError` adds the fields in whose values it was
met, the innermost first.
-/

namespace LedgerClient.Wire

/-- How the value after a key is delimited. -/
inductive WireType where
  | varint | sixtyFourBit | lengthDelimited | startGroup | endGroup | thirtyTwoBit
  deriving DecidableEq, Repr

namespace WireType

/-- The number of a wire type in the low three bits of a key. -/
def number : WireType → Nat
  | varint => 0
  | sixtyFourBit => 1
  | lengthDelimited => 2
  | startGroup => 3
  | endGroup => 4
  | thirtyTwoBit => 5

/-- The wire type of a number; six and seven name none. -/
def ofNumber? : Nat → Option WireType
  | 0 => some varint
  | 1 => some sixtyFourBit
  | 2 => some lengthDelimited
  | 3 => some startGroup
  | 4 => some endGroup
  | 5 => some thirtyTwoBit
  | _ => none

@[simp] theorem ofNumber?_number (w : WireType) : ofNumber? w.number = some w := by
  cases w <;> rfl

/-- The name of a wire type in diagnostics. -/
def name : WireType → String
  | varint => "Varint"
  | sixtyFourBit => "SixtyFourBit"
  | lengthDelimited => "LengthDelimited"
  | startGroup => "StartGroup"
  | endGroup => "EndGroup"
  | thirtyTwoBit => "ThirtyTwoBit"

end WireType

/-- What is wrong with the bytes. -/
inductive Fault where
  | invalidVarint
  /-- The key does not fit 32 bits. -/
  | keyOverflow (key : Nat)
  | unknownWireType (number : Nat)
  | fieldNumberZero
  | wireTypeMismatch (actual expected : WireType)
  /-- A value reaches beyond the end of the input. -/
  | underflow
  /-- The fields of a nested message reach beyond its declared length. -/
  | lengthExceeded
  | notUtf8
  | unexpectedEndGroup
  | nestedTooDeep
  | unknownEnumerationValue
  deriving DecidableEq, Repr

/-- The wording of a fault. -/
def Fault.message : Fault → String
  | .invalidVarint => "invalid varint"
  | .keyOverflow key => s!"invalid key value: {key}"
  | .unknownWireType n => s!"invalid wire type value: {n}"
  | .fieldNumberZero => "invalid tag value: 0"
  | .wireTypeMismatch actual expected =>
    s!"invalid wire type: {actual.name} (expected {expected.name})"
  | .underflow => "buffer underflow"
  | .lengthExceeded => "delimited length exceeded"
  | .notUtf8 => "invalid string value: data is not UTF-8 encoded"
  | .unexpectedEndGroup => "unexpected end group tag"
  | .nestedTooDeep => "recursion limit reached"
  | .unknownEnumerationValue => "invalid enumeration value"

/-- A fault and the fields it was met in, as pairs of a message and a field name, the innermost
first. -/
structure DecodeError where
  path : List (String × String)
  fault : Fault
  deriving DecidableEq, Repr

/-- A fault outside any field. -/
def DecodeError.ofFault (fault : Fault) : DecodeError := ⟨[], fault⟩

/-- The error as seen by the message that holds the field it was met in. -/
def DecodeError.within (owner field : String) (e : DecodeError) : DecodeError :=
  { e with path := e.path ++ [(owner, field)] }

/-- A field in diagnostics.  The reserved name `type` is marked as a raw one. -/
def fieldLabel (field : String) : String := if field = "type" then "r#type" else field

/-- The wording of an error: the fields, the innermost first, then the fault. -/
def DecodeError.message (e : DecodeError) : String :=
  "failed to decode Protobuf message: " ++
    String.join (e.path.map fun p => p.1 ++ "." ++ fieldLabel p.2 ++ ": ") ++ e.fault.message

end LedgerClient.Wire
