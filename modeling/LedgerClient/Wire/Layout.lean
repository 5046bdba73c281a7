import LedgerClient.Wire.ByteMap

/-!
# Layouts of messages

A `Layout` lists the fields of a message in the order of their numbers, which is the order they
are written in.  `Record l` is the type of the values of a message with layout `l`: one component
a field.  Encoding, merging and the laws that tie them together are stated once, for every layout.
-/

namespace LedgerClient.Wire

/-- The named values of an enumeration field.  The first is the default. -/
structure Enumeration where
  name : String
  values : List (String × Int32)

namespace Enumeration

/-- The name of the default value. -/
def defaultName (e : Enumeration) : String :=
  match e.values with
  | [] => ""
  | v :: _ => v.1

/-- The name of a number that the enumeration lists. -/
def name? (e : Enumeration) (n : Int32) : Option String :=
  (e.values.find? fun v => v.2 == n).map (·.1)

/-- The number of a name that the enumeration lists. -/
def number? (e : Enumeration) (name : String) : Option Int32 :=
  (e.values.find? fun v => v.1 == name).map (·.2)

/-- The name of a number, an unlisted number reading as the default. -/
def nameOrDefault (e : Enumeration) (n : Int32) : String := (e.name? n).getD e.defaultName

end Enumeration

/-- The types of single values.  An enumeration field holds any 32-bit number. -/
inductive Scalar where
  | uint64 | int64 | int32 | bool | string | bytes
  | enumeration (e : Enumeration)

/-- The values of a scalar type. -/
@[reducible] def Scalar.Value : Scalar → Type
  | uint64 => UInt64
  | int64 => Int64
  | int32 => Int32
  | bool => Bool
  | string => String
  | bytes => Bytes
  | enumeration _ => Int32

/-- The value of a scalar field that is not on the wire. -/
def Scalar.default : (s : Scalar) → s.Value
  | uint64 => 0
  | int64 => 0
  | int32 => 0
  | bool => false
  | string => ""
  | bytes => []
  | enumeration _ => 0

instance (s : Scalar) : DecidableEq s.Value := by
  cases s <;> exact inferInstance

/-- The fields of a message, each with its number and name.  A nested message carries the name
its own fields have in diagnostics. -/
inductive Layout where
  | done
  /-- A single value; the default is not written. -/
  | one (number : Nat) (name : String) (type : Scalar) (rest : Layout)
  /-- Any number of values, each written on its own. -/
  | many (number : Nat) (name : String) (type : Scalar) (rest : Layout)
  /-- At most one nested message. -/
  | message (number : Nat) (name : String) (typeName : String) (inner : Layout) (rest : Layout)
  /-- Any number of nested messages. -/
  | messages (number : Nat) (name : String) (typeName : String) (inner : Layout) (rest : Layout)
  /-- A map from text to byte strings. -/
  | map (number : Nat) (name : String) (rest : Layout)

/-- The values of a message with the given layout. -/
@[reducible] def Record : Layout → Type
  | .done => Unit
  | .one _ _ type rest => type.Value × Record rest
  | .many _ _ type rest => List type.Value × Record rest
  | .message _ _ _ inner rest => Option (Record inner) × Record rest
  | .messages _ _ _ inner rest => List (Record inner) × Record rest
  | .map _ _ rest => ByteMap × Record rest

namespace Layout

/-- The message none of whose fields is on the wire. -/
def empty : (l : Layout) → Record l
  | done => ()
  | one _ _ type rest => (type.default, rest.empty)
  | many _ _ _ rest => ([], rest.empty)
  | message _ _ _ _ rest => (none, rest.empty)
  | messages _ _ _ _ rest => ([], rest.empty)
  | map _ _ rest => (ByteMap.empty, rest.empty)

/-- The numbers of the fields. -/
def numbers : Layout → List Nat
  | done => []
  | one n _ _ rest | many n _ _ rest | message n _ _ _ rest | messages n _ _ _ rest
  | map n _ rest => n :: rest.numbers

end Layout
end LedgerClient.Wire
