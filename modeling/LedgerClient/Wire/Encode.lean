import LedgerClient.Text.Utf8
import LedgerClient.Wire.Layout
import LedgerClient.Wire.Varint

/-!
# Writing messages

The fields are written in the order of the layout.  A single value equal to its default is left
out, and so is the default key or value of a map's entry; every element of a repeated field and
every nested message that is present is written, an empty one too.
-/

namespace LedgerClient.Wire

namespace Scalar

/-- The wire type of a scalar. -/
def wire : Scalar → WireType
  | string | bytes => .lengthDelimited
  | _ => .varint

/-- The bytes of a value, without a key.  A negative number is written as its 64-bit
complement. -/
def encode : (s : Scalar) → s.Value → Bytes
  | uint64, v => Varint.encode (UInt64.toNat v)
  | int64, v => Varint.encode (Int64.toUInt64 v).toNat
  | int32, v => Varint.encode (Int32.toInt64 v).toUInt64.toNat
  | bool, v => Varint.encode (if v then 1 else 0)
  | string, v => encodeDelimited (Text.toUtf8 v)
  | bytes, v => encodeDelimited v
  | enumeration _, v => Varint.encode (Int32.toInt64 v).toUInt64.toNat

end Scalar

/-- A field with one scalar value, default or not. -/
def encodeScalar (number : Nat) (type : Scalar) (v : type.Value) : Bytes :=
  encodeKey number type.wire ++ type.encode v

/-- A field whose value is the bytes `body` of a nested message. -/
def encodeNested (number : Nat) (body : Bytes) : Bytes :=
  encodeKey number .lengthDelimited ++ encodeDelimited body

/-- The scalar left out if it is the default. -/
def encodeUnlessDefault (number : Nat) (type : Scalar) (v : type.Value) : Bytes :=
  if v = type.default then [] else encodeScalar number type v

/-- The body of a map's entry: the key is field 1 and the value field 2. -/
def encodeEntry (e : String × Bytes) : Bytes :=
  encodeUnlessDefault 1 .string e.1 ++ encodeUnlessDefault 2 .bytes e.2

/-- The entries of a map, each a nested message, in the order given. -/
def encodeEntries (number : Nat) (es : List (String × Bytes)) : Bytes :=
  es.flatMap fun e => encodeNested number (encodeEntry e)

/-- The bytes of a message. -/
def Layout.encode : (l : Layout) → Record l → Bytes
  | .done, _ => []
  | .one number _ type rest, r => encodeUnlessDefault number type r.1 ++ rest.encode r.2
  | .many number _ type rest, r => r.1.flatMap (encodeScalar number type) ++ rest.encode r.2
  | .message number _ _ inner rest, r =>
    (match r.1 with
      | none => []
      | some m => encodeNested number (inner.encode m)) ++ rest.encode r.2
  | .messages number _ _ inner rest, r =>
    (r.1.flatMap fun m => encodeNested number (inner.encode m)) ++ rest.encode r.2
  | .map number _ rest, r => encodeEntries number r.1.entries ++ rest.encode r.2

end LedgerClient.Wire
