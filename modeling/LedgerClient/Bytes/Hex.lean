import LedgerClient.Text.Quoted
import LedgerClient.Text.Utf8

/-!
# Hexadecimal text

`encode` writes two lower-case digits for each byte.  `decode` reads digits of either case; it
works on the *bytes* of the text, so a position counts bytes and a text of odd byte length is
refused before any digit is looked at.
-/

namespace LedgerClient.Hex

/-- The digit of value `n`, for `n < 16`. -/
def digit (n : Nat) : Char :=
  Char.ofNat (if n < 10 then 0x30 + n else 0x57 + n)

/-- The two digits of a byte. -/
def digits (b : UInt8) : List Char := [digit (b.toNat / 16), digit (b.toNat % 16)]

/-- The lower-case digits of `b`. -/
def encode (b : Bytes) : String := String.ofList (b.flatMap digits)

/-- Why a text is no hexadecimal byte string. -/
inductive Error where
  | oddLength
  /-- `byte` is no digit; it stands at byte offset `position`. -/
  | invalidDigit (byte : UInt8) (position : Nat)
  deriving DecidableEq, Repr

/-- The wording of an error.  A byte is shown as the character of its number. -/
def Error.message : Error → String
  | .oddLength => "Odd number of digits"
  | .invalidDigit byte position =>
    s!"Invalid character {Text.quotedChar (Char.ofNat byte.toNat)} at position {position}"

/-- The value of a digit given by its byte. -/
def value? (b : UInt8) : Option Nat :=
  if 0x30 ≤ b && b ≤ 0x39 then some (b.toNat - 0x30)
  else if 0x61 ≤ b && b ≤ 0x66 then some (b.toNat - 0x57)
  else if 0x41 ≤ b && b ≤ 0x46 then some (b.toNat - 0x37)
  else none

/-- Reads pairs of digits, the first of them at byte offset `position`. -/
def decodePairs (position : Nat) : Bytes → Except Error Bytes
  | high :: low :: rest =>
    match value? high, value? low with
    | none, _ => .error (.invalidDigit high position)
    | some _, none => .error (.invalidDigit low (position + 1))
    | some h, some l => (decodePairs (position + 2) rest).map (UInt8.ofNat (16 * h + l) :: ·)
  | _ => .ok []

/-- Reads the digits whose bytes are `b`. -/
def decodeBytes (b : Bytes) : Except Error Bytes :=
  if b.length % 2 = 1 then .error .oddLength else decodePairs 0 b

/-- The byte string written by `s`, in digits of either case. -/
def decode (s : String) : Except Error Bytes := decodeBytes (Text.toUtf8 s)

end LedgerClient.Hex
