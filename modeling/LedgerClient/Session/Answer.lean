import LedgerClient.Client.Error
import LedgerClient.Decimal.Numeral
import LedgerClient.Text.Blank
import LedgerClient.Text.Quoted
import LedgerClient.Text.Utf8

/-!
# Reading general responses

Some methods answer with plain data whose form depends on the question: a number in decimal digits,
a number at the end of a sentence, eight bytes, or text.
-/

namespace LedgerClient

open Decimal Text

/-- Reads a number: decimal digits, with a plus in front if any, and blanks around. -/
def readDecimal (data : Bytes) : Except ClientError UInt64 :=
  let number := (ofUtf8? data).bind fun s => uint64? (trim s).toList
  match number with
  | some n => .ok n
  | none => .error (.invalidResponse s!"expected a decimal number, got {quoted (lossy data)}")

/-- The last word of a text. -/
def lastWord (s : String) : Option String := (words s).getLast?

/-- Reads the number at the end of a text, and drops its fraction. -/
def readRate (data : Bytes) : Except ClientError UInt64 :=
  let s := lossy data
  let rate := ((lastWord s).bind fun w => binary64? w.toList).filter Binary64.isNonnegative
  match rate with
  | some x => .ok x.truncUInt64
  | none => .error (.invalidResponse s!"unexpected TPS response {quoted s}")

/-- Reads the first eight bytes as a number, the least significant byte first. -/
def readIdentifier (data : Bytes) : Except ClientError UInt64 :=
  if data.length < 8 then
    .error (.invalidResponse s!"chain id needs 8 bytes, got {data.length}")
  else
    .ok ((data.take 8).foldr (fun b n => n * 256 + UInt64.ofNat b.toNat) 0)

/-- Reads text. -/
def readText (data : Bytes) : Except ClientError String :=
  match ofUtf8? data with
  | some s => .ok s
  | none =>
    let flaw := ((firstFlaw? 0 data).map Flaw.message).getD ""
    .error (.invalidResponse s!"chain status is not utf-8: {flaw}")

end LedgerClient
