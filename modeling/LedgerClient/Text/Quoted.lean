import LedgerClient.Text.Printable

/-!
# Quoted text

Diagnostics show a text between double quotes and a character between single ones.  The quote in
use, the backslash and the common controls take a backslash; a character that does not show is
spelled by its number, `\u{…}` in lower-case hexadecimal; all else stands for itself.
-/

namespace LedgerClient.Text

/-- A character inside a text quoted by `quote`. -/
def escape (quote c : Char) : List Char :=
  if c = '\x00' then ['\\', '0']
  else if c = '\t' then ['\\', 't']
  else if c = '\r' then ['\\', 'r']
  else if c = '\n' then ['\\', 'n']
  else if c = '\\' then ['\\', '\\']
  else if c = quote then ['\\', quote]
  else if Printable.shows c then [c]
  else ['\\', 'u', '\x7b'] ++ Nat.toDigits 16 c.toNat ++ ['\x7d']

/-- `s` between double quotes. -/
def quoted (s : String) : String :=
  String.ofList ('"' :: s.toList.flatMap (escape '"') ++ ['"'])

/-- `c` between single quotes. -/
def quotedChar (c : Char) : String :=
  String.ofList ('\'' :: escape '\'' c ++ ['\''])

end LedgerClient.Text
