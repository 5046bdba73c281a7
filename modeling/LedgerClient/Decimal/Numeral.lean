import LedgerClient.Decimal.Binary64

/-!
# Numerals

Decimal numerals as text: whole numbers of 64 bits, and numerals with a point and an exponent.
-/

namespace LedgerClient.Decimal

/-- `true` for the ten ASCII digits. -/
def isDigit (c : Char) : Bool := '0' ≤ c && c ≤ '9'

/-- The number written by a list of digits. -/
def ofDigits (cs : List Char) : Nat := cs.foldl (fun n c => 10 * n + (c.toNat - 0x30)) 0

/-- Reads an unsigned 64-bit number: one or more digits after at most one `+`. -/
def uint64? (cs : List Char) : Option UInt64 :=
  let ds := match cs with
    | '+' :: ds => ds
    | ds => ds
  if ds.isEmpty || !ds.all isDigit then none
  else if ofDigits ds < UInt64.size then some (UInt64.ofNat (ofDigits ds)) else none

/-- Takes a sign off the front. -/
def takeSign : List Char → Bool × List Char
  | '-' :: cs => (true, cs)
  | '+' :: cs => (false, cs)
  | cs => (false, cs)

/-- Reads an exponent: a sign or none, then digits to the end. -/
def exponent? (cs : List Char) : Option Int :=
  let (negative, ds) := takeSign cs
  if ds.isEmpty || !ds.all isDigit then none
  else some (if negative then -(ofDigits ds : Int) else ofDigits ds)

/-- The value of whole and fractional digits and an exponent. -/
def ofParts (negative : Bool) (whole fraction : List Char) (exponent : Int) : Binary64 :=
  .ofDecimal negative (ofDigits (whole ++ fraction)) (exponent - fraction.length)

/-- Reads a numeral of digits, a point or none, and an exponent or none.  One side of the point
may be without digits. -/
def unsigned? (negative : Bool) (cs : List Char) : Option Binary64 :=
  let whole := cs.takeWhile isDigit
  let rest := cs.dropWhile isDigit
  let (fraction, rest) := match rest with
    | '.' :: rest => (rest.takeWhile isDigit, rest.dropWhile isDigit)
    | rest => ([], rest)
  if whole.isEmpty && fraction.isEmpty then none
  else match rest with
    | [] => some (ofParts negative whole fraction 0)
    | 'e' :: rest | 'E' :: rest => (exponent? rest).map (ofParts negative whole fraction)
    | _ => none

/-- Reads a value of binary64.  Infinities and the value that is no number are named in letters of
either case. -/
def binary64? (cs : List Char) : Option Binary64 :=
  let (negative, body) := takeSign cs
  let name := String.ofList (body.map Char.toLower)
  if name = "nan" then some .nan
  else if name = "inf" || name = "infinity" then some (.infinite negative)
  else unsigned? negative body

end LedgerClient.Decimal
