/-!
# Numbers of binary64

The numbers that a 64-bit binary floating-point value can hold, as signs, mantissas and powers of
two.  `ofDecimal` rounds a decimal number to the nearest of them, a tie to the even mantissa.
-/

namespace LedgerClient.Decimal

/-- A value of binary64.  `finite negative m e` is `m · 2 ^ e`, negated if `negative`; the
mantissa has 53 bits, fewer only at the least exponent. -/
inductive Binary64 where
  | nan
  | infinite (negative : Bool)
  | finite (negative : Bool) (mantissa : Nat) (exponent : Int)
  deriving DecidableEq, Repr

namespace Binary64

/-- The number of bits of a mantissa. -/
def precision : Nat := 53

/-- The exponent of the least positive value. -/
def leastExponent : Int := -1074

/-- The exponent of the largest values. -/
def greatestExponent : Int := 971

/-- The quotient of `num` and `den` rounded to a whole number, a tie to the even one. -/
def roundDiv (num den : Nat) : Nat :=
  let q := num / den
  let r := num % den
  if 2 * r > den || (2 * r = den && q % 2 = 1) then q + 1 else q

/-- `num / den · 2 ^ shift`, as a quotient. -/
def scaled (num den : Nat) (shift : Int) : Nat × Nat :=
  if shift ≥ 0 then (num * Nat.pow 2 shift.toNat, den) else (num, den * Nat.pow 2 (-shift).toNat)

/-- The exponent at which the quotient `num / den` has a mantissa of full precision, but not below
the least one. -/
def exponentFor (num den : Nat) : Int :=
  let guess : Int := (Nat.log2 num : Int) - (Nat.log2 den : Int) - (precision - 1 : Nat)
  let (n, d) := scaled num den (-guess)
  let e := if n / d < Nat.pow 2 (precision - 1) then guess - 1 else guess
  if e < leastExponent then leastExponent else e

/-- The mantissa and the exponent nearest to the quotient `num / den` of positive numbers, however
great the exponent. -/
def nearest (num den : Nat) : Nat × Int :=
  let e := exponentFor num den
  let (n, d) := scaled num den (-e)
  let m := roundDiv n d
  if m = Nat.pow 2 precision then (Nat.pow 2 (precision - 1), e + 1) else (m, e)

/-- The value nearest to the quotient `num / den` of positive numbers. -/
def ofQuotient (negative : Bool) (num den : Nat) : Binary64 :=
  let (m, e) := nearest num den
  if e > greatestExponent then .infinite negative else .finite negative m e

/-- The value nearest to a quotient of positive numbers. -/
def ofFraction (negative : Bool) (q : Nat × Nat) : Binary64 := ofQuotient negative q.1 q.2

/-- Zero with a sign. -/
def zero (negative : Bool) : Binary64 := .finite negative 0 leastExponent

/-- The value nearest to `digits · 10 ^ exponent`.  Powers of ten beyond the range of the type are
not computed. -/
def ofDecimal (negative : Bool) (digits : Nat) (exponent : Int) : Binary64 :=
  let magnitude : Int := (Nat.toDigits 10 digits).length + exponent
  if digits = 0 || magnitude < -330 then zero negative
  else if magnitude > 310 then .infinite negative
  else if exponent ≥ 0 then ofQuotient negative (digits * Nat.pow 10 exponent.toNat) 1
  else ofQuotient negative digits (Nat.pow 10 (-exponent).toNat)

/-! ## Whole numbers -/

/-- The whole number nearest to a mantissa times a power of two, a half counting up. -/
def roundNat (m : Nat) (e : Int) : Nat :=
  if e ≥ 0 then m * Nat.pow 2 e.toNat
  else
    let d := Nat.pow 2 (-e).toNat
    (2 * m + d) / (2 * d)

/-- The whole part of a mantissa times a power of two. -/
def truncNat (m : Nat) (e : Int) : Nat :=
  if e ≥ 0 then m * Nat.pow 2 e.toNat else m / Nat.pow 2 (-e).toNat

/-- The largest unsigned 64-bit number. -/
def largestUInt64 : Nat := UInt64.size - 1

/-- The unsigned 64-bit number nearest to the value that `whole` makes of it. -/
def clampUInt64 (whole : Nat → Int → Nat) : Binary64 → UInt64
  | nan => 0
  | infinite negative => if negative then 0 else UInt64.ofNat largestUInt64
  | finite negative m e => if negative then 0 else UInt64.ofNat (min (whole m e) largestUInt64)

/-- The nearest unsigned 64-bit number. -/
def roundUInt64 : Binary64 → UInt64 := clampUInt64 roundNat

/-- The whole part, as far as an unsigned 64-bit number can hold it. -/
def truncUInt64 : Binary64 → UInt64 := clampUInt64 truncNat

/-- The value is finite and not below zero. -/
def isNonnegative : Binary64 → Bool
  | nan => false
  | infinite _ => false
  | finite negative m _ => !negative || m = 0

/-! ## Text -/

/-- The exponent `p` with `10 ^ (p - 1) ≤ num / den < 10 ^ p`, found from one that is at most two
off. -/
def decimalPlace (num den : Nat) : Int :=
  let digits (n : Nat) : Int := (Nat.toDigits 10 n).length
  let guess := digits num - digits den
  let below (p : Int) : Bool :=
    if p ≥ 0 then num < den * Nat.pow 10 p.toNat else num * Nat.pow 10 (-p).toNat < den
  if below (guess - 1) then guess - 1 else if below guess then guess else guess + 1

/-- The decimal numbers with `k` digits next to `num / den` on either side, the nearer one first,
as digits and an exponent. -/
def neighbours (num den : Nat) (k : Nat) : List (Nat × Int) :=
  let p := decimalPlace num den - k
  let (n, d) :=
    if p ≥ 0 then (num, den * Nat.pow 10 p.toNat) else (num * Nat.pow 10 (-p).toNat, den)
  let low := n / d
  if 2 * (n % d) < d || (2 * (n % d) = d && low % 2 = 0) then [(low, p), (low + 1, p)]
  else [(low + 1, p), (low, p)]

/-- The shortest decimal number that is nearest to no other value, and of those the nearest: the
first hit on the grids of one digit, two digits and so on. -/
def shortest (m : Nat) (e : Int) : Nat × Int :=
  let (num, den) := scaled m 1 e
  let hit (c : Nat × Int) : Bool := ofDecimal false c.1 c.2 == .finite false m e
  let grids := (List.range 17).map fun k => (neighbours num den (k + 1)).find? hit
  (grids.findSome? id).getD (0, 0)

/-- `digits · 10 ^ exponent` in positional notation, without zeros that a point would end. -/
def positional (digits : Nat) (exponent : Int) : String :=
  let cs := Nat.toDigits 10 digits
  if exponent ≥ 0 then String.ofList (cs ++ List.replicate exponent.toNat '0')
  else
    let places := (-exponent).toNat
    let cs := List.replicate (places + 1 - cs.length) '0' ++ cs
    let whole := cs.take (cs.length - places)
    let fraction := ((cs.drop (cs.length - places)).reverse.dropWhile (· = '0')).reverse
    String.ofList (if fraction.isEmpty then whole else whole ++ '.' :: fraction)

/-- The shortest text that reads back as the value, without an exponent. -/
def text : Binary64 → String
  | nan => "NaN"
  | infinite negative => if negative then "-inf" else "inf"
  | finite negative m e =>
    let body := if m = 0 then "0" else let (d, p) := shortest m e; positional d p
    if negative then "-" ++ body else body

end Binary64
end LedgerClient.Decimal
