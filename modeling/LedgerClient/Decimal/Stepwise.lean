import LedgerClient.Decimal.Numeral

/-!
# Decimal numbers read in steps

`ofDecimalStepwise` rounds the digits of a decimal number first and its product or quotient with a
power of ten after that.  Two roundings in a row may end beside the value that is nearest; where
all digits fit the mantissa and the power of ten is exact, they do not.
-/

namespace LedgerClient.Decimal

/-! ## Digits that 64 bits hold -/

/-- Appends digits to a number as long as 64 bits hold it.  Returns the number and how many digits
are left; the first digit that does not fit ends it, whatever comes after. -/
def heldDigits (n : Nat) : List Char → Nat × Nat
  | [] => (n, 0)
  | c :: cs =>
    let next := 10 * n + (c.toNat - 0x30)
    if next < UInt64.size then heldDigits next cs else (n, cs.length + 1)

/-! ## Products and quotients -/

namespace Binary64

/-- The product of two mantissas with exponents, as a quotient. -/
def product (a b : Nat × Int) : Nat × Nat := scaled (a.1 * b.1) 1 (a.2 + b.2)

/-- The quotient of two mantissas with exponents. -/
def quotient (a b : Nat × Int) : Nat × Nat := scaled a.1 b.1 (a.2 - b.2)

/-- The greatest power of ten that binary64 can hold. -/
def greatestPower : Nat := 308

/-- The mantissa and the exponent nearest to a power of ten. -/
def powerOfTen (k : Nat) : Nat × Int := nearest (Nat.pow 10 k) 1

/-- `digits · 10 ^ exponent`, rounded after each step: the digits, the power of ten, and their
product or quotient.  A power of ten too small for binary64 is divided by in two steps. -/
def ofDecimalStepwise (negative : Bool) (digits : Nat) (exponent : Int) : Binary64 :=
  if digits = 0 then zero negative
  else
    let n := nearest digits 1
    let k := exponent.natAbs
    if exponent ≥ 0 then
      if k > greatestPower then .infinite negative
      else ofFraction negative (product n (powerOfTen k))
    else if k ≤ greatestPower then ofFraction negative (quotient n (powerOfTen k))
    else if k ≤ 2 * greatestPower then
      let (num, den) := quotient n (powerOfTen greatestPower)
      ofFraction negative (quotient (nearest num den) (powerOfTen (k - greatestPower)))
    else zero negative

end Binary64
end LedgerClient.Decimal
