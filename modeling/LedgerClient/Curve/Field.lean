/-!
# The field of the signature curve

Numbers modulo the prime `2 ^ 255 - 19`, each kept as its least representative.
-/

namespace LedgerClient.Curve.Field

/-- The modulus. -/
def modulus : Nat := Nat.pow 2 255 - 19

def add (a b : Nat) : Nat := (a + b) % modulus

def sub (a b : Nat) : Nat := (a + (modulus - b % modulus)) % modulus

def mul (a b : Nat) : Nat := a * b % modulus

def neg (a : Nat) : Nat := sub 0 a

/-- Powers by repeated squaring. -/
def pow (a n : Nat) : Nat :=
  if n = 0 then 1
  else
    let square := pow (mul a a) (n / 2)
    if n % 2 = 1 then mul a square else square

/-- The inverse of `a`, and zero for zero. -/
def inverse (a : Nat) : Nat := pow a (modulus - 2)

/-- A square root of minus one. -/
def rootOfMinusOne : Nat := pow 2 ((modulus - 1) / 4)

/-- A square root of `u / v`, if there is one. -/
def sqrtRatio? (u v : Nat) : Option Nat :=
  let v3 := mul (mul v v) v
  let v7 := mul (mul v3 v3) v
  let r := mul (mul u v3) (pow (mul u v7) ((modulus - 5) / 8))
  let check := mul v (mul r r)
  if check = u % modulus then some r
  else if check = neg u then some (mul r rootOfMinusOne)
  else none

end LedgerClient.Curve.Field
