import LedgerClient.Bytes
import LedgerClient.Curve.Field

/-!
# The group of the signature curve

Points of the curve `y² - x² = 1 + d x² y²` in extended coordinates: `x = X / Z`, `y = Y / Z` and
`x y = T / Z`.  The addition formula holds for every pair of points, a point and itself included.
A point is written as its `y` in 255 bits, the least significant byte first, with the parity of
its `x` in the bit that is left.
-/

namespace LedgerClient.Curve

open LedgerClient.Curve.Field

/-- The constant of the curve. -/
def d : Nat := mul (neg 121665) (inverse 121666)

/-- A point in extended coordinates. -/
structure Point where
  X : Nat
  Y : Nat
  Z : Nat
  T : Nat
  deriving DecidableEq, Repr

namespace Point

/-- The neutral point. -/
def zero : Point := ⟨0, 1, 1, 0⟩

/-- The point with the given coordinates. -/
def affine (x y : Nat) : Point := ⟨x, y, 1, mul x y⟩

def neg (p : Point) : Point := ⟨Field.neg p.X, p.Y, p.Z, Field.neg p.T⟩

def add (p q : Point) : Point :=
  let a := mul (sub p.Y p.X) (sub q.Y q.X)
  let b := mul (Field.add p.Y p.X) (Field.add q.Y q.X)
  let c := mul (mul p.T (Field.add d d)) q.T
  let e := mul (Field.add p.Z p.Z) q.Z
  let x := sub b a
  let t := sub e c
  let z := Field.add e c
  let y := Field.add b a
  ⟨mul x t, mul z y, mul t z, mul x y⟩

/-- Multiples of a point by repeated doubling. -/
def smul (n : Nat) (p : Point) : Point :=
  if n = 0 then zero
  else
    let q := smul (n / 2) (add p p)
    if n % 2 = 1 then add p q else q

/-- The 32 bytes of a point. -/
def encode (p : Point) : Bytes :=
  let z := inverse p.Z
  let x := mul p.X z
  Bytes.ofNatLE 32 (mul p.Y z + x % 2 * Nat.pow 2 255)

/-- The point of 32 bytes.  The number in the low 255 bits is taken modulo the field's prime, and
the parity bit of a point with `x = 0` is not looked at. -/
def decode? (b : Bytes) : Option Point :=
  let n := Bytes.toNatLE b
  let y := n % Nat.pow 2 255 % modulus
  let odd := n / Nat.pow 2 255 % 2
  let yy := mul y y
  match sqrtRatio? (sub yy 1) (Field.add (mul d yy) 1) with
  | none => none
  | some x => some (affine (if x % 2 = odd then x else Field.neg x) y)

/-- The generator: `y = 4 / 5` and `x` even. -/
def base : Point :=
  affine 0x216936d3cd6e53fec0a4e231fdd6dc5c692cc7609525a7b2c9562d608f25d51a
    0x6666666666666666666666666666666666666666666666666666666666666658

end Point

/-- The order of the generator. -/
def order : Nat := Nat.pow 2 252 + 27742317777372353535851937790883648493

end LedgerClient.Curve
