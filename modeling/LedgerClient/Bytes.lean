/-!
# Byte strings

A byte string is a list of bytes: every reader in this library takes the list apart from the
front and returns what it left unread, and every writer appends.  The two byte orders below are
the only places where a number meets its bytes directly.
-/

namespace LedgerClient

/-- A finite string of bytes. -/
abbrev Bytes := List UInt8

namespace Bytes

/-- The number whose base-256 digits are `b`, the most significant first. -/
def toNatBE (b : Bytes) : Nat :=
  b.foldl (fun n x => 256 * n + x.toNat) 0

/-- The number whose base-256 digits are `b`, the least significant first. -/
def toNatLE (b : Bytes) : Nat :=
  b.foldr (fun x n => x.toNat + 256 * n) 0

/-- The last `k` base-256 digits of `n`, the least significant first. -/
def ofNatLE : Nat → Nat → Bytes
  | 0, _ => []
  | k + 1, n => UInt8.ofNat n :: ofNatLE k (n / 256)

/-- The last `k` base-256 digits of `n`, the most significant first. -/
def ofNatBE (k n : Nat) : Bytes :=
  (ofNatLE k n).reverse

@[simp] theorem length_ofNatLE (k n : Nat) : (ofNatLE k n).length = k := by
  induction k generalizing n with
  | zero => rfl
  | succ k ih => simp [ofNatLE, ih]

@[simp] theorem length_ofNatBE (k n : Nat) : (ofNatBE k n).length = k := by
  simp [ofNatBE]

@[simp] theorem toNatLE_nil : toNatLE [] = 0 := rfl

@[simp] theorem toNatLE_cons (x : UInt8) (b : Bytes) :
    toNatLE (x :: b) = x.toNat + 256 * toNatLE b := rfl

end Bytes
end LedgerClient
