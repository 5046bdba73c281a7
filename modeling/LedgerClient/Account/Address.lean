import LedgerClient.Account.Error
import LedgerClient.Bytes.Hex
import LedgerClient.Digest.Sha2

/-!
# Account addresses

An address is 20 bytes: the end of the SHA-256 digest of the account's public key.  Its canonical
text is `0x` and 40 lower-case digits, and addresses are ordered by that text.  Reading accepts
digits of either case after `0x` or `0X`.
-/

namespace LedgerClient.Account

/-- The number of bytes of an address. -/
def addressLength : Nat := 20

/-- The address of an account. -/
structure Address where
  bytes : Bytes
  length_bytes : bytes.length = addressLength

namespace Address

@[ext] theorem ext {a b : Address} (h : a.bytes = b.bytes) : a = b := by
  cases a; cases b; cases h; rfl

instance : DecidableEq Address := fun a b =>
  decidable_of_iff (a.bytes = b.bytes) ⟨ext, fun h => h ▸ rfl⟩

instance : Inhabited Address := ⟨⟨List.replicate addressLength 0, by simp⟩⟩

/-- The canonical text. -/
def text (a : Address) : String := "0x" ++ Hex.encode a.bytes

instance : ToString Address := ⟨text⟩

/-- Addresses are ordered by their text. -/
instance : LT Address := ⟨fun a b => a.text < b.text⟩

instance (a b : Address) : Decidable (a < b) := inferInstanceAs (Decidable (a.text < b.text))

/-- An address in diagnostics. -/
def debug (a : Address) : String := s!"Address({Text.quoted a.text})"

/-- The address of a public key: the last 20 bytes of its digest. -/
def ofPublicKey (key : Bytes) : Address where
  bytes := (Digest.sha256.digest key).drop 12
  length_bytes := by
    simp [Digest.Variant.length_digest, Digest.sha256, addressLength]

/-- The text after `0x` or `0X`. -/
def body? (s : String) : Option String :=
  match s.toList with
  | '0' :: 'x' :: rest | '0' :: 'X' :: rest => some (String.ofList rest)
  | _ => none

/-- Reads an address.  The prefix is looked at first, then the digits, then their number. -/
def parse (s : String) : Except SignerError Address :=
  match body? s with
  | none => .error (.invalidAddress s!"missing 0x prefix: {Text.quoted s}")
  | some body =>
    match Hex.decode body with
    | .error e => .error (.invalidAddress s!"{Text.quoted s}: {e.message}")
    | .ok bytes =>
      if h : bytes.length = addressLength then .ok ⟨bytes, h⟩
      else .error (.invalidAddress
        s!"{Text.quoted s}: expected {addressLength} bytes, got {bytes.length}")

/-- Puts `a` into a list of addresses in strictly increasing order. -/
def insertSorted (a : Address) : List Address → List Address
  | [] => [a]
  | b :: bs => if a < b then a :: b :: bs else if a = b then b :: bs else b :: insertSorted a bs

/-- The addresses of `as` in strictly increasing order. -/
def sortUnique (as : List Address) : List Address := as.foldr insertSorted []

end Address
end LedgerClient.Account
