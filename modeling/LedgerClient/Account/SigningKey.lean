import LedgerClient.Account.Address
import LedgerClient.Curve.Eddsa
import LedgerClient.Storage.Files
import LedgerClient.Text.Blank

/-!
# Signing keys, signatures and signers

A signature names its own key: one byte for the algorithm, the 32 bytes of the public key, then
64 bytes by the curve.  `recover` so finds the account of a signed message from the signature
alone.  A `Signer` is anything that has a public key and signs; the client knows no more of it.
-/

namespace LedgerClient.Account

/-- The number of bytes of a secret seed. -/
def seedLength : Nat := 32

/-- The number of bytes of a public key. -/
def publicKeyLength : Nat := 32

/-- The first byte of a signature. -/
def algorithmTag : UInt8 := 1

/-- The number of bytes of a signature: the tag, the public key and the curve's signature. -/
def signatureLength : Nat := 1 + publicKeyLength + 64

/-! ## Keys -/

/-- A secret key. -/
structure SigningKey where
  seed : Bytes
  length_seed : seed.length = seedLength

namespace SigningKey

/-- The key of a seed. -/
def ofBytes (b : Bytes) : Except SignerError SigningKey :=
  if h : b.length = seedLength then .ok ⟨b, h⟩
  else .error (.invalidKey s!"expected {seedLength} bytes, got {b.length}")

/-- `s` without one `0x` at its front. -/
def withoutPrefix (s : String) : String :=
  match s.toList with
  | '0' :: 'x' :: rest => String.ofList rest
  | _ => s

/-- Reads a key written in hexadecimal digits.  Blanks around the text are passed over, and so is
one `0x` before the digits. -/
def ofHex (s : String) : Except SignerError SigningKey :=
  match Hex.decode (withoutPrefix (Text.trim s)) with
  | .error e => .error (.invalidKey e.message)
  | .ok b => ofBytes b

/-- Reads a key from a text file. -/
def ofFile (fs : Storage.Files) (path : String) : Except SignerError SigningKey :=
  match fs.read path with
  | .error e => .error (.keyFile path e.message)
  | .ok content =>
    match Text.ofUtf8? content with
    | none => .error (.keyFile path "stream did not contain valid UTF-8")
    | some text => ofHex text

/-- The digits of a key. -/
def toHex (k : SigningKey) : String := Hex.encode k.seed

def publicKey (k : SigningKey) : Bytes := Curve.publicKey k.seed

def address (k : SigningKey) : Address := .ofPublicKey k.publicKey

/-- A key in diagnostics, which never show its secret. -/
def debug (k : SigningKey) : String :=
  "Ed25519Signer \x7b address: " ++ k.address.debug ++ ", .. \x7d"

end SigningKey

/-! ## Signers -/

/-- A key that signs for one account, wherever its secret is held. -/
structure Signer where
  publicKey : Bytes
  sign : Bytes → Except SignerError Bytes

namespace Signer

def address (s : Signer) : Address := .ofPublicKey s.publicKey

/-- The signer that holds a key. -/
def ofKey (k : SigningKey) : Signer :=
  let key := k.publicKey
  { publicKey := key
    sign := fun message => .ok (algorithmTag :: key ++ Curve.signWith k.seed key message) }

/-- A signer whose backend always fails. -/
def failing (publicKey : Bytes) (reason : String) : Signer :=
  { publicKey, sign := fun _ => .error (.backend reason) }

end Signer

/-! ## Signatures -/

/-- The address of the key that signed `message`.  The length of the signature is looked at first,
then its algorithm, then its key, and last the curve's signature. -/
def recover (message signature : Bytes) : Except SignerError Address :=
  match signature with
  | [] => .error (.malformedSignature s!"expected {signatureLength} bytes, got 0")
  | tag :: rest =>
    if signature.length ≠ signatureLength then
      .error (.malformedSignature s!"expected {signatureLength} bytes, got {signature.length}")
    else if tag ≠ algorithmTag then .error (.unsupportedAlgorithm tag)
    else
      let key := rest.take publicKeyLength
      match Curve.Point.decode? key with
      | none =>
        .error (.malformedSignature "signature error: Cannot decompress Edwards point")
      | some point =>
        if Curve.verifyWith point key message (rest.drop publicKeyLength) then
          .ok (.ofPublicKey key)
        else .error .verificationFailed

end LedgerClient.Account
