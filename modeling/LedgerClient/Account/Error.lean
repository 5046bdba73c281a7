import LedgerClient.Bytes

/-!
# Errors of keys, signatures and addresses
-/

namespace LedgerClient.Account

/-- Why a key, a signature or an address is refused. -/
inductive SignerError where
  | invalidKey (reason : String)
  /-- The file of a key cannot be read. -/
  | keyFile (path reason : String)
  | malformedSignature (reason : String)
  | unsupportedAlgorithm (tag : UInt8)
  | verificationFailed
  | invalidAddress (reason : String)
  /-- A signing backend failed. -/
  | backend (reason : String)
  deriving DecidableEq, Repr

/-- Two lower-case hexadecimal digits after `0x`. -/
def tagText (tag : UInt8) : String :=
  let digits := Nat.toDigits 16 tag.toNat
  "0x" ++ String.ofList (List.replicate (2 - digits.length) '0' ++ digits)

/-- The wording of an error. -/
def SignerError.message : SignerError → String
  | invalidKey reason => s!"invalid secret key: {reason}"
  | keyFile path reason => s!"failed to read key file {path}: {reason}"
  | malformedSignature reason => s!"malformed signature: {reason}"
  | unsupportedAlgorithm tag => s!"unsupported signature algorithm tag {tagText tag}"
  | verificationFailed => "signature verification failed"
  | invalidAddress reason => s!"invalid address: {reason}"
  | backend reason => s!"signing backend failure: {reason}"

end LedgerClient.Account
