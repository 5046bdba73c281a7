import LedgerClient.Text.Utf8
import LedgerClient.Transport.Uri

/-!
# Certificates and keys in text files

Sections of base-64 text between a `BEGIN` and an `END` line, and the outermost shape of the
certificates and keys in them.
-/

namespace LedgerClient.Transport

/-! ## Base 64 -/

/-- The value of a base-64 digit. -/
def sextet? (b : UInt8) : Option Nat :=
  if 0x41 ≤ b && b ≤ 0x5A then some (b.toNat - 0x41)
  else if 0x61 ≤ b && b ≤ 0x7A then some (b.toNat - 0x61 + 26)
  else if isAsciiDigit b then some (b.toNat - 0x30 + 52)
  else if b == byte '+' then some 62
  else if b == byte '/' then some 63
  else none

/-- Reads groups of four digits, the last of which may be padded. -/
def decode64? : Bytes → Option Bytes
  | [] => some []
  | a :: b :: c :: d :: rest => do
    let a ← sextet? a
    let b ← sextet? b
    if d == byte '=' && rest.isEmpty then
      if c == byte '=' then some [UInt8.ofNat (4 * a + b / 16)]
      else
        let c ← sextet? c
        some [UInt8.ofNat (4 * a + b / 16), UInt8.ofNat (16 * b + c / 4)]
    else
      let c ← sextet? c
      let d ← sextet? d
      let rest ← decode64? rest
      some (UInt8.ofNat (4 * a + b / 16) :: UInt8.ofNat (16 * b + c / 4) ::
        UInt8.ofNat (64 * c + d) :: rest)
  | _ => none

/-! ## Sections -/

/-- A section: its label and its content. -/
structure Section where
  label : Bytes
  content : Bytes

/-- The label of a line that begins with `mark` and five hyphens around it. -/
def label? (mark : String) (line : Bytes) : Option Bytes :=
  let start := Text.toUtf8 ("-----" ++ mark ++ " ")
  let stop := Text.toUtf8 "-----"
  if start.isPrefixOf line && stop.isSuffixOf (line.drop start.length) then
    let rest := line.drop start.length
    some (rest.take (rest.length - stop.length))
  else none

/-- A line without the blanks at its end. -/
def trimLine (line : Bytes) : Bytes :=
  (line.reverse.dropWhile fun b => b == 0x20 || b == 0x09 || b == 0x0D).reverse

/-- Reads the sections of lines; `pending` is the section being read, its lines joined. -/
def sections? (pending : Option (Bytes × Bytes)) : List Bytes → Option (List Section)
  | [] => if pending.isSome then none else some []
  | line :: rest =>
    match pending with
    | none => sections? ((label? "BEGIN" line).map (·, [])) rest
    | some (label, body) =>
      if label? "END" line == some label then
        match decode64? body with
        | none => none
        | some content => (sections? none rest).map (⟨label, content⟩ :: ·)
      else sections? (some (label, body ++ line)) rest

/-- The sections of a file, if all of them can be read. -/
def sectionsOf? (file : Bytes) : Option (List Section) :=
  sections? none ((splitOn 0x0A file).map trimLine)

/-! ## Shapes -/

/-- Splits a tagged value of definite length off the front: its tag, its content and the rest. -/
def tagged? : Bytes → Option (UInt8 × Bytes × Bytes)
  | tag :: length :: rest =>
    if length < 0x80 then
      if length.toNat ≤ rest.length then
        some (tag, rest.take length.toNat, rest.drop length.toNat)
      else none
    else
      let k := length.toNat - 0x80
      let n := Bytes.toNatBE (rest.take k)
      let rest := rest.drop k
      if 1 ≤ k && k ≤ 4 && n ≤ rest.length then some (tag, rest.take n, rest.drop n) else none
  | _ => none

/-- A sequence of a body, an algorithm and a signature. -/
def isCertificate (b : Bytes) : Bool :=
  match tagged? b with
  | some (0x30, b, []) =>
    match tagged? b with
    | some (0x30, _ :: _, b) =>
      match tagged? b with
      | some (0x30, _ :: _, b) =>
        match tagged? b with
        | some (0x03, _ :: _, []) => true
        | _ => false
      | _ => false
    | _ => false
  | _ => false

/-- A sequence that begins with a version number. -/
def isPrivateKey (b : Bytes) : Bool :=
  match tagged? b with
  | some (0x30, b, []) =>
    match tagged? b with
    | some (0x02, [_], _ :: _) => true
    | _ => false
  | _ => false

/-- The section holds a certificate. -/
def Section.isCertificate (s : Section) : Bool := s.label == Text.toUtf8 "CERTIFICATE"

/-- The section holds a private key. -/
def Section.isKey (s : Section) : Bool :=
  ["PRIVATE KEY", "RSA PRIVATE KEY", "EC PRIVATE KEY"].any fun l => s.label == Text.toUtf8 l

/-- A file whose certificates, if it has any, all have the shape of one. -/
def isAuthorityFile (file : Bytes) : Bool :=
  match sectionsOf? file with
  | none => false
  | some ss => (ss.filter Section.isCertificate).all fun s => Transport.isCertificate s.content

/-- Files of a certificate and its key: at least one certificate, and a key first. -/
def isIdentity (cert key : Bytes) : Bool :=
  match sectionsOf? cert, sectionsOf? key with
  | some certs, some keys =>
    certs.any Section.isCertificate &&
      match keys.find? Section.isKey with
      | some k => isPrivateKey k.content
      | none => false
  | _, _ => false

end LedgerClient.Transport
