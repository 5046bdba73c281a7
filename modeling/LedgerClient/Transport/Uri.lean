import LedgerClient.Bytes
import LedgerClient.Text.Utf8

/-!
# URIs of nodes

`Uri.parse?` tells whether a byte string is a URI and finds its authority.  A URI with a scheme
needs an authority; one without is an authority alone or a path.
-/

namespace LedgerClient.Transport

/-- A byte of an ASCII character. -/
def byte (c : Char) : UInt8 := UInt8.ofNat c.toNat

/-- `b` is the byte of one of the characters. -/
def oneOf (cs : List Char) (b : UInt8) : Bool := cs.any fun c => byte c == b

def isAsciiDigit (b : UInt8) : Bool := 0x30 ≤ b && b ≤ 0x39

def isAsciiLetter (b : UInt8) : Bool := (0x41 ≤ b && b ≤ 0x5A) || (0x61 ≤ b && b ≤ 0x7A)

namespace Uri

/-- A byte that may stand in a URI as it is. -/
def isUriByte (b : UInt8) : Bool :=
  isAsciiDigit b || isAsciiLetter b || oneOf "!#$&'()*+,-./:;=?@[]_~".toList b

/-- A byte of a scheme. -/
def isSchemeByte (b : UInt8) : Bool :=
  isAsciiDigit b || isAsciiLetter b || oneOf ['+', '-', '.', '~'] b

/-- A byte of a path. -/
def isPathByte (b : UInt8) : Bool :=
  b == 0x21 || b == 0x22 || (0x24 ≤ b && b ≤ 0x3B) || b == 0x3D || (0x40 ≤ b && b ≤ 0x5F) ||
    (0x61 ≤ b && b ≤ 0x7E)

/-- A byte of a query. -/
def isQueryByte (b : UInt8) : Bool :=
  b == 0x21 || (0x24 ≤ b && b ≤ 0x3B) || b == 0x3D || (0x3F ≤ b && b ≤ 0x7E)

/-- The greatest length of a URI. -/
def maxLength : Nat := 65534

/-- The greatest length of a scheme. -/
def maxSchemeLength : Nat := 64

/-! ## Authorities -/

/-- What has been seen of an authority. -/
structure Scan where
  colons : Nat := 0
  opened : Bool := false
  closed : Bool := false
  percent : Bool := false
  /-- The last byte was the end of user information. -/
  afterAt : Bool := false

namespace Scan

/-- Takes one more byte of an authority, if it may stand there. -/
def step (s : Scan) (b : UInt8) : Option Scan :=
  let s := { s with afterAt := false }
  if b == byte ':' then if s.colons ≥ 8 then none else some { s with colons := s.colons + 1 }
  else if b == byte '[' then if s.percent || s.opened then none else some { s with opened := true }
  else if b == byte ']' then
    if !s.opened || s.closed then none
    else some { s with closed := true, colons := 0, percent := false }
  else if b == byte '@' then some { s with colons := 0, percent := false, afterAt := true }
  else if b == byte '%' then some { s with percent := true }
  else if isUriByte b then some s else none

/-- An authority may end here: brackets are closed, at most one colon stands before a port,
something follows the user information, and no host name is escaped. -/
def mayEnd (s : Scan) : Bool :=
  s.opened == s.closed && s.colons ≤ 1 && !s.afterAt && !s.percent

end Scan

/-- Splits an authority off the front of a byte string. -/
def authority? (s : Scan) : Bytes → Option (Bytes × Bytes)
  | [] => if s.mayEnd then some ([], []) else none
  | b :: rest =>
    if oneOf ['/', '?', '#'] b then if s.mayEnd then some ([], b :: rest) else none
    else match s.step b with
      | none => none
      | some s => (authority? s rest).map fun (a, rest) => (b :: a, rest)

/-! ## Whole URIs -/

/-- A path and a query, up to a fragment, stand at the front. -/
def isPathAndQuery (b : Bytes) : Bool :=
  match b.dropWhile isPathByte with
  | [] => true
  | c :: rest =>
    if c == byte '#' then true
    else if c == byte '?' then
      match rest.dropWhile isQueryByte with
      | [] => true
      | c :: _ => c == byte '#'
    else false

/-- The letters of a byte string in lower case. -/
def lower (b : Bytes) : Bytes := b.map fun c => if 0x41 ≤ c && c ≤ 0x5A then c + 0x20 else c

/-- The rest after a scheme and the separator that follows it.  The outer `none` is a scheme that
is too long. -/
def afterScheme? (b : Bytes) : Option (Option Bytes) :=
  let separator := Text.toUtf8 "://"
  if lower (b.take 7) = Text.toUtf8 "http://" then some (some (b.drop 7))
  else if lower (b.take 8) = Text.toUtf8 "https://" then some (some (b.drop 8))
  else
    let scheme := b.takeWhile isSchemeByte
    let rest := b.drop scheme.length
    if b.length > 3 && separator.isPrefixOf rest then
      if scheme.length > maxSchemeLength then none else some (some (rest.drop 3))
    else some none

/-- The authority of a URI; a path alone has an empty one. -/
def parse? (b : Bytes) : Option Bytes :=
  if b.length > maxLength then none
  else match b with
  | [] => none
  | c :: _ =>
    if b.length = 1 && oneOf ['/', '*'] c then some []
    else if c == byte '/' then if isPathAndQuery b then some [] else none
    else match afterScheme? b with
      | none => none
      | some none =>
        match authority? {} b with
        | some (a, []) => some a
        | _ => none
      | some (some rest) =>
        match authority? {} rest with
        | some ([], _) | none => none
        | some (a, rest) => if isPathAndQuery rest then some a else none

/-- The host of an authority: what stands after the user information and before the port. -/
def host (authority : Bytes) : Bytes :=
  let b := (authority.reverse.takeWhile fun c => c != byte '@').reverse
  if b.head? == some (byte '[') then
    b.takeWhile (fun c => c != byte ']') ++ [byte ']']
  else b.takeWhile fun c => c != byte ':'

end Uri

/-! ## Names of servers -/

/-- How far the name of a server has been read. -/
inductive NameScan where
  | start
  | afterDot
  /-- After a dot that ends a label of digits only. -/
  | afterNumber
  | digits (length : Nat)
  | letters (length : Nat)
  | hyphen (length : Nat)

/-- The greatest length of a label of a name. -/
def maxLabelLength : Nat := 63

/-- The greatest length of a name. -/
def maxNameLength : Nat := 253

namespace NameScan

/-- The length of the label being read. -/
def length : NameScan → Nat
  | start | afterDot | afterNumber => 0
  | digits n | letters n | hyphen n => n

/-- Takes one more byte of a name, if it may stand there. -/
def step (s : NameScan) (b : UInt8) : Option NameScan :=
  let isLetter := isAsciiLetter b || b == byte '_'
  if b == byte '.' then
    match s with
    | digits _ => some afterNumber
    | letters _ => some afterDot
    | _ => none
  else if s.length ≥ maxLabelLength then none
  else match s with
    | start | afterDot | afterNumber =>
      if isAsciiDigit b then some (digits 1) else if isLetter then some (letters 1) else none
    | digits n =>
      if isAsciiDigit b then some (digits (n + 1))
      else if b == byte '-' then some (hyphen (n + 1))
      else if isLetter then some (letters (n + 1)) else none
    | letters n | hyphen n =>
      if b == byte '-' then some (hyphen (n + 1))
      else if isLetter || isAsciiDigit b then some (letters (n + 1)) else none

end NameScan

/-- A name of labels, the last of which is not a number. -/
def isDomainName (b : Bytes) : Bool :=
  b.length ≤ maxNameLength &&
    match b.foldlM NameScan.step NameScan.start with
    | some .afterDot | some (.letters _) => true
    | _ => false

/-- The parts of a list between separators. -/
def splitOn (separator : UInt8) : Bytes → List Bytes
  | [] => [[]]
  | b :: rest =>
    match splitOn separator rest with
    | part :: parts => if b == separator then [] :: part :: parts else (b :: part) :: parts
    | [] => [[b]]

/-- Four numbers below 256, without zeros in front, between dots. -/
def isIPv4 (b : Bytes) : Bool :=
  let parts := splitOn (byte '.') b
  parts.length = 4 && parts.all fun p =>
    1 ≤ p.length && p.length ≤ 3 && p.all isAsciiDigit &&
      !(p.length > 1 && p.head? == some 0x30) &&
      p.foldl (fun n d => 10 * n + (d.toNat - 0x30)) 0 < 256

/-- A group of an address of eight groups. -/
def isGroup (b : Bytes) : Bool :=
  1 ≤ b.length && b.length ≤ 4 &&
    b.all fun c => isAsciiDigit c || (0x41 ≤ c && c ≤ 0x46) || (0x61 ≤ c && c ≤ 0x66)

/-- The number of groups that parts stand for; the last may be written as four numbers. -/
def groupCount? (parts : List Bytes) : Option Nat :=
  match parts.getLast? with
  | none => some 0
  | some last =>
    if !parts.dropLast.all isGroup then none
    else if isGroup last then some parts.length
    else if isIPv4 last then some (parts.length + 1) else none

/-- Eight groups between colons; one run of groups may be left out. -/
def isIPv6 (b : Bytes) : Bool :=
  let parts := splitOn (byte ':') b
  match parts.findIdx? (·.isEmpty) with
  | none => groupCount? parts == some 8
  | some _ =>
    let before := parts.takeWhile (!·.isEmpty)
    let rest := parts.drop before.length
    let after := (rest.dropWhile (·.isEmpty))
    let gaps := rest.length - after.length
    let expected := 1 + (if before.isEmpty then 1 else 0) + (if after.isEmpty then 1 else 0)
    gaps == expected && before.all isGroup &&
      match groupCount? after with
      | some n => before.length + n ≤ 7
      | none => false

/-- A name that a certificate can bear. -/
def isServerName (b : Bytes) : Bool := isDomainName b || isIPv4 b || isIPv6 b

end LedgerClient.Transport
