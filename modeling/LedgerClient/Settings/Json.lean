import LedgerClient.Decimal.Stepwise
import LedgerClient.Settings.Tree

/-!
# Settings in JSON

Reads a JSON text as a tree.  Whole numbers that 64 bits can hold, with a sign or without, are whole
numbers of the tree; all other numbers are values of binary64, read in steps.  The last of several
values of one key counts.
-/

namespace LedgerClient.Settings.Json

open Decimal

/-- The text without the blanks at its front. -/
def skip (cs : List Char) : List Char :=
  cs.dropWhile fun c => c = ' ' || c = '\t' || c = '\n' || c = '\r'

/-! ## Strings -/

/-- The value of a hexadecimal digit. -/
def hexDigit? (c : Char) : Option Nat :=
  if '0' ≤ c && c ≤ '9' then some (c.toNat - 0x30)
  else if 'a' ≤ c && c ≤ 'f' then some (c.toNat - 0x57)
  else if 'A' ≤ c && c ≤ 'F' then some (c.toNat - 0x37)
  else none

/-- The number of hexadecimal digits. -/
def hexNumber? (cs : List Char) : Option Nat :=
  cs.foldlM (fun n c => (hexDigit? c).map (16 * n + ·)) 0

/-- The four digits after `\u`. -/
def unit? : List Char → Option (Nat × List Char)
  | a :: b :: c :: d :: rest => (hexNumber? [a, b, c, d]).map (·, rest)
  | _ => none

/-- The character of a number that is one. -/
def char? (n : Nat) : Option Char :=
  if h : n.isValidChar then some (Char.ofNatAux n h) else none

/-- The character after `\u`, which may be spelled by two halves. -/
def unicode? (cs : List Char) : Option (Char × List Char) := do
  let (high, rest) ← unit? cs
  if 0xD800 ≤ high && high < 0xDC00 then
    match rest with
    | '\\' :: 'u' :: rest =>
      let (low, rest) ← unit? rest
      if 0xDC00 ≤ low && low < 0xE000 then
        (char? (0x10000 + (high - 0xD800) * 0x400 + (low - 0xDC00))).map (·, rest)
      else none
    | _ => none
  else (char? high).map (·, rest)

/-- The character of a letter after a backslash. -/
def escaped? : Char → Option Char
  | '"' => some '"'
  | '\\' => some '\\'
  | '/' => some '/'
  | 'b' => some '\x08'
  | 'f' => some '\x0c'
  | 'n' => some '\n'
  | 'r' => some '\r'
  | 't' => some '\t'
  | _ => none

/-- Reads a string after its opening quote; `acc` holds what has been read, reversed. -/
def string? (acc : List Char) : Nat → List Char → Option (String × List Char)
  | 0, _ => none
  | _ + 1, [] => none
  | _ + 1, '"' :: rest => some (String.ofList acc.reverse, rest)
  | fuel + 1, '\\' :: 'u' :: rest =>
    match unicode? rest with
    | some (c, rest) => string? (c :: acc) fuel rest
    | none => none
  | fuel + 1, '\\' :: c :: rest =>
    match escaped? c with
    | some c => string? (c :: acc) fuel rest
    | none => none
  | fuel + 1, c :: rest => if c.toNat < 0x20 then none else string? (c :: acc) fuel rest

/-! ## Numbers -/

/-- The tree of a number's parts.  Digits that 64 bits do not hold count only by their place.  A
number too large for binary64 is refused. -/
def numberTree? (negative : Bool) (whole fraction : List Char) (exponent : Option Int) :
    Option Tree :=
  let (n, dropped) := heldDigits 0 whole
  let isWhole := fraction.isEmpty && exponent.isNone && dropped = 0
  if isWhole && !negative then some (.int n)
  else if isWhole && 0 < n && n ≤ Nat.pow 2 63 then some (.int (-n))
  else
    let (digits, unused) := heldDigits n fraction
    let places : Int := (dropped : Int) - (fraction.length - unused : Nat)
    match Binary64.ofDecimalStepwise negative digits (places + exponent.getD 0) with
    | .infinite _ => none
    | x => some (.float x)

/-- Reads the exponent of a number, if there is one. -/
def exponentPart? : List Char → Option (Option Int × List Char)
  | c :: rest =>
    if c = 'e' || c = 'E' then
      let (negative, rest) := takeSign rest
      let ds := rest.takeWhile isDigit
      if ds.isEmpty then none
      else some (some (if negative then -(ofDigits ds : Int) else ofDigits ds),
        rest.dropWhile isDigit)
    else some (none, c :: rest)
  | [] => some (none, [])

/-- Reads a number: no zero may stand before other digits, and digits follow a point. -/
def number? (cs : List Char) : Option (Tree × List Char) := do
  let (negative, cs) := match cs with
    | '-' :: cs => (true, cs)
    | cs => (false, cs)
  let whole := cs.takeWhile isDigit
  let rest := cs.dropWhile isDigit
  if whole.isEmpty || (whole.length > 1 && whole.head? = some '0') then none
  let (fraction, rest) ← match rest with
    | '.' :: rest =>
      let ds := rest.takeWhile isDigit
      if ds.isEmpty then none else some (ds, rest.dropWhile isDigit)
    | rest => some ([], rest)
  let (exponent, rest) ← exponentPart? rest
  (numberTree? negative whole fraction exponent).map (·, rest)

/-! ## Values -/

/-- Reads a word. -/
def word? (w : List Char) (t : Tree) (cs : List Char) : Option (Tree × List Char) :=
  if w.isPrefixOf cs then some (t, cs.drop w.length) else none

mutual

/-- Reads a value that may hold `depth` levels of lists and tables. -/
def value? (depth : Nat) : Nat → List Char → Option (Tree × List Char)
  | 0, _ => none
  | fuel + 1, cs =>
    match skip cs with
    | '"' :: rest => (string? [] fuel rest).map fun (s, rest) => (.text s, rest)
    | '[' :: rest =>
      if depth = 0 then none
      else match skip rest with
        | ']' :: rest => some (.list [], rest)
        | rest => items? (depth - 1) [] fuel rest
    | '\x7b' :: rest =>
      if depth = 0 then none
      else match skip rest with
        | '\x7d' :: rest => some (.table [], rest)
        | rest => members? (depth - 1) [] fuel rest
    | 't' :: rest => word? ['r', 'u', 'e'] (.bool true) rest
    | 'f' :: rest => word? ['a', 'l', 's', 'e'] (.bool false) rest
    | 'n' :: rest => word? ['u', 'l', 'l'] .null rest
    | cs => number? cs

/-- Reads the items of a list up to its closing bracket. -/
def items? (depth : Nat) (acc : List Tree) : Nat → List Char → Option (Tree × List Char)
  | 0, _ => none
  | fuel + 1, cs =>
    match value? depth fuel cs with
    | none => none
    | some (t, rest) =>
      match skip rest with
      | ',' :: rest => items? depth (t :: acc) fuel rest
      | ']' :: rest => some (.list (t :: acc).reverse, rest)
      | _ => none

/-- Reads the members of a table up to its closing brace. -/
def members? (depth : Nat) (acc : List (String × Tree)) :
    Nat → List Char → Option (Tree × List Char)
  | 0, _ => none
  | fuel + 1, cs =>
    match skip cs with
    | '"' :: rest =>
      match string? [] fuel rest with
      | none => none
      | some (key, rest) =>
        match skip rest with
        | ':' :: rest =>
          match value? depth fuel rest with
          | none => none
          | some (t, rest) =>
            match skip rest with
            | ',' :: rest => members? depth (Tree.put key t acc) fuel rest
            | '\x7d' :: rest => some (.table (Tree.put key t acc), rest)
            | _ => none
        | _ => none
    | _ => none

end

/-- The number of levels of lists and tables that a text may have. -/
def depthLimit : Nat := 127

/-- Reads a JSON text. -/
def parse? (s : String) : Option Tree :=
  let cs := s.toList
  match value? depthLimit (2 * cs.length + 2) cs with
  | some (t, rest) => if (skip rest).isEmpty then some t else none
  | none => none

end LedgerClient.Settings.Json
