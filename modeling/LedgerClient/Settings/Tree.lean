import LedgerClient.Decimal.Numeral

/-!
# Trees of settings

What a settings file says, whatever its format.  A `Dialect` is a way to read scalars from a tree:
`Dialect.strict` takes each scalar as it is written, and `Dialect.loose` converts between them.
-/

namespace LedgerClient.Settings

open Decimal

/-- A value of a settings file.  The keys of a table differ. -/
inductive Tree where
  | null
  | bool (b : Bool)
  | int (n : Int)
  | float (x : Binary64)
  | text (s : String)
  | list (items : List Tree)
  | table (entries : List (String × Tree))
  deriving Inhabited

namespace Tree

/-- The value of a key among the entries of a table. -/
def find? (key : String) : List (String × Tree) → Option Tree
  | [] => none
  | (k, v) :: rest => if k = key then some v else find? key rest

/-- Sets a key of a table, in place if the table has it. -/
def put (key : String) (v : Tree) : List (String × Tree) → List (String × Tree)
  | [] => [(key, v)]
  | e :: rest => if e.1 = key then (key, v) :: rest else e :: put key v rest

/-- A text or nothing. -/
def ofOption : Option String → Tree
  | none => null
  | some s => text s

end Tree

/-! ## Dialects -/

/-- How scalars and records are read. -/
structure Dialect where
  uint64 : Tree → Option UInt64
  text : Tree → Option String
  /-- A list may stand for a record that has fewer fields than the list has items. -/
  allowsExtra : Bool

/-- The unsigned 64-bit number of a whole number in range. -/
def uint64OfInt? (n : Int) : Option UInt64 :=
  if 0 ≤ n ∧ n < UInt64.size then some (UInt64.ofNat n.toNat) else none

/-- Scalars are read only as what they are. -/
def Dialect.strict : Dialect where
  uint64
    | .int n => uint64OfInt? n
    | _ => none
  text
    | .text s => some s
    | _ => none
  allowsExtra := false

/-- The number a text stands for; words for truth stand for one and zero. -/
def uint64OfText? (s : String) : Option UInt64 :=
  let word := s.toLower
  if word = "true" || word = "on" || word = "yes" then some 1
  else if word = "false" || word = "off" || word = "no" then some 0
  else Decimal.uint64? s.toList

/-- Scalars are converted to the type that is asked for. -/
def Dialect.loose : Dialect where
  uint64
    | .int n => uint64OfInt? n
    | .float x => some x.roundUInt64
    | .bool b => some (if b then 1 else 0)
    | .text s => uint64OfText? s
    | _ => none
  text
    | .text s => some s
    | .int n => some (toString n)
    | .float x => some x.text
    | .bool b => some (if b then "true" else "false")
    | _ => none
  allowsExtra := true

namespace Dialect

/-- The values of the named fields of a record.  A record is a table, or the list of its fields in
their order. -/
def fields? (d : Dialect) (names : List String) : Tree → Option (List (Option Tree))
  | .table entries => some (names.map fun name => Tree.find? name entries)
  | .list items =>
    if items.length ≤ names.length || d.allowsExtra then
      some ((List.range names.length).map fun i => items[i]?)
    else none
  | _ => none

/-- A field that has to be there. -/
def required {α : Type} (read : Tree → Option α) (field : Option Tree) : Option α :=
  field.bind read

/-- A field that has a value of its own if it is not there. -/
def orDefault {α : Type} (value : α) (read : Tree → Option α) : Option Tree → Option α
  | none => some value
  | some t => read t

/-- A field that may be empty. -/
def optional {α : Type} (read : Tree → Option α) : Option Tree → Option (Option α)
  | none | some .null => some none
  | some t => (read t).map some

/-- A list of values. -/
def listOf {α : Type} (read : Tree → Option α) : Tree → Option (List α)
  | .list items => items.mapM read
  | _ => none

end Dialect
end LedgerClient.Settings
