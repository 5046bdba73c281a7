import LedgerClient.Settings.Tree

/-!
# Layers of settings

Settings of several sources are laid over each other value by value.  A value goes to a *place*: a
key of the outermost table, then keys of tables and positions of lists.  What stands in the way of
a place is replaced, and what is missing on the way is made.
-/

namespace LedgerClient.Settings

/-! ## Places -/

/-- A step from a value to one inside it.  A negative position counts from the end. -/
inductive Hop where
  | key (k : String)
  | index (i : Int)
  deriving DecidableEq, Repr

/-- A place in a tree of settings. -/
structure Place where
  root : String
  hops : List Hop := []
  deriving DecidableEq, Repr

/-- A character of a key in the text of a place. -/
def isKeyChar (c : Char) : Bool :=
  Decimal.isDigit c || ('a' ≤ c && c ≤ 'z') || ('A' ≤ c && c ≤ 'Z') || c = '_' || c = '-'

/-- The text without the spaces and tabs at its front. -/
def skipPadding (cs : List Char) : List Char := cs.dropWhile fun c => c = ' ' || c = '\t'

/-- Reads the steps of a place. -/
def hops? : Nat → List Char → Option (List Hop)
  | _, [] => some []
  | 0, _ => none
  | fuel + 1, '.' :: rest =>
    let k := rest.takeWhile isKeyChar
    if k.isEmpty then none
    else (hops? fuel (rest.dropWhile isKeyChar)).map (.key (String.ofList k) :: ·)
  | fuel + 1, '[' :: rest =>
    let (negative, rest) := match skipPadding rest with
      | '-' :: rest => (true, rest)
      | rest => (false, rest)
    let ds := rest.takeWhile Decimal.isDigit
    let n := Decimal.ofDigits ds
    if ds.isEmpty || n ≥ Nat.pow 2 63 then none
    else match skipPadding (rest.dropWhile Decimal.isDigit) with
      | ']' :: rest => (hops? fuel rest).map (.index (if negative then -(n : Int) else n) :: ·)
      | _ => none
  | _ + 1, _ => none

/-- The place that a text names: a key, then `.key` and `[position]` as often as needed.  Blanks may
stand around a position.  A text of another form is a key of the outermost table. -/
def Place.ofText (s : String) : Place :=
  let cs := s.toList
  let k := cs.takeWhile isKeyChar
  if k.isEmpty then ⟨s, []⟩
  else match hops? cs.length (cs.dropWhile isKeyChar) with
    | some hops => ⟨String.ofList k, hops⟩
    | none => ⟨s, []⟩

/-! ## Laying values over each other -/

namespace Tree

/-- The entries of a table; of any other value, none. -/
def entries : Tree → List (String × Tree)
  | table es => es
  | _ => []

/-- The items of a list; of any other value, none. -/
def items : Tree → List Tree
  | list ts => ts
  | _ => []

/-- The items with the one at a position, made if it is missing, and that position. -/
def reach (ts : List Tree) (i : Int) : List Tree × Nat :=
  if i ≥ 0 then (ts ++ List.replicate (i.toNat + 1 - ts.length) null, i.toNat)
  else
    let back := (-i).toNat
    (List.replicate (back - ts.length) null ++ ts, ts.length - back)

mutual

/-- Lays a value over another.  Tables are merged; any other value replaces what it covers. -/
def overlay (under : Tree) : Tree → Tree
  | .table es => .table (overlayEntries under.entries es)
  | .null => .null
  | .bool b => .bool b
  | .int n => .int n
  | .float x => .float x
  | .text s => .text s
  | .list ts => .list ts

def overlayEntries (under : List (String × Tree)) : List (String × Tree) → List (String × Tree)
  | [] => under
  | (k, v) :: rest =>
    overlayEntries (put k (overlay ((find? k under).getD .null) v) under) rest

end

/-- Lays a value over the one that the steps lead to. -/
def overlayAt (v : Tree) : List Hop → Tree → Tree
  | [], t => overlay t v
  | .key k :: hops, t =>
    let es := t.entries
    .table (put k (overlayAt v hops ((find? k es).getD .null)) es)
  | .index i :: hops, t =>
    let (ts, n) := reach t.items i
    .list (ts.set n (overlayAt v hops (ts[n]?.getD .null)))

/-- Lays a value over the one at a place of a table. -/
def setAt (p : Place) (v : Tree) (es : List (String × Tree)) : List (String × Tree) :=
  put p.root (overlayAt v p.hops ((find? p.root es).getD .null)) es

end Tree
end LedgerClient.Settings
