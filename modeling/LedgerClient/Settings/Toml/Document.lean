import LedgerClient.Settings.Toml.Scalar

/-!
# TOML documents

A document fills tables in the order of its lines.  A table is opened at most once by a header of
its own; what a header or a dotted key needed on its way is made as it goes.
-/

namespace LedgerClient.Settings.Toml

open Json (char?)

/-! ## Tables being filled -/

/-- How a table came to be. -/
inductive Origin where
  /-- By a header of its own. -/
  | header
  /-- On the way of a header. -/
  | implied
  /-- On the way of a dotted key. -/
  | dotted
  deriving DecidableEq, Repr

/-- What a key of a table being filled stands for. -/
inductive Item where
  | value (t : Tree)
  | table (origin : Origin) (entries : List (String × Item))
  /-- The tables of one list, of which the last is being filled. -/
  | tables (elements : List (List (String × Item)))

/-- The entries of a table being filled. -/
abbrev Entries := List (String × Item)

mutual

/-- What has been filled, as a tree. -/
def Item.toTree : Item → Tree
  | .value t => t
  | .table _ entries => .table (entriesToTree entries)
  | .tables elements => .list (elementsToTree elements)

def entriesToTree : List (String × Item) → List (String × Tree)
  | [] => []
  | (k, i) :: rest => (k, i.toTree) :: entriesToTree rest

def elementsToTree : List (List (String × Item)) → List Tree
  | [] => []
  | e :: rest => .table (entriesToTree e) :: elementsToTree rest

end

namespace Entries

/-- The item of a key. -/
def get? (k : String) (es : Entries) : Option Item := (es.find? (·.1 == k)).map (·.2)

/-- Puts an item in the place of that of the same key. -/
def replace (k : String) (i : Item) (es : Entries) : Entries :=
  es.map fun e => if e.1 == k then (k, i) else e

/-- Changes the entries that a path of keys leads to, and makes the tables that are missing on the
way.  A list of tables leads on to its last. -/
def alterAt (f : Entries → Option Entries) : List String → Entries → Option Entries
  | [], es => f es
  | k :: ks, es =>
    match es.get? k with
    | none => (alterAt f ks []).map fun sub => es ++ [(k, .table .implied sub)]
    | some (.table origin sub) => (alterAt f ks sub).map fun sub => es.replace k (.table origin sub)
    | some (.tables elements) =>
      (alterAt f ks (elements.getLast?.getD [])).map fun sub =>
        es.replace k (.tables (elements.dropLast ++ [sub]))
    | some (.value _) => none

/-- Opens the table of a header's last key. -/
def openTable (k : String) (es : Entries) : Option Entries :=
  match es.get? k with
  | none => some (es ++ [(k, .table .header [])])
  | some (.table .implied sub) => some (es.replace k (.table .header sub))
  | some _ => none

/-- Opens another table of the list of a header's last key. -/
def openElement (k : String) (es : Entries) : Option Entries :=
  match es.get? k with
  | none => some (es ++ [(k, .tables [[]])])
  | some (.tables elements) => some (es.replace k (.tables (elements ++ [[]])))
  | some _ => none

/-- Gives a dotted key its value.  A table that gets an entry by a dotted key of several keys must
have been made by such keys; on the way to it, a table without a header of its own may be crossed,
and a list of tables leads on to its last. -/
def assign (t : Tree) : List String → Entries → Option Entries
  | [], _ => none
  | [k], es => if (es.get? k).isNone then some (es ++ [(k, .value t)]) else none
  | k :: k' :: ks, es =>
    match es.get? k with
    | none => (assign t (k' :: ks) []).map fun sub => es ++ [(k, .table .dotted sub)]
    | some (.table origin sub) =>
      if origin = .header || (origin = .implied && ks.isEmpty) then none
      else (assign t (k' :: ks) sub).map fun sub => es.replace k (.table origin sub)
    | some (.tables elements) =>
      if ks.isEmpty then none
      else (assign t (k' :: ks) (elements.getLast?.getD [])).map fun sub =>
        es.replace k (.tables (elements.dropLast ++ [sub]))
    | some (.value _) => none

end Entries

/-! ## Keys -/

/-- A character of a key without quotes. -/
def isBare (c : Char) : Bool :=
  Decimal.isDigit c || ('a' ≤ c && c ≤ 'z') || ('A' ≤ c && c ≤ 'Z') || c = '_' || c = '-'

/-- Reads one key. -/
def key? : List Char → Option (String × List Char)
  | '"' :: rest => basic? [] (rest.length + 1) rest
  | '\'' :: rest => literal? rest
  | cs =>
    let k := cs.takeWhile isBare
    if k.isEmpty then none else some (String.ofList k, cs.dropWhile isBare)

/-- Reads the keys of a dotted key. -/
def keys? : Nat → List Char → Option (List String × List Char)
  | 0, _ => none
  | fuel + 1, cs =>
    match key? (skipBlanks cs) with
    | none => none
    | some (k, rest) =>
      match skipBlanks rest with
      | '.' :: rest => (keys? fuel rest).map fun (ks, rest) => (k :: ks, rest)
      | rest => some ([k], rest)

/-- The number of keys that a dotted key may have. -/
def pathLimit : Nat := 80

/-- Reads a dotted key. -/
def path? (cs : List Char) : Option (List String × List Char) :=
  (keys? (cs.length + 1) cs).filter fun p => p.1.length ≤ pathLimit

/-! ## Values -/

/-- The number of levels of lists and tables that a value may have. -/
def depthLimit : Nat := 80

mutual

/-- Reads a value that may have `depth` levels of lists and tables. -/
def value? (depth : Nat) : Nat → List Char → Option (Tree × List Char)
  | 0, _ => none
  | fuel + 1, cs =>
    match cs with
    | '"' :: '"' :: '"' :: rest =>
      (lines? '"' true [] (rest.length + 1) (trimFirst rest)).map fun (s, rest) => (.text s, rest)
    | '"' :: rest => (basic? [] (rest.length + 1) rest).map fun (s, rest) => (.text s, rest)
    | '\'' :: '\'' :: '\'' :: rest =>
      (lines? '\'' false [] (rest.length + 1) (trimFirst rest)).map fun (s, rest) => (.text s, rest)
    | '\'' :: rest => (literal? rest).map fun (s, rest) => (.text s, rest)
    | '[' :: rest => if depth = 0 then none else items? (depth - 1) [] fuel rest
    | '\x7b' :: rest => if depth = 0 then none else members? (depth - 1) [] fuel rest
    | cs =>
      let (word, rest) := takeWord cs
      (word? word).map (·, rest)

/-- Reads the items of a list up to its closing bracket.  A comma may stand after the last. -/
def items? (depth : Nat) (acc : List Tree) : Nat → List Char → Option (Tree × List Char)
  | 0, _ => none
  | fuel + 1, cs =>
    match skipLines? (cs.length + 1) cs with
    | none => none
    | some (']' :: rest) => some (.list acc.reverse, rest)
    | some rest =>
      match value? depth fuel rest with
      | none => none
      | some (t, rest) =>
        match skipLines? (rest.length + 1) rest with
        | some (',' :: rest) => items? depth (t :: acc) fuel rest
        | some (']' :: rest) => some (.list (t :: acc).reverse, rest)
        | _ => none

/-- Reads the members of a table up to its closing brace.  A comma may stand after the last, and
lines may end between members but not inside them. -/
def members? (depth : Nat) (acc : Entries) : Nat → List Char → Option (Tree × List Char)
  | 0, _ => none
  | fuel + 1, cs =>
    match skipLines? (cs.length + 1) cs with
    | none => none
    | some ('\x7d' :: rest) => some (.table (entriesToTree acc), rest)
    | some rest =>
      match path? rest with
      | some (ks, '=' :: rest) =>
        match value? depth fuel (skipBlanks rest) with
        | none => none
        | some (t, rest) =>
          match acc.assign t ks, skipLines? (rest.length + 1) rest with
          | some acc, some (',' :: rest) => members? depth acc fuel rest
          | some acc, some ('\x7d' :: rest) => some (.table (entriesToTree acc), rest)
          | _, _ => none
      | _ => none

end

/-! ## Lines -/

/-- A document read so far: all entries, and the path of the table being filled. -/
structure Document where
  entries : Entries := []
  current : List String := []

namespace Document

/-- Opens a table by a header. -/
def openHeader (d : Document) (isElement : Bool) (path : List String) : Option Document :=
  match path.getLast? with
  | none => none
  | some k =>
    let f := if isElement then Entries.openElement k else Entries.openTable k
    (Entries.alterAt f path.dropLast d.entries).map fun entries => ⟨entries, path⟩

/-- Gives a dotted key of the current table its value. -/
def assign (d : Document) (path : List String) (t : Tree) : Option Document :=
  (Entries.alterAt (Entries.assign t path) d.current d.entries).map fun entries =>
    { d with entries }

/-- The rest after the line that an expression stands on. -/
def endLine? (cs : List Char) : Option (List Char) :=
  (skipComment? cs).bind fun rest => if rest.isEmpty then some [] else newline? rest

/-- Reads the expression at the front: a header or a key and its value. -/
def expression? (d : Document) (cs : List Char) : Option (Document × List Char) :=
  match cs with
  | '[' :: '[' :: rest =>
    match path? rest with
    | some (ks, ']' :: ']' :: rest) => (d.openHeader true ks).map (·, rest)
    | _ => none
  | '[' :: rest =>
    match path? rest with
    | some (ks, ']' :: rest) => (d.openHeader false ks).map (·, rest)
    | _ => none
  | cs =>
    match path? cs with
    | some (ks, '=' :: rest) =>
      (value? depthLimit (2 * rest.length + 2) (skipBlanks rest)).bind fun (t, rest) =>
        (d.assign ks t).map (·, rest)
    | _ => none

/-- Reads the expressions of a document, each on a line of its own. -/
def read? (d : Document) : Nat → List Char → Option Document
  | 0, _ => none
  | fuel + 1, cs =>
    match skipLines? (cs.length + 1) cs with
    | none => none
    | some [] => some d
    | some rest =>
      match d.expression? rest with
      | none => none
      | some (d, rest) =>
        match endLine? rest with
        | none => none
        | some rest => read? d fuel rest

end Document

/-! ## Documents -/

/-- The key under which a table spells a date or a time as a text. -/
def momentKey : String := "$__toml_private_datetime"

mutual

/-- The tree in which each table whose first key in order is `momentKey` has become the date or the
time that it spells. -/
def spelled? : Tree → Option Tree
  | .table es =>
    if es.any (·.1 = momentKey) && es.all (momentKey ≤ ·.1) then
      match Tree.find? momentKey es with
      | some (.text s) => moment? s.toList
      | _ => none
    else (spelledEntries? es).map .table
  | .list ts => (spelledItems? ts).map .list
  | .null => some .null
  | .bool b => some (.bool b)
  | .int n => some (.int n)
  | .float x => some (.float x)
  | .text s => some (.text s)

def spelledEntries? : List (String × Tree) → Option (List (String × Tree))
  | [] => some []
  | (k, t) :: rest => do return (k, ← spelled? t) :: (← spelledEntries? rest)

def spelledItems? : List Tree → Option (List Tree)
  | [] => some []
  | t :: rest => do return (← spelled? t) :: (← spelledItems? rest)

end

/-- The text without the mark that some editors put in front of it. -/
def dropMark : List Char → List Char
  | '\ufeff' :: cs => cs
  | cs => cs

/-- Reads a TOML document as a table. -/
def parse? (s : String) : Option Tree :=
  let cs := dropMark s.toList
  (Document.read? {} (cs.length + 1) cs).bind fun d =>
    spelled? (.table (entriesToTree d.entries))

end LedgerClient.Settings.Toml
