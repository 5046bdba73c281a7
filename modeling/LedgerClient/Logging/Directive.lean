import LedgerClient.Decimal.Numeral
import LedgerClient.Logging.Filter
import LedgerClient.Text.Blank
import LedgerClient.Text.Parts

/-!
# Plain directives

The filters that ask for nothing but the target and the level of an event.  A filter is a list of
directives between commas, and a directive is a level for all targets, a target with a level, or a
target alone, which lets every level pass.  The directive with the longest target that covers an
event decides.  A target begins with a letter or digit of ASCII or with one of `-`, `:` and `_`.
-/

namespace LedgerClient.Logging

/-! ## Levels -/

/-- What passes: events up to the given rank, or none at all. -/
abbrev Threshold := Nat

/-- Reads a threshold: a number up to five, the name of a level in letters of either case, or
`off`. -/
def threshold? (cs : List Char) : Option Threshold :=
  match Decimal.uint64? cs with
  | some n => if n ≤ 5 then some n.toNat else none
  | none =>
    match String.ofList (cs.map Char.toLower) with
    | "off" => some 0
    | "error" => some 1
    | "warn" => some 2
    | "info" => some 3
    | "debug" => some 4
    | "trace" => some 5
    | _ => none

/-- The threshold that lets everything pass. -/
def passAll : Threshold := 5

/-! ## Directives -/

/-- One part of a filter. -/
structure Directive where
  /-- What the target of an event must begin with. -/
  target : Option String := none
  threshold : Threshold := passAll
  deriving DecidableEq, Repr

namespace Directive

/-- A directive may begin with the character. -/
def isFirst (c : Char) : Bool := c.isAlphanum || c = '-' || c = ':' || c = '_'

/-- Reads a directive.  The place of `=` is counted in the text without the blanks around it, and
the parts are cut from the text with them. -/
def parse? (cs : List Char) : Option Directive :=
  let bare := Text.trimChars cs
  let place := (bare.takeWhile (· != '=')).length
  if bare.contains '[' || !bare.head?.any isFirst then none
  else if place = bare.length then
    match threshold? cs with
    | some threshold => some { threshold }
    | none => some { target := some (String.ofList cs) }
  else
    let target := some (String.ofList (cs.take place))
    let word := cs.drop (place + 1)
    if word.isEmpty then some { target }
    else (threshold? word).map fun threshold => { target, threshold }

/-- A directive covers the events of a target: its own is what theirs begins with. -/
def covers (target : String) (d : Directive) : Bool :=
  d.target.all fun t => t.toList.isPrefixOf target.toList

/-- How specific a directive is, by its target. -/
def weight (d : Directive) : Nat :=
  match d.target with
  | none => 0
  | some t => t.utf8ByteSize + 1

/-- The most specific of the directives that cover a target, of equals the last. -/
def decisive? (ds : List Directive) (target : String) : Option Directive :=
  (ds.filter (covers target)).foldl (fun best d =>
    match best with
    | none => some d
    | some b => if weight b ≤ weight d then some d else some b) none

/-- The texts of the directives in a text.  Empty ones are passed over. -/
def texts (s : String) : List (List Char) := (Text.parts ',' s.toList).filter (!·.isEmpty)

/-- The filters of plain directives.  An event is a target and a level; it passes if the most
specific directive that covers its target lets its level pass. -/
def library : FilterLibrary (List Directive) (String × Level) where
  read? s := (texts s).mapM parse?
  readParts s := (texts s).filterMap parse?
  passes ds e := (decisive? ds e.1).any fun d => e.2.rank ≤ d.threshold

end Directive
end LedgerClient.Logging
