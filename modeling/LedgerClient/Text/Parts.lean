/-!
# Parts

The parts of a text that a separator stands between.  There is one more of them than there are
separators, and any of them may be empty.
-/

namespace LedgerClient.Text

/-- The parts of `cs` between the characters `separator`. -/
def parts (separator : Char) : List Char → List (List Char)
  | [] => [[]]
  | c :: cs =>
    if c = separator then [] :: parts separator cs
    else
      match parts separator cs with
      | part :: rest => (c :: part) :: rest
      | [] => [[c]]

end LedgerClient.Text
