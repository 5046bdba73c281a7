import LedgerClient.Time.Span

/-!
# The timeout header

A call tells its node the deadline in a header: a number of at most eight digits and the letter of
its unit.  The finest unit that leaves the number short enough is taken, and what is less than one
of that unit is left out.
-/

namespace LedgerClient.Rpc

open Time

/-- The units of the header from the finest to the coarsest: the letter, and how many of it go
into so many milliseconds. -/
def timeoutUnits : List (String × Nat × Millis) :=
  [("n", 1000000, 1), ("u", 1000, 1), ("m", 1, 1), ("S", 1, 1000), ("M", 1, 60000),
   ("H", 1, 3600000)]

/-- The number in a timeout header has at most eight digits. -/
def timeoutLimit : Nat := 100000000

/-- A timeout header. -/
structure Timeout where
  number : Nat
  letter : String
  /-- The span that the header stands for. -/
  span : Millis
  deriving DecidableEq, Repr

/-- The header of a deadline, unless it is too long for any unit. -/
def Timeout.ofSpan? (deadline : Millis) : Option Timeout :=
  timeoutUnits.findSome? fun (letter, count, millis) =>
    let number := deadline * count / millis
    if number < timeoutLimit then some ⟨number, letter, number * millis / count⟩ else none

/-- The text of a header. -/
def Timeout.text (t : Timeout) : String := s!"{t.number}{t.letter}"

end LedgerClient.Rpc
