/-!
# Spans of time

A span is a count of units.  The unit is a millisecond wherever it is named: in settings, in
diagnostics and in the headers of calls.  Retries do no more with spans than add and compare them,
so what holds of a policy and its pauses holds in whatever unit they are counted.
-/

namespace LedgerClient.Time

/-- A span of time, in milliseconds where the unit matters. -/
abbrev Millis := Nat

/-- The digits of `n < 1000` after a decimal point, the zeros at their end left out. -/
def thousandths (n : Nat) : List Char :=
  let digits := (Nat.toDigits 10 (1000 + n)).tail
  (digits.reverse.dropWhile (· = '0')).reverse

/-- A span in diagnostics: in seconds from one second on, in milliseconds below, and the empty
span in nanoseconds. -/
def spanText (span : Millis) : String :=
  if span = 0 then "0ns"
  else if span < 1000 then s!"{span}ms"
  else
    let fraction := thousandths (span % 1000)
    s!"{span / 1000}" ++ (if fraction.isEmpty then "" else "." ++ String.ofList fraction) ++ "s"

end LedgerClient.Time
