import LedgerClient.Settings.Json

/-!
# Scalars of TOML

Strings of the four kinds, whole numbers in four bases, floating-point numbers, truth values, and
dates and times, which become texts in one spelling.
-/

namespace LedgerClient.Settings.Toml

open Decimal Json

/-! ## Layout -/

/-- The text without the spaces and tabs at its front. -/
def skipBlanks (cs : List Char) : List Char := cs.dropWhile fun c => c = ' ' || c = '\t'

/-- Takes a line break off the front. -/
def newline? : List Char → Option (List Char)
  | '\n' :: rest => some rest
  | '\r' :: '\n' :: rest => some rest
  | _ => none

/-- A character that may stand in a comment or in a string. -/
def isPlain (c : Char) : Bool := c = '\t' || (c.toNat ≥ 0x20 && c.toNat ≠ 0x7F)

/-- Takes blanks and a comment off the front of a line. -/
def skipComment? (cs : List Char) : Option (List Char) :=
  match skipBlanks cs with
  | '#' :: rest =>
    let rest := rest.dropWhile isPlain
    if rest.isEmpty || (newline? rest).isSome then some rest else none
  | rest => some rest

/-- Takes blanks, comments and line breaks off the front. -/
def skipLines? : Nat → List Char → Option (List Char)
  | 0, _ => none
  | fuel + 1, cs =>
    match skipComment? cs with
    | none => none
    | some rest =>
      match newline? rest with
      | none => some rest
      | some rest => skipLines? fuel rest

/-! ## Strings -/

/-- The character that an escape after a backslash stands for. -/
def escape? : List Char → Option (Char × List Char)
  | 'u' :: a :: b :: c :: d :: rest =>
    ((hexNumber? [a, b, c, d]).bind char?).map (·, rest)
  | 'U' :: a :: b :: c :: d :: e :: f :: g :: h :: rest =>
    ((hexNumber? [a, b, c, d, e, f, g, h]).bind char?).map (·, rest)
  | 'x' :: a :: b :: rest => ((hexNumber? [a, b]).bind char?).map (·, rest)
  | 'e' :: rest => some ('\x1b', rest)
  | '/' :: _ => none
  | c :: rest => (escaped? c).map (·, rest)
  | [] => none

/-- Reads a string of one line after its opening quote. -/
def basic? (acc : List Char) : Nat → List Char → Option (String × List Char)
  | 0, _ => none
  | _ + 1, [] => none
  | _ + 1, '"' :: rest => some (String.ofList acc.reverse, rest)
  | fuel + 1, '\\' :: rest =>
    match escape? rest with
    | some (c, rest) => basic? (c :: acc) fuel rest
    | none => none
  | fuel + 1, c :: rest => if isPlain c then basic? (c :: acc) fuel rest else none

/-- Reads a string of one line without escapes after its opening quote. -/
def literal? (cs : List Char) : Option (String × List Char) :=
  let body := cs.takeWhile fun c => c != '\'' && isPlain c
  match cs.drop body.length with
  | '\'' :: rest => some (String.ofList body, rest)
  | _ => none

/-- The rest after blanks and line breaks. -/
def skipFolded : List Char → List Char
  | '\r' :: '\n' :: cs => skipFolded cs
  | c :: cs => if c = ' ' || c = '\t' || c = '\n' then skipFolded cs else c :: cs
  | [] => []

/-- The rest after the blanks that end a line and all blanks and line breaks that follow. -/
def folded? (cs : List Char) : Option (List Char) :=
  (newline? (skipBlanks cs)).map skipFolded

/-- Reads a string of several lines after its opening quotes.  `quote` closes it in threes; one or
two more may stand before those.  Line breaks are kept as they are. -/
def lines? (quote : Char) (escapes : Bool) (acc : List Char) :
    Nat → List Char → Option (String × List Char)
  | 0, _ => none
  | _ + 1, [] => none
  | fuel + 1, c :: rest =>
    if c = quote then
      let n := ((c :: rest).takeWhile (· = quote)).length
      let rest := (c :: rest).drop n
      if n < 3 then lines? quote escapes (List.replicate n quote ++ acc) fuel rest
      else if n ≤ 5 then
        some (String.ofList (List.replicate (n - 3) quote ++ acc).reverse, rest)
      else none
    else if c = '\\' && escapes then
      match folded? rest with
      | some rest => lines? quote escapes acc fuel rest
      | none =>
        match escape? rest with
        | some (c, rest) => lines? quote escapes (c :: acc) fuel rest
        | none => none
    else if c = '\n' || isPlain c || (c = '\r' && rest.head? = some '\n') then
      lines? quote escapes (c :: acc) fuel rest
    else none

/-- The rest after a line break directly after opening quotes. -/
def trimFirst (cs : List Char) : List Char := (newline? cs).getD cs

/-! ## Numbers -/

/-- Removes the underscores, each of which must stand between two digits. -/
def dropUnderscores? (digit : Char → Bool) : List Char → Option (List Char)
  | [] => none
  | [c] => if digit c then some [c] else none
  | c :: '_' :: d :: rest =>
    if digit c then (dropUnderscores? digit (d :: rest)).map (c :: ·) else none
  | c :: rest => if digit c then (dropUnderscores? digit rest).map (c :: ·) else none

/-- Digits without a zero in front of others. -/
def wholePart? (cs : List Char) : Option (List Char) :=
  (dropUnderscores? isDigit cs).filter fun ds => ds.length = 1 || ds.head? ≠ some '0'

/-- A whole number of the signed 64-bit range. -/
def intTree? (n : Int) : Option Tree :=
  if Int64.minValue.toInt ≤ n && n ≤ Int64.maxValue.toInt then some (.int n) else none

/-- A whole number in the digits of a base. -/
def based? (base : Nat) (cs : List Char) : Option Tree :=
  let digit (c : Char) : Bool := (hexDigit? c).any (· < base)
  (dropUnderscores? digit cs).bind fun ds =>
    intTree? (ds.foldl (fun n c => base * n + (hexDigit? c).getD 0) (0 : Nat))

/-- Reads an exponent, which may begin with zeros. -/
def exponentDigits? (cs : List Char) : Option Int :=
  let (negative, ds) := takeSign cs
  (dropUnderscores? isDigit ds).map fun ds =>
    if negative then -(ofDigits ds : Int) else ofDigits ds

/-- The value of a floating-point number, which must be finite. -/
def floatTree? (negative : Bool) (whole fraction : List Char) (exponent : Int) : Option Tree :=
  match ofParts negative whole fraction exponent with
  | .infinite _ => none
  | x => some (.float x)

/-- A number in decimal digits. -/
def decimal? (negative : Bool) (cs : List Char) : Option Tree := do
  let isPart (c : Char) : Bool := isDigit c || c = '_'
  let whole ← wholePart? (cs.takeWhile isPart)
  let rest := cs.dropWhile isPart
  match rest with
  | [] => intTree? (if negative then -(ofDigits whole : Int) else ofDigits whole)
  | '.' :: rest =>
    let fraction ← dropUnderscores? isDigit (rest.takeWhile isPart)
    match rest.dropWhile isPart with
    | [] => floatTree? negative whole fraction 0
    | 'e' :: rest | 'E' :: rest => floatTree? negative whole fraction (← exponentDigits? rest)
    | _ => none
  | 'e' :: rest | 'E' :: rest => floatTree? negative whole [] (← exponentDigits? rest)
  | _ => none

/-- A number: a base or a sign, then digits, or the name of a value without digits. -/
def number? (cs : List Char) : Option Tree :=
  match cs with
  | '0' :: 'x' :: ds => based? 16 ds
  | '0' :: 'o' :: ds => based? 8 ds
  | '0' :: 'b' :: ds => based? 2 ds
  | _ =>
    let (negative, body) := takeSign cs
    if body = ['i', 'n', 'f'] then some (.float (.infinite negative))
    else if body = ['n', 'a', 'n'] then some (.float .nan)
    else decimal? negative body

/-! ## Dates and times -/

/-- Takes exactly `n` digits off the front. -/
def digits? (n : Nat) (cs : List Char) : Option (Nat × List Char) :=
  let ds := cs.take n
  if ds.length = n && ds.all isDigit then some (ofDigits ds, cs.drop n) else none

/-- A year that has the 29th of February. -/
def isLeap (year : Nat) : Bool := year % 4 = 0 && (year % 100 ≠ 0 || year % 400 = 0)

/-- The number of days of a month. -/
def daysIn (year month : Nat) : Nat :=
  if month = 2 then (if isLeap year then 29 else 28)
  else if month = 4 || month = 6 || month = 9 || month = 11 then 30 else 31

/-- A number in at least two digits. -/
def twoDigits (n : Nat) : String := if n < 10 then s!"0{n}" else toString n

/-- Reads a date and returns its spelling. -/
def date? (cs : List Char) : Option (String × List Char) := do
  let (year, rest) ← digits? 4 cs
  match rest with
  | '-' :: rest =>
    let (month, rest) ← digits? 2 rest
    match rest with
    | '-' :: rest =>
      let (day, rest) ← digits? 2 rest
      if 1 ≤ month && month ≤ 12 && 1 ≤ day && day ≤ daysIn year month then
        some (String.ofList (cs.take 10), rest)
      else none
    | _ => none
  | _ => none

/-- A fraction of a second as it is spelled: at most nine digits, without zeros at the end but for
the first digit. -/
def fractionText (ds : List Char) : String :=
  let ds := ((ds.take 9).reverse.dropWhile (· = '0')).reverse
  "." ++ if ds.isEmpty then "0" else String.ofList ds

/-- Reads the seconds of a time of day after their colon and returns their spelling. -/
def seconds? (cs : List Char) : Option (String × List Char) := do
  let (second, rest) ← digits? 2 cs
  if second > 60 then none
  else
    let whole := twoDigits second
    match rest with
    | '.' :: rest =>
      let ds := rest.takeWhile isDigit
      if ds.isEmpty then none else some (whole ++ fractionText ds, rest.drop ds.length)
    | rest => some (whole, rest)

/-- Reads a time of day, which may be without seconds, and returns its spelling. -/
def time? (cs : List Char) : Option (String × List Char) := do
  let (hour, rest) ← digits? 2 cs
  match rest with
  | ':' :: rest =>
    let (minute, rest) ← digits? 2 rest
    if hour > 23 || minute > 59 then none
    else
      let start := twoDigits hour ++ ":" ++ twoDigits minute
      match rest with
      | ':' :: rest => (seconds? rest).map fun (seconds, rest) => (start ++ ":" ++ seconds, rest)
      | rest => some (start, rest)
  | _ => none

/-- Reads an offset from universal time up to the end and returns its spelling. -/
def offset? : List Char → Option String
  | [] => some ""
  | ['Z'] | ['z'] => some "Z"
  | sign :: rest =>
    if sign = '+' || sign = '-' then do
      let (hours, rest) ← digits? 2 rest
      match rest with
      | ':' :: rest =>
        let (minutes, rest) ← digits? 2 rest
        if rest.isEmpty && hours ≤ 23 && minutes ≤ 59 then
          let sign := if sign = '-' && hours + minutes > 0 then "-" else "+"
          some (sign ++ twoDigits hours ++ ":" ++ twoDigits minutes)
        else none
      | _ => none
    else none

/-- Reads a date, a time of day, or both with an offset or without one. -/
def moment? (cs : List Char) : Option Tree :=
  match date? cs with
  | some (date, []) => some (.text date)
  | some (date, c :: rest) =>
    if c = 'T' || c = 't' || c = ' ' then
      (time? rest).bind fun (time, rest) =>
        (offset? rest).map fun offset => .text (date ++ "T" ++ time ++ offset)
    else none
  | none => (time? cs).bind fun (time, rest) => if rest.isEmpty then some (.text time) else none

/-! ## Words -/

/-- A character of a number, a truth value, a date or a time. -/
def isWordChar (c : Char) : Bool :=
  isDigit c || ('a' ≤ c && c ≤ 'z') || ('A' ≤ c && c ≤ 'Z') ||
    c = '_' || c = '+' || c = '-' || c = '.' || c = ':'

/-- The word at the front; a blank between a date and a time belongs to it. -/
def takeWord (cs : List Char) : List Char × List Char :=
  let word := cs.takeWhile isWordChar
  let rest := cs.dropWhile isWordChar
  match (date? word), rest with
  | some (_, []), ' ' :: c :: rest =>
    if isDigit c then
      (word ++ ' ' :: (c :: rest).takeWhile isWordChar, (c :: rest).dropWhile isWordChar)
    else (word, ' ' :: c :: rest)
  | _, rest => (word, rest)

/-- The value of a word. -/
def word? (cs : List Char) : Option Tree :=
  if cs = ['t', 'r', 'u', 'e'] then some (.bool true)
  else if cs = ['f', 'a', 'l', 's', 'e'] then some (.bool false)
  else (number? cs).orElse fun _ => moment? cs

end LedgerClient.Settings.Toml
