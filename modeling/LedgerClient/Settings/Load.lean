import LedgerClient.Settings.Client
import LedgerClient.Settings.Overlay
import LedgerClient.Settings.Toml.Document
import LedgerClient.Text.Utf8

/-!
# Loading settings

Settings come from a file and, laid over it, from the environment.  The form of the file is told
by its extension; a path without a file is tried with the known extensions added.
-/

namespace LedgerClient.Settings

open Storage

/-- Why settings cannot be loaded. -/
inductive LoadError where
  /-- The file is missing or malformed. -/
  | unreadable (path : String)
  /-- What the sources say are not settings. -/
  | unfit
  deriving DecidableEq, Repr

/-- The wording of an error. -/
def LoadError.message : LoadError → String
  | unreadable path => s!"Failed to build configuration from '{path}'"
  | unfit => "Failed to deserialize configuration"

/-! ## Files -/

/-- The forms of a settings file. -/
inductive Form where
  | toml | json
  deriving DecidableEq, Repr

/-- The form that an extension tells. -/
def Form.ofExtension? : String → Option Form
  | "toml" => some toml
  | "json" => some json
  | _ => none

/-- The last name of a path, without blanks names at the end, and the path up to it. -/
def lastName? (path : String) : Option (List String × String) :=
  let names := ((Files.split path).reverse.dropWhile fun n => n = "" || n = ".").reverse
  match names.getLast? with
  | none => none
  | some name => if name = ".." then none else some (names.dropLast, name)

/-- The extension of a name: what follows its last dot, unless the name begins with that dot. -/
def extension (name : String) : String :=
  let back := name.toList.reverse
  let ext := back.takeWhile (· != '.')
  if ext.length + 1 < back.length then String.ofList ext.reverse else ""

/-- The file that a path stands for, and its form. -/
def findFile? (fs : Files) (path : String) : Option (String × Form) :=
  match lastName? path with
  | none => none
  | some (names, name) =>
    if fs.isFile path then (Form.ofExtension? (extension name)).map (path, ·)
    else
      let candidate (ext : String) := "/".intercalate (names ++ [name ++ ext])
      [(candidate ".toml", Form.toml), (candidate ".json", Form.json)].find? fun c => fs.isFile c.1

/-- The bytes without the mark that some editors put in front of a text. -/
def dropMark : Bytes → Bytes
  | 0xEF :: 0xBB :: 0xBF :: rest => rest
  | b => b

/-- The entries of the outermost table of a settings file. -/
def Form.parse? (f : Form) (text : String) : Option (List (String × Tree)) :=
  let tree := match f with
    | toml => Toml.parse? text
    | json => Json.parse? text
  match tree with
  | some (.table es) => some es
  | _ => none

/-- The entries of the settings file that a path stands for. -/
def fileEntries? (fs : Files) (path : String) : Option (List (String × Tree)) := do
  let (file, form) ← findFile? fs path
  let content ← (fs.read file).toOption
  form.parse? (Text.lossy (dropMark content))

/-! ## The environment -/

/-- What the names of variables that hold settings begin with, in lower case. -/
def variablePrefix : List Char := "rpcx__".toList

/-- Each `__` read as a dot. -/
def dotted : List Char → List Char
  | '_' :: '_' :: cs => '.' :: dotted cs
  | c :: cs => c :: dotted cs
  | [] => []

/-- The lower case of a character, as far as it is an ASCII letter.  Of the characters outside ASCII
only the Kelvin sign has such a lower case. -/
def lowerChar (c : Char) : Char := if c = '\u212a' then 'k' else c.toLower

/-- The place whose value a variable gives. -/
def placeOfVariable? (name : String) : Option Place :=
  let cs := name.toList.map lowerChar
  if variablePrefix.isPrefixOf cs then
    some (Place.ofText (String.ofList (dotted (cs.drop variablePrefix.length))))
  else none

/-! ## Loading -/

/-- Loads the settings of a file, with variables of the environment laid over them. -/
def ClientSettings.load (fs : Files) (environment : List (String × String)) (path : String) :
    Except LoadError ClientSettings :=
  match fileEntries? fs path with
  | none => .error (.unreadable path)
  | some es =>
    let fromFile := es.foldl (fun acc e => Tree.setAt (.ofText e.1) e.2 acc) []
    let all := environment.foldl (fun acc v =>
      match placeOfVariable? v.1 with
      | some p => Tree.setAt p (.text v.2) acc
      | none => acc) fromFile
    match ClientSettings.read? .loose (.table all) with
    | none => .error .unfit
    | some s => .ok s

end LedgerClient.Settings
