import LedgerClient.Bytes
import LedgerClient.Text.Parts

/-!
# Files

A directory tree as one process sees it: the regular files and directories, by the names that lead
to them from the root, and the working directory.  Every file can be read and written, and there
are no links.

A path that begins with a slash begins at the root, any other in the working directory.  It is
followed name by name: `.` and empty names stay where they are, and `..` goes up, which the root
leaves where it is.
-/

namespace LedgerClient.Storage

/-- Why a file operation fails. -/
inductive FileError where
  | notFound | notDirectory | isDirectory | nameTooLong | nulInName
  deriving DecidableEq, Repr

/-- The wording of an error of the system. -/
def FileError.message : FileError → String
  | notFound => "No such file or directory (os error 2)"
  | notDirectory => "Not a directory (os error 20)"
  | isDirectory => "Is a directory (os error 21)"
  | nameTooLong => "File name too long (os error 36)"
  | nulInName => "file name contained an unexpected NUL byte"

/-- What a name leads to. -/
inductive Entry where
  | directory
  | file (content : Bytes)
  deriving DecidableEq, Repr

/-- The tree, and where in it a process works. -/
structure Files where
  /-- The entries, each by the names that lead to it from the root. -/
  entries : List (List String × Entry) := []
  /-- The names that lead from the root to the working directory. -/
  workingDirectory : List String := []
  deriving DecidableEq, Repr

namespace Files

/-- The entry that `names` lead to.  A directory exists also where only something below it is
listed. -/
def entry? (fs : Files) (names : List String) : Option Entry :=
  if names.isEmpty then some .directory
  else match fs.entries.find? (·.1 == names) with
    | some e => some e.2
    | none => if fs.entries.any (fun e => names.isPrefixOf e.1) then some .directory else none

/-! ## Paths -/

/-- The names of a path, the empty ones kept. -/
def split (path : String) : List String := (Text.parts '/' path.toList).map String.ofList

/-- The longest path and the longest name that the system follows, in bytes. -/
def pathLimit : Nat := 4095

def nameLimit : Nat := 255

/-- Where a path begins. -/
def origin (fs : Files) (path : String) : List String :=
  if path.toList.head? = some '/' then [] else fs.workingDirectory

/-- Follows `names` from the directory `here`.  The result is where they lead, whether or not
something is there yet; all names but the last must lead to directories. -/
def follow (fs : Files) (here : List String) : List String → Except FileError (List String)
  | [] => .ok here
  | name :: rest =>
    match fs.entry? here with
    | none => .error .notFound
    | some (.file _) => .error .notDirectory
    | some .directory =>
      if name.utf8ByteSize > nameLimit then .error .nameTooLong
      else if name = "" || name = "." then fs.follow here rest
      else if name = ".." then fs.follow here.dropLast rest
      else fs.follow (here ++ [name]) rest

/-- Follows `names`, which are those of a path, from where the path begins. -/
def followFrom (fs : Files) (path : String) (names : List String) :
    Except FileError (List String) :=
  if path.toList.contains '\x00' then .error .nulInName
  else if path.utf8ByteSize > pathLimit then .error .nameTooLong
  else if path = "" then .error .notFound
  else fs.follow (fs.origin path) names

/-- The names that a path leads to. -/
def resolve (fs : Files) (path : String) : Except FileError (List String) :=
  fs.followFrom path (split path)

/-! ## Looking -/

/-- What a path leads to. -/
def lookup (fs : Files) (path : String) : Except FileError Entry :=
  match fs.resolve path with
  | .error e => .error e
  | .ok names =>
    match fs.entry? names with
    | none => .error .notFound
    | some e => .ok e

/-- Whether a path leads to a regular file. -/
def isFile (fs : Files) (path : String) : Bool :=
  match fs.lookup path with
  | .ok (.file _) => true
  | _ => false

/-- The content of the file at a path. -/
def read (fs : Files) (path : String) : Except FileError Bytes :=
  match fs.lookup path with
  | .error e => .error e
  | .ok .directory => .error .isDirectory
  | .ok (.file content) => .ok content

/-! ## Opening -/

/-- Puts an entry in place of any at the same names. -/
def put (fs : Files) (names : List String) (e : Entry) : Files :=
  { fs with entries := fs.entries.filter (·.1 != names) ++ [(names, e)] }

/-- A path says by a slash at its end that it leads to a directory. -/
def namesDirectory (path : String) : Bool := path.toList.getLast? = some '/'

/-- The names of a path without the empty ones at its end. -/
def withoutSlashes (names : List String) : List String := (names.reverse.dropWhile (· = "")).reverse

/-- Makes the file at a path empty, or makes an empty file there, and returns the names that lead
to it. -/
def create (fs : Files) (path : String) : Except FileError (List String × Files) :=
  match fs.followFrom path (withoutSlashes (split path)) with
  | .error e => .error e
  | .ok names =>
    if namesDirectory path || fs.entry? names = some .directory then .error .isDirectory
    else
      match fs.entry? names.dropLast with
      | some .directory => .ok (names, fs.put names (.file []))
      | some (.file _) => .error .notDirectory
      | none => .error .notFound

end Files
end LedgerClient.Storage
