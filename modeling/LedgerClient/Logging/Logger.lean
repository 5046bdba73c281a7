import LedgerClient.Logging.Filter
import LedgerClient.Settings.Tree
import LedgerClient.Storage.Files

/-!
# The logger of a process

A process has one logger, which is installed once and stays.  Installing a logger that writes to a
file first makes the file empty, and only then looks whether there is a logger already.
-/

namespace LedgerClient.Logging

open Settings Storage

/-! ## Settings -/

/-- The form of a line of the log. -/
inductive Format where
  | json | plain
  deriving DecidableEq, Repr

/-- Where the log goes. -/
inductive Output where
  | stdout | file
  deriving DecidableEq, Repr

/-- The settings of a logger. -/
structure LogSettings where
  level : String := "info"
  format : Format := .plain
  output : Output := .stdout
  filePath : Option String := none
  deriving DecidableEq, Repr

def Format.name : Format → String
  | json => "json"
  | plain => "plain"

def Output.name : Output → String
  | stdout => "stdout"
  | file => "file"

/-- The name that a tree chooses: a text, or a table whose only key leads to nothing. -/
def choice? : Tree → Option String
  | .text s => some s
  | .table [(k, .null)] => some k
  | _ => none

def Format.read? (t : Tree) : Option Format :=
  match choice? t with
  | some "json" => some json
  | some "plain" => some plain
  | _ => none

def Output.read? (t : Tree) : Option Output :=
  match choice? t with
  | some "stdout" => some stdout
  | some "file" => some file
  | _ => none

/-- The settings as a tree, every field written. -/
def LogSettings.toTree (s : LogSettings) : Tree :=
  .table [("level", .text s.level), ("format", .text s.format.name),
    ("output", .text s.output.name), ("file-path", .ofOption s.filePath)]

/-- Reads settings.  A field that is missing has its default. -/
def LogSettings.read? (d : Dialect) (t : Tree) : Option LogSettings := do
  let base : LogSettings := {}
  match ← d.fields? ["level", "format", "output", "file-path"] t with
  | [level, format, output, filePath] =>
    some { level := ← Dialect.orDefault base.level d.text level
           format := ← Dialect.orDefault base.format Format.read? format
           output := ← Dialect.orDefault base.output Output.read? output
           filePath := ← Dialect.optional d.text filePath }
  | _ => none

/-! ## Installing -/

/-- Why no logger was installed. -/
inductive LoggerError where
  | missingFilePath
  | file (path : String) (cause : FileError)
  | alreadyInitialized
  deriving DecidableEq, Repr

/-- The wording of an error. -/
def LoggerError.message : LoggerError → String
  | missingFilePath => "log output is 'file' but 'file-path' is not specified"
  | file path cause => s!"failed to open log file {path}: {cause.message}"
  | alreadyInitialized => "a global tracing subscriber is already installed: " ++
      "a global default trace dispatcher has already been set"

/-- Where an installed logger writes. -/
inductive Sink where
  | stdout
  /-- The file that names lead to. -/
  | file (names : List String)
  deriving DecidableEq, Repr

/-- An installed logger. -/
structure Logger (Filter : Type) where
  filter : Filter
  format : Format
  sink : Sink
  deriving DecidableEq, Repr

/-- What logging knows of its process: the files and the logger. -/
structure Facility (Filter : Type) where
  files : Files := {}
  logger : Option (Logger Filter) := none
  deriving DecidableEq, Repr

namespace Facility

variable {Filter Event : Type}

/-- Makes a logger the process's own, if it has none. -/
def adopt (p : Facility Filter) (l : Logger Filter) : Except LoggerError Unit × Facility Filter :=
  match p.logger with
  | some _ => (.error .alreadyInitialized, p)
  | none => (.ok (), { p with logger := some l })

/-- Installs a logger. -/
def install (lib : FilterLibrary Filter Event) (p : Facility Filter) (s : LogSettings) :
    Except LoggerError Unit × Facility Filter :=
  let filter := lib.ofText s.level
  match s.output, s.filePath with
  | .stdout, _ => p.adopt ⟨filter, s.format, .stdout⟩
  | .file, none => (.error .missingFilePath, p)
  | .file, some path =>
    match p.files.create path with
    | .error e => (.error (.file path e), p)
    | .ok (names, files) => { p with files }.adopt ⟨filter, s.format, .file names⟩

/-- Installs a logger; that there is one already counts as success. -/
def ensureLogger (lib : FilterLibrary Filter Event) (p : Facility Filter) (s : LogSettings) :
    Except LoggerError Unit × Facility Filter :=
  match p.install lib s with
  | (.error .alreadyInitialized, p) => (.ok (), p)
  | r => r

/-- The events that arrive at a sink, of those that are sent. -/
def delivered (lib : FilterLibrary Filter Event) (p : Facility Filter) (sink : Sink)
    (sent : List Event) : List Event :=
  match p.logger with
  | none => []
  | some l => if l.sink = sink then sent.filter (lib.passes l.filter) else []

end Facility
end LedgerClient.Logging
