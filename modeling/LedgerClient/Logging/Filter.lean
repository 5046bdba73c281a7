/-!
# Filters of log events

A filter lets some events of a process pass.  Filters are written as texts and read by a library;
which events there are, and which of them pass, is the library's affair.
-/

namespace LedgerClient.Logging

/-- The levels of events, the gravest first. -/
inductive Level where
  | error | warn | info | debug | trace
  deriving DecidableEq, Repr

namespace Level

/-- The place of a level, counted from one. -/
def rank : Level → Nat
  | error => 1
  | warn => 2
  | info => 3
  | debug => 4
  | trace => 5

def name : Level → String
  | error => "error"
  | warn => "warn"
  | info => "info"
  | debug => "debug"
  | trace => "trace"

end Level

/-- What a library of filters offers.  An event is told together with all that a filter may ask
about it: its target, its level and its fields, and the spans around it. -/
structure FilterLibrary (Filter Event : Type) where
  /-- Reads a filter, if the whole text is one. -/
  read? : String → Option Filter
  /-- Reads a filter, without the parts that cannot be read. -/
  readParts : String → Filter
  passes : Filter → Event → Bool

/-- The filter of a text, or the one that lets events up to `info` pass. -/
def FilterLibrary.ofText {Filter Event : Type} (lib : FilterLibrary Filter Event) (s : String) :
    Filter := (lib.read? s).getD (lib.readParts Level.info.name)

end LedgerClient.Logging
