import ExchangeArchive.Config.Redactions
import ExchangeArchive.Recorder.Recorder
/-
The declarative description of a recorder.
-/

set_option autoImplicit false

namespace ExchangeArchive.Config

open ExchangeArchive.Pipeline ExchangeArchive.Receiver

/-- A rotated sequence of files. -/
structure Rotation where
  directory : String := ""
  /-- How the names of files begin. -/
  beginning : String := defaultBeginning
  /-- The greatest size of a file; zero stands for no limit. -/
  maxBytes : Nat := defaultMaxBytes
  /-- The greatest age of a file in nanoseconds, if there is a limit. -/
  maxDuration : Option Nat := none
  deriving DecidableEq, Repr

/-- Where records go. -/
inductive Output where
  | file (path : String)
  | checkpoint (r : Rotation)
  deriving DecidableEq, Repr

/-- The receiver of an output. It has opened nothing yet; the age of a first file counts from when
that is opened, not from now. -/
def Output.receiver (now : Nat) : Output → Receiver
  | .file path => .file { path := path }
  | .checkpoint r => .checkpoint {
      names := .timestamps r.directory r.beginning 0
      maxBytes := r.maxBytes
      maxDuration := r.maxDuration.getD 0
      lastRoll := now }

end ExchangeArchive.Config

namespace ExchangeArchive

open ExchangeArchive.Config ExchangeArchive.Pipeline

/-- The description of a recorder. What is left out of a document has the value given here, except
for the output, which has to be there. -/
structure Config where
  creator : Option String := none
  version : Option String := none
  harVersion : Option String := none
  includeAll : Bool := true
  redactHeaders : Redactions := .empty
  output : Output
  deriving DecidableEq

namespace Config

/-- The middleware that hides the values of headers, the first name outermost. -/
def redactMiddleware (r : Redactions) : List (EntryMiddleware Session) :=
  r.pairs.map fun (name, value) => (redactHeader name value).toEntryMiddleware

/-- What a recorder of this description is built from, the time being `now`. -/
def toBuilder (c : Config) (now : Nat) : Recorder.Builder where
  version := {
    harVersion := c.harVersion.getD (default : Archive.Version).harVersion
    creator := c.creator.getD (default : Archive.Version).creator
    version := c.version.getD (default : Archive.Version).version }
  receiver := some (c.output.receiver now)
  entryMiddleware := redactMiddleware c.redactHeaders
  includeAll := c.includeAll

end Config

end ExchangeArchive
