import ExchangeArchive.Receiver.FileNames
import ExchangeArchive.Receiver.HarFile
/-
A receiver that writes a sequence of files.

The receiver goes on to the next file once the records in the present one exceed a size,
or once the file exceeds an age; a limit of zero does not apply. The record whose
arrival opens a file is not counted towards its size. There is no file before the first
record or flush.
-/

set_option autoImplicit false

namespace ExchangeArchive.Receiver

open ExchangeArchive.Archive ExchangeArchive.Storage ExchangeArchive.Time

/-- The default limit on the size of a file: ten mebibytes. -/
def defaultMaxBytes : Nat := 10 * 1024 * 1024

/-- The default beginning of the names of files. -/
def defaultBeginning : String := "har-recorder-"

/-- A sequence of files; the present one is `writer`. -/
structure Checkpoint where
  names : FileNames := .timestamps "." defaultBeginning 0
  maxBytes : Nat := defaultMaxBytes
  /-- In nanoseconds. -/
  maxDuration : Nat := 0
  version : Option Version := none
  /-- The size of the records counted towards the present file. -/
  counted : Nat := 0
  /-- When the present file was opened. -/
  lastRoll : Nat := 0
  writer : Option HarFile := none
  closed : Bool := false

namespace Checkpoint

/-- Opens the next file. The numbers start over before it is known whether there is a name and
whether the file can be opened. -/
def openNext (c : Clock) (r : Checkpoint) (d : Disk) : Outcome Checkpoint :=
  let (name, names) := r.names.next c
  let r := { r with names := names, lastRoll := c.elapsed, counted := 0 }
  match name with
  | .error e => .fail e r d
  | .ok path =>
    match HarFile.start (r.version.getD {}) { path := path } d with
    | ⟨.error e, _, d⟩ => .fail (.rotate e) r d
    | ⟨.ok (), w, d⟩ => .ok { r with writer := some w } d

/-- Closes the present file, if there is one, and opens the next. A file that cannot be closed is
given up together with its records, and the next is left for another time. -/
def rotate (c : Clock) (r : Checkpoint) (d : Disk) : Outcome Checkpoint :=
  match r.writer with
  | none => openNext c r d
  | some w =>
    match w.close d with
    | ⟨.error e, _, d⟩ => .fail (.rotate e) { r with writer := none } d
    | ⟨.ok (), _, d⟩ => openNext c { r with writer := none } d

/-- Whether the present file exceeds its age, which counts from when it was opened. -/
def isTooOld (c : Clock) (r : Checkpoint) : Bool :=
  r.maxDuration != 0 && r.maxDuration < c.elapsed - r.lastRoll

/-- Makes sure that there is a file to take a record of the given size, or to flush. The record is
counted before it is seen whether it is too much; if it is, the count starts over with the file that
the record goes to, and the record is counted for neither. -/
def prepare (c : Clock) (size : Option Nat) (r : Checkpoint) (d : Disk) : Outcome Checkpoint :=
  if r.closed then .fail .closed r d
  else if r.writer.isNone then rotate c r d
  else
    let counted := match size with
      | some n => if r.maxBytes = 0 then r.counted else r.counted + n
      | none => r.counted
    let r := { r with counted := counted }
    if size.isSome && r.maxBytes != 0 && r.maxBytes < counted then rotate c r d
    else if r.isTooOld c then rotate c r d
    else .ok r d

/-- Lets the present file do an operation, and keeps the file as it is after that, whether or not it
went well. -/
def withWriter (act : HarFile → Disk → Outcome HarFile) (r : Checkpoint) (d : Disk) :
    Outcome Checkpoint :=
  match r.writer with
  | none => .fail .closed r d
  | some w => (act w d).map fun w => { r with writer := some w }

/-- Prepares to receive records. A file that is open is started over with the version. -/
def start (v : Version) (r : Checkpoint) (d : Disk) : Outcome Checkpoint :=
  if r.closed then .fail .closed r d
  else
    let r := { r with version := some v }
    match r.writer with
    | none => .ok r d
    | some w => (w.start v d).map fun w => { r with writer := some w }

/-- The size of an entry in a file. -/
def entrySize (e : Entry) : Nat := (Entry.codec.toJsonText e).utf8ByteSize

/-- The size of a page in a file. -/
def pageSize (p : Page) : Nat := (Page.codec.toJsonText p).utf8ByteSize

/-- Accepts an entry. -/
def entry (c : Clock) (e : Entry) (r : Checkpoint) (d : Disk) : Outcome Checkpoint :=
  match r.prepare c (some (entrySize e)) d with
  | ⟨.error failure, r, d⟩ => .fail failure r d
  | ⟨.ok (), r, d⟩ => r.withWriter (HarFile.entry e) d

/-- Accepts a page; a page for which there is no file is lost. -/
def page (c : Clock) (p : Page) (r : Checkpoint) (d : Disk) : Outcome Checkpoint :=
  match r.prepare c (some (pageSize p)) d with
  | ⟨.error _, r, d⟩ => .ok r d
  | ⟨.ok (), r, d⟩ => .ok { r with writer := r.writer.map (HarFile.page p) } d

/-- Writes the present file. -/
def flush (c : Clock) (r : Checkpoint) (d : Disk) : Outcome Checkpoint :=
  match r.prepare c none d with
  | ⟨.error failure, r, d⟩ => .fail failure r d
  | ⟨.ok (), r, d⟩ => r.withWriter HarFile.flush d

/-- Writes the present file and lets go of it, for good. The receiver is closed even if the file
cannot be written, and the records are lost then. -/
def close (r : Checkpoint) (d : Disk) : Outcome Checkpoint :=
  if r.closed then .ok r d
  else match r.writer with
    | none => .ok { r with closed := true } d
    | some w => (w.close d).map fun _ => { r with closed := true, writer := none }

end Checkpoint

end ExchangeArchive.Receiver
