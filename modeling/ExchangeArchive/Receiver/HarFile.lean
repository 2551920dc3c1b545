import ExchangeArchive.Archive.Codec
import ExchangeArchive.Receiver.Outcome
/-
A receiver that writes everything to one file.

Records are kept until the receiver is closed, and each flush replaces the content of the
file by the whole archive of them. A start that fails, or a flush or a close that fails,
changes nothing but the disk, so it can be tried again. While no file is open nothing is
accepted.
-/

set_option autoImplicit false

namespace ExchangeArchive.Receiver

open ExchangeArchive.Archive ExchangeArchive.Storage

/-- A file of an archive, and the records for it, oldest first. -/
structure HarFile where
  path : String
  file : Option Handle := none
  version : Version := {}
  pages : List Page := []
  entries : List Entry := []

namespace HarFile

/-- The archive that the file holds after a flush. -/
def archive (f : HarFile) : HttpArchive where
  log := {
    version := f.version.harVersion
    creator := f.version.agent
    pages := f.pages
    entries := f.entries }

/-- The document of that archive, made straight from the records: an archive of a receiver
has no browser and no comment. -/
def document (f : HarFile) : Json :=
  .object [("log", .object [
    ("version", .text f.version.harVersion),
    ("creator", Agent.codec.write f.version.agent),
    ("pages", .list (f.pages.map Page.codec.write)),
    ("entries", .list (f.entries.map Entry.codec.write))])]

/-- The content of the file after a flush. -/
def content (f : HarFile) : String := f.document.toText ++ "\n"

/-- Opens the file, empty. Records that were accepted before stay, and are in it after the next
flush. -/
def start (v : Version) (f : HarFile) (d : Disk) : Outcome HarFile :=
  match d.create f.path with
  | (.error fault, d) => .fail (.io fault) f d
  | (.ok handle, d) => .ok { f with file := some handle, version := v } d

/-- Accepts an entry. -/
def entry (e : Entry) (f : HarFile) (d : Disk) : Outcome HarFile :=
  match f.file with
  | none => .fail .closed f d
  | some _ => .ok { f with entries := f.entries ++ [e] } d

/-- Accepts a page, unless no file is open. -/
def page (p : Page) (f : HarFile) : HarFile :=
  match f.file with
  | none => f
  | some _ => { f with pages := f.pages ++ [p] }

/-- How a flush fails. While the document is being written it is the document that cannot be
written; before that, and once all of it is there, it is the file that fails. -/
def failure (f : HarFile) (o : Outage) : Error :=
  if o.written.any (· < f.document.toText.length) then .json o.fault.message else .io o.fault

/-- Writes the archive to the file, from its beginning: every flush writes all of it again, and
keeps the records for the next. -/
def flush (f : HarFile) (d : Disk) : Outcome HarFile :=
  match f.file with
  | none => .fail .closed f d
  | some handle =>
    match d.replaceContent handle f.content with
    | (.error o, d) => .fail (f.failure o) f d
    | (.ok (), d) => .ok f d

/-- Writes the archive to the file, and lets go of the file and the records. If it cannot be written
both are kept, so the close can be tried again. -/
def close (f : HarFile) (d : Disk) : Outcome HarFile :=
  match f.flush d with
  | ⟨.error e, f, d⟩ => .fail e f d
  | ⟨.ok (), f, d⟩ => .ok { f with file := none, pages := [], entries := [] } d

end HarFile

end ExchangeArchive.Receiver
