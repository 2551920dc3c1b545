import ExchangeArchive.Error
import ExchangeArchive.Storage.Path
/-
Files.

A disk has directories and files below its root. A path is followed from the root if it is
absolute, and from the working directory if it is not; the working directory and the ones that
it lies in are there. A file that is opened for writing is known by a handle from then on, so it
can be written even after its name is gone. The devices `/dev/full` and `/dev/null` can be
opened, but they have no length that could be cut to nothing. Besides the faults that follow
from names, any operation may be hit by an outage; the plan of outages says which.
-/

set_option autoImplicit false

namespace ExchangeArchive.Storage

/-- What a file that was opened for writing is known by. -/
inductive Handle where
  | file (number : Nat)
  | device
  deriving DecidableEq, Repr

/-- An operation fails without a cause in the names: a fault, and for a file that was being
written how many characters of it are there. None are lost if nothing was written. -/
structure Outage where
  fault : IoFault
  written : Option Nat
  deriving DecidableEq, Repr

/-- A disk. The name of a file or of a directory is the list of names that lead to it from the
root. -/
structure Disk where
  /-- The working directory. -/
  here : List String := ["work"]
  /-- The directories that were made. -/
  directories : List (List String) := []
  /-- The number of the file behind each name. -/
  files : List (List String × Nat) := []
  /-- The content of each file. -/
  contents : List (Nat × String) := []
  /-- How many files there have been. -/
  created : Nat := 0
  /-- How many operations there have been. -/
  operations : Nat := 0
  /-- Which operations are hit by an outage. -/
  outages : Nat → Option Outage := fun _ => none

namespace Disk

/-! ## Names -/

/-- The greatest length of one name in octets. -/
def nameLimit : Nat := 255

/-- The greatest length of a path in octets. -/
def pathLimit : Nat := 4095

/-- The devices. -/
def devices : List (List String) := [["dev", "full"], ["dev", "null"]]

/-- Whether a name is that of a directory: one that was made, the one of the devices, or one on
the way from the root to the working directory. -/
def isDirectory (d : Disk) (name : List String) : Bool :=
  name.isPrefixOf d.here || name == ["dev"] || d.directories.contains name

/-- The name one step from a directory, which two dots lead up; there is nothing above the
root. -/
def stepTo (directory : List String) (n : String) : List String :=
  if n == ".." then directory.dropLast else directory ++ [n]

/-- The directory from which a path is followed. -/
def startOf (d : Disk) (path : String) : List String := if Path.isAbsolute path then [] else d.here

/-- Follows names down from a directory; each must be a directory. -/
def follow (d : Disk) (directory : List String) : List String → Except SystemFault (List String)
  | [] => .ok directory
  | n :: rest =>
    if nameLimit < n.utf8ByteSize then .error .nameTooLong
    else
      let next := stepTo directory n
      if d.isDirectory next then d.follow next rest
      else if (d.files.lookup next).isSome || devices.contains next then .error .notDirectory
      else .error .notFound

/-- The name of the file that a path would create or open for writing. -/
def resolve (d : Disk) (path : String) : Except SystemFault (List String) :=
  if path.isEmpty then .error .notFound
  else if pathLimit < path.utf8ByteSize then .error .nameTooLong
  else
    let names := Path.names path
    match names.getLast? with
    | none => .error .isDirectory
    | some last => do
      let directory ← d.follow (d.startOf path) names.dropLast
      if Path.isDirectoryOnly path then throw .isDirectory
      if nameLimit < last.utf8ByteSize then throw .nameTooLong
      let name := directory ++ [last]
      if d.isDirectory name then throw .isDirectory
      return name

/-! ## Operations -/

/-- The content of a file. -/
def content (d : Disk) (number : Nat) : String := (d.contents.lookup number).getD ""

/-- The disk with another content of a file. -/
def setContent (d : Disk) (number : Nat) (text : String) : Disk :=
  { d with contents := (number, text) :: d.contents.filter fun c => c.1 != number }

/-- The outage that hits the next operation, and the disk after that operation. -/
def outage (d : Disk) : Option Outage × Disk :=
  (d.outages d.operations, { d with operations := d.operations + 1 })

/-- Opens a file for writing, empty: it is created unless it is there. -/
def create (d : Disk) (path : String) : Except IoFault Handle × Disk :=
  match d.outage with
  | (some o, d) => (.error o.fault, d)
  | (none, d) =>
    if path.toList.contains '\x00' then
      (.error (.other "file name contained an unexpected NUL byte"), d)
    else match d.resolve path with
      | .error f => (.error (.system f), d)
      | .ok name =>
        if devices.contains name then (.ok .device, d)
        else match d.files.lookup name with
          | some number => (.ok (.file number), d.setContent number "")
          | none =>
            let number := d.created
            (.ok (.file number),
              { d.setContent number "" with
                files := (name, number) :: d.files
                created := number + 1 })

/-- Replaces the content of an open file. A failure says how much of the text is there, if
anything was written; nothing is ever written to a device. -/
def replaceContent (d : Disk) (h : Handle) (text : String) : Except Outage Unit × Disk :=
  match d.outage, h with
  | (some o, d), .device => (.error { o with written := none }, d)
  | (some ⟨fault, none⟩, d), .file _ => (.error ⟨fault, none⟩, d)
  | (some ⟨fault, some n⟩, d), .file number =>
    (.error ⟨fault, some n⟩, d.setContent number (String.ofList (text.toList.take n)))
  | (none, d), .device => (.error ⟨.system .invalidArgument, none⟩, d)
  | (none, d), .file number => (.ok (), d.setContent number text)

/-- The disk with a directory and the directories that it lies in. -/
def makeDirectory (d : Disk) (path : String) : Disk :=
  let all := (Path.names path).scanl stepTo (d.startOf path)
  { d with directories := d.directories ++ all.filter fun n => !d.isDirectory n }

/-- Removes the name of a file, and says whether there was one. -/
def remove (d : Disk) (path : String) : Bool × Disk :=
  let name := (Path.names path).foldl stepTo (d.startOf path)
  if (d.files.lookup name).isSome then
    (true, { d with files := d.files.filter fun f => f.1 != name })
  else (false, d)

/-- The files below the working directory with their contents, by name. -/
def listing (d : Disk) : List (String × String) :=
  let inside := d.files.filter fun f => d.here.isPrefixOf f.1
  let named := inside.map fun (name, number) =>
    ("/".intercalate (name.drop d.here.length), d.content number)
  named.mergeSort fun a b => a.1 ≤ b.1

end Disk

end ExchangeArchive.Storage
