import ExchangeArchive.Text.Blank
/-
Paths of files.

A path is a text with slashes. Joining puts a slash between unless there is one; an
absolute path replaces what it is joined to.
-/

set_option autoImplicit false

namespace ExchangeArchive.Storage

open ExchangeArchive.Text

namespace Path

/-- Whether a path starts at the root. -/
def isAbsolute (path : String) : Bool := path.toList.head? == some '/'

/-- A path inside a directory. -/
def join (directory path : String) : String :=
  if isAbsolute path || directory.isEmpty then path
  else if directory.toList.getLast? == some '/' then directory ++ path
  else directory ++ "/" ++ path

/-- The names between the slashes of a path, without empty ones and dots. -/
def names (path : String) : List String :=
  ((parts '/' path.toList).map String.ofList).filter fun n => n != "" && n != "."

/-- Whether a path can only be a directory: it ends in a slash or in dots. -/
def isDirectoryOnly (path : String) : Bool :=
  match (parts '/' path.toList).getLast? with
  | some last => last == [] || last == ['.'] || last == ['.', '.']
  | none => true

end Path

end ExchangeArchive.Storage
