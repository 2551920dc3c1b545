import ExchangeArchive.Document.Fault
/-
Documents as trees, flawed ones included.

A text that breaks off or goes wrong somewhere is still a tree up to there. The tree
keeps the flaw at the place where it stands, so that a reader that works through the
tree in the order of the text meets a fault of the data or a flaw of the text,
whichever comes first. A value that is not wanted is skipped: that forgives some flaws,
such as a number that is too large, and words others differently.
-/

set_option autoImplicit false

namespace ExchangeArchive.Document

/-- How a list or an object ends in the text. -/
inductive Ending where
  /-- Properly. -/
  | closed
  /-- The text ends where a comma or the end should be. -/
  | cut
  /-- Something else stands where a comma or the end should be. -/
  | noComma
  /-- A comma stands before the end. -/
  | trailingComma
  /-- The text ends after a comma. -/
  | cutAfterComma
  /-- The name of a member is no text. -/
  | badKey
  deriving DecidableEq, Repr

namespace Ending

/-- The flaw that a reader of a list meets at its end. -/
def listFlaw? : Ending → Option Json.Flaw
  | .closed => none
  | .cut => some .endInList
  | .noComma => some .noListEnd
  | .trailingComma => some .trailingComma
  | .cutAfterComma => some .endInValue
  | .badKey => none

/-- The flaw met by a reader that has all it wants before the end of a list. -/
def surplusFlaw? : Ending → Option Json.Flaw
  | .closed => none
  | .cut => some .endInList
  | .trailingComma => some .trailingComma
  | _ => some .trailing

/-- The flaw met at the end of a list that is skipped. -/
def skippedListFlaw? : Ending → Option Json.Flaw
  | .trailingComma => some .noValue
  | e => e.listFlaw?

/-- The flaw that a reader of an object meets at its end. -/
def objectFlaw? : Ending → Option Json.Flaw
  | .closed => none
  | .cut => some .endInObject
  | .noComma => some .noObjectEnd
  | .trailingComma => some .trailingComma
  | .cutAfterComma => some .endInValue
  | .badKey => some .keyNotText

/-- The flaw met at the end of an object that is skipped. -/
def skippedObjectFlaw? : Ending → Option Json.Flaw
  | .trailingComma => some .keyNotText
  | .cutAfterComma => some .endInObject
  | e => e.objectFlaw?

end Ending

/-- A document, or a part of one. -/
inductive Node where
  | atom (a : Atom)
  /-- A text without quotation marks: as written, whether it counts as a value where one
  is optional, and the value that it stands for. -/
  | plain (written : String) (present : Except DataFault Bool) (value : Node)
  | list (items : List Node) (ending : Ending)
  | object (members : List (Node × Node)) (ending : Ending)
  /-- A value that cannot be read; also the flaw that shows when it is skipped, if any. -/
  | broken (fault : Fault) (skipped : Option Json.Flaw)

namespace Node

/-- Raises a flaw, if there is one. -/
def raise : Option Json.Flaw → Except Fault Unit
  | none => .ok ()
  | some f => .error (.flaw f)

mutual

/-- Passes over a value. -/
def skip : Node → Except Fault Unit
  | .atom _ => .ok ()
  | .plain _ _ _ => .ok ()
  | .list items ending => do skipItems items; raise ending.skippedListFlaw?
  | .object members ending => do skipMembers members; raise ending.skippedObjectFlaw?
  | .broken _ skipped => raise skipped

/-- Passes over the items of a list. -/
def skipItems : List Node → Except Fault Unit
  | [] => .ok ()
  | v :: rest => do skip v; skipItems rest

/-- Passes over the members of an object. -/
def skipMembers : List (Node × Node) → Except Fault Unit
  | [] => .ok ()
  | (k, v) :: rest => do skip k; skip v; skipMembers rest

end

mutual

/-- The document that stands for a JSON value. -/
def ofJson : Json → Node
  | .atom a => .atom a
  | .list items => .list (ofItems items) .closed
  | .object members => .object (ofMembers members) .closed

/-- The items that stand for JSON values. -/
def ofItems : List Json → List Node
  | [] => []
  | v :: rest => ofJson v :: ofItems rest

/-- The members that stand for members of a JSON object. -/
def ofMembers : List (String × Json) → List (Node × Node)
  | [] => []
  | (k, v) :: rest => (.atom (.text k), ofJson v) :: ofMembers rest

end

end Node

end ExchangeArchive.Document
