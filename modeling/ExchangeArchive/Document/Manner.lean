import ExchangeArchive.Document.Node
/-
What a reader may expect of a document, by where the document comes from.

JSON text, a JSON value and YAML text are read by the same rules but for four things:
how faults are worded, whether faults know their place, whether every YAML scalar is a
text to who asks for one, and how a list with items left over is refused. A document
may also be buffered: read as a whole first, because the kind of record it holds is
one of its members.
-/

set_option autoImplicit false

namespace ExchangeArchive.Document

open ExchangeArchive.Decimal

/-- Where a document comes from. -/
inductive Origin where
  | jsonText
  | jsonValue
  | yaml
  deriving DecidableEq, Repr

/-- How a document is read. -/
structure Manner where
  origin : Origin
  buffered : Bool
  deriving DecidableEq, Repr

namespace Manner

/-- JSON text, from its front to its end. -/
def jsonText : Manner := ⟨.jsonText, false⟩

/-- A JSON value. -/
def jsonValue : Manner := ⟨.jsonValue, false⟩

/-- A YAML document. -/
def yaml : Manner := ⟨.yaml, false⟩

/-- The same document, read as a whole before. -/
def buffer (m : Manner) : Manner := { m with buffered := true }

/-- The wording of faults. -/
def wording (m : Manner) : Wording :=
  match m.origin with
  | .yaml => .yaml
  | _ => .json

/-- Whether the reader works on a YAML document itself: then faults know their place,
and any scalar is a text. -/
def isOpenYaml (m : Manner) : Bool := m.origin == .yaml && !m.buffered

/-- How many lists and objects may be nested in one another. -/
def depthLimit (m : Manner) : Nat :=
  match m.origin with
  | .yaml => 128
  | _ => 127

/-- The outcome of reading a value, whose faults are placed at that value. -/
def settle {α : Type} (m : Manner) (r : Except Fault α) : Except Fault α :=
  if m.isOpenYaml then r.mapError Fault.settle else r

/-- The outcome of reading a part, as seen from the whole. -/
def within {α : Type} (m : Manner) (step : Step) (r : Except Fault α) : Except Fault α :=
  if m.isOpenYaml then r.mapError (Fault.within step) else r

/-- Refuses a list of `total` items of which only `taken` were wanted. -/
def refuseSurplus (m : Manner) (total taken : Nat) : Fault :=
  let elements := if taken = 1 then "1 element" else s!"{taken} elements"
  if m.buffered then .data (.wrongLength total (elements ++ " in sequence")) none
  else match m.origin with
    | .jsonText => .flaw .trailing
    | .jsonValue => .data (.wrongLength total "fewer elements in array") none
    | .yaml => .data (.wrongLength total ("sequence of " ++ elements)) none

end Manner

/-! ## Parts of a document -/

namespace Node

/-- What a value is in the wording of faults. -/
def found : Node → Found
  | .atom a => .atom a
  | .plain _ _ v => found v
  | .list _ _ => .list
  | .object _ _ => .object
  | .broken _ _ => .atom .null

/-- The fault of a value that is not what was expected; a value that cannot be read at
all has its own. -/
def refuse (expected : String) : Node → Fault
  | .plain _ _ v => refuse expected v
  | .broken fault _ => fault
  | v => .data (.wrongType v.found expected) none

/-- The step to the member with this name. -/
def stepTo : Node → Step
  | .atom (.text s) => .member s
  | .plain written _ _ => .member written
  | _ => .unnamed

/-! ## Reading a document as a whole -/

/-- Whether an integer has 64 bits. -/
def fitsWord (i : Int) : Bool := -(twoTo 63 : Int) ≤ i && i < twoTo 64

mutual

/-- The document with every text resolved and every flaw raised. No more than `room`
lists and objects may be nested. -/
def buffer (m : Manner) (room : Nat) : Node → Except Fault Node
  | .atom (.int i) =>
    if fitsWord i then .ok (.atom (.int i))
    else .error (.data (.wrongType (.atom (.int i)) "any value") none)
  | .atom a => .ok (.atom a)
  | .plain _ _ v => m.settle (buffer m room v)
  | .list items ending => m.settle do
    match room with
    | 0 => throw (.flaw .tooDeep)
    | room + 1 =>
      let items ← bufferItems m room 0 items
      raise ending.listFlaw?
      return .list items .closed
  | .object members ending => m.settle do
    match room with
    | 0 => throw (.flaw .tooDeep)
    | room + 1 =>
      let members ← bufferMembers m room members
      raise ending.objectFlaw?
      return .object members .closed
  | .broken fault _ => m.settle (.error fault)

/-- The items of a list, the first having the given index. -/
def bufferItems (m : Manner) (room index : Nat) : List Node → Except Fault (List Node)
  | [] => .ok []
  | v :: rest => do
    let v ← m.within (.item index) (buffer m room v)
    let rest ← bufferItems m room (index + 1) rest
    return v :: rest

/-- The members of an object. -/
def bufferMembers (m : Manner) (room : Nat) :
    List (Node × Node) → Except Fault (List (Node × Node))
  | [] => .ok []
  | (k, v) :: rest => do
    let key ← buffer m room k
    let v ← m.within k.stepTo (buffer m room v)
    let rest ← bufferMembers m room rest
    return (key, v) :: rest

end

mutual

/-- The JSON value that a buffered document is, if it is one. -/
def toJson? : Node → Option Json
  | .atom a => some (.atom a)
  | .list items .closed => (itemsToJson? items).map Json.list
  | .object members .closed => (membersToJson? members).map Json.object
  | _ => none

/-- The JSON values that the items of a list are. -/
def itemsToJson? : List Node → Option (List Json)
  | [] => some []
  | v :: rest => do return (← toJson? v) :: (← itemsToJson? rest)

/-- The members that the members of an object are. -/
def membersToJson? : List (Node × Node) → Option (List (String × Json))
  | [] => some []
  | (.atom (.text k), v) :: rest => do return (k, ← toJson? v) :: (← membersToJson? rest)
  | _ :: _ => none

end

end Node

end ExchangeArchive.Document
