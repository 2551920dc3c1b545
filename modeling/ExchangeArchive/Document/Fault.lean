import ExchangeArchive.Json.Flaw
import ExchangeArchive.Json.Value
import ExchangeArchive.Text.Quoted
import ExchangeArchive.Time.Reader
/-
Why a document is not a record.

Either its text is flawed, or its data have the wrong shape. A fault of the data may
know its place in the document. JSON and YAML word two things differently: the value
that is nothing, and numbers with a fraction.
-/

set_option autoImplicit false

namespace ExchangeArchive.Document

open ExchangeArchive.Decimal ExchangeArchive.Text ExchangeArchive.Time

/-! ## What was found -/

/-- What stands in a document where something else should. -/
inductive Found where
  | atom (a : Atom)
  | list
  | object

/-- The language of a document, as far as wordings depend on it. -/
inductive Wording where
  | json
  | yaml
  deriving DecidableEq, Repr

/-- A double in a message: like a JSON number, or without any exponent in YAML. -/
def realText (w : Wording) (x : Float) : String :=
  match w, Decimal.parts? x with
  | .json, _ => String.ofList (Json.renderReal x)
  | .yaml, some p => String.ofList (Decimal.finiteText ⟨fun _ => true, true, true⟩ p)
  | .yaml, none => if x.isNaN then "NaN" else if x < 0 then "-inf" else "inf"

/-- An integer in a message; one beyond 64 bits names the width that holds it. -/
def intText (i : Int) : String :=
  let digits := String.ofList (Json.renderInt i)
  if (twoTo 64 : Int) ≤ i then s!"integer `{digits}` as u128"
  else if i < -(twoTo 63 : Int) then s!"integer `{digits}` as i128"
  else s!"integer `{digits}`"

/-- The wording of what was found. -/
def Found.message (w : Wording) : Found → String
  | .atom .null => match w with
    | .json => "null"
    | .yaml => "unit value"
  | .atom (.bool true) => "boolean `true`"
  | .atom (.bool false) => "boolean `false`"
  | .atom (.int i) => intText i
  | .atom (.real x) => s!"floating point `{realText w x}`"
  | .atom (.text s) => s!"string {quoted s}"
  | .list => "sequence"
  | .object => "map"

/-! ## Faults of the data -/

/-- Why data do not have the shape of a record. -/
inductive DataFault where
  /-- A value of another kind. -/
  | wrongType (found : Found) (expected : String)
  /-- A value of the right kind that is not allowed. -/
  | wrongValue (found : Found) (expected : String)
  /-- A list of the wrong length. -/
  | wrongLength (length : Nat) (expected : String)
  /-- A record without a member that it must have. -/
  | missing (field : String)
  /-- A record with a member twice. -/
  | duplicate (field : String)
  /-- A member that the record does not know. -/
  | unknownField (name : String) (known : List String)
  /-- A kind of record that there is not. -/
  | unknownVariant (name : String) (known : List String)
  /-- A text that is no point in time. -/
  | noTimestamp (fault : TimeFault)

/-- The names that would have been right. -/
def oneOf (names : List String) : String :=
  match names with
  | [a] => s!"`{a}`"
  | [a, b] => s!"`{a}` or `{b}`"
  | _ => "one of " ++ ", ".intercalate (names.map fun n => s!"`{n}`")

/-- The wording of a fault of the data. -/
def DataFault.message (w : Wording) : DataFault → String
  | .wrongType found expected => s!"invalid type: {found.message w}, expected {expected}"
  | .wrongValue found expected => s!"invalid value: {found.message w}, expected {expected}"
  | .wrongLength n expected => s!"invalid length {n}, expected {expected}"
  | .missing field => s!"missing field `{field}`"
  | .duplicate field => s!"duplicate field `{field}`"
  | .unknownField name known => s!"unknown field `{name}`, expected {oneOf known}"
  | .unknownVariant name known => s!"unknown variant `{name}`, expected {oneOf known}"
  | .noTimestamp fault => fault.message

/-! ## Places -/

/-- One step from a list or object into it. -/
inductive Step where
  | item (index : Nat)
  | member (name : String)
  /-- A member whose name is no text. -/
  | unnamed
  deriving DecidableEq, Repr

/-- The steps from the root, written one after the other; the root itself is a dot. -/
def placeText (place : List Step) : String :=
  place.foldl (fun parent step =>
    let stem := if parent == "." then "" else parent ++ "."
    match step with
    | .item i => s!"{parent}[{i}]"
    | .member name => stem ++ name
    | .unnamed => stem ++ "?") "."

/-! ## Faults of a document -/

/-- Why a document is not a record. -/
inductive Fault where
  /-- The text is flawed. -/
  | flaw (f : Json.Flaw)
  /-- The data have the wrong shape, at the given place if it is known. -/
  | data (d : DataFault) (place : Option (List Step))
  /-- A length of time exceeds the greatest one. -/
  | overflow

/-- The wording of a fault; the root needs no mention. -/
def Fault.message (w : Wording) : Fault → String
  | .flaw f => f.message
  | .data d place =>
    match place with
    | none | some [] => d.message w
    | some steps => s!"{placeText steps}: {d.message w}"
  | .overflow => "overflow"

/-- The fault as seen from outside the value in which it arose: its place is that value
unless it is known more exactly. -/
def Fault.settle : Fault → Fault
  | .data d none => .data d (some [])
  | f => f

/-- The fault as seen from one step further out. -/
def Fault.within (step : Step) : Fault → Fault
  | .data d (some place) => .data d (some (step :: place))
  | f => f

end ExchangeArchive.Document
