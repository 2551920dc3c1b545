import ExchangeArchive.Decimal.Numeral
import ExchangeArchive.Text.Hex
/-
JSON values and their compact text.

A value is an atom, a list or an object; an object keeps its members in the order in
which they were given. The compact text has no white space. A text is written with
the seven short escapes, the other control characters as `\u00xx`, and every other
character as it is. A number that is not finite has no JSON form and is written as
`null`.
-/

set_option autoImplicit false

namespace ExchangeArchive

/-- A value without parts. -/
inductive Atom where
  | null
  | bool (b : Bool)
  | int (i : Int)
  | real (x : Float)
  | text (s : String)

/-- A JSON value. -/
inductive Json where
  | atom (a : Atom)
  | list (items : List Json)
  | object (members : List (String × Json))

namespace Json

instance : Inhabited Json := ⟨.atom .null⟩

/-! ## Short forms -/

/-- The value `null`. -/
abbrev null : Json := .atom .null

/-- A truth value. -/
abbrev bool (b : Bool) : Json := .atom (.bool b)

/-- A whole number. -/
abbrev int (i : Int) : Json := .atom (.int i)

/-- A number with a fraction or an exponent. -/
abbrev real (x : Float) : Json := .atom (.real x)

/-- A text. -/
abbrev text (s : String) : Json := .atom (.text s)

/-! ## Texts -/

/-- A character inside a text. -/
def escaped (c : Char) : List Char :=
  match c with
  | '"' => ['\\', '"']
  | '\\' => ['\\', '\\']
  | '\x08' => ['\\', 'b']
  | '\x0c' => ['\\', 'f']
  | '\n' => ['\\', 'n']
  | '\r' => ['\\', 'r']
  | '\t' => ['\\', 't']
  | c =>
    if c.toNat < 0x20 then
      ['\\', 'u', '0', '0', Text.Hex.digit (c.toNat / 16), Text.Hex.digit (c.toNat % 16)]
    else [c]

/-- A text in quotation marks. -/
def renderText (s : String) : List Char := '"' :: s.toList.flatMap escaped ++ ['"']

/-! ## Numbers -/

/-- Numbers from `1e-5` up to `1e16` are positional and end in a digit after the point;
the exponent of any other carries its sign. -/
def numberStyle : Decimal.NumberStyle := ⟨fun e => -5 ≤ e && e < 16, true, true⟩

/-- An integer. -/
def renderInt (i : Int) : List Char :=
  if i < 0 then '-' :: i.natAbs.repr.toList else i.natAbs.repr.toList

/-- A double, `null` if it is not finite. -/
def renderReal (x : Float) : List Char :=
  match Decimal.parts? x with
  | some p => Decimal.finiteText numberStyle p
  | none => "null".toList

/-! ## Values -/

/-- An atom. -/
def renderAtom : Atom → List Char
  | .null => "null".toList
  | .bool true => "true".toList
  | .bool false => "false".toList
  | .int i => renderInt i
  | .real x => renderReal x
  | .text s => renderText s

mutual

/-- The compact text of a value. -/
def render : Json → List Char
  | .atom a => renderAtom a
  | .list items => '[' :: renderItems items ++ [']']
  | .object members => '{' :: renderMembers members ++ ['}']

/-- The items with commas between them. -/
def renderItems : List Json → List Char
  | [] => []
  | [v] => render v
  | v :: rest => render v ++ ',' :: renderItems rest

/-- The members with commas between them. -/
def renderMembers : List (String × Json) → List Char
  | [] => []
  | [(k, v)] => renderText k ++ ':' :: render v
  | (k, v) :: rest => renderText k ++ ':' :: render v ++ ',' :: renderMembers rest

end

/-- The compact text of a value as a string. -/
def toText (v : Json) : String := String.ofList v.render

/-! ## Objects -/

/-- The last value under a name, for duplicates give way to what comes after them. -/
def member? (name : String) : Json → Option Json
  | .object members => (members.reverse.find? fun m => m.1 == name).map Prod.snd
  | _ => none

end Json

end ExchangeArchive
