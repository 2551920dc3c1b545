import ExchangeArchive.Document.Node
import ExchangeArchive.Yaml.Scalar
/-
The values of YAML scalars.

A plain scalar without a tag is nothing, a truth value, an integer, a number with a
fraction, or else a text, tried in this order. Integers are decimal, hexadecimal, octal
or binary; they have up to 128 bits. Decimal digits after a leading zero are a text. A
tag says which kind of value a scalar is; a scalar in quotation marks is a text unless
it has a tag.
-/

set_option autoImplicit false

namespace ExchangeArchive.Yaml

open ExchangeArchive.Decimal ExchangeArchive.Document

/-! ## Numbers -/

/-- The value of digits in a base, of which there must be one at least. -/
def digitsValue? (base : Nat) (ds : List Char) : Option Nat :=
  if ds.isEmpty then none
  else ds.foldlM (fun n c => do
    let d ← Text.Hex.value? c
    if d < base then return n * base + d else none) 0

/-- The letters that name a base after a zero. -/
def baseOf? (c : Char) : Option Nat :=
  match c with
  | 'x' => some 16
  | 'o' => some 8
  | 'b' => some 2
  | _ => none

/-- The text without one sign at its front. -/
def dropSign : List Char → List Char
  | '+' :: rest => rest
  | '-' :: rest => rest
  | cs => cs

/-- Whether a text, sign apart, is a zero with more decimal digits after it. -/
def hasLeadingZero (cs : List Char) : Bool :=
  match dropSign cs with
  | '0' :: d :: rest => (d :: rest).all Char.isDigit
  | _ => false

/-- The magnitude of an integer: digits in a base that is named, or decimal digits. -/
def magnitude? (cs : List Char) : Option Nat :=
  let named := match cs with
    | '0' :: c :: ds => (baseOf? c).bind fun base => digitsValue? base ds
    | _ => none
  match named with
  | some n => some n
  | none => if hasLeadingZero cs then none else digitsValue? 10 cs

/-- The integer that a text stands for, if it has no more than 128 bits. -/
def integer? (cs : List Char) : Option Int :=
  match cs with
  | '-' :: rest =>
    (magnitude? rest).bind fun n => if n ≤ twoTo 127 then some (-(n : Int)) else none
  | _ =>
    let rest := match cs with
      | '+' :: rest => rest
      | _ => cs
    (magnitude? rest).bind fun n => if n < twoTo 128 then some (n : Int) else none

/-- The exponent after the digits of a number: none at all is zero. -/
def exponent? : List Char → Option Int
  | [] => some 0
  | e :: rest =>
    if e == 'e' || e == 'E' then
      match rest with
      | '-' :: ds => (digitsValue? 10 ds).map fun n => -(n : Int)
      | '+' :: ds => (digitsValue? 10 ds).map fun n => (n : Int)
      | ds => (digitsValue? 10 ds).map fun n => (n : Int)
    else none

/-- The numeral of digits, an optional point among them and an optional exponent. -/
def numeral? (cs : List Char) : Option Decimal.Numeral := do
  let whole := cs.takeWhile Char.isDigit
  let rest := cs.dropWhile Char.isDigit
  let (places, rest) := match rest with
    | '.' :: more => (more.takeWhile Char.isDigit, more.dropWhile Char.isDigit)
    | _ => ([], rest)
  let digits ← digitsValue? 10 (whole ++ places)
  let e ← exponent? rest
  return ⟨digits, e - places.length⟩

/-- The finite double that a text stands for. -/
def finite? (cs : List Char) : Option Float :=
  match cs with
  | '-' :: rest => (numeral? rest).bind (Decimal.Numeral.toDouble? true)
  | '+' :: rest => (numeral? rest).bind (Decimal.Numeral.toDouble? false)
  | _ => (numeral? cs).bind (Decimal.Numeral.toDouble? false)

/-- The spellings of infinity. -/
def infinities : List String := [".inf", ".Inf", ".INF"]

/-- The spellings of what is not a number. -/
def notNumbers : List String := [".nan", ".NaN", ".NAN"]

/-- The double that a text stands for. -/
def real? (s : String) : Option Float :=
  if infinities.any fun i => s == i || s == "+" ++ i then some (1 / 0)
  else if infinities.any fun i => s == "-" ++ i then some (-1 / 0)
  else if notNumbers.contains s then some (0 / 0)
  else finite? s.toList

/-! ## Scalars -/

/-- Whether a plain scalar says that there is nothing. -/
def isNull (s : String) : Bool := s == "~" || s == "null"

/-- The truth value that a text stands for. -/
def truth? (s : String) : Option Bool :=
  if s == "true" then some true else if s == "false" then some false else none

/-- The value of a plain scalar without a tag. -/
def plainValue (s : String) : Atom :=
  if isNull s then .null
  else match truth? s, integer? s.toList with
    | some b, _ => .bool b
    | none, some i => .int i
    | none, none =>
      if hasLeadingZero s.toList then .text s
      else match real? s with
        | some x => .real x
        | none => .text s

/-- A tag: a handle and a name. -/
structure Tag where
  handle : String
  name : String
  deriving DecidableEq, Repr

/-- The name of a tag of the core set. -/
def Tag.core? (t : Tag) : Option String := if t.handle == "!!" then some t.name else none

/-- The fault of a scalar whose tag claims too much. -/
def mismatch (s expected : String) : DataFault := .wrongValue (.atom (.text s)) expected

/-- A decimal integer of 64 bits. -/
def word? (s : String) : Option Int := do
  let n ← digitsValue? 10 (dropSign s.toList)
  let i := if s.startsWith "-" then -(n : Int) else (n : Int)
  if -(twoTo 63 : Int) ≤ i ∧ i < twoTo 63 then return i else none

/-- The value of a scalar with a tag. -/
def taggedValue (t : Tag) (s : String) : Except DataFault Atom :=
  let demand (a : Option Atom) (expected : String) : Except DataFault Atom :=
    a.elim (.error (mismatch s expected)) .ok
  match t.core? with
  | some "bool" => demand ((truth? s).map Atom.bool) "a boolean"
  | some "int" => demand ((word? s).map Atom.int) "an integer"
  | some "float" => demand ((real? s).map Atom.real) "a float"
  | some "null" => demand (if isNull s then some .null else none) "null"
  | _ => .ok (.text s)

/-- Whether a scalar counts as a value where one is optional. In quotation marks it does. -/
def presence (plain : Bool) (tag : Option Tag) (s : String) : Except DataFault Bool :=
  if !plain then .ok true
  else match tag.map Tag.core? with
    | some (some "null") => if isNull s then .ok false else .error (mismatch s "null")
    | some _ => .ok true
    | none => .ok (!isNull s)

/-- The document that a scalar is. -/
def scalarNode (plain : Bool) (tag : Option Tag) (s : String) : Node :=
  match plain, tag with
  | false, none => .atom (.text s)
  | true, none => .plain s (presence plain none s) (.atom (plainValue s))
  | plain, some t =>
    .plain s (presence plain (some t) s) <| match taggedValue t s with
      | .ok a => .atom a
      | .error d => .broken (.data d none) none

end ExchangeArchive.Yaml
