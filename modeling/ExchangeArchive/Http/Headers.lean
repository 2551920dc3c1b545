import ExchangeArchive.Decimal.Power
import ExchangeArchive.Text.Ascii
/-
Header fields.

A header map keeps its fields in the order of the first appearance of each name, all
values of a name together and in the order in which they came. Names are lower-case;
values are octets, and only those of visible ASCII are texts.
-/

set_option autoImplicit false

namespace ExchangeArchive.Http

open ExchangeArchive.Decimal ExchangeArchive.Text

/-- Header fields in their order. -/
structure Headers where
  fields : List (String × List UInt8)
  deriving DecidableEq, Repr

namespace Headers

/-- No fields. -/
def empty : Headers := ⟨[]⟩

instance : Inhabited Headers := ⟨empty⟩

/-- The fields with one more, which goes after the last of its name, or to the end if it
is the first. -/
def place (name : String) (value : List UInt8) :
    List (String × List UInt8) → List (String × List UInt8)
  | [] => [(name, value)]
  | (n, v) :: rest =>
    if n == name && !rest.any (fun f => f.1 == name) then (n, v) :: (name, value) :: rest
    else (n, v) :: place name value rest

/-- The header map with one more field. -/
def append (h : Headers) (name : String) (value : List UInt8) : Headers :=
  ⟨place name value h.fields⟩

/-- The values of a name, in order. -/
def values (h : Headers) (name : String) : List (List UInt8) :=
  (h.fields.filter fun f => f.1 == name).map Prod.snd

/-- The first value of a name. -/
def get? (h : Headers) (name : String) : Option (List UInt8) := (h.values name).head?

/-- Whether there is a field with this name. -/
def contains (h : Headers) (name : String) : Bool := h.fields.any fun f => f.1 == name

/-! ## Names and values -/

/-- The punctuation of a token. -/
def isTokenMark (c : Char) : Bool := "!#$%&'*+-.^_`|~".toList.contains c

/-- Whether an octet may stand in a token, which methods and header names are. -/
def isTokenOctet (b : UInt8) : Bool := isAlphanumeric b || isTokenMark (charOf b)

/-- Whether octets are a token. -/
def isToken (bs : List UInt8) : Bool := !bs.isEmpty && bs.all isTokenOctet

/-- The header name that octets stand for. -/
def name? (bs : List UInt8) : Option String :=
  if isToken bs && bs.length < twoTo 16 then some (ofAscii (bs.map lowerOctet)) else none

/-- Whether octets may be the value of a header. -/
def isValue (bs : List UInt8) : Bool := bs.all fun b => (0x20 ≤ b && b != 0x7F) || b == 0x09

/-- The text of a value that is visible ASCII. -/
def text? (bs : List UInt8) : Option String :=
  if bs.all fun b => (0x20 ≤ b && b < 0x7F) || b == 0x09 then some (ofAscii bs) else none

/-- How many octets the fields take in a message, with the blank line after them. -/
def blockSize (h : Headers) : Nat :=
  h.fields.foldl (fun n f => n + (f.1.utf8ByteSize + f.2.length + 4)) 2

end Headers

end ExchangeArchive.Http
