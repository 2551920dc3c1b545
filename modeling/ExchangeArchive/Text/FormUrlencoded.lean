import ExchangeArchive.Text.Blank
import ExchangeArchive.Text.Utf8
/-
The `application/x-www-form-urlencoded` format: pairs of texts in a query.

Pairs are separated by `&`, a name from its value by the first `=`; `+` is a space
and `%` introduces an octet in two hexadecimal digits. Reading never fails: an empty
segment is no pair, a malformed `%` stands for itself, and octets that are no UTF-8
become U+FFFD.
-/

set_option autoImplicit false

namespace ExchangeArchive.Text.FormUrlencoded

/-! ## Hexadecimal digits -/

/-- The value of a hexadecimal digit in either case. -/
def hexValue? (b : UInt8) : Option UInt8 :=
  if 0x30 ≤ b ∧ b ≤ 0x39 then some (b - 0x30)
  else if 0x41 ≤ b ∧ b ≤ 0x46 then some (b - 0x41 + 10)
  else if 0x61 ≤ b ∧ b ≤ 0x66 then some (b - 0x61 + 10)
  else none

/-- The upper-case hexadecimal digit for a value below sixteen. -/
def hexDigit (n : UInt8) : UInt8 := if n < 10 then 0x30 + n else 0x41 + (n - 10)

/-! ## Reading -/

/-- The octets that an escaped name or value stands for. -/
def unescape : List UInt8 → List UInt8
  | 0x25 :: h :: l :: rest =>
    match hexValue? h, hexValue? l with
    | some high, some low => (high * 16 + low) :: unescape rest
    | _, _ => 0x25 :: unescape (h :: l :: rest)
  | 0x2B :: rest => 0x20 :: unescape rest
  | b :: rest => b :: unescape rest
  | [] => []

/-- The text of an escaped name or value. -/
def text (bs : List UInt8) : String := String.ofList (Utf8.decodeLossy (unescape bs))

/-- The octets before and after the first `=`; all of them are the name if there is none. -/
def splitPair : List UInt8 → List UInt8 × List UInt8
  | [] => ([], [])
  | b :: rest =>
    if b == 0x3D then ([], rest)
    else let (name, value) := splitPair rest; (b :: name, value)

/-- The segments between the ampersands. -/
def segments : List UInt8 → List (List UInt8)
  | [] => [[]]
  | b :: rest =>
    if b == 0x26 then [] :: segments rest
    else match segments rest with
      | [] => [[b]]
      | segment :: more => (b :: segment) :: more

/-- The pair of a segment. -/
def pair (segment : List UInt8) : String × String :=
  let (name, value) := splitPair segment
  (text name, text value)

/-- The pairs of a query, in order. -/
def parse (query : List UInt8) : List (String × String) :=
  ((segments query).filter fun segment => !segment.isEmpty).map pair

/-! ## Writing -/

/-- Whether an octet stands for itself. -/
def isPlain (b : UInt8) : Bool :=
  (0x30 ≤ b && b ≤ 0x39) || (0x41 ≤ b && b ≤ 0x5A) || (0x61 ≤ b && b ≤ 0x7A) ||
    b == 0x2A || b == 0x2D || b == 0x2E || b == 0x5F

/-- An octet of a name or value. -/
def escapeOctet (b : UInt8) : List UInt8 :=
  if isPlain b then [b]
  else if b == 0x20 then [0x2B]
  else [0x25, hexDigit (b / 16), hexDigit (b % 16)]

/-- A name or value. -/
def escape (s : String) : List UInt8 := (Utf8.encode s.toList).flatMap escapeOctet

/-- A pair; its `=` is always written. -/
def renderPair (p : String × String) : List UInt8 := escape p.1 ++ 0x3D :: escape p.2

/-- The query that stands for a list of pairs. -/
def render : List (String × String) → List UInt8
  | [] => []
  | [p] => renderPair p
  | p :: rest => renderPair p ++ 0x26 :: render rest

end ExchangeArchive.Text.FormUrlencoded
