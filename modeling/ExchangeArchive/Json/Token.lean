import ExchangeArchive.Decimal.Numeral
import ExchangeArchive.Json.Flaw
import ExchangeArchive.Json.Value
import ExchangeArchive.Text.Ascii
import ExchangeArchive.Text.Utf8
/-
JSON text as a list of tokens.

A token that is misspelt is still a token: it carries the flaw that a reader meets in
it, and the flaw that shows when the value is passed over without being read. The
second is missing where passing over forgives the first, which it does for numbers that
are too large, for unpaired surrogates and for octets that are no UTF-8.
-/

set_option autoImplicit false

namespace ExchangeArchive.Json

open ExchangeArchive.Decimal ExchangeArchive.Text

/-- A token of JSON text. -/
inductive Token where
  | openList
  | closeList
  | openObject
  | closeObject
  | comma
  | colon
  | atom (a : Atom)
  /-- A misspelt value; `isText` if it starts with a quotation mark. -/
  | broken (read : Flaw) (skipped : Option Flaw) (isText : Bool)

namespace Token

/-! ## Texts -/

/-- A piece of a text in quotation marks: an octet, or an escaped UTF-16 unit. -/
inductive Piece where
  | octet (b : UInt8)
  | unit (u : Nat)

/-- How a text in quotation marks ends. -/
inductive TextEnd where
  | closed
  | broken (f : Flaw)

/-- The unit that four hexadecimal digits stand for. -/
def unit? (a b c d : UInt8) : Option Nat := do
  let a ← Text.Hex.value? (Text.charOf a)
  let b ← Text.Hex.value? (Text.charOf b)
  let c ← Text.Hex.value? (Text.charOf c)
  let d ← Text.Hex.value? (Text.charOf d)
  return ((a * 16 + b) * 16 + c) * 16 + d

/-- The octet that a backslash and a letter stand for. -/
def shortEscape? (b : UInt8) : Option UInt8 :=
  match Char.ofNat b.toNat with
  | '"' => some 0x22
  | '\\' => some 0x5C
  | '/' => some 0x2F
  | 'b' => some 0x08
  | 'f' => some 0x0C
  | 'n' => some 0x0A
  | 'r' => some 0x0D
  | 't' => some 0x09
  | _ => none

/-- The pieces of a text after its quotation mark, last one first, and what follows. -/
def scanText (acc : List Piece) : List UInt8 → List Piece × TextEnd × List UInt8
  | [] => (acc, .broken .endInText, [])
  | b :: rest =>
    if b = 0x22 then (acc, .closed, rest)
    else if b = 0x5C then
      match rest with
      | [] => (acc, .broken .endInText, [])
      | e :: rest =>
        if e = 0x75 then
          match rest with
          | h1 :: h2 :: h3 :: h4 :: rest =>
            match unit? h1 h2 h3 h4 with
            | some u => scanText (.unit u :: acc) rest
            | none => (acc, .broken .badEscape, [])
          | _ => (acc, .broken .endInText, [])
        else match shortEscape? e with
          | some b => scanText (.octet b :: acc) rest
          | none => (acc, .broken .badEscape, [])
    else if b < 0x20 then (acc, .broken .control, [])
    else scanText (.octet b :: acc) rest

/-- Whether a UTF-16 unit is the first of a pair. -/
def isHigh (u : Nat) : Bool := 0xD800 ≤ u && u ≤ 0xDBFF

/-- Whether a UTF-16 unit is the second of a pair. -/
def isLow (u : Nat) : Bool := 0xDC00 ≤ u && u ≤ 0xDFFF

/-- The character that a pair of units stands for. -/
def ofPair (high low : Nat) : Char :=
  Char.ofNat (0x10000 + (high - 0xD800) * 0x400 + (low - 0xDC00))

/-- The octets of the pieces, last one first; every unit must have its partner. Where an
unpaired unit stands last, the end of the text says what is wrong. -/
def octets (ending : TextEnd) (acc : List UInt8) : List Piece → Except Flaw (List UInt8)
  | [] => match ending with
    | .closed => .ok acc
    | .broken f => .error f
  | .octet b :: rest => octets ending (b :: acc) rest
  | .unit u :: rest =>
    if isLow u then .error .loneSurrogate
    else if isHigh u then
      match rest with
      | .unit v :: rest =>
        if isLow v then octets ending ((Utf8.encode [ofPair u v]).reverse ++ acc) rest
        else .error .loneSurrogate
      | .octet _ :: _ => .error .halfPair
      | [] => match ending with
        | .broken .endInText => .error .endInText
        | .broken .badEscape => .error .badEscape
        | _ => .error .halfPair
    else octets ending ((Utf8.encode [Char.ofNat u]).reverse ++ acc) rest

/-- The token of a text. -/
def ofText (pieces : List Piece) (ending : TextEnd) : Token :=
  let skipped := match ending with
    | .closed => none
    | .broken f => some f
  match octets ending [] pieces with
  | .error f => .broken f skipped true
  | .ok reversed =>
    match Utf8.decode? reversed.reverse with
    | some cs => .atom (.text (String.ofList cs))
    | none => .broken .notUtf8 skipped true

/-! ## Numbers -/

/-- Whether an octet is a decimal digit. -/
def isDigit (b : UInt8) : Bool := 0x30 ≤ b && b ≤ 0x39

/-- The number that decimal digits stand for. -/
def number (ds : List UInt8) : Nat := ds.foldl (fun n b => n * 10 + (b.toNat - 0x30)) 0

/-- A misspelt number. Where the text ends, a reader still waits for a value. -/
def badNumber (rest : List UInt8) : Token :=
  .broken (if rest.isEmpty then .endInValue else .badNumber) (some .badNumber) false

/-- An integer, as a double if it has no 64 bits or is a negative zero. -/
def ofInteger (negative : Bool) (n : Nat) : Token :=
  if negative then
    if n = 0 ∨ twoTo 63 < n then ofReal negative ⟨n, 0⟩ else .atom (.int (-n))
  else if n < twoTo 64 then .atom (.int n)
  else ofReal negative ⟨n, 0⟩
where
  /-- A numeral as the nearest double. -/
  ofReal (negative : Bool) (n : Decimal.Numeral) : Token :=
    match n.toDouble? negative with
    | some x => .atom (.real x)
    | none => .broken .tooLarge none false

/-- The exponent after its letter, and what follows it; none if it has no digits. -/
def scanExponent (bs : List UInt8) : Option Int × List UInt8 :=
  let (negative, bs) := match bs with
    | 0x2D :: rest => (true, rest)
    | 0x2B :: rest => (false, rest)
    | _ => (false, bs)
  match bs.takeWhile isDigit with
  | [] => (none, bs)
  | ds =>
    let n : Int := number ds
    (some (if negative then -n else n), bs.dropWhile isDigit)

/-- A number from after its integer part `whole`, and what follows it. -/
def scanFraction (negative : Bool) (whole : List UInt8) (bs : List UInt8) :
    Token × List UInt8 :=
  let (places, rest, sound) := match bs with
    | 0x2E :: rest =>
      let ds := rest.takeWhile isDigit
      (ds, rest.dropWhile isDigit, !ds.isEmpty)
    | _ => ([], bs, true)
  if !sound then (badNumber rest, [])
  else match rest with
    | 0x65 :: rest | 0x45 :: rest =>
      match scanExponent rest with
      | (some e, rest) =>
        (ofInteger.ofReal negative ⟨number (whole ++ places), e - places.length⟩, rest)
      | (none, rest) => (badNumber rest, [])
    | _ =>
      if places.isEmpty then (ofInteger negative (number whole), rest)
      else (ofInteger.ofReal negative ⟨number (whole ++ places), -(places.length : Int)⟩, rest)

/-- A number from after its sign, and what follows it. -/
def scanNumber (negative : Bool) (bs : List UInt8) : Token × List UInt8 :=
  match bs.takeWhile isDigit with
  | [] => (badNumber bs, [])
  | 0x30 :: _ :: _ => (.broken .badNumber (some .badNumber) false, [])
  | whole => scanFraction negative whole (bs.dropWhile isDigit)

/-! ## Words -/

/-- A word that should be the given one from its second letter on, and what follows. -/
def scanWord (a : Atom) : (expected : List UInt8) → List UInt8 → Token × List UInt8
  | [], rest => (.atom a, rest)
  | _ :: _, [] => (.broken .endInValue (some .endInValue) false, [])
  | e :: expected, b :: rest =>
    if b = e then scanWord a expected rest
    else (.broken .badWord (some .badWord) false, [])

/-! ## Tokens -/

/-- Whether an octet is white space of JSON. -/
def isSpace (b : UInt8) : Bool := b == 0x20 || b == 0x0A || b == 0x0D || b == 0x09

/-- The token that starts with octet `b`, and what follows it. Nothing follows a token
that cannot be passed over. -/
def scanOne (b : UInt8) (rest : List UInt8) : Token × List UInt8 :=
  match Char.ofNat b.toNat with
  | '[' => (.openList, rest)
  | ']' => (.closeList, rest)
  | '{' => (.openObject, rest)
  | '}' => (.closeObject, rest)
  | ',' => (.comma, rest)
  | ':' => (.colon, rest)
  | '"' =>
    let (pieces, ending, rest) := scanText [] rest
    (ofText pieces.reverse ending, rest)
  | '-' => scanNumber true rest
  | 'n' => scanWord .null "ull".toUTF8.toList rest
  | 't' => scanWord (.bool true) "rue".toUTF8.toList rest
  | 'f' => scanWord (.bool false) "alse".toUTF8.toList rest
  | _ =>
    if isDigit b then scanNumber false (b :: rest)
    else (.broken .noValue (some .noValue) false, [])

/-- The tokens of a text of at most `fuel` octets, last one first. -/
def scanAll : (fuel : Nat) → (acc : List Token) → List UInt8 → List Token
  | 0, acc, _ => acc
  | fuel + 1, acc, bs =>
    match bs with
    | [] => acc
    | b :: rest =>
      if isSpace b then scanAll fuel acc rest
      else
        let (t, rest) := scanOne b rest
        scanAll fuel (t :: acc) rest

/-- The tokens of a text. -/
def ofOctets (bs : List UInt8) : List Token := (scanAll bs.length [] bs).reverse

end Token

end ExchangeArchive.Json
