import ExchangeArchive.Yaml.Resolve
/-
The texts of tags.

A tag is verbatim in angle brackets, or a name behind an exclamation mark, or a name
behind a handle, which is a word between two exclamation marks. A percent sign and two
hexadecimal digits stand for an octet; the octets of one sequence make up one character.
-/

set_option autoImplicit false

namespace ExchangeArchive.Yaml

/-- Whether a character may stand in the name of a tag. -/
def isTagCharacter (c : Char) : Bool :=
  isNameCharacter c || ";/?:@&=+$,.!~*'()[]%".toList.contains c

/-- How many octets a sequence has by its first one. -/
def sequenceLength? (octet : Nat) : Option Nat :=
  if octet < 0x80 then some 1
  else if octet / 0x20 = 6 then some 2
  else if octet / 0x10 = 14 then some 3
  else if octet / 0x08 = 30 then some 4
  else none

/-- The octet that is written here. -/
def escapedOctet? (s : Cursor) : Option Nat := do
  let high ← Text.Hex.value? (s.ahead 1)
  let low ← Text.Hex.value? (s.ahead 2)
  if s.here == '%' then return high * 16 + low else none

/-- The number whose digits in base 256 are an earlier number and octets that follow. -/
def followingOctets : (count : Nat) → (code : Nat) → Cursor → Option (Nat × Cursor)
  | 0, code, s => some (code, s)
  | count + 1, code, s => do
    let octet ← escapedOctet? s
    if octet / 0x40 = 2 then followingOctets count (code * 256 + octet) (s.skip 3) else none

/-- The character of a sequence of escaped octets: its code is the number whose digits in
base 256 they are. -/
def escapedSequence (s : Cursor) : Option (Char × Cursor) := do
  let first ← escapedOctet? s
  let length ← sequenceLength? first
  let (code, s) ← followingOctets (length - 1) first (s.skip 3)
  let c ← character? code
  return (c, s)

/-- The characters of the name of a tag, last first, and the place after them. -/
def tagCharacters : (fuel : Nat) → List Char → Cursor → Option (List Char × Cursor)
  | 0, acc, s => some (acc, s)
  | fuel + 1, acc, s =>
    if !isTagCharacter s.here then some (acc, s)
    else if s.here == '%' then
      match escapedSequence s with
      | some (c, s) => tagCharacters fuel (c :: acc) s
      | none => none
    else tagCharacters fuel (s.here :: acc) s.next

/-- The name of a tag, of which a part was read before as a handle. It is not empty, and
the first character of that part is no part of the name but counts as one. -/
def tagName (head : List Char) (s : Cursor) : Option (String × Cursor) :=
  match tagCharacters s.rest.length [] s with
  | none => none
  | some (acc, s) =>
    if head.isEmpty && acc.isEmpty then none
    else some (String.ofList (head.drop 1 ++ acc.reverse), s)

/-- An exclamation mark, a word, and another exclamation mark if there is one. -/
def tagHandle (s : Cursor) : Option (List Char × Cursor) :=
  if s.here != '!' then none
  else
    let (word, after) := s.next.takeWhile isNameCharacter
    if after.here == '!' then some ('!' :: (word ++ ['!']), after.next)
    else some ('!' :: word, after)

/-- Whether a handle has both its exclamation marks. -/
def isWholeHandle (handle : List Char) : Bool :=
  2 ≤ handle.length && handle.getLast? == some '!'

/-- The tag that starts here. -/
def tag (s : Cursor) : Option (Tag × Cursor) := do
  let (t, s) ← (if s.ahead 1 == '<' then do
      let (name, s) ← tagName [] (s.skip 2)
      if s.here == '>' then return (⟨"", name⟩, s.next) else none
    else do
      let (handle, s) ← tagHandle s
      if isWholeHandle handle then
        let (name, s) ← tagName [] s
        return (⟨String.ofList handle, name⟩, s)
      else
        let (name, s) ← tagName handle s
        return (if name.isEmpty then ⟨"", "!"⟩ else ⟨"!", name⟩, s)
    : Option (Tag × Cursor))
  if isGap s.here then return (t, s) else none

end ExchangeArchive.Yaml
