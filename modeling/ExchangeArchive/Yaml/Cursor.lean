/-
A place in a YAML text.

A cursor has the text from its place on and counts characters, lines and columns. Past the
end every character is NUL, and a NUL in the text ends it. Only a line feed starts a new
column count.
-/

set_option autoImplicit false

namespace ExchangeArchive.Yaml

/-- A place in a text. -/
structure Cursor where
  rest : List Char
  index : Nat := 0
  line : Nat := 0
  column : Nat := 0

/-! ## Characters -/

/-- Whether the text ends at a character. -/
def isEnd (c : Char) : Bool := c == '\x00'

/-- Whether a character is a line break. -/
def isBreak (c : Char) : Bool := c == '\n' || c == '\r'

/-- Whether a character is a space or a tab. -/
def isBlank (c : Char) : Bool := c == ' ' || c == '\t'

/-- Whether a line ends at a character. -/
def isBreakOrEnd (c : Char) : Bool := isBreak c || isEnd c

/-- Whether a word ends at a character. -/
def isGap (c : Char) : Bool := isBlank c || isBreakOrEnd c

/-- Whether a character may stand in the name of an anchor or a directive. -/
def isNameCharacter (c : Char) : Bool := c.isAlphanum || c == '_' || c == '-'

/-- Whether a character has a meaning inside brackets. -/
def isFlowMark (c : Char) : Bool := c == ',' || c == '[' || c == ']' || c == '{' || c == '}'

namespace Cursor

/-- The character so many places on. -/
def ahead (s : Cursor) (n : Nat) : Char := s.rest.getD n '\x00'

/-- The character at a place. -/
def here (s : Cursor) : Char := s.rest.headD '\x00'

/-- The next place. -/
def next (s : Cursor) : Cursor :=
  match s.rest with
  | [] => s
  | c :: rest =>
    if c == '\n' then ⟨rest, s.index + 1, s.line + 1, 0⟩
    else ⟨rest, s.index + 1, s.line, s.column + 1⟩

/-- The place so many characters on. -/
def skip : Nat → Cursor → Cursor
  | 0, s => s
  | n + 1, s => skip n s.next

/-- The place after the characters of a kind, and these characters. -/
def takeWhile (s : Cursor) (p : Char → Bool) : List Char × Cursor :=
  let taken := s.rest.takeWhile p
  (taken, s.skip taken.length)

/-- The place after the characters of a kind. -/
def skipWhile (s : Cursor) (p : Char → Bool) : Cursor := (s.takeWhile p).2

/-- The place after a line break, if there is one here. -/
def skipBreak (s : Cursor) : Cursor :=
  if s.here == '\r' && s.ahead 1 == '\n' then s.skip 2
  else if isBreak s.here then s.next
  else s

/-- The place after blanks and a comment. -/
def skipComment (s : Cursor) : Cursor :=
  let s := s.skipWhile isBlank
  if s.here == '#' then s.skipWhile fun c => !isBreakOrEnd c else s

/-- Whether three characters and a gap stand at the start of a line. -/
def isAtMark (s : Cursor) (c : Char) : Bool :=
  s.column == 0 && s.here == c && s.ahead 1 == c && s.ahead 2 == c && isGap (s.ahead 3)

/-- Whether a document starts or ends here. -/
def isAtDocumentMark (s : Cursor) : Bool := s.isAtMark '-' || s.isAtMark '.'

end Cursor

end ExchangeArchive.Yaml
