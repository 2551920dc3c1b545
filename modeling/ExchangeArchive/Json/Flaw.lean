/-
Why a text is no JSON.

A flaw is either that the text ends too early or that a character does not fit. The
distinction matters to a caller who could wait for more text.
-/

set_option autoImplicit false

namespace ExchangeArchive.Json

/-- Why a text is no JSON. -/
inductive Flaw where
  /-- The text ends inside a list. -/
  | endInList
  /-- The text ends inside an object. -/
  | endInObject
  /-- The text ends inside a text in quotation marks. -/
  | endInText
  /-- The text ends where a value should be, or inside it. -/
  | endInValue
  /-- No colon follows a member's name. -/
  | noColon
  /-- Neither a comma nor the end of the list follows an item. -/
  | noListEnd
  /-- Neither a comma nor the end of the object follows a member. -/
  | noObjectEnd
  /-- A word that starts like `null`, `true` or `false` is another. -/
  | badWord
  /-- No value can start with this character. -/
  | noValue
  /-- A backslash is followed by something it cannot escape. -/
  | badEscape
  /-- A number is misspelt. -/
  | badNumber
  /-- A number is greater than every double. -/
  | tooLarge
  /-- The octets of a text are not UTF-8. -/
  | notUtf8
  /-- A control character stands in a text unescaped. -/
  | control
  /-- A member's name is not a text. -/
  | keyNotText
  /-- An escaped surrogate stands where its partner is not. -/
  | loneSurrogate
  /-- An escaped high surrogate is not followed by another escape. -/
  | halfPair
  /-- A comma stands before the end of a list or object. -/
  | trailingComma
  /-- The text goes on after the document. -/
  | trailing
  /-- Lists and objects are nested too deeply. -/
  | tooDeep
  deriving DecidableEq, Repr

namespace Flaw

/-- Whether the text could be made JSON by adding to it. -/
def isEnd : Flaw → Bool
  | .endInList | .endInObject | .endInText | .endInValue => true
  | _ => false

/-- The wording of a flaw. -/
def message : Flaw → String
  | .endInList => "EOF while parsing a list"
  | .endInObject => "EOF while parsing an object"
  | .endInText => "EOF while parsing a string"
  | .endInValue => "EOF while parsing a value"
  | .noColon => "expected `:`"
  | .noListEnd => "expected `,` or `]`"
  | .noObjectEnd => "expected `,` or `\x7d`"
  | .badWord => "expected ident"
  | .noValue => "expected value"
  | .badEscape => "invalid escape"
  | .badNumber => "invalid number"
  | .tooLarge => "number out of range"
  | .notUtf8 => "invalid unicode code point"
  | .control => "control character (\\u0000-\\u001F) found while parsing a string"
  | .keyNotText => "key must be a string"
  | .loneSurrogate => "lone leading surrogate in hex escape"
  | .halfPair => "unexpected end of hex escape"
  | .trailingComma => "trailing comma"
  | .trailing => "trailing characters"
  | .tooDeep => "recursion limit exceeded"

end Flaw

end ExchangeArchive.Json
