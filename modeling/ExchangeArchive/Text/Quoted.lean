import ExchangeArchive.Text.Printable
/-
A text in double quotes, as fault messages show it.

Quotation marks, backslashes and the four named controls are written with a
backslash; every other character that is not shown as it is becomes its code point
in braces. `quoted` is what a message uses, so that a reader can tell an empty text
from a missing one and a blank from a no-break space.
-/

set_option autoImplicit false

namespace ExchangeArchive.Text

/-- A character inside a quoted text. -/
def quotedChar (c : Char) : List Char :=
  match c with
  | '\x00' => ['\\', '0']
  | '\t' => ['\\', 't']
  | '\r' => ['\\', 'r']
  | '\n' => ['\\', 'n']
  | '"' => ['\\', '"']
  | '\\' => ['\\', '\\']
  | c =>
    if isPrintable c then [c]
    else ['\\', 'u', '{'] ++ Nat.toDigits 16 c.toNat ++ ['}']

/-- The text in double quotes. -/
def quoted (s : String) : String :=
  String.ofList ('"' :: s.toList.flatMap quotedChar ++ ['"'])

end ExchangeArchive.Text
