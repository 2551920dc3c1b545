import ExchangeArchive.Document.Node
import ExchangeArchive.Json.Token
/-
JSON tokens as a document.

The tokens are taken one by one; the lists and objects that are open at a token stand
on a stack, innermost first. Where a token does not fit, or none is left, the value or
the list or object at hand is flawed and everything around it is closed over it: a
reader never gets past the flaw, so what stands beyond it does not matter.
-/

set_option autoImplicit false

namespace ExchangeArchive.Json

open ExchangeArchive.Document

namespace Tree

/-! ## What is open -/

/-- A list or object that is open, with its parts so far, last one first. An object waits
for the value of a key. -/
inductive Frame where
  | list (items : List Node)
  | object (members : List (Node × Node)) (key : Node)

/-- What may come next. -/
inductive Need where
  /-- A value. -/
  | value
  /-- The first item of a list, or its end. -/
  | firstItem
  /-- An item after a comma, in a list with these items. -/
  | nextItem (items : List Node)
  /-- The first key of an object, or its end. -/
  | firstKey
  /-- A key after a comma, in an object with these members. -/
  | nextKey (members : List (Node × Node))
  /-- The colon after a key. -/
  | colon
  /-- A comma or the end, in a list with these items. -/
  | moreItems (items : List Node)
  /-- A comma or the end, in an object with these members. -/
  | moreMembers (members : List (Node × Node))

/-- How far the tokens have been taken. -/
inductive State where
  /-- A document is under way. -/
  | within (need : Need) (stack : List Frame)
  /-- A document is complete. -/
  | whole (n : Node)
  /-- A document is complete and followed by something else. -/
  | surplus (n : Node)
  /-- A document goes no further than its flaw. -/
  | stuck (n : Node)

/-- A value that goes no further than its flaw. -/
def flawed (f : Flaw) : Node := .broken (.flaw f) (some f)

/-- The value with the lists and objects around it closed. -/
def close : List Frame → Node → Node
  | [], n => n
  | .list items :: rest, n => close rest (.list (n :: items).reverse .closed)
  | .object members key :: rest, n => close rest (.object ((key, n) :: members).reverse .closed)

/-- A list that ends as given. -/
def endList (items : List Node) (ending : Ending) : Node := .list items.reverse ending

/-- An object that ends as given. -/
def endObject (members : List (Node × Node)) (ending : Ending) : Node :=
  .object members.reverse ending

/-! ## One token -/

/-- A value is complete. -/
def place (n : Node) : List Frame → State
  | [] => .whole n
  | .list items :: rest => .within (.moreItems (n :: items)) rest
  | .object members key :: rest => .within (.moreMembers ((key, n) :: members)) rest

/-- A value begins. -/
def begin (stack : List Frame) : Token → State
  | .openList => .within .firstItem stack
  | .openObject => .within .firstKey stack
  | .atom a => place (.atom a) stack
  | .broken read skipped _ => place (.broken (.flaw read) skipped) stack
  | .closeList | .closeObject | .comma | .colon => .stuck (close stack (flawed .noValue))

/-- A key begins, in an object with these members. -/
def beginKey (members : List (Node × Node)) (stack : List Frame) : Token → State
  | .atom (.text s) => .within .colon (.object members (.atom (.text s)) :: stack)
  | .broken read skipped true =>
    .within .colon (.object members (.broken (.flaw read) skipped) :: stack)
  | _ => .stuck (close stack (endObject members .badKey))

/-- Takes a token. -/
def step : State → Token → State
  | .whole n, _ => .surplus n
  | .surplus n, _ => .surplus n
  | .stuck n, _ => .stuck n
  | .within need stack, t =>
    match need, t with
    | .value, t => begin stack t
    | .firstItem, .closeList => place (endList [] .closed) stack
    | .firstItem, t => begin (.list [] :: stack) t
    | .nextItem items, .closeList => .stuck (close stack (endList items .trailingComma))
    | .nextItem items, t => begin (.list items :: stack) t
    | .firstKey, .closeObject => place (endObject [] .closed) stack
    | .firstKey, t => beginKey [] stack t
    | .nextKey members, .closeObject =>
      .stuck (close stack (endObject members .trailingComma))
    | .nextKey members, t => beginKey members stack t
    | .colon, .colon => .within .value stack
    | .colon, _ => .stuck (close stack (flawed .noColon))
    | .moreItems items, .comma => .within (.nextItem items) stack
    | .moreItems items, .closeList => place (endList items .closed) stack
    | .moreItems items, _ => .stuck (close stack (endList items .noComma))
    | .moreMembers members, .comma => .within (.nextKey members) stack
    | .moreMembers members, .closeObject => place (endObject members .closed) stack
    | .moreMembers members, _ => .stuck (close stack (endObject members .noComma))

/-! ## The whole text -/

/-- The document when no token is left, and the flaw that shows after it. -/
def result : State → Node × Option Flaw
  | .whole n => (n, none)
  | .surplus n => (n, some .trailing)
  | .stuck n => (n, none)
  | .within need stack =>
    (close stack (match need with
      | .value => flawed .endInValue
      | .firstItem => endList [] .cut
      | .nextItem items => endList items .cutAfterComma
      | .firstKey => endObject [] .cut
      | .nextKey members => endObject members .cutAfterComma
      | .colon => flawed .endInObject
      | .moreItems items => endList items .cut
      | .moreMembers members => endObject members .cut), none)

end Tree

/-- The document of tokens, and the flaw that shows after it. -/
def ofTokens (tokens : List Token) : Node × Option Flaw :=
  Tree.result (tokens.foldl Tree.step (.within .value []))

/-- The document of a text, and the flaw that shows after it. -/
def document (octets : List UInt8) : Node × Option Flaw := ofTokens (Token.ofOctets octets)

end ExchangeArchive.Json
