import ExchangeArchive.Document.Codec
import ExchangeArchive.Json.Tree
/-
Records and values as JSON text.
-/

set_option autoImplicit false

namespace ExchangeArchive.Document.Codec

variable {α : Type}

/-- The compact JSON text of a value. -/
def toJsonText (c : Codec α) (x : α) : String := (c.write x).toText

/-- Reads a value from JSON text, which must hold nothing else. -/
def ofJsonText (c : Codec α) (octets : List UInt8) : Except Fault α := do
  let (root, tail) := Json.document octets
  let x ← c.read .jsonText root
  Node.raise tail
  return x

/-- Reads a value from a JSON value. -/
def ofJson (c : Codec α) (v : Json) : Except Fault α := c.read .jsonValue (.ofJson v)

end ExchangeArchive.Document.Codec

namespace ExchangeArchive.Json

open ExchangeArchive.Document

/-- The JSON value of a text, if it is one that does not nest too deeply. -/
def parse? (octets : List UInt8) : Option Json :=
  match document octets with
  | (root, none) =>
    match root.buffer .jsonText Manner.jsonText.depthLimit with
    | .ok n => n.toJson?
    | .error _ => none
  | (_, some _) => none

end ExchangeArchive.Json
