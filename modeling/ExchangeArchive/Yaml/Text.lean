import ExchangeArchive.Document.Codec
import ExchangeArchive.Yaml.Tree
/-
Records as YAML text.

An alias stands for its node, wherever that node is. A node may hold an alias of itself:
what is read of it ends in a fault before long, so aliases are followed no further than
there are anchors, with two steps to spare.
-/

set_option autoImplicit false

namespace ExchangeArchive.Yaml

open ExchangeArchive.Document

namespace Tree

mutual

/-- The document that a tree is, given the nodes that aliases stand for. -/
def toNode (aliased : List (Nat × Node)) : Tree → Node
  | .scalar plain tag text => scalarNode plain tag text
  | .list items => .list (itemsToNodes aliased items) .closed
  | .mapping members => .object (membersToNodes aliased members) .closed
  | .alias n => (aliased.lookup n).getD (.broken (.flaw .tooDeep) none)

/-- The items of a list. -/
def itemsToNodes (aliased : List (Nat × Node)) : List Tree → List Node
  | [] => []
  | t :: rest => toNode aliased t :: itemsToNodes aliased rest

/-- The members of a mapping. -/
def membersToNodes (aliased : List (Nat × Node)) : List (Tree × Tree) → List (Node × Node)
  | [] => []
  | (k, v) :: rest => (toNode aliased k, toNode aliased v) :: membersToNodes aliased rest

end

/-- The nodes that aliases stand for, if aliases in them are followed so many times. -/
def resolve (anchored : List (Nat × Tree)) : (depth : Nat) → List (Nat × Node)
  | 0 => []
  | depth + 1 =>
    let inner := resolve anchored depth
    anchored.map fun (n, t) => (n, t.toNode inner)

end Tree

/-- The documents of a text, unless it is flawed. -/
def documents? (text : List Char) : Option (List Node) := do
  let tokens ← Token.ofText? text
  let (roots, anchored) ← Tree.ofTokens? tokens
  let aliased := Tree.resolve anchored (anchored.length + 2)
  return roots.map (Tree.toNode aliased)

end ExchangeArchive.Yaml

namespace ExchangeArchive.Document.Codec

/-- Reads a value from YAML text, which must be one document. A fault in the data of the
first document comes before there being others. -/
def ofYamlText {α : Type} (c : Codec α) (text : String) : Except Fault α :=
  match Yaml.documents? text.toList with
  | none => .error (.flaw .noValue)
  | some [] => .error (.flaw .endInValue)
  | some (root :: more) => do
    let x ← c.read .yaml root
    if more.isEmpty then return x else throw (.flaw .trailing)

end ExchangeArchive.Document.Codec
