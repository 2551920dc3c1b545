import ExchangeArchive.Yaml.Token
/-
The trees of YAML documents, before aliases are resolved.

A node may have a tag and an anchor, in either order. Where a node could stand and none
does, there is an empty one: it is nothing, or the empty text if it has properties. A list
may stand in a mapping without further indentation, and inside the brackets of a list a
single pair is a mapping of its own. Each anchored node gets a number; an alias stands for
the node that had its name last.
-/

set_option autoImplicit false

namespace ExchangeArchive.Yaml

/-- A node of a document. -/
inductive Tree where
  | scalar (plain : Bool) (tag : Option Tag) (text : String)
  | list (items : List Tree)
  | mapping (members : List (Tree × Tree))
  | alias (number : Nat)

/-- A stream of tokens in part turned into trees. -/
structure Stream where
  rest : List Token
  /-- The names of the anchors of this document with their numbers, the latest first. -/
  names : List (String × Nat) := []
  /-- How many anchors there were. -/
  count : Nat := 0
  /-- The nodes with anchors that are complete. -/
  anchored : List (Nat × Tree) := []

/-- The properties of a node. -/
structure Properties where
  anchor : Option Nat := none
  tag : Option Tag := none

namespace Tree

/-- The node that stands where there is none. -/
def absent : Tree := .scalar true none "~"

/-- Whether the next token is one of a few. -/
def nextIn (tokens : List Token) : List Token → Bool
  | [] => false
  | t :: _ => tokens.contains t

/-- Gives the next number to an anchor. -/
def nameAnchor (name : String) (s : Stream) : Nat × Stream :=
  (s.count, { s with names := (name, s.count) :: s.names, count := s.count + 1 })

/-- The properties of a node. -/
def properties (s : Stream) : Properties × Stream :=
  match s.rest with
  | .anchor name :: .tag t :: rest =>
    let (n, s) := nameAnchor name { s with rest }
    (⟨some n, some t⟩, s)
  | .tag t :: .anchor name :: rest =>
    let (n, s) := nameAnchor name { s with rest }
    (⟨some n, some t⟩, s)
  | .anchor name :: rest =>
    let (n, s) := nameAnchor name { s with rest }
    (⟨some n, none⟩, s)
  | .tag t :: rest => (⟨none, some t⟩, { s with rest })
  | _ => ({}, s)

/-- Keeps a complete node for the aliases of its anchor. -/
def keep (p : Properties) (t : Tree) (s : Stream) : Tree × Stream :=
  match p.anchor with
  | some n => (t, { s with anchored := (n, t) :: s.anchored })
  | none => (t, s)

mutual

/-- A node. `block` says whether block collections are possible, `bare` whether a list may
stand without further indentation. -/
def node : (fuel : Nat) → (block bare : Bool) → Stream → Option (Tree × Stream)
  | 0, _, _, _ => none
  | fuel + 1, block, bare, s =>
    match s.rest with
    | .alias name :: rest =>
      (s.names.lookup name).map fun n => (.alias n, { s with rest })
    | _ =>
      let (p, s) := properties s
      match s.rest with
      | .scalar plain text :: rest =>
        some (keep p (.scalar plain p.tag text) { s with rest })
      | .flowList :: rest => do
        let (items, s) ← flowItems fuel true { s with rest }
        return keep p (.list items) s
      | .flowMapping :: rest => do
        let (members, s) ← flowMembers fuel true { s with rest }
        return keep p (.mapping members) s
      | next =>
        if bare && nextIn [.blockEntry] next then do
          let (items, s) ← bareItems fuel s
          return keep p (.list items) s
        else if block && nextIn [.blockList] next then do
          let (items, s) ← blockItems fuel { s with rest := next.tail }
          return keep p (.list items) s
        else if block && nextIn [.blockMapping] next then do
          let (members, s) ← blockMembers fuel { s with rest := next.tail }
          return keep p (.mapping members) s
        else if p.tag.isSome || p.anchor.isSome then some (keep p (.scalar true p.tag "") s)
        else none

/-- A node, or an absent one before certain tokens. -/
def nodeUnless : (fuel : Nat) → (ends : List Token) → (block bare : Bool) → Stream →
    Option (Tree × Stream)
  | 0, _, _, _, _ => none
  | fuel + 1, ends, block, bare, s =>
    if nextIn ends s.rest then some (absent, s) else node fuel block bare s

/-- The items of a block list. -/
def blockItems : (fuel : Nat) → Stream → Option (List Tree × Stream)
  | 0, _ => none
  | fuel + 1, s =>
    match s.rest with
    | .blockEnd :: rest => some ([], { s with rest })
    | .blockEntry :: rest => do
      let (item, s) ← nodeUnless fuel [.blockEntry, .blockEnd] true false { s with rest }
      let (items, s) ← blockItems fuel s
      return (item :: items, s)
    | _ => none

/-- The items of a list without indentation of its own. -/
def bareItems : (fuel : Nat) → Stream → Option (List Tree × Stream)
  | 0, _ => none
  | fuel + 1, s =>
    match s.rest with
    | .blockEntry :: rest => do
      let (item, s) ←
        nodeUnless fuel [.blockEntry, .key, .value, .blockEnd] true false { s with rest }
      let (items, s) ← bareItems fuel s
      return (item :: items, s)
    | _ => some ([], s)

/-- The members of a block mapping. -/
def blockMembers : (fuel : Nat) → Stream → Option (List (Tree × Tree) × Stream)
  | 0, _ => none
  | fuel + 1, s =>
    match s.rest with
    | .blockEnd :: rest => some ([], { s with rest })
    | .key :: rest => do
      let (key, s) ← nodeUnless fuel [.key, .value, .blockEnd] true true { s with rest }
      blockMember fuel key s
    | .value :: _ => blockMember fuel absent s
    | _ => none

/-- The member with a key, and those after it. -/
def blockMember : (fuel : Nat) → (key : Tree) → Stream →
    Option (List (Tree × Tree) × Stream)
  | 0, _, _ => none
  | fuel + 1, key, s => do
    let (value, s) ← match s.rest with
      | .value :: rest => nodeUnless fuel [.key, .value, .blockEnd] true true { s with rest }
      | _ => some (absent, s)
    let (members, s) ← blockMembers fuel s
    return ((key, value) :: members, s)

/-- The items of a list in brackets. -/
def flowItems : (fuel : Nat) → (first : Bool) → Stream → Option (List Tree × Stream)
  | 0, _, _ => none
  | fuel + 1, first, s =>
    match first, s.rest with
    | _, .flowListEnd :: rest => some ([], { s with rest })
    | true, _ => flowItem fuel s
    | false, .flowEntry :: .flowListEnd :: rest => some ([], { s with rest })
    | false, .flowEntry :: rest => flowItem fuel { s with rest }
    | false, _ => none

/-- An item of a list in brackets, and those after it. -/
def flowItem : (fuel : Nat) → Stream → Option (List Tree × Stream)
  | 0, _ => none
  | fuel + 1, s => do
    let (item, s) ← match s.rest with
      | .key :: rest => flowPair fuel { s with rest }
      | _ => node fuel false false s
    let (items, s) ← flowItems fuel false s
    return (item :: items, s)

/-- A pair in the brackets of a list. A token that leaves it without a key is passed over. -/
def flowPair : (fuel : Nat) → Stream → Option (Tree × Stream)
  | 0, _ => none
  | fuel + 1, s => do
    let (key, s) ←
      if nextIn [.value, .flowEntry, .flowListEnd] s.rest then
        some (absent, { s with rest := s.rest.tail })
      else node fuel false false s
    let (value, s) ← flowValue fuel [.flowEntry, .flowListEnd] s
    return (.mapping [(key, value)], s)

/-- The value of a pair in brackets. -/
def flowValue : (fuel : Nat) → (ends : List Token) → Stream → Option (Tree × Stream)
  | 0, _, _ => none
  | fuel + 1, ends, s =>
    match s.rest with
    | .value :: rest => nodeUnless fuel ends false false { s with rest }
    | _ => some (absent, s)

/-- The members of a mapping in brackets. -/
def flowMembers : (fuel : Nat) → (first : Bool) → Stream →
    Option (List (Tree × Tree) × Stream)
  | 0, _, _ => none
  | fuel + 1, first, s =>
    match first, s.rest with
    | _, .flowMappingEnd :: rest => some ([], { s with rest })
    | true, _ => flowMember fuel s
    | false, .flowEntry :: .flowMappingEnd :: rest => some ([], { s with rest })
    | false, .flowEntry :: rest => flowMember fuel { s with rest }
    | false, _ => none

/-- A member of a mapping in brackets, and those after it. Without the token of a key it is
a key without a value. -/
def flowMember : (fuel : Nat) → Stream → Option (List (Tree × Tree) × Stream)
  | 0, _ => none
  | fuel + 1, s => do
    let (key, value, s) ← (match s.rest with
      | .key :: rest => do
        let (key, s) ←
          nodeUnless fuel [.value, .flowEntry, .flowMappingEnd] false false { s with rest }
        let (value, s) ← flowValue fuel [.flowEntry, .flowMappingEnd] s
        return (key, value, s)
      | .value :: _ => do
        let (value, s) ← flowValue fuel [.flowEntry, .flowMappingEnd] s
        return (absent, value, s)
      | _ => do
        let (key, s) ← node fuel false false s
        return (key, absent, s)
      : Option (Tree × Tree × Stream))
    let (members, s) ← flowMembers fuel false s
    return ((key, value) :: members, s)

end

/-! ## Documents -/

/-- The root of a document that starts with its mark; directives may come before. -/
def explicitDocument (fuel : Nat) (s : Stream) : Option (Tree × Stream) :=
  match s.rest.dropWhile (· == Token.directive) with
  | .documentStart :: rest =>
    let s := { s with rest }
    if rest.isEmpty || nextIn [.directive, .documentStart, .documentEnd] rest then
      some (absent, s)
    else node fuel true false s
  | _ => none

/-- The root of the next document. Only the first one may do without its mark. -/
def document (fuel : Nat) (first : Bool) (s : Stream) : Option (Tree × Stream) :=
  if !first || nextIn [.directive, .documentStart] s.rest then explicitDocument fuel s
  else node fuel true false s

/-- The roots of the documents. Anchors do not reach from one document into another. -/
def documents : (fuel : Nat) → (first : Bool) → Stream → Option (List Tree × Stream)
  | 0, _, _ => none
  | fuel + 1, first, s =>
    let s := if first then s
      else { s with rest := s.rest.dropWhile (· == Token.documentEnd) }
    if s.rest.isEmpty then some ([], s)
    else do
      let (root, s) ← document fuel first { s with names := [] }
      let (roots, s) ← documents fuel false s
      return (root :: roots, s)

/-- The roots of the documents of a stream of tokens, and their anchored nodes. -/
def ofTokens? (tokens : List Token) : Option (List Tree × List (Nat × Tree)) :=
  (documents (4 * tokens.length + 8) true { rest := tokens }).map fun (roots, s) =>
    (roots, s.anchored)

end Tree

end ExchangeArchive.Yaml
