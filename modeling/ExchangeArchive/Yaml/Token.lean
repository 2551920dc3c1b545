import ExchangeArchive.Yaml.Tag
/-
The tokens of a YAML text.

Indentation opens and closes block collections, so their starts and ends are tokens that
stand for no characters. A key of a mapping is known as one only by the colon after it:
until then the place where it began is remembered, and its token is put there afterwards.
Such a key stands on one line and has no more than 1024 characters.
-/

set_option autoImplicit false

namespace ExchangeArchive.Yaml

/-! ## Tokens -/

/-- A token. -/
inductive Token where
  | directive
  | documentStart
  | documentEnd
  | blockList
  | blockMapping
  | blockEnd
  | flowList
  | flowListEnd
  | flowMapping
  | flowMappingEnd
  | blockEntry
  | flowEntry
  | key
  | value
  | alias (name : String)
  | anchor (name : String)
  | tag (t : Tag)
  | scalar (plain : Bool) (text : String)
  deriving DecidableEq, Repr

/-- A place where a key began, if a colon follows. -/
structure KeySpot where
  /-- How many tokens there were before. -/
  token : Nat
  /-- Whether the indentation demands a key. -/
  demanded : Bool
  start : Cursor

/-- A text in part turned into tokens. -/
structure Scan where
  cursor : Cursor
  tokens : Array Token := #[]
  /-- Whether a key may begin here. -/
  keyAllowed : Bool := true
  /-- Where a key began, inside the innermost brackets. -/
  spot : Option KeySpot := none
  /-- Where keys began outside, one place for each pair of brackets, innermost first. -/
  outside : List (Option KeySpot) := []
  /-- The columns of the open block collections, innermost first. -/
  indents : List Nat := []
  /-- How many characters came before the end of the last scalar in quotation marks. -/
  quotedEnd : Nat := 0

namespace Scan

/-- Whether a place is inside brackets. -/
def inFlow (s : Scan) : Bool := !s.outside.isEmpty

/-- The text as far as it was turned into tokens, with one more. -/
def push (t : Token) (s : Scan) : Scan := { s with tokens := s.tokens.push t }

/-- The text with a token put after the first few. -/
def insertAt (count : Nat) (t : Token) (s : Scan) : Scan :=
  { s with tokens := s.tokens.extract 0 count ++ #[t] ++ s.tokens.extract count s.tokens.size }

/-- Goes on after some characters. -/
def skip (n : Nat) (s : Scan) : Scan := { s with cursor := s.cursor.skip n }

/-- Says whether a key may begin here. -/
def allowKey (allowed : Bool) (s : Scan) : Scan := { s with keyAllowed := allowed }

/-! ## Keys -/

/-- Gives up the key of the innermost level, unless it is demanded. -/
def dropKey (s : Scan) : Option Scan :=
  match s.spot with
  | some k => if k.demanded then none else some { s with spot := none }
  | none => some s

/-- Remembers that a key may begin here. -/
def saveKey (s : Scan) : Option Scan := do
  if !s.keyAllowed then return s
  let s' ← s.dropKey
  return { s' with spot := some {
    token := s.tokens.size
    demanded := !s.inFlow && s.indents.head? == some s.cursor.column
    start := s.cursor } }

/-- Whether a key that began at a place cannot go on up to another. -/
def KeySpot.isStale (k : KeySpot) (here : Cursor) : Bool :=
  k.start.line < here.line || k.start.index + 1024 < here.index

/-- Gives up a key that cannot go on, unless it is demanded. -/
def dropStaleKey (here : Cursor) : Option KeySpot → Option (Option KeySpot)
  | some k => if KeySpot.isStale k here then (if k.demanded then none else some none)
    else some (some k)
  | none => some none

/-- Gives up all keys that cannot go on. -/
def dropStaleKeys (s : Scan) : Option Scan := do
  let spot ← dropStaleKey s.cursor s.spot
  let outside ← s.outside.mapM (dropStaleKey s.cursor)
  return { s with spot, outside }

/-! ## Indentation -/

/-- Opens a block collection if a column is further in than those before; its token comes
after the first few. Inside brackets there are none. -/
def indentTo (column count : Nat) (t : Token) (s : Scan) : Scan :=
  if s.inFlow then s
  else if s.indents.head?.all (· < column) then
    insertAt count t { s with indents := column :: s.indents }
  else s

/-- Closes the block collections on the columns of a list that are further in than
`column`, or all of them. -/
def closed (column : Option Nat) : List Nat → List Nat × Nat
  | [] => ([], 0)
  | c :: rest =>
    if column.all (· < c) then ((closed column rest).1, (closed column rest).2 + 1)
    else (c :: rest, 0)

/-- Closes the block collections that are further in than a column, or all of them. -/
def unindentTo (column : Option Nat) (s : Scan) : Scan :=
  if s.inFlow then s
  else
    let (indents, count) := closed column s.indents
    { s with indents, tokens := s.tokens ++ Array.replicate count Token.blockEnd }

/-! ## White space -/

/-- Goes on to the next token. After a line break outside brackets a key may begin, and
where one may begin a tab is no white space. -/
def skipGap : (fuel : Nat) → Scan → Scan
  | 0, s => s
  | fuel + 1, s =>
    let c := s.cursor
    if c.here == ' ' || (c.here == '\t' && (s.inFlow || !s.keyAllowed)) then
      skipGap fuel (s.skip 1)
    else if isBreak c.here then
      skipGap fuel { s with cursor := c.skipBreak, keyAllowed := s.keyAllowed || !s.inFlow }
    else if c.here == '#' then
      skipGap fuel { s with cursor := c.skipWhile fun c => !isBreakOrEnd c }
    else s

/-! ## Directives and documents -/

/-- A number of a version: one to nine digits. -/
def versionNumber (c : Cursor) : Option Cursor :=
  let (ds, c) := c.takeWhile Char.isDigit
  if 1 ≤ ds.length && ds.length ≤ 9 then some c else none

/-- The rest of a directive after its name. Only two are known; any other is passed over. -/
def directiveRest (name : String) (c : Cursor) : Option Cursor :=
  match name with
  | "YAML" => do
    let c ← versionNumber (c.skipWhile isBlank)
    if c.here == '.' then versionNumber c.next else none
  | "TAG" => do
    let (handle, c) ← tagHandle (c.skipWhile isBlank)
    if handle.length ≠ 1 && !isWholeHandle handle then none
    else
      let (_, c) ← tagName [] (c.skipWhile isBlank)
      if isGap c.here then return c else none
  | _ => some (c.skipWhile fun c => !isBreakOrEnd c)

/-- The place after a directive and the end of its line. -/
def directive (c : Cursor) : Option Cursor := do
  let (name, c) := c.next.takeWhile isNameCharacter
  if name.isEmpty || !isGap c.here then none
  else
    let c ← directiveRest (String.ofList name) c
    let c := c.skipComment
    if isBreakOrEnd c.here then return c.skipBreak else none

/-- Closes everything before a directive or the mark of a document. -/
def closeAll (s : Scan) : Option Scan := do
  let s ← (s.unindentTo none).dropKey
  return s.allowKey false

/-- Reads a directive. -/
def fetchDirective (s : Scan) : Option Scan := do
  let s ← s.closeAll
  let c ← directive s.cursor
  return { s.push .directive with cursor := c }

/-- Reads the mark of a document. -/
def fetchDocumentMark (t : Token) (s : Scan) : Option Scan := do
  let s ← s.closeAll
  return (s.push t).skip 3

/-! ## Collections -/

/-- The greatest number of brackets inside one another. -/
def maxBrackets : Nat := 255

/-- Reads an opening bracket. -/
def fetchFlowStart (t : Token) (s : Scan) : Option Scan := do
  let s ← s.saveKey
  if maxBrackets ≤ s.outside.length then none
  else
    return ({ s with outside := s.spot :: s.outside, spot := none, keyAllowed := true }.push
      t).skip 1

/-- Reads a closing bracket. -/
def fetchFlowEnd (t : Token) (s : Scan) : Option Scan := do
  let s ← s.dropKey
  let s := match s.outside with
    | [] => s
    | spot :: outside => { s with spot, outside }
  return ((s.allowKey false).push t).skip 1

/-- Reads a comma. -/
def fetchFlowEntry (s : Scan) : Option Scan := do
  let s ← s.dropKey
  return ((s.allowKey true).push .flowEntry).skip 1

/-- Opens a block collection here, which is only possible where a key may begin. -/
def openBlock (t : Token) (s : Scan) : Option Scan :=
  if s.keyAllowed then some (s.indentTo s.cursor.column s.tokens.size t) else none

/-- Reads a dash. -/
def fetchBlockEntry (s : Scan) : Option Scan := do
  if s.inFlow then none
  else
    let s ← s.openBlock .blockList
    let s ← s.dropKey
    return ((s.allowKey true).push .blockEntry).skip 1

/-- Reads a question mark. -/
def fetchKey (s : Scan) : Option Scan := do
  let s ← if s.inFlow then some s else s.openBlock .blockMapping
  let s ← s.dropKey
  return ((s.allowKey !s.inFlow).push .key).skip 1

/-- Reads a colon. If a key may have begun before, it did. -/
def fetchValue (s : Scan) : Option Scan := do
  let s ← match s.spot with
    | some k =>
      let s := (s.insertAt k.token .key).indentTo k.start.column k.token .blockMapping
      some { s with spot := none, keyAllowed := false }
    | none =>
      let s? := if s.inFlow then some s else s.openBlock .blockMapping
      s?.map (allowKey !s.inFlow)
  return (s.push .value).skip 1

/-! ## Scalars and their properties -/

/-- Whether a character may follow the name of an anchor. -/
def endsName (c : Char) : Bool := isGap c || "?:,]\x7d%@\x60".toList.contains c

/-- Reads the name of an anchor or of an alias. -/
def fetchName (token : String → Token) (s : Scan) : Option Scan := do
  let s ← s.saveKey
  let (name, c) := s.cursor.next.takeWhile isNameCharacter
  if name.isEmpty || !endsName c.here then none
  else return { (s.allowKey false).push (token (String.ofList name)) with cursor := c }

/-- Reads a tag. -/
def fetchTag (s : Scan) : Option Scan := do
  let s ← s.saveKey
  let (t, c) ← tag s.cursor
  return { (s.allowKey false).push (.tag t) with cursor := c }

/-- Reads a block of lines. -/
def fetchBlock (literal : Bool) (s : Scan) : Option Scan := do
  let s ← s.saveKey
  let (text, c) ← blockScalar literal s.indents.head? s.cursor
  return { (s.allowKey true).push (.scalar false text) with cursor := c }

/-- Reads a scalar in quotation marks. -/
def fetchQuoted (single : Bool) (s : Scan) : Option Scan := do
  let s ← s.saveKey
  let (text, c) ← quotedScalar single s.cursor
  return { (s.allowKey false).push (.scalar false text) with
    cursor := c, quotedEnd := c.index }

/-- Reads a plain scalar. -/
def fetchPlain (s : Scan) : Option Scan := do
  let s ← s.saveKey
  let limit := (s.indents.head?.map (· + 1)).getD 0
  let (text, c, broken) ← plainScalar s.inFlow limit s.cursor
  return { (s.allowKey broken).push (.scalar true text) with cursor := c }

/-! ## The whole text -/

/-- Whether a colon here ends a key: before a gap, or inside brackets also before one of
their marks or right after a quotation mark. -/
def isColon (s : Scan) : Bool :=
  let c := s.cursor.ahead 1
  isGap c || (s.inFlow && (isFlowMark c || s.cursor.index == s.quotedEnd))

/-- Reads the token that starts here. -/
def fetch (s : Scan) : Option Scan :=
  let c := s.cursor
  if c.column == 0 && c.here == '%' then s.fetchDirective
  else if c.isAtMark '-' then s.fetchDocumentMark .documentStart
  else if c.isAtMark '.' then s.fetchDocumentMark .documentEnd
  else
    let gap := isGap (c.ahead 1)
    match c.here with
    | '[' => s.fetchFlowStart .flowList
    | '{' => s.fetchFlowStart .flowMapping
    | ']' => s.fetchFlowEnd .flowListEnd
    | '}' => s.fetchFlowEnd .flowMappingEnd
    | ',' => s.fetchFlowEntry
    | '-' => if gap then s.fetchBlockEntry else s.fetchPlain
    | '?' => if gap then s.fetchKey else s.fetchPlain
    | ':' => if s.isColon then s.fetchValue else s.fetchPlain
    | '*' => s.fetchName .alias
    | '&' => s.fetchName .anchor
    | '!' => s.fetchTag
    | '|' => if s.inFlow then s.fetchPlain else s.fetchBlock true
    | '>' => if s.inFlow then s.fetchPlain else s.fetchBlock false
    | '\'' => s.fetchQuoted true
    | '"' => s.fetchQuoted false
    | '%' | '@' | '\x60' => none
    | _ => s.fetchPlain

/-- Reads the rest of a text. -/
def finish : (fuel : Nat) → Scan → Option (Array Token)
  | 0, _ => none
  | fuel + 1, s =>
    match (skipGap (s.cursor.rest.length + 1) s).dropStaleKeys with
    | none => none
    | some s =>
      let s := s.unindentTo (some s.cursor.column)
      if isEnd s.cursor.here then s.closeAll.map Scan.tokens
      else match s.fetch with
        | none => none
        | some s => finish fuel s

end Scan

/-- The tokens of a text, if there are no others in it. -/
def Token.ofText? (text : List Char) : Option (List Token) :=
  (Scan.finish (text.length + 2) { cursor := { rest := text } }).map Array.toList

end ExchangeArchive.Yaml
