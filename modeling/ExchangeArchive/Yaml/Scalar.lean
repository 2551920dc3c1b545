import ExchangeArchive.Text.Hex
import ExchangeArchive.Yaml.Cursor
/-
The texts of YAML scalars.

Scalars are plain, in quotation marks of one of two kinds, or blocks of lines. Line
breaks inside them are folded: a single break becomes a space, and of several all but
the first remain; a literal block keeps them all. Each reader starts at the first
character of the scalar and gives its text and the place after it, or nothing if the
scalar is not sound.
-/

set_option autoImplicit false

namespace ExchangeArchive.Yaml

/-! ## Gaps between words -/

/-- The white space between two words: blanks on one line, or line breaks. -/
structure Gap where
  /-- The blanks before any line break, last first. -/
  blanks : List Char := []
  /-- Whether there was a line break, or an escaped one. -/
  broken : Bool := false
  /-- Whether the first line break counts. -/
  first : Bool := false
  /-- How many line breaks followed the first. -/
  more : Nat := 0

/-- The characters that a gap stands for, last first. -/
def Gap.folded (g : Gap) : List Char :=
  if g.broken then
    if g.first && g.more = 0 then [' '] else List.replicate g.more '\n'
  else g.blanks

/-- The gap from a place on, and the place after it. A plain scalar does not admit a tab
left of column `tabLimit` after a line break. -/
def takeGap (tabLimit : Option Nat) : (fuel : Nat) → Gap → Cursor → Option (Gap × Cursor)
  | 0, g, s => some (g, s)
  | fuel + 1, g, s =>
    if isBlank s.here then
      if g.broken then
        match tabLimit with
        | some limit =>
          if s.column < limit && s.here == '\t' then none else takeGap tabLimit fuel g s.next
        | none => takeGap tabLimit fuel g s.next
      else takeGap tabLimit fuel { g with blanks := s.here :: g.blanks } s.next
    else if isBreak s.here then
      if g.broken then takeGap tabLimit fuel { g with more := g.more + 1 } s.skipBreak
      else takeGap tabLimit fuel { g with broken := true, first := true } s.skipBreak
    else some (g, s)

/-! ## Plain scalars -/

/-- Whether a plain word ends before a character of its own kind. -/
def endsPlain (inFlow : Bool) (s : Cursor) : Bool :=
  match s.here with
  | ':' => isGap (s.ahead 1) || (inFlow && isFlowMark (s.ahead 1))
  | c => inFlow && isFlowMark c

/-- The characters of a plain word, last first, and the place after it. -/
def plainWord (inFlow : Bool) : (fuel : Nat) → List Char → Cursor → List Char × Cursor
  | 0, acc, s => (acc, s)
  | fuel + 1, acc, s =>
    if isGap s.here || endsPlain inFlow s then (acc, s)
    else plainWord inFlow fuel (s.here :: acc) s.next

/-- The words of a plain scalar with the gaps between them, last character first. `limit` is
the least column on which it can go on outside brackets. -/
def plainWords (inFlow : Bool) (limit : Nat) : (fuel : Nat) → List Char → Gap → Cursor →
    Option (List Char × Gap × Cursor)
  | 0, _, _, _ => none
  | fuel + 1, acc, gap, s =>
    if s.isAtDocumentMark || s.here == '#' then some (acc, gap, s)
    else
      let (word, after) := plainWord inFlow fuel [] s
      let (acc, gap) := if word.isEmpty then (acc, gap) else (word ++ gap.folded ++ acc, {})
      if !(isBlank after.here || isBreak after.here) then some (acc, gap, after)
      else match takeGap (some limit) fuel gap after with
        | none => none
        | some (gap, after) =>
          if !inFlow && after.column < limit then some (acc, gap, after)
          else plainWords inFlow limit fuel acc gap after

/-- A plain scalar: its text, the place after it, and whether a line break came last. -/
def plainScalar (inFlow : Bool) (limit : Nat) (s : Cursor) :
    Option (String × Cursor × Bool) :=
  match plainWords inFlow limit (s.rest.length + 1) [] {} s with
  | none => none
  | some (acc, gap, s) => some (String.ofList acc.reverse, s, gap.broken)

/-! ## Quoted scalars -/

/-- The character that a backslash and a letter stand for. -/
def shortEscape? (c : Char) : Option Char :=
  match c with
  | '0' => some '\x00'
  | 'a' => some '\x07'
  | 'b' => some '\x08'
  | 't' | '\t' => some '\t'
  | 'n' => some '\n'
  | 'v' => some '\x0b'
  | 'f' => some '\x0c'
  | 'r' => some '\r'
  | 'e' => some '\x1b'
  | ' ' => some ' '
  | '"' => some '"'
  | '\'' => some '\''
  | '\\' => some '\\'
  | 'N' => some '\u0085'
  | '_' => some '\u00a0'
  | 'L' => some '\u2028'
  | 'P' => some '\u2029'
  | _ => none

/-- How many hexadecimal digits follow a letter after a backslash. -/
def codeLength? (c : Char) : Option Nat :=
  match c with
  | 'x' => some 2
  | 'u' => some 4
  | 'U' => some 8
  | _ => none

/-- The character with a code, if there is one. -/
def character? (code : Nat) : Option Char :=
  if h : code.isValidChar then some (Char.ofNatAux code h) else none

/-- The number that hexadecimal digits stand for. -/
def hexNumber? (ds : List Char) : Option Nat :=
  ds.foldlM (fun n c => (Text.Hex.value? c).map fun d => n * 16 + d) 0

/-- The character of an escape whose backslash is here, and the place after the escape. -/
def escape? (s : Cursor) : Option (Char × Cursor) :=
  let c := s.ahead 1
  match shortEscape? c, codeLength? c with
  | some r, _ => some (r, s.skip 2)
  | none, some n => do
    let ds := (s.skip 2).rest.take n
    if ds.length < n then none
    else
      let r ← (hexNumber? ds).bind character?
      return (r, s.skip (2 + n))
  | none, none => none

/-- The characters of a quoted scalar up to white space or its end, last first, the place
after them, and whether they end in an escaped line break. -/
def quotedWord (single : Bool) : (fuel : Nat) → List Char → Cursor →
    Option (List Char × Cursor × Bool)
  | 0, acc, s => some (acc, s, false)
  | fuel + 1, acc, s =>
    if isGap s.here then some (acc, s, false)
    else match single, s.here with
      | true, '\'' =>
        if s.ahead 1 == '\'' then quotedWord single fuel ('\'' :: acc) (s.skip 2)
        else some (acc, s, false)
      | false, '"' => some (acc, s, false)
      | false, '\\' =>
        if isBreak (s.ahead 1) then some (acc, s.next.skipBreak, true)
        else match escape? s with
          | some (c, s) => quotedWord single fuel (c :: acc) s
          | none => none
      | _, c => quotedWord single fuel (c :: acc) s.next

/-- The rest of a quoted scalar, after its first mark. -/
def quotedWords (single : Bool) : (fuel : Nat) → List Char → Cursor →
    Option (List Char × Cursor)
  | 0, _, _ => none
  | fuel + 1, acc, s =>
    if s.isAtDocumentMark || isEnd s.here then none
    else match quotedWord single (s.rest.length + 1) [] s with
      | none => none
      | some (word, after, joined) =>
        let acc := word ++ acc
        let mark := if single then '\'' else '"'
        if after.here == mark then some (acc, after.next)
        else match takeGap none (after.rest.length + 1) { broken := joined } after with
          | none => none
          | some (gap, after) => quotedWords single fuel (gap.folded ++ acc) after

/-- A quoted scalar: its text and the place after it. -/
def quotedScalar (single : Bool) (s : Cursor) : Option (String × Cursor) :=
  match quotedWords single (s.rest.length + 1) [] s.next with
  | none => none
  | some (acc, s) => some (String.ofList acc.reverse, s)

/-! ## Blocks -/

/-- What becomes of the line breaks at the end of a block. -/
inductive Chomping where
  | strip
  | clip
  | keep
  deriving DecidableEq, Repr

/-- The sign of a header of a block, if there is one here. -/
def chomping? (s : Cursor) : Option Chomping :=
  match s.here with
  | '+' => some .keep
  | '-' => some .strip
  | _ => none

/-- The indentation that a header names, zero if it names none; it cannot name zero. -/
def blockIncrement (s : Cursor) : Option (Nat × Cursor) :=
  if s.here == '0' then none
  else if s.here.isDigit then some (s.here.toNat - '0'.toNat, s.next)
  else some (0, s)

/-- The header of a block after its first character, up to the end of the line. -/
def blockHeader (s : Cursor) : Option (Chomping × Nat × Cursor) := do
  let (chomping, increment, s) ← (match chomping? s with
    | some k => do
      let (n, s) ← blockIncrement s.next
      return (k, n, s)
    | none => do
      let (n, s) ← blockIncrement s
      match if n = 0 then none else chomping? s with
      | some k => return (k, n, s.next)
      | none => return (.clip, n, s) : Option (Chomping × Nat × Cursor))
  let s := s.skipComment
  if isBreakOrEnd s.here then some (chomping, increment, s.skipBreak) else none

/-- The spaces of indentation from a place on: up to column `indent`, or all if it is zero. -/
def skipIndent (indent : Nat) : (fuel : Nat) → Cursor → Cursor
  | 0, s => s
  | fuel + 1, s =>
    if (indent = 0 || s.column < indent) && s.here == ' ' then skipIndent indent fuel s.next
    else s

/-- The empty lines of a block: how many there are, the greatest column reached in them and
in the indentation after them, and the place there. A tab is no indentation. -/
def blockBreaks (indent : Nat) : (fuel : Nat) → (count greatest : Nat) → Cursor →
    Option (Nat × Nat × Cursor)
  | 0, count, greatest, s => some (count, greatest, s)
  | fuel + 1, count, greatest, s =>
    let s := skipIndent indent fuel s
    let greatest := max greatest s.column
    if (indent = 0 || s.column < indent) && s.here == '\t' then none
    else if isBreak s.here then blockBreaks indent fuel (count + 1) greatest s.skipBreak
    else some (count, greatest, s)

/-- The lines of a block, last character first. `pending` says whether a line break waits
before the next line, `breaks` how many empty lines do, and `led` whether the line before
began with a blank: next to such a line nothing is folded. -/
def blockLines (literal : Bool) (indent : Nat) : (fuel : Nat) → List Char →
    (pending : Bool) → (breaks : Nat) → (led : Bool) → Cursor →
    Option (List Char × Bool × Nat × Cursor)
  | 0, acc, pending, breaks, _, s => some (acc, pending, breaks, s)
  | fuel + 1, acc, pending, breaks, led, s =>
    if s.column != indent || isEnd s.here then some (acc, pending, breaks, s)
    else
      let blank := isBlank s.here
      let joint := if !pending then []
        else if literal || led || blank then ['\n']
        else if breaks = 0 then [' ']
        else []
      let (line, after) := s.takeWhile fun c => !isBreakOrEnd c
      let acc := line.reverse ++ List.replicate breaks '\n' ++ joint ++ acc
      if isEnd after.here then some (acc, false, 0, after)
      else match blockBreaks indent fuel 0 0 after.skipBreak with
        | none => none
        | some (breaks, _, after) => blockLines literal indent fuel acc true breaks blank after

/-- A block: its text and the place after it. `outer` is the indentation around it. -/
def blockScalar (literal : Bool) (outer : Option Nat) (s : Cursor) :
    Option (String × Cursor) := do
  let (chomping, increment, s) ← blockHeader s.next
  let fuel := s.rest.length + 1
  let named := if increment = 0 then 0 else outer.getD 0 + increment
  let (breaks, greatest, s) ← blockBreaks named fuel 0 0 s
  let least := match outer with
    | some n => n + 1
    | none => 0
  let indent := if named = 0 then max (max greatest least) 1 else named
  let (acc, pending, breaks, s) ← blockLines literal indent fuel [] false breaks false s
  let last := if pending && chomping != .strip then ['\n'] else []
  let tail := if chomping = .keep then List.replicate breaks '\n' else []
  return (String.ofList (tail ++ last ++ acc).reverse, s)

end ExchangeArchive.Yaml
