import ExchangeArchive.Decimal.Power
import ExchangeArchive.Text.Ascii
import ExchangeArchive.Text.Blank
import ExchangeArchive.Text.Utf8
/-
Request targets.

A target is a path, an authority alone, or a scheme with an authority and maybe a path
and a query; a fragment is dropped. A path may be missing where the authority is
followed at once by the query, and is then shown as `/`. Octets beyond ASCII may stand
in a path or query if they are UTF-8.
-/

set_option autoImplicit false

namespace ExchangeArchive.Http

open ExchangeArchive.Decimal ExchangeArchive.Text

/-- Why octets are no request target. -/
inductive UriFault where
  | invalidCharacter
  | invalidAuthority
  | invalidFormat
  | tooLong
  | empty
  | schemeTooLong
  deriving DecidableEq, Repr

/-- The wording of a fault. -/
def UriFault.message : UriFault → String
  | .invalidCharacter => "invalid uri character"
  | .invalidAuthority => "invalid authority"
  | .invalidFormat => "invalid format"
  | .tooLong => "uri too long"
  | .empty => "empty string"
  | .schemeTooLong => "scheme too long"

/-- A request target. Path and query are as written, the query without its mark. -/
structure Uri where
  scheme : Option String
  authority : Option String
  path : String
  query : Option String
  deriving DecidableEq, Repr

namespace Uri

/-! ## Showing -/

/-- The path as shown: it is `/` if it is empty and something else calls for a path. -/
def shownPath (u : Uri) : String :=
  if u.path.isEmpty && (u.query.isSome || u.scheme.isSome) then "/" else u.path

/-- The query with its mark. -/
def shownQuery (u : Uri) : String :=
  match u.query with
  | some q => "?" ++ q
  | none => ""

/-- The target as one text. -/
def toText (u : Uri) : String :=
  (match u.scheme with
    | some s => s ++ "://"
    | none => "") ++ u.authority.getD "" ++ u.shownPath ++ u.shownQuery

/-! ## Parts of the authority -/

/-- The authority without user information. -/
def hostAndPort (authority : String) : List Char :=
  match splitLast? '@' authority.toList with
  | some (_, after) => after
  | none => authority.toList

/-- The host of an authority, an IPv6 address with its brackets. -/
def hostOf (authority : String) : String :=
  String.ofList (match hostAndPort authority with
    | '[' :: rest => '[' :: rest.takeWhile (· != ']') ++ [']']
    | cs => cs.takeWhile (· != ':'))

/-- The number that a port stands for: decimal digits, maybe after a plus sign, below
`2 ^ 16`. -/
def portNumber? (cs : List Char) : Option Nat :=
  let ds := match cs with
    | '+' :: rest => rest
    | _ => cs
  if ds.isEmpty || !ds.all Char.isDigit then none
  else
    let n := ds.foldl (fun n c => n * 10 + (c.toNat - '0'.toNat)) 0
    if n < twoTo 16 then some n else none

/-- The port of an authority as written: what follows its last colon. -/
def portOf? (authority : String) : Option (List Char) :=
  (splitLast? ':' authority.toList).map Prod.snd

/-- The host of a target. -/
def host? (u : Uri) : Option String := u.authority.map hostOf

/-- The port of a target, if it names one. -/
def port? (u : Uri) : Option Nat := (u.authority.bind portOf?).bind portNumber?

/-! ## Reading the authority -/

/-- The counts kept while reading an authority. A colon or a percent sign of user
information or of an IPv6 address is forgotten again. -/
structure AuthorityScan where
  colons : Nat := 0
  opened : Bool := false
  closed : Bool := false
  percent : Bool := false

/-- Whether an octet ends an authority. -/
def endsAuthority (b : UInt8) : Bool := b == 0x2F || b == 0x3F || b == 0x23

/-- The punctuation that may stand in an authority without further meaning. -/
def isAuthorityMark (c : Char) : Bool := "!$&'()*+,-.;=_~".toList.contains c

/-- Takes an octet of an authority. -/
def AuthorityScan.step (s : AuthorityScan) (b : UInt8) : Except UriFault AuthorityScan :=
  match charOf b with
  | ':' => if 8 ≤ s.colons then .error .invalidAuthority else .ok { s with colons := s.colons + 1 }
  | '[' => if s.percent || s.opened then .error .invalidAuthority else .ok { s with opened := true }
  | ']' =>
    if !s.opened || s.closed then .error .invalidAuthority
    else .ok { s with closed := true, colons := 0, percent := false }
  | '@' => .ok { s with colons := 0, percent := false }
  | '%' => .ok { s with percent := true }
  | c => if isAlphanumeric b || isAuthorityMark c then .ok s else .error .invalidCharacter

/-- Whether the counts at the end of an authority are right: brackets in a pair, at most
one colon before the port, no percent sign in the host. -/
def AuthorityScan.isSound (s : AuthorityScan) : Bool :=
  s.opened == s.closed && s.colons ≤ 1 && !s.percent

/-- The authority at the front of non-empty octets. -/
def readAuthority (bs : List UInt8) : Except UriFault (List UInt8) := do
  if bs.isEmpty then throw .empty
  let authority := bs.takeWhile fun b => !endsAuthority b
  let s ← authority.foldlM AuthorityScan.step {}
  if s.isSound && authority.getLast? != some 0x40 then return authority
  else throw .invalidAuthority

/-! ## Reading the scheme -/

/-- Whether an octet may stand in a scheme. -/
def isSchemeOctet (b : UInt8) : Bool :=
  isAlphanumeric b || b == 0x2B || b == 0x2D || b == 0x2E || b == 0x7E

/-- The octets after a text in any letter case, if they start with it. -/
def after? (start : String) (bs : List UInt8) : Option (List UInt8) :=
  let s := Utf8.encode start.toList
  if (bs.take s.length).map lowerOctet == s then some (bs.drop s.length) else none

/-- The scheme and what follows its slashes. The two schemes of the web are lower-case in
any case; others stand as written. -/
def readScheme (bs : List UInt8) : Except UriFault (Option String × List UInt8) :=
  match after? "http://" bs, after? "https://" bs with
  | some rest, _ => .ok (some "http", rest)
  | none, some rest => .ok (some "https", rest)
  | none, none =>
    let scheme := bs.takeWhile isSchemeOctet
    match bs.drop scheme.length with
    | 0x3A :: 0x2F :: 0x2F :: rest =>
      if bs.length ≤ 3 then .ok (none, bs)
      else if 64 < scheme.length then .error .schemeTooLong
      else .ok (some (ofAscii scheme), rest)
    | _ => .ok (none, bs)

/-! ## Reading path and query -/

/-- Whether an octet may stand in a query. -/
def isQueryOctet (b : UInt8) : Bool :=
  b == 0x21 || (0x24 ≤ b && b ≤ 0x3B) || b == 0x3D || 0x3F ≤ b

/-- Whether an octet may stand in a path. -/
def isPathOctet (b : UInt8) : Bool :=
  b == 0x21 || b == 0x22 || (0x24 ≤ b && b ≤ 0x3B) || b == 0x3D || (0x40 ≤ b && b ≤ 0x5F) ||
    0x61 ≤ b

/-- The octets up to a fragment. -/
def withoutFragment (bs : List UInt8) : List UInt8 := bs.takeWhile (· != 0x23)

/-- The text of octets that must be UTF-8. -/
def utf8Text (bs : List UInt8) : Except UriFault String :=
  match Utf8.decode? bs with
  | some cs => .ok (String.ofList cs)
  | none => .error .invalidCharacter

/-- The path and the query of octets. -/
def readPathAndQuery (bs : List UInt8) : Except UriFault (String × Option String) := do
  let bs := withoutFragment bs
  let path := bs.takeWhile (· != 0x3F)
  if !path.all isPathOctet then throw .invalidCharacter
  match bs.drop path.length with
  | [] => return (← utf8Text path, none)
  | _ :: query =>
    if !query.all isQueryOctet then throw .invalidCharacter
    return (← utf8Text path, some (← utf8Text query))

/-! ## Reading a target -/

/-- Reads a target that does not start with a slash. -/
def readFull (bs : List UInt8) : Except UriFault Uri := do
  let (scheme, rest) ← readScheme bs
  let authority ← readAuthority rest
  match scheme with
  | none =>
    if authority.length = bs.length then return ⟨none, some (ofAscii authority), "", none⟩
    else throw .invalidFormat
  | some scheme =>
    if authority.isEmpty then throw .invalidFormat
    let (path, query) ← readPathAndQuery (rest.drop authority.length)
    return ⟨some scheme, some (ofAscii authority), path, query⟩

/-- Reads a target. -/
def read (bs : List UInt8) : Except UriFault Uri :=
  if 65534 < bs.length then .error .tooLong
  else match bs with
    | [] => .error .empty
    | [0x2A] => .ok ⟨none, none, "*", none⟩
    | [b] =>
      if b = 0x2F then .ok ⟨none, none, "/", none⟩
      else do
        let authority ← readAuthority [b]
        if authority.isEmpty then throw .invalidCharacter
        return ⟨none, some (ofAscii authority), "", none⟩
    | 0x2F :: _ => do
      let (path, query) ← readPathAndQuery bs
      return ⟨none, none, path, query⟩
    | _ => readFull bs

end Uri

end ExchangeArchive.Http
