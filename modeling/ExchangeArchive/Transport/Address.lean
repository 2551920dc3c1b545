import ExchangeArchive.Text.Blank
import ExchangeArchive.Text.Hex
/-
Network addresses as texts.

An IPv4 address is four decimal octets without leading zeros. An IPv6 address is eight
groups of up to four hexadecimal digits; a run of zero groups may be left out once, and
the last two groups may be written like an IPv4 address. It is shown with its longest run
of zero groups left out, and with its end like an IPv4 address if it stands for one.
-/

set_option autoImplicit false

namespace ExchangeArchive.Transport

open ExchangeArchive.Text

/-- The address of a host. -/
inductive Ip where
  | v4 (octets : Vector Nat 4)
  | v6 (groups : Vector Nat 8)
  deriving DecidableEq, Repr

/-- The address of a service: of a host, and its port. -/
structure Address where
  ip : Ip
  port : Nat
  deriving DecidableEq, Repr

namespace Ip

/-! ## Reading -/

/-- The number that one to three decimal digits stand for, if it is an octet and they do not
begin with a zero that could be left out. -/
def octet? (cs : List Char) : Option Nat :=
  if cs.isEmpty || 3 < cs.length || !cs.all Char.isDigit then none
  else if cs.head? == some '0' && 1 < cs.length then none
  else
    let n := cs.foldl (fun n c => n * 10 + (c.toNat - '0'.toNat)) 0
    if n < 256 then some n else none

/-- The four octets of an IPv4 address. -/
def octets? (cs : List Char) : Option (Vector Nat 4) :=
  match (parts '.' cs).mapM octet? with
  | some [a, b, c, d] => some #v[a, b, c, d]
  | _ => none

/-- The number that one to four hexadecimal digits stand for. -/
def group? (cs : List Char) : Option Nat :=
  if cs.isEmpty || 4 < cs.length then none
  else cs.foldlM (fun n c => (Hex.value? c).map fun d => n * 16 + d) 0

/-- The groups with colons between them; the last two may be an IPv4 address. -/
def groups? : List (List Char) → Option (List Nat)
  | [] => some []
  | [p] =>
    match octets? p with
    | some v => some [v[0] * 256 + v[1], v[2] * 256 + v[3]]
    | none => (group? p).map fun g => [g]
  | p :: rest => do return (← group? p) :: (← groups? rest)

/-- The pieces between the colons; an empty text has none. -/
def pieces (cs : List Char) : List (List Char) := if cs.isEmpty then [] else parts ':' cs

/-- What comes before the first double colon and what comes after it. -/
def splitGap? : List Char → Option (List Char × List Char)
  | ':' :: ':' :: rest => some ([], rest)
  | c :: rest => (splitGap? rest).map fun (before, after) => (c :: before, after)
  | [] => none

/-- The address of eight groups. -/
def ofGroups? (gs : List Nat) : Option Ip :=
  if h : gs.toArray.size = 8 then some (.v6 ⟨gs.toArray, h⟩) else none

/-- The IPv6 address that a text stands for. -/
def readV6? (cs : List Char) : Option Ip :=
  match splitGap? cs with
  | none => (groups? (pieces cs)).bind ofGroups?
  | some (before, after) => do
    let head ← (pieces before).mapM group?
    let tail ← groups? (pieces after)
    if 7 < head.length + tail.length then none
    else ofGroups? (head ++ List.replicate (8 - head.length - tail.length) 0 ++ tail)

/-- The address that a text stands for. -/
def read? (s : String) : Option Ip :=
  match octets? s.toList with
  | some v => some (.v4 v)
  | none => readV6? s.toList

/-! ## Showing -/

/-- Four octets with points between them. -/
def showOctets (a b c d : Nat) : String := s!"{a}.{b}.{c}.{d}"

/-- A group without leading zeros. -/
def showGroup (g : Nat) : String := String.ofList (Nat.toDigits 16 g)

/-- Groups with colons between them. -/
def showGroups (gs : List Nat) : String := ":".intercalate (gs.map showGroup)

/-- The first of the longest runs of zeros, as its start and its length. `start` and `length`
are those of the run that ends before the group at `index`. -/
def longestRun : List Nat → (index start length : Nat) → (best : Nat × Nat) → Nat × Nat
  | [], _, _, _, best => best
  | g :: rest, index, start, length, best =>
    if g = 0 then
      let start := if length = 0 then index else start
      let best := if best.2 < length + 1 then (start, length + 1) else best
      longestRun rest (index + 1) start (length + 1) best
    else longestRun rest (index + 1) 0 0 best

/-- Eight groups as an IPv6 address. -/
def showV6 (gs : List Nat) : String :=
  match gs with
  | [0, 0, 0, 0, 0, 0xFFFF, high, low] =>
    "::ffff:" ++ showOctets (high / 256) (high % 256) (low / 256) (low % 256)
  | _ =>
    let (start, length) := longestRun gs 0 0 0 (0, 0)
    if 1 < length then showGroups (gs.take start) ++ "::" ++ showGroups (gs.drop (start + length))
    else showGroups gs

/-- The text of an address. -/
def toText : Ip → String
  | .v4 v => showOctets v[0] v[1] v[2] v[3]
  | .v6 v => showV6 v.toList

end Ip

/-- The text of an address with its port, an IPv6 address in brackets. -/
def Address.toText (a : Address) : String :=
  match a.ip with
  | .v4 _ => s!"{a.ip.toText}:{a.port}"
  | .v6 _ => s!"[{a.ip.toText}]:{a.port}"

end ExchangeArchive.Transport
