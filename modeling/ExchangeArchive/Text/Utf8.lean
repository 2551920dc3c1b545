/-
UTF-8 as a function from octets to characters.

`next?` reads the one character that well-formed octets start with, by the nine
rows of the standard's table of well-formed sequences. Strict reading repeats it
and stops at the first octet that starts no character; lossy reading puts U+FFFD
for each maximal subpart of an ill-formed sequence and goes on after it.
-/

set_option autoImplicit false

namespace ExchangeArchive.Text.Utf8

/-- The octets of a text. -/
def encode (cs : List Char) : List UInt8 := cs.flatMap String.utf8EncodeChar

/-! ## One character -/

/-- The least and greatest octet that may follow the first octet `b` of a longer
sequence, and how many octets follow in all. -/
def follow? (b : UInt8) : Option (UInt8 × UInt8 × Nat) :=
  if 0xC2 ≤ b ∧ b ≤ 0xDF then some (0x80, 0xBF, 1)
  else if b = 0xE0 then some (0xA0, 0xBF, 2)
  else if b = 0xED then some (0x80, 0x9F, 2)
  else if 0xE1 ≤ b ∧ b ≤ 0xEF then some (0x80, 0xBF, 2)
  else if b = 0xF0 then some (0x90, 0xBF, 3)
  else if 0xF1 ≤ b ∧ b ≤ 0xF3 then some (0x80, 0xBF, 3)
  else if b = 0xF4 then some (0x80, 0x8F, 3)
  else none

/-- Whether an octet carries six further bits of a character. -/
def isTail (b : UInt8) : Bool := 0x80 ≤ b && b ≤ 0xBF

/-- The bits that an octet after the first adds. -/
def addTail (high : Nat) (b : UInt8) : Nat := high * 64 + (b.toNat - 0x80)

/-- What the octets start with: a character, or an ill-formed part of the given
length, which is at least one octet. -/
inductive Head where
  | char (c : Char) (width : Nat)
  | broken (width : Nat)
  deriving DecidableEq, Repr

/-- The head of a non-empty list of octets, `b` being its first. -/
def head (b : UInt8) (rest : List UInt8) : Head :=
  if b < 0x80 then .char (Char.ofNat b.toNat) 1
  else match follow? b, rest with
    | none, _ => .broken 1
    | some (low, high, n), b1 :: rest1 =>
      if low ≤ b1 ∧ b1 ≤ high then
        match n, rest1 with
        | 1, _ => .char (Char.ofNat (addTail (b.toNat - 0xC0) b1)) 2
        | 2, b2 :: _ =>
          if isTail b2 then
            .char (Char.ofNat (addTail (addTail (b.toNat - 0xE0) b1) b2)) 3
          else .broken 2
        | 3, b2 :: b3 :: _ =>
          if isTail b2 then
            if isTail b3 then
              .char (Char.ofNat (addTail (addTail (addTail (b.toNat - 0xF0) b1) b2) b3)) 4
            else .broken 3
          else .broken 2
        | 3, b2 :: [] => if isTail b2 then .broken 3 else .broken 2
        | _, _ => .broken 2
      else .broken 1
    | some _, [] => .broken 1

/-- How many octets a head takes. -/
def Head.width : Head → Nat
  | .char _ n => n
  | .broken n => n

/-! ## Texts -/

/-- The text that well-formed octets stand for. -/
def decode? : List UInt8 → Option (List Char)
  | [] => some []
  | b :: rest =>
    match head b rest with
    | .char c n => (decode? (rest.drop (n - 1))).map (c :: ·)
    | .broken _ => none
termination_by bs => bs.length
decreasing_by simp only [List.length_drop, List.length_cons]; omega

/-- The text that any octets stand for, U+FFFD taking the place of each maximal
subpart of an ill-formed sequence. -/
def decodeLossy : List UInt8 → List Char
  | [] => []
  | b :: rest =>
    match head b rest with
    | .char c n => c :: decodeLossy (rest.drop (n - 1))
    | .broken n => '\uFFFD' :: decodeLossy (rest.drop (n - 1))
termination_by bs => bs.length
decreasing_by all_goals (simp only [List.length_drop, List.length_cons]; omega)

end ExchangeArchive.Text.Utf8
