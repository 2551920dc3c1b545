/-
Octets as ASCII characters.
-/

set_option autoImplicit false

namespace ExchangeArchive.Text

/-- The character with the code of an octet. -/
def charOf (b : UInt8) : Char := Char.ofNat b.toNat

/-- Whether an octet is an ASCII letter or digit. -/
def isAlphanumeric (b : UInt8) : Bool :=
  (0x30 ≤ b && b ≤ 0x39) || (0x41 ≤ b && b ≤ 0x5A) || (0x61 ≤ b && b ≤ 0x7A)

/-- The octet with an upper-case letter made lower-case. -/
def lowerOctet (b : UInt8) : UInt8 := if 0x41 ≤ b && b ≤ 0x5A then b + 0x20 else b

/-- The text with one character for each octet. -/
def ofAscii (bs : List UInt8) : String := String.ofList (bs.map charOf)

end ExchangeArchive.Text
