/-
Hexadecimal digits, and octets as pairs of them.

Digits are read in either case and written in lower case.
-/

set_option autoImplicit false

namespace ExchangeArchive.Text.Hex

/-- The digit for a value below sixteen. -/
def digit (n : Nat) : Char :=
  if n < 10 then Char.ofNat (0x30 + n) else Char.ofNat (0x61 + (n - 10))

/-- The value of a digit. -/
def value? (c : Char) : Option Nat :=
  if '0' ≤ c ∧ c ≤ '9' then some (c.toNat - '0'.toNat)
  else if 'a' ≤ c ∧ c ≤ 'f' then some (c.toNat - 'a'.toNat + 10)
  else if 'A' ≤ c ∧ c ≤ 'F' then some (c.toNat - 'A'.toNat + 10)
  else none

/-- The digits of an octet. -/
def octetDigits (b : UInt8) : List Char := [digit (b.toNat / 16), digit (b.toNat % 16)]

/-- The digits of octets. -/
def encode (bs : List UInt8) : List Char := bs.flatMap octetDigits

/-- The octets that pairs of digits stand for. -/
def decode? : List Char → Option (List UInt8)
  | [] => some []
  | h :: l :: rest => do
    let high ← value? h
    let low ← value? l
    let more ← decode? rest
    return UInt8.ofNat (high * 16 + low) :: more
  | _ => none

end ExchangeArchive.Text.Hex
