/-
Powers of the two bases that numbers are written in.

The widths of machine words are powers of two and the places of a decimal numeral are
powers of ten; both are natural numbers here, however large.
-/

set_option autoImplicit false

namespace ExchangeArchive.Decimal

/-- Two to the given power: how many values that many bits can hold. -/
def twoTo (n : Nat) : Nat := Nat.pow 2 n

/-- Ten to the given power. -/
def tenTo (n : Nat) : Nat := Nat.pow 10 n

end ExchangeArchive.Decimal
