import ExchangeArchive.Decimal.Power
/-
Double-precision numbers as exact rationals.

A finite double is a sign, a natural mantissa and a power of two. `nearestBits` goes
the other way: it rounds a non-negative quotient to the nearest double, a half going
to the even mantissa, and says when the quotient is too large for any. Everything
here is arithmetic on natural numbers; the machine's own operations are not used.
-/

set_option autoImplicit false

namespace ExchangeArchive.Decimal

/-! ## Taking a double apart -/

/-- The magnitude `mantissa * 2 ^ exponent` of a finite double, and its sign. -/
structure Parts where
  negative : Bool
  mantissa : Nat
  exponent : Int
  deriving DecidableEq, Repr

/-- The bits of the sign, the exponent and the fraction. -/
def signBit (bits : Nat) : Bool := bits / twoTo 63 % 2 == 1

/-- The exponent field. -/
def exponentField (bits : Nat) : Nat := bits / twoTo 52 % twoTo 11

/-- The fraction field. -/
def fractionField (bits : Nat) : Nat := bits % twoTo 52

/-- The parts of a double, unless it is infinite or not a number. -/
def parts? (x : Float) : Option Parts :=
  let bits := x.toBits.toNat
  let e := exponentField bits
  let f := fractionField bits
  if e = 2047 then none
  else if e = 0 then some ⟨signBit bits, f, -1074⟩
  else some ⟨signBit bits, f + twoTo 52, (e : Int) - 1075⟩

/-- Whether a double is neither infinite nor not a number. -/
def isFinite (x : Float) : Bool := (parts? x).isSome

/-! ## Rounding a quotient -/

/-- The quotient rounded to a natural number, a half going to the even one. -/
def roundHalfEven (num den : Nat) : Nat :=
  let q := num / den
  let r := num % den
  if 2 * r < den then q
  else if den < 2 * r then q + 1
  else if q % 2 = 0 then q
  else q + 1

/-- The floor of the binary logarithm of a positive quotient. -/
def floorLog2 (num den : Nat) : Int :=
  let l : Int := (num.log2 : Int) - (den.log2 : Int)
  let reached := if 0 ≤ l then den * twoTo l.toNat ≤ num else den ≤ num * twoTo (-l).toNat
  if reached then l else l - 1

/-- The bits, without sign, of the double nearest to `num / den`; none if it is beyond
every finite double. -/
def nearestBits (num den : Nat) : Option Nat :=
  if num = 0 then some 0
  else
    let q : Int := max (floorLog2 num den - 52) (-1074)
    let m := if 0 ≤ q then roundHalfEven num (den * twoTo q.toNat)
      else roundHalfEven (num * twoTo (-q).toNat) den
    let bits := (q + 1074).toNat * twoTo 52 + m
    if bits < 2047 * twoTo 52 then some bits else none

/-- The double with the given sign and bits. -/
def ofSignedBits (negative : Bool) (bits : Nat) : Float :=
  Float.ofBits (UInt64.ofNat (if negative then twoTo 63 + bits else bits))

/-- The double nearest to an integer below `2 ^ 64` in magnitude. -/
def ofInt (i : Int) : Float := ofSignedBits (i < 0) ((nearestBits i.natAbs 1).getD 0)

end ExchangeArchive.Decimal
