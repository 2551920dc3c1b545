import ExchangeArchive.Decimal.Double
/-
Decimal numerals: digits with a power of ten.

A numeral stands for `digits * 10 ^ exponent`. `toDouble?` reads it as the nearest
double; `shortest` is the numeral with the fewest digits that reads back as the given
double, and of two such numerals the nearer one. The search tries one digit, then
two, and so on; at each length it looks at the two neighbours of the exact value on
that decimal grid. Seventeen digits are always enough, and should they not be, the
numeral of the exact value is written, so that what is written always reads back.
-/

set_option autoImplicit false

namespace ExchangeArchive.Decimal

/-- The number `digits * 10 ^ exponent`. -/
structure Numeral where
  digits : Nat
  exponent : Int
  deriving DecidableEq, Repr

/-- How many decimal digits a natural number has. -/
def digitCount (n : Nat) : Nat := n.repr.length

namespace Numeral

/-! ## Reading -/

/-- The bits, without sign, of the double nearest to a numeral; none if it is beyond
every finite double. A numeral whose leading digit is far outside the range of
doubles is decided by its length alone. -/
def bits? (n : Numeral) : Option Nat :=
  if n.digits = 0 then some 0
  else
    let top := (digitCount n.digits : Int) + n.exponent
    if 400 < top then none
    else if top < -400 then some 0
    else if 0 ≤ n.exponent then nearestBits (n.digits * tenTo n.exponent.toNat) 1
    else nearestBits n.digits (tenTo (-n.exponent).toNat)

/-- The double nearest to a numeral with a sign. -/
def toDouble? (negative : Bool) (n : Numeral) : Option Float :=
  n.bits?.map (ofSignedBits negative)

/-! ## The fewest digits -/

/-- The position of the leading digit: `p` with `10 ^ (p - 1) ≤ num / den < 10 ^ p`. -/
def leading (num den : Nat) : Int :=
  let p : Int := (digitCount num : Int) - (digitCount den : Int)
  let reached := if 0 ≤ p then den * tenTo p.toNat ≤ num else den ≤ num * tenTo (-p).toNat
  if reached then p + 1 else p

/-- The neighbours of `num / den` on the grid of multiples of `10 ^ k`, the nearer one
first and of two equally near ones the even one first. -/
def neighbours (num den : Nat) (k : Int) : List Numeral :=
  let (a, b) := if 0 ≤ k then (num, den * tenTo k.toNat) else (num * tenTo (-k).toNat, den)
  let low := a / b
  let r := a % b
  if r = 0 then [⟨low, k⟩]
  else if 2 * r < b ∨ (2 * r = b ∧ low % 2 = 0) then [⟨low, k⟩, ⟨low + 1, k⟩]
  else [⟨low + 1, k⟩, ⟨low, k⟩]

/-- The first numeral of at most the given further lengths that reads back as `bits`. -/
def search (num den bits : Nat) (p : Int) : (length more : Nat) → Option Numeral
  | _, 0 => none
  | length, more + 1 =>
    match (neighbours num den (p - length)).find? fun n => n.bits? == some bits with
    | some n => some n
    | none => search num den bits p (length + 1) more

/-- The numeral without trailing zeros. -/
def stripZeros : (fuel : Nat) → Numeral → Numeral
  | 0, n => n
  | fuel + 1, n =>
    if n.digits ≠ 0 ∧ n.digits % 10 = 0 then stripZeros fuel ⟨n.digits / 10, n.exponent + 1⟩
    else n

/-- The numeral of `mantissa * 2 ^ exponent`, digit for digit. -/
def exact (mantissa : Nat) (exponent : Int) : Numeral :=
  if 0 ≤ exponent then ⟨mantissa * twoTo exponent.toNat, 0⟩
  else ⟨mantissa * Nat.pow 5 (-exponent).toNat, exponent⟩

/-- The shortest numeral that reads back as the magnitude of a finite double. -/
def shortest (x : Parts) : Numeral :=
  if x.mantissa = 0 then ⟨0, 0⟩
  else
    let (num, den) := if 0 ≤ x.exponent then (x.mantissa * twoTo x.exponent.toNat, 1)
      else (x.mantissa, twoTo (-x.exponent).toNat)
    match nearestBits num den with
    | none => exact x.mantissa x.exponent
    | some bits =>
      match search num den bits (leading num den) 1 17 with
      | some n => stripZeros 20 n
      | none => exact x.mantissa x.exponent

end Numeral

/-! ## Written numbers -/

/-- How a format writes a double: which exponents of the leading digit are written
positionally, whether a positional whole number ends in `.0`, and whether a positive
exponent carries a sign. -/
structure NumberStyle where
  positional : Int → Bool
  pointZero : Bool
  plusSign : Bool

/-- The digits of a natural number. -/
def natDigits (n : Nat) : List Char := n.repr.toList

/-- The numeral with a point and without an exponent. -/
def positionalText (pointZero : Bool) (n : Numeral) : List Char :=
  let ds := natDigits n.digits
  let tail := if pointZero then ['.', '0'] else []
  if 0 ≤ n.exponent then
    (if n.digits = 0 then ['0'] else ds ++ List.replicate n.exponent.toNat '0') ++ tail
  else
    let places := (-n.exponent).toNat
    if places < ds.length then
      ds.take (ds.length - places) ++ '.' :: ds.drop (ds.length - places)
    else
      '0' :: '.' :: (List.replicate (places - ds.length) '0' ++ ds)

/-- The numeral with one digit before the point and an exponent. -/
def scientificText (plusSign : Bool) (n : Numeral) : List Char :=
  let ds := natDigits n.digits
  let e : Int := (ds.length : Int) - 1 + n.exponent
  let mantissa := match ds with
    | [] => []
    | [d] => [d]
    | d :: more => d :: '.' :: more
  let sign := if e < 0 then ['-'] else if plusSign then ['+'] else []
  mantissa ++ 'e' :: sign ++ natDigits e.natAbs

/-- A finite double in the given notation. -/
def finiteText (style : NumberStyle) (x : Parts) : List Char :=
  let n := Numeral.shortest x
  let e : Int := (digitCount n.digits : Int) - 1 + n.exponent
  let sign := if x.negative then ['-'] else []
  sign ++ (if n.digits = 0 || style.positional e then positionalText style.pointZero n
    else scientificText style.plusSign n)

end ExchangeArchive.Decimal
