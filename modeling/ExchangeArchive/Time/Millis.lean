import ExchangeArchive.Decimal.Double
/-
Lengths of time in milliseconds.

Inside the library a length of time is a natural number of nanoseconds, so sums and
differences are exact. Only a record turns it into a double: the whole seconds and the
fraction of a second are rounded each on its own, added, and taken a thousandfold.
-/

set_option autoImplicit false

namespace ExchangeArchive.Time

/-- The nanoseconds of a second. -/
def nanosPerSecond : Nat := 1000000000

/-- The length of time of so many nanoseconds, in milliseconds. What is left of a second is rounded
before it is taken a thousandfold, so a whole number of milliseconds need not stay one. -/
def millis (nanos : Nat) : Float :=
  (Decimal.ofInt (nanos / nanosPerSecond : Nat) +
    Decimal.ofInt (nanos % nanosPerSecond : Nat) / 1000000000.0) * 1000.0

example : millis 1500000000 = 1500.0 := by decide +kernel

example : millis 1001000000 = 1000.9999999999999 := by decide +kernel

end ExchangeArchive.Time
