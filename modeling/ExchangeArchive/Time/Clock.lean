import ExchangeArchive.Time.Timestamp
/-
The clock.

One clock tells both the time of day and how much time has passed. It stands still
except where it is advanced.
-/

set_option autoImplicit false

namespace ExchangeArchive.Time

/-- A clock: the nanoseconds from the start of 1970 to when it was started, and the
nanoseconds since. -/
structure Clock where
  started : Nat
  elapsed : Nat := 0
  deriving DecidableEq, Repr

namespace Clock

/-- The time of day. -/
def timestamp (c : Clock) : Timestamp := Timestamp.ofNanos (c.started + c.elapsed)

/-- The clock after so many nanoseconds. -/
def advance (nanos : Nat) (c : Clock) : Clock := { c with elapsed := c.elapsed + nanos }

end Clock

end ExchangeArchive.Time
