import ExchangeArchive.Decimal.Power
import ExchangeArchive.Text.Blank
import ExchangeArchive.Time.Millis
/-
Lengths of time as people write them: `1h 30m`, `2days`, `1.5s`.

A written length is a sum of numbers with units; white space may stand around each of
them, and inside numbers. A month is 30.44 days and a year 365.25. The greatest length is
one nanosecond short of `2 ^ 64` seconds. Numbers have 64 bits, and a fraction must come
to a whole number of seconds or, for minutes and less, of nanoseconds. The text written
for a length splits it into these units, greatest first.
-/

set_option autoImplicit false

namespace ExchangeArchive.Time

open ExchangeArchive.Decimal ExchangeArchive.Text

/-! ## Units -/

/-- A unit of time. -/
inductive TimeUnit where
  | nanosecond
  | microsecond
  | millisecond
  | second
  | minute
  | hour
  | day
  | week
  | month
  | year
  deriving DecidableEq, Repr

namespace TimeUnit

/-- The names of a unit. -/
def names : TimeUnit → List String
  | .nanosecond => ["nanos", "nsec", "ns"]
  | .microsecond => ["usec", "us", "µs"]
  | .millisecond => ["millis", "msec", "ms"]
  | .second => ["seconds", "second", "secs", "sec", "s"]
  | .minute => ["minutes", "minute", "min", "mins", "m"]
  | .hour => ["hours", "hour", "hrs", "hr", "h"]
  | .day => ["days", "day", "d"]
  | .week => ["weeks", "week", "wk", "wks", "w"]
  | .month => ["months", "month", "M"]
  | .year => ["years", "year", "yr", "yrs", "y"]

/-- All units. -/
def all : List TimeUnit :=
  [.nanosecond, .microsecond, .millisecond, .second, .minute, .hour, .day, .week, .month, .year]

/-- The unit with a name. -/
def ofName? (name : String) : Option TimeUnit := all.find? fun u => u.names.contains name

/-- Whether a unit is less than a second. -/
def isSubsecond : TimeUnit → Bool
  | .nanosecond | .microsecond | .millisecond => true
  | _ => false

/-- A unit in nanoseconds, for the units below a second, or else in seconds. -/
def size : TimeUnit → Nat
  | .nanosecond => 1
  | .microsecond => 1000
  | .millisecond => 1000000
  | .second => 1
  | .minute => 60
  | .hour => 3600
  | .day => 86400
  | .week => 604800
  | .month => 2630016
  | .year => 31557600

/-- The unit in nanoseconds if fractions of it are counted in nanoseconds. -/
def fineSize? : TimeUnit → Option Nat
  | .microsecond => some 1000
  | .millisecond => some 1000000
  | .second => some 1000000000
  | .minute => some 60000000000
  | _ => none

end TimeUnit

/-! ## Reading -/

/-- Why a text is no length of time. -/
inductive DurationFault where
  /-- The text is not of the form, or a number in it is too large. -/
  | invalid
  /-- The sum exceeds the greatest length in its very last carry. -/
  | overflow
  deriving DecidableEq, Repr

/-- A number of 64 bits. -/
def word (n : Nat) : Except DurationFault Nat := if n < twoTo 64 then .ok n else .error .invalid

/-- An exact quotient. -/
def exactQuotient (n d : Nat) : Except DurationFault Nat :=
  if n % d = 0 then .ok (n / d) else .error .invalid

/-- A length with seconds and nanoseconds added. -/
def addParts (total seconds nanos : Nat) : Except DurationFault Nat := do
  let nanos ← word (total % nanosPerSecond + nanos)
  let (carry, nanos) := if nanosPerSecond < nanos then
    (nanos / nanosPerSecond, nanos % nanosPerSecond) else (0, nanos)
  let seconds ← word (seconds + carry)
  let seconds ← word (total / nanosPerSecond + seconds)
  let total := seconds * nanosPerSecond + nanos
  if total < twoTo 64 * nanosPerSecond then .ok total else .error .overflow

/-- A number's fraction: `numerator / denominator`. -/
structure Fraction where
  numerator : Nat
  denominator : Nat

/-- A length with the whole part of a number of units added. -/
def addWhole (total n : Nat) (u : TimeUnit) : Except DurationFault Nat := do
  let n ← word (n * u.size)
  if u.isSubsecond then addParts total 0 n else addParts total n 0

/-- A length with the fraction of a number of units added. There is nothing less than a
nanosecond. -/
def addFraction (total : Nat) (f : Fraction) (u : TimeUnit) : Except DurationFault Nat := do
  match u, u.fineSize? with
  | .nanosecond, _ => throw .invalid
  | _, some size =>
    let n ← word (f.numerator * size)
    addParts total 0 (← exactQuotient n f.denominator)
  | _, none =>
    let n ← word (f.numerator * u.size)
    addParts total (← exactQuotient n f.denominator) 0

/-- How far a length has been read. -/
inductive DurationPhase where
  /-- Before the first number. -/
  | start
  /-- Between a unit and the next number. -/
  | between
  /-- In the whole part of a number. -/
  | whole (n : Nat)
  /-- In the fraction of a number. -/
  | fraction (n : Nat) (f : Fraction)
  /-- In the name of a unit, its last character first. -/
  | unit (n : Nat) (f : Option Fraction) (name : List Char)

/-- Whether a character may stand in the name of a unit. -/
def isUnitLetter (c : Char) : Bool := c.isAlpha || c == 'µ'

/-- A length with a number of units added. -/
def addUnits (total n : Nat) (f : Option Fraction) (name : List Char) :
    Except DurationFault Nat := do
  match TimeUnit.ofName? (String.ofList name.reverse) with
  | none => throw .invalid
  | some u =>
    let total ← addWhole total n u
    match f with
    | none => return total
    | some f => addFraction total f u

/-- Takes a character. -/
def durationStep (total : Nat) (phase : DurationPhase) (c : Char) :
    Except DurationFault (Nat × DurationPhase) := do
  let digit := c.toNat - '0'.toNat
  match phase with
  | .start | .between =>
    if c.isDigit then return (total, .whole digit)
    else if isBlank c then return (total, phase)
    else throw .invalid
  | .whole n =>
    if c.isDigit then return (total, .whole (← word (n * 10 + digit)))
    else if isBlank c then return (total, .whole n)
    else if isUnitLetter c then return (total, .unit n none [c])
    else if c == '.' then return (total, .fraction n ⟨0, 1⟩)
    else throw .invalid
  | .fraction n f =>
    if c.isDigit then
      return (total, .fraction n ⟨← word (f.numerator * 10 + digit), ← word (f.denominator * 10)⟩)
    else if isBlank c then return (total, .fraction n f)
    else if isUnitLetter c && f.denominator != 1 then return (total, .unit n (some f) [c])
    else throw .invalid
  | .unit n f name =>
    if c.isDigit then return (← addUnits total n f name, .whole digit)
    else if isBlank c then return (← addUnits total n f name, .between)
    else if isUnitLetter c then return (total, .unit n f (c :: name))
    else throw .invalid

/-- Reads the rest of a length. -/
def readDurationFrom : Nat → DurationPhase → List Char → Except DurationFault Nat
  | total, .between, [] => .ok total
  | total, .unit n f name, [] => addUnits total n f name
  | _, _, [] => .error .invalid
  | total, phase, c :: rest => do
    let (total, phase) ← durationStep total phase c
    readDurationFrom total phase rest

/-- The nanoseconds of a written length; a lone zero needs no unit. -/
def readDuration (cs : List Char) : Except DurationFault Nat :=
  if cs == ['0'] then .ok 0 else readDurationFrom 0 .start cs

/-! ## Writing -/

/-- A number with its unit, unless the number is zero. -/
def durationItem (n : Nat) (unit : String) (plural : Bool) : Option String :=
  if n = 0 then none
  else some (toString n ++ unit ++ (if plural && 1 < n then "s" else ""))

/-- The written form of so many nanoseconds. -/
def durationText (total : Nat) : String :=
  let seconds := total / nanosPerSecond
  let nanos := total % nanosPerSecond
  let inYear := seconds % 31557600
  let inMonth := inYear % 2630016
  let inDay := inMonth % 86400
  let items := [
    durationItem (seconds / 31557600) "year" true,
    durationItem (inYear / 2630016) "month" true,
    durationItem (inMonth / 86400) "day" true,
    durationItem (inDay / 3600) "h" false,
    durationItem (inDay % 3600 / 60) "m" false,
    durationItem (inDay % 60) "s" false,
    durationItem (nanos / 1000000) "ms" false,
    durationItem (nanos / 1000 % 1000) "us" false,
    durationItem (nanos % 1000) "ns" false].filterMap id
  if items.isEmpty then "0s" else " ".intercalate items

end ExchangeArchive.Time
