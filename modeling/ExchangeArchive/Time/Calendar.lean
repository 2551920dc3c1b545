/-
The proleptic Gregorian calendar on day numbers.

Days are counted from 1970-01-01. The conversions count years from 1 March, so that
the leap day is the last day of its year: then a day number is a count of 400-year
cycles, of centuries in the cycle, of 4-year groups in the century, of years in the
group and of days in the year, and the month follows from the day of the year alone.
-/

set_option autoImplicit false

namespace ExchangeArchive.Time

/-- A day of the calendar, in the usual terms. -/
structure Date where
  year : Int
  month : Nat
  day : Nat
  deriving DecidableEq, Repr

namespace Date

/-- Whether a year has a 29 February. -/
def isLeap (year : Int) : Bool :=
  year % 4 == 0 && (year % 100 != 0 || year % 400 == 0)

/-- How many days a month has; none if it is no month. -/
def daysInMonth (year : Int) (month : Nat) : Nat :=
  match month with
  | 1 | 3 | 5 | 7 | 8 | 10 | 12 => 31
  | 4 | 6 | 9 | 11 => 30
  | 2 => if isLeap year then 29 else 28
  | _ => 0

/-- Whether the calendar has this day. -/
def isValid (d : Date) : Bool := 1 ≤ d.day && d.day ≤ daysInMonth d.year d.month

/-- The number of days from 1 March to the first day of a month of the same
March-based year, the months being numbered from March as 0. -/
def daysBeforeMonth (m : Nat) : Nat := (153 * m + 2) / 5

/-- The day number of 1 March of a year: of the cycle, then of the year in it. -/
def marchFirst (year : Int) : Int :=
  let y := year % 400
  year / 400 * 146097 + (365 * y + y / 4 - y / 100) - 719468

/-- The day number of a day of the calendar. -/
def dayNumber (d : Date) : Int :=
  let m := (d.month + 9) % 12
  let y := if d.month ≤ 2 then d.year - 1 else d.year
  marchFirst y + (daysBeforeMonth m + (d.day - 1) : Nat)

/-- The day of the calendar with a day number. -/
def ofDayNumber (n : Int) : Date :=
  let days := n + 719468
  let cycle := days / 146097
  let inCycle := (days % 146097).toNat
  let century := min (inCycle / 36524) 3
  let inCentury := inCycle - century * 36524
  let group := inCentury / 1461
  let inGroup := inCentury - group * 1461
  let yearInGroup := min (inGroup / 365) 3
  let dayOfYear := inGroup - yearInGroup * 365
  let year := cycle * 400 + (century * 100 + group * 4 + yearInGroup : Nat)
  let m := (5 * dayOfYear + 2) / 153
  let day := dayOfYear - daysBeforeMonth m + 1
  if m < 10 then ⟨year, m + 3, day⟩ else ⟨year + 1, m - 9, day⟩

/-- The day of the week, Monday being 0. -/
def weekday (n : Int) : Nat := ((n + 3) % 7).toNat

end Date

end ExchangeArchive.Time
