import ExchangeArchive.Time.Calendar
/-
Points in time, to the nanosecond, in UTC.

A timestamp counts seconds from the start of 1970 and nanoseconds in the second. A
leap second is written as a second of more than `10 ^ 9` nanoseconds, and only the
last second of a minute may be one. The years run from -262143 to 262142. All three
bounds are part of the type, so a timestamp that exists can be written and read back.
-/

set_option autoImplicit false

namespace ExchangeArchive.Time

/-- The first second of year -262143. -/
def Timestamp.firstSecond : Int := (Date.dayNumber ⟨-262143, 1, 1⟩) * 86400

/-- The last second of year 262142. -/
def Timestamp.lastSecond : Int := (Date.dayNumber ⟨262142, 12, 31⟩) * 86400 + 86399

/-- The bounds that a timestamp keeps. -/
def Timestamp.InRange (second : Int) (nano : Nat) : Prop :=
  Timestamp.firstSecond ≤ second ∧ second ≤ Timestamp.lastSecond ∧ nano < 2000000000 ∧
    (1000000000 ≤ nano → second % 60 = 59)

instance (second : Int) (nano : Nat) : Decidable (Timestamp.InRange second nano) := by
  unfold Timestamp.InRange; infer_instance

/-- A point in time in UTC. -/
structure Timestamp where
  second : Int
  nano : Nat
  inRange : Timestamp.InRange second nano

namespace Timestamp

instance : DecidableEq Timestamp := fun a b =>
  if h : a.second = b.second ∧ a.nano = b.nano then
    isTrue (by cases a; cases b; simp_all)
  else
    isFalse (by rintro rfl; simp at h)

/-- The start of 1970. -/
def epoch : Timestamp := ⟨0, 0, by decide +kernel⟩

instance : Inhabited Timestamp := ⟨epoch⟩

/-- The timestamp with these counts, if it is in range. -/
def of? (second : Int) (nano : Nat) : Option Timestamp :=
  if h : InRange second nano then some ⟨second, nano, h⟩ else none

/-- The point so many nanoseconds after the start of 1970, or the last one if there is
no such point. -/
def ofNanos (n : Nat) : Timestamp :=
  (of? (n / 1000000000 : Nat) (n % 1000000000)).getD
    ⟨lastSecond, 999999999, by decide +kernel⟩

/-! ## Fields of the clock and the calendar -/

/-- The day of the timestamp. -/
def date (t : Timestamp) : Date := Date.ofDayNumber (t.second / 86400)

/-- The second of the day. -/
def secondOfDay (t : Timestamp) : Nat := (t.second % 86400).toNat

def hour (t : Timestamp) : Nat := t.secondOfDay / 3600

def minute (t : Timestamp) : Nat := t.secondOfDay / 60 % 60

/-- The second of the minute, 60 in a leap second. -/
def secondOfMinute (t : Timestamp) : Nat := t.secondOfDay % 60 + t.nano / 1000000000

/-- The nanoseconds within the second shown. -/
def subsecond (t : Timestamp) : Nat := t.nano % 1000000000

/-! ## Writing -/

/-- A natural number in at least `width` digits. -/
def padded (width n : Nat) : List Char :=
  let ds := n.repr.toList
  List.replicate (width - ds.length) '0' ++ ds

/-- A year: four digits from 0 to 9999, and any other with a sign. -/
def yearText (y : Int) : List Char :=
  if 0 ≤ y ∧ y ≤ 9999 then padded 4 y.toNat
  else (if y < 0 then '-' else '+') :: padded 4 y.natAbs

/-- The year, month and day with dashes. -/
def dateText (d : Date) : List Char :=
  yearText d.year ++ '-' :: padded 2 d.month ++ '-' :: padded 2 d.day

/-- The fraction of a second, in the fewest groups of three digits that hold it. -/
def fractionText (nanos : Nat) : List Char :=
  if nanos = 0 then []
  else if nanos % 1000000 = 0 then '.' :: padded 3 (nanos / 1000000)
  else if nanos % 1000 = 0 then '.' :: padded 6 (nanos / 1000)
  else '.' :: padded 9 nanos

/-- The RFC 3339 form in UTC. -/
def rfc3339 (t : Timestamp) : List Char :=
  dateText t.date ++ 'T' :: padded 2 t.hour ++ ':' :: padded 2 t.minute ++
    ':' :: padded 2 t.secondOfMinute ++ fractionText t.subsecond ++ ['Z']

/-- The form used in file names: no colons, and always three digits of the second. -/
def fileText (t : Timestamp) : List Char :=
  dateText t.date ++ '_' :: padded 2 t.hour ++ '-' :: padded 2 t.minute ++
    '-' :: padded 2 t.secondOfMinute ++ '.' :: padded 3 (t.subsecond / 1000000)

end Timestamp

end ExchangeArchive.Time
