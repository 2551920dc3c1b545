import ExchangeArchive.Decimal.Power
import ExchangeArchive.Text.Blank
import ExchangeArchive.Time.Timestamp
/-
Reading points in time.

Two written forms are read. The relaxed RFC 3339 form lets the separator be a blank,
fields have fewer digits, years have a sign and any number of digits, and white space
stand around the parts; its faults say what is wrong. The RFC 2822 form is the one of
mail and of cookies, with its two-digit years, its zone names and its comments; of it
only success matters.
-/

set_option autoImplicit false

namespace ExchangeArchive.Time

open ExchangeArchive.Decimal ExchangeArchive.Text

/-- Why a text is no point in time. -/
inductive TimeFault where
  /-- The text ends before the form does. -/
  | tooShort
  /-- A character does not fit the form. -/
  | invalid
  /-- A field, or the whole, is beyond its bounds. -/
  | outOfRange
  /-- No point in time has these fields. -/
  | impossible
  /-- The text goes on after the form. -/
  | tooLong
  deriving DecidableEq, Repr

/-- The wording of a fault. -/
def TimeFault.message : TimeFault → String
  | .tooShort => "premature end of input"
  | .invalid => "input contains invalid characters"
  | .outOfRange => "input is out of range"
  | .impossible => "no possible date and time matching input"
  | .tooLong => "trailing input"

/-- The outcome of reading from the front of a text. -/
abbrev Scan := Except TimeFault

/-! ## Scanning -/

/-- The value of a decimal digit. -/
def digitValue (c : Char) : Nat := c.toNat - '0'.toNat

/-- The number that a list of digits stands for. -/
def numberOf (ds : List Char) : Nat := ds.foldl (fun n c => n * 10 + digitValue c) 0

/-- The digits at the front of a text, at most `most` of them if a bound is given. -/
def leadingDigits (most : Option Nat) (cs : List Char) : List Char :=
  let ds := cs.takeWhile Char.isDigit
  match most with
  | some n => ds.take n
  | none => ds

/-- A number of at least `least` and at most `most` digits. -/
def number (least : Nat) (most : Option Nat) (cs : List Char) : Scan (Nat × List Char) :=
  if cs.length < least then .error .tooShort
  else
    let ds := leadingDigits most cs
    if ds.length < least then .error .invalid
    else if twoTo 63 ≤ numberOf ds then .error .outOfRange
    else .ok (numberOf ds, cs.drop ds.length)

/-- A number within bounds. -/
def numberWithin (low high least : Nat) (most : Option Nat) (cs : List Char) :
    Scan (Nat × List Char) := do
  let (n, rest) ← number least most cs
  if low ≤ n ∧ n ≤ high then .ok (n, rest) else .error .outOfRange

/-- The given character. -/
def expect (c : Char) : List Char → Scan (List Char)
  | [] => .error .tooShort
  | d :: rest => if d == c then .ok rest else .error .invalid

/-- White space, at least one character of it. -/
def blanks (cs : List Char) : Scan (List Char) :=
  match cs with
  | [] => .error .tooShort
  | c :: _ => if isBlank c then .ok (trimStart cs) else .error .invalid

/-- The sign of an offset: whether it is negative. A form may allow U+2212 as a minus. -/
def offsetSign (minusSign : Bool) : List Char → Scan (Bool × List Char)
  | [] => .error .tooShort
  | '+' :: rest => .ok (false, rest)
  | '-' :: rest => .ok (true, rest)
  | c :: rest => if minusSign && c == '\u2212' then .ok (true, rest) else .error .invalid

/-- Whether a text takes at least two octets. -/
def hasTwoOctets : List Char → Bool
  | [] => false
  | [c] => 1 < c.utf8Size
  | _ => true

/-- The hours and minutes of an offset, in seconds; `gap` takes what may stand between. -/
def offsetDigits (gap : List Char → List Char) (cs : List Char) : Scan (Nat × List Char) := do
  if !hasTwoOctets cs then throw .tooShort
  match cs with
  | h1 :: h2 :: rest =>
    if !(h1.isDigit && h2.isDigit) then throw .invalid
    let hours := numberOf [h1, h2]
    let rest := gap rest
    if !hasTwoOctets rest then throw .tooShort
    match rest with
    | m1 :: m2 :: rest =>
      if !(m1.isDigit && m2.isDigit) then throw .invalid
      let minutes := numberOf [m1, m2]
      if 60 ≤ minutes then throw .outOfRange
      return (hours * 3600 + minutes * 60, rest)
    | _ => throw .invalid
  | _ => throw .invalid

/-- An offset from UTC in seconds, east being positive. -/
def offset (minusSign : Bool) (gap : List Char → List Char) (cs : List Char) :
    Scan (Int × List Char) := do
  let (negative, rest) ← offsetSign minusSign cs
  let (seconds, rest) ← offsetDigits gap rest
  return (if negative then -(seconds : Int) else seconds, rest)

/-! ## From fields to a timestamp -/

/-- The fields of a date and a time of day with its offset. -/
structure Fields where
  date : Date
  hour : Nat
  minute : Nat
  second : Nat
  nano : Nat
  offset : Int

/-- The years that have timestamps. -/
def isYear (y : Int) : Bool := -262143 ≤ y && y ≤ 262142

/-- The timestamp with these fields. The second 60 is the leap second after 59. -/
def Fields.toTimestamp (f : Fields) : Scan Timestamp := do
  if !(isYear f.date.year && f.date.isValid) then throw .outOfRange
  if 86400 ≤ f.offset.natAbs then throw .outOfRange
  let (second, leap) := if f.second = 60 then (59, 1000000000) else (f.second, 0)
  let local' : Int := f.date.dayNumber * 86400 + (f.hour * 3600 + f.minute * 60 + second : Nat)
  match Timestamp.of? (local' - f.offset) (leap + f.nano) with
  | some t => return t
  | none => throw .impossible

/-! ## The relaxed RFC 3339 form -/

/-- A year: at most four digits, or any number of them after a sign. -/
def year (cs : List Char) : Scan (Int × List Char) := do
  let (y, rest) ← (match cs with
    | '-' :: rest => do let (n, r) ← number 1 none rest; return (-(n : Int), r)
    | '+' :: rest => do let (n, r) ← number 1 none rest; return ((n : Int), r)
    | _ => do let (n, r) ← number 1 (some 4) cs; return ((n : Int), r) :
      Scan (Int × List Char))
  if -(twoTo 31 : Int) ≤ y ∧ y < twoTo 31 then .ok (y, rest) else .error .outOfRange

/-- The fraction of a second in nanoseconds; digits after the ninth are dropped. -/
def fraction (cs : List Char) : Scan (Nat × List Char) :=
  match cs with
  | '.' :: rest => do
    let (n, after) ← number 1 (some 9) rest
    let places := rest.length - after.length
    return (n * tenTo (9 - places), after.dropWhile Char.isDigit)
  | _ => .ok (0, cs)

/-- A field of one or two digits, white space before it. -/
def shortField (low high : Nat) (cs : List Char) : Scan (Nat × List Char) :=
  numberWithin low high 1 (some 2) (trimStart cs)

/-- Whether a text starts with `UTC` in any letter case. -/
def startsWithUtc (cs : List Char) : Bool := sameIgnoringCase (cs.take 3) ['u', 't', 'c']

/-- The zone: `UTC`, `Z` or an offset. -/
def zone (cs : List Char) : Scan (Int × List Char) :=
  if startsWithUtc cs then .ok (0, cs.drop 3)
  else match cs with
    | 'Z' :: rest | 'z' :: rest => .ok (0, rest)
    | _ => offset true (List.dropWhile fun c => c == ':' || isBlank c) cs

/-- Reads the relaxed RFC 3339 form. -/
def readRfc3339 (cs : List Char) : Scan Timestamp := do
  let (y, cs) ← year (trimStart cs)
  let cs ← expect '-' (trimStart cs)
  let (month, cs) ← shortField 1 12 cs
  let cs ← expect '-' (trimStart cs)
  let (day, cs) ← shortField 1 31 cs
  let cs ← (match cs with
    | 'T' :: rest | 't' :: rest | ' ' :: rest => .ok rest
    | _ :: _ => .error .invalid
    | [] => .error .tooShort : Scan (List Char))
  let (hour, cs) ← shortField 0 23 cs
  let cs ← expect ':' (trimStart cs)
  let (minute, cs) ← shortField 0 59 cs
  let cs ← expect ':' (trimStart cs)
  let (second, cs) ← shortField 0 60 cs
  let (nano, cs) ← fraction cs
  let (off, cs) ← zone (trimStart cs)
  if !(trimStart cs).isEmpty then throw .tooLong
  Fields.toTimestamp ⟨⟨y, month, day⟩, hour, minute, second, nano, off⟩

/-! ## The RFC 2822 form -/

/-- The position of a three-letter name in a list, its letters in any case. -/
def nameIndex? (names : List (List Char)) (cs : List Char) : Option (Nat × List Char) :=
  let i := names.findIdx (sameIgnoringCase (cs.take 3))
  if i < names.length then some (i, cs.drop 3) else none

def monthNames : List (List Char) :=
  ["jan", "feb", "mar", "apr", "may", "jun", "jul", "aug", "sep", "oct", "nov", "dec"].map
    String.toList

def weekdayNames : List (List Char) :=
  ["mon", "tue", "wed", "thu", "fri", "sat", "sun"].map String.toList

/-- The hours that a zone name stands for. Single letters other than J are read as UTC. -/
def zoneNameHours? (name : List Char) : Option Int :=
  match String.ofList (name.map Char.toLower) with
  | "gmt" | "ut" | "z" => some 0
  | "edt" => some (-4)
  | "est" | "cdt" => some (-5)
  | "cst" | "mdt" => some (-6)
  | "mst" | "pdt" => some (-7)
  | "pst" => some (-8)
  | _ =>
    match name with
    | [c] => if c.toLower == 'j' then none else some 0
    | _ => none

/-- The zone: a name or an offset. -/
def mailZone (cs : List Char) : Scan (Int × List Char) :=
  let name := cs.takeWhile Char.isAlpha
  if name.isEmpty then offset false id cs
  else match zoneNameHours? name with
    | some hours => .ok (hours * 3600, cs.drop name.length)
    | none => .error .invalid

/-- The text after a comment in parentheses, which may nest and quote with a backslash;
none if the comment does not end. -/
def afterComment? : (depth : Nat) → List Char → Option (List Char)
  | _, [] => none
  | depth, '\\' :: _ :: rest => afterComment? depth rest
  | depth, '(' :: rest => afterComment? (depth + 1) rest
  | depth, ')' :: rest => if depth ≤ 1 then some rest else afterComment? (depth - 1) rest
  | depth, _ :: rest => afterComment? depth rest

/-- The text after any comments, at most one for each character. -/
def skipComments : (fuel : Nat) → List Char → List Char
  | 0, cs => cs
  | fuel + 1, cs =>
    match trimStart cs with
    | '(' :: rest =>
      match afterComment? 1 rest with
      | some after => skipComments fuel after
      | none => cs
    | _ => cs

/-- The year, two digits standing for 1950 to 2049 and three for 1900 and more. -/
def mailYear (cs : List Char) : Scan (Int × List Char) := do
  let (n, rest) ← number 2 none cs
  let y := match cs.length - rest.length with
    | 2 => if n < 50 then n + 2000 else n + 1900
    | 3 => n + 1900
    | _ => n
  if y < twoTo 31 then .ok (y, rest) else .error .outOfRange

/-- The optional day of the week and its comma. -/
def mailWeekday (cs : List Char) : Scan (Option Nat × List Char) :=
  match nameIndex? weekdayNames cs with
  | some (day, rest) =>
    match rest with
    | ',' :: rest => .ok (some day, rest)
    | _ => .error .invalid
  | none => .ok (none, cs)

/-- Reads the RFC 2822 form. -/
def readRfc2822 (cs : List Char) : Scan Timestamp := do
  let (weekday, cs) ← mailWeekday (trimStart cs)
  let (day, cs) ← numberWithin 1 31 1 (some 2) (trimStart cs)
  let cs ← blanks cs
  let (month, cs) ← (match nameIndex? monthNames cs with
    | some r => .ok r
    | none => .error .invalid : Scan (Nat × List Char))
  let cs ← blanks cs
  let (y, cs) ← mailYear cs
  let cs ← blanks cs
  let (hour, cs) ← numberWithin 0 23 2 (some 2) cs
  let cs ← expect ':' (trimStart cs)
  let (minute, cs) ← numberWithin 0 59 2 (some 2) (trimStart cs)
  let (second, cs) ← (match trimStart cs with
    | ':' :: rest => numberWithin 0 60 2 (some 2) rest
    | _ => .ok (0, cs) : Scan (Nat × List Char))
  let cs ← blanks cs
  let (off, cs) ← mailZone cs
  if !(skipComments cs.length cs).isEmpty then throw .tooLong
  let date : Date := ⟨y, month + 1, day⟩
  match weekday with
  | some w => if isYear y && date.isValid && Date.weekday date.dayNumber != w then throw .impossible
  | none => pure ()
  Fields.toTimestamp ⟨date, hour, minute, second, 0, off⟩

end ExchangeArchive.Time
