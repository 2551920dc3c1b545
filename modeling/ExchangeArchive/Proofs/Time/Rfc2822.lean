import ExchangeArchive.Proofs.Time.Rfc3339
import Mathlib.Data.List.Basic
/-
Points in time are read from their RFC 2822 form.

The form shows a clock and the zone that the clock is set to, so the point in time is found by
going back by what the clock is ahead (`toTimestamp_ahead`). Fields end where a blank or a colon
stands; the day of the week is checked against the date and says nothing new.
-/

set_option autoImplicit false

namespace ExchangeArchive.Time

open ExchangeArchive.Decimal ExchangeArchive.Text Timestamp

/-! ## The form -/

/-- The days of the week, from Monday. -/
def weekdayTexts : List (List Char) :=
  ["Mon", "Tue", "Wed", "Thu", "Fri", "Sat", "Sun"].map String.toList

/-- The months. -/
def monthTexts : List (List Char) :=
  ["Jan", "Feb", "Mar", "Apr", "May", "Jun", "Jul", "Aug", "Sep", "Oct", "Nov", "Dec"].map
    String.toList

/-- The RFC 2822 form of what a clock shows, with the zone that it is set to. -/
def mailText (clock : Timestamp) (zone : List Char) : List Char :=
  weekdayTexts.getD (Date.weekday clock.date.dayNumber) [] ++ ',' :: ' ' ::
    (padded 2 clock.date.day ++ ' ' ::
      (monthTexts.getD (clock.date.month - 1) [] ++ ' ' ::
        (padded 4 clock.date.year.toNat ++ ' ' ::
          (padded 2 clock.hour ++ ':' ::
            (padded 2 clock.minute ++ ':' ::
              (padded 2 clock.secondOfMinute ++ ' ' :: zone))))))

/-- A clock that is so many seconds ahead of UTC shows a point in time. What it shows is again a
timestamp, one of a day and time that differ from those of UTC. -/
structure Shows (clock : Timestamp) (ahead : Int) (t : Timestamp) : Prop where
  second : clock.second = t.second + ahead
  nano : clock.nano = t.nano
  bound : ahead.natAbs < 86400

/-- The seconds of an offset of hours and minutes. -/
def offsetSeconds (west : Bool) (hours minutes : Nat) : Int :=
  if west then -((hours * 3600 + minutes * 60 : Nat) : Int)
  else ((hours * 3600 + minutes * 60 : Nat) : Int)

/-- How a point in time is written, in a year from 0 on and to the second: by a clock of UTC, or by
one that is ahead or behind. -/
inductive MailDate (t : Timestamp) : List Char → Prop where
  | utc (hwhole : t.subsecond = 0) (hyear : 0 ≤ t.date.year) :
    MailDate t (mailText t "GMT".toList)
  | offset {clock : Timestamp} {west : Bool} {hours minutes : Nat} (hhours : hours < 24)
    (hminutes : minutes < 60) (hshows : Shows clock (offsetSeconds west hours minutes) t)
    (hwhole : clock.subsecond = 0) (hyear : 0 ≤ clock.date.year) :
    MailDate t (mailText clock
      ((if west then '-' else '+') :: (padded 2 hours ++ padded 2 minutes)))

/-! ## Names -/

/-- A name has three letters and does not begin with white space. -/
def IsName (name : List Char) : Prop := name.length = 3 ∧ trimStart name = name

instance (name : List Char) : Decidable (IsName name) := inferInstanceAs (Decidable (_ ∧ _))

theorem IsName.trimStart_append {name : List Char} (h : IsName name) (rest : List Char) :
    trimStart (name ++ rest) = name ++ rest := by
  obtain ⟨hlength, htrim⟩ := h
  -- Dropping stops within the name only because the name is not empty.
  have hne : ¬name.isEmpty = true := by
    rw [List.isEmpty_iff]
    rintro rfl
    cases hlength
  rw [trimStart] at htrim
  rw [trimStart, List.dropWhile_append, htrim, if_neg hne]

/-- Where a name stands is told by its three letters alone, so what comes after it makes no
difference. -/
theorem IsName.nameIndex?_append {name : List Char} (h : IsName name) (names : List (List Char))
    (rest : List Char) :
    nameIndex? names (name ++ rest) = (nameIndex? names name).map fun r => (r.1, rest) := by
  have htake : (name ++ rest).take 3 = name.take 3 :=
    List.take_append_of_le_length (Nat.le_of_eq h.1.symm)
  have hdrop : (name ++ rest).drop 3 = rest := List.drop_left' h.1
  rw [nameIndex?, nameIndex?, htake, hdrop]
  split <;> rfl

theorem weekday_text {day : Nat} (h : day < 7) : IsName (weekdayTexts.getD day []) ∧
    nameIndex? weekdayNames (weekdayTexts.getD day []) = some (day, []) := by
  have hall : ∀ k ∈ List.range 7, IsName (weekdayTexts.getD k []) ∧
      nameIndex? weekdayNames (weekdayTexts.getD k []) = some (k, []) := by decide +kernel
  exact hall day (List.mem_range.mpr h)

theorem month_text {month : Nat} (h : month < 12) : IsName (monthTexts.getD month []) ∧
    nameIndex? monthNames (monthTexts.getD month []) = some (month, []) := by
  have hall : ∀ k ∈ List.range 12, IsName (monthTexts.getD k []) ∧
      nameIndex? monthNames (monthTexts.getD k []) = some (k, []) := by decide +kernel
  exact hall month (List.mem_range.mpr h)

theorem mailWeekday_text {day : Nat} (h : day < 7) (rest : List Char) :
    mailWeekday (trimStart (weekdayTexts.getD day [] ++ ',' :: rest)) = .ok (some day, rest) := by
  obtain ⟨hname, hindex⟩ := weekday_text h
  rw [hname.trimStart_append, mailWeekday, hname.nameIndex?_append, hindex]
  rfl

theorem nameIndex?_month {month : Nat} (h : month < 12) (rest : List Char) :
    nameIndex? monthNames (monthTexts.getD month [] ++ rest) = some (month, rest) := by
  obtain ⟨hname, hindex⟩ := month_text h
  rw [hname.nameIndex?_append, hindex]
  rfl

/-! ## Numbers -/

/-- A field of just two digits is read as its number, if that is within its bound and what comes
after begins with no digit. -/
theorem numberWithin_padded {high n : Nat} (hhigh : n ≤ high) (hn : n < 100) {rest : List Char}
    (hrest : NoDigit rest) :
    numberWithin 0 high 2 (some 2) (padded 2 n ++ rest) = .ok (n, rest) := by
  have hlength : (padded 2 n).length = 2 := length_padded (by omega) hn
  have hnumber := number_digits 2 (some 2) (fun c hc => isDigit_padded hc) hrest (by omega)
    (by rintro m ⟨⟩; omega) (by rw [numberOf_padded]; omega : numberOf (padded 2 n) < 2 ^ 63)
  rw [numberOf_padded] at hnumber
  rw [numberWithin, hnumber]
  exact if_pos ⟨Nat.zero_le _, hhigh⟩

/-- A year of four digits or more is itself; only shorter ones are taken to be of a near century. -/
theorem mailYear_padded {y : Nat} (hy : y < 2 ^ 31) {rest : List Char} (hrest : NoDigit rest) :
    mailYear (padded 4 y ++ rest) = .ok ((y : Int), rest) := by
  have hlength := width_le_length_padded 4 y
  have hnumber := number_digits 2 none (fun c hc => isDigit_padded hc) hrest (by omega)
    (by rintro m ⟨⟩) (by rw [numberOf_padded]; omega : numberOf (padded 4 y) < 2 ^ 63)
  rw [numberOf_padded] at hnumber
  -- With four digits or more no century is left to be guessed.
  obtain ⟨more, hmore⟩ : ∃ more, (padded 4 y ++ rest).length - rest.length = more + 4 := by
    rw [List.length_append, Nat.add_sub_cancel]
    exact ⟨(padded 4 y).length - 4, by omega⟩
  simp only [mailYear, hnumber, bind, Except.bind, hmore, twoTo_eq]
  exact if_pos hy

theorem padded_two {n : Nat} (h : n < 100) : ∃ c d, padded 2 n = [c, d] ∧ c.isDigit = true ∧
    d.isDigit = true ∧ numberOf [c, d] = n := by
  obtain ⟨c, d, hpadded⟩ := List.length_eq_two.mp (length_padded (by omega : 0 < 2) h)
  have hdigit : ∀ e ∈ [c, d], e.isDigit = true := fun e he => isDigit_padded (hpadded ▸ he)
  refine ⟨c, d, hpadded, hdigit c (by simp), hdigit d (by simp), ?_⟩
  rw [← hpadded, numberOf_padded]

/-- An offset of hours and minutes is read as its seconds, behind UTC if it is to the west. -/
theorem mailZone_offset (west : Bool) {hours minutes : Nat} (hhours : hours < 100)
    (hminutes : minutes < 60) :
    mailZone ((if west then '-' else '+') :: (padded 2 hours ++ padded 2 minutes))
      = .ok (offsetSeconds west hours minutes, []) := by
  obtain ⟨c, d, hh, hc, hd, hnumber⟩ := padded_two hhours
  obtain ⟨c', d', hm, hc', hd', hnumber'⟩ := padded_two (by omega : minutes < 100)
  have hdigits : offsetDigits id [c, d, c', d'] = .ok (hours * 3600 + minutes * 60, []) := by
    simp [offsetDigits, hasTwoOctets, hc, hd, hc', hd', hnumber, hnumber', pure, Except.pure,
      Nat.not_le.mpr hminutes]
  rw [hh, hm]
  cases west with
  | true =>
    show offset false id ('-' :: [c, d, c', d']) = _
    simp only [offset, offsetSign, bind, Except.bind, hdigits]
    rfl
  | false =>
    show offset false id ('+' :: [c, d, c', d']) = _
    simp only [offset, offsetSign, bind, Except.bind, hdigits]
    rfl

/-! ## The whole form -/

/-- The fields that a clock shows make up the point in time, whatever the zone. -/
theorem Shows.toTimestamp {clock t : Timestamp} {ahead : Int} (h : Shows clock ahead t) :
    Fields.toTimestamp
      ⟨clock.date, clock.hour, clock.minute, clock.secondOfMinute, clock.subsecond, ahead⟩
      = .ok t := by
  have hof : of? (clock.second - ahead) clock.nano = some t := by
    have hsecond : clock.second - ahead = t.second := by
      rw [h.second]
      omega
    rw [hsecond, h.nano, of?, dif_pos t.inRange]
  have hbound : ¬86400 ≤ ahead.natAbs := Nat.not_le.mpr h.bound
  rw [toTimestamp_ahead clock hbound, hof]

theorem readRfc2822_mailText {clock t : Timestamp} {ahead : Int} {zone : List Char}
    (h : Shows clock ahead t) (hwhole : clock.subsecond = 0) (hyear : 0 ≤ clock.date.year)
    (hzone : mailZone (trimStart zone) = .ok (ahead, [])) :
    readRfc2822 (mailText clock zone) = .ok t := by
  have hdate : clock.date = Date.ofDayNumber (clock.second / 86400) := rfl
  obtain ⟨-, hyear'⟩ := clock.year_date_bounds
  obtain ⟨hmonth, hmonth', hday, hday'⟩ := Date.ofDayNumber_bounds (clock.second / 86400)
  rw [← hdate] at hmonth hmonth' hday hday'
  obtain ⟨hhour, hminute, hsecond, -⟩ := clock.fields_bounds
  have hweekday : Date.weekday clock.date.dayNumber < 7 := by
    rw [Date.weekday]
    omega
  have hback : (clock.date.year.toNat : Int) = clock.date.year := by omega
  have hmonthBack : clock.date.month - 1 + 1 = clock.date.month := by omega
  have hreadDay (rest : List Char) :
      numberWithin 1 31 1 (some 2) (trimStart (' ' :: (padded 2 clock.date.day ++ ' ' :: rest)))
        = .ok (clock.date.day, ' ' :: rest) := by
    have htrim (cs : List Char) : trimStart (' ' :: cs) = trimStart cs := rfl
    rw [htrim]
    exact shortField_padded hday hday' (by omega) (noDigit_cons (by decide) _)
  have hblank (rest : List Char) : blanks (' ' :: rest) = .ok (trimStart rest) := rfl
  have hcolon (rest : List Char) : expect ':' (':' :: rest) = .ok rest := rfl
  have htime := h.toTimestamp
  rw [hwhole] at htime
  rw [mailText, readRfc2822]
  simp only [bind, Except.bind, mailWeekday_text hweekday, hreadDay, hblank, hcolon, hzone,
    (month_text (by omega : clock.date.month - 1 < 12)).1.trimStart_append,
    nameIndex?_month (by omega : clock.date.month - 1 < 12),
    trimStart_padded (by omega : 0 < 2), trimStart_padded (by omega : 0 < 4),
    trimStart_cons (by decide : isBlank ':' = false),
    mailYear_padded (by omega : clock.date.year.toNat < 2 ^ 31)
      (noDigit_cons (by decide : ' '.isDigit = false) _),
    numberWithin_padded hhour (by omega) (noDigit_cons (by decide : ':'.isDigit = false) _),
    numberWithin_padded hminute (by omega) (noDigit_cons (by decide : ':'.isDigit = false) _),
    numberWithin_padded hsecond (by omega) (noDigit_cons (by decide : ' '.isDigit = false) _)]
  -- The text ends with its zone, and the day of the week is that of the date.
  have hend : ¬(!(skipComments ([] : List Char).length []).isEmpty) = true := by decide
  rw [hback, hmonthBack, if_neg hend, if_neg (by simp)]
  exact htime

/-- **A point in time is read from its RFC 2822 form**, whatever clock shows it. -/
theorem readRfc2822_of_mailDate {t : Timestamp} {text : List Char} (h : MailDate t text) :
    readRfc2822 text = .ok t := by
  cases h with
  | utc hwhole hyear =>
    have hshows : Shows t 0 t := ⟨(Int.add_zero _).symm, rfl, by decide⟩
    exact readRfc2822_mailText hshows hwhole hyear rfl
  | @offset clock west hours minutes hhours hminutes hshows hwhole hyear =>
    have hsign : isBlank (if west then '-' else '+') = false := by cases west <;> rfl
    have hzone := mailZone_offset west (by omega : hours < 100) hminutes
    rw [← trimStart_cons hsign] at hzone
    exact readRfc2822_mailText hshows hwhole hyear hzone

end ExchangeArchive.Time
