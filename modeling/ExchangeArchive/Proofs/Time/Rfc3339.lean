import ExchangeArchive.Proofs.Decimal.Digits
import ExchangeArchive.Proofs.Time.Calendar
import ExchangeArchive.Time.Reader
/-
Points in time are read from their RFC 3339 form.

Every field is written in a fixed number of digits and ends where a character stands that is
none, so the reader takes just the digits that were written (`number_digits`); the year may
have a sign and more digits, and the fraction of a second as many as it needs. The fields make
up the point in time again because the calendar and the day numbers are inverse to one
another, and a leap second is the second 60 of the only minute that may have one.
-/

set_option autoImplicit false

namespace ExchangeArchive.Time

open ExchangeArchive.Decimal ExchangeArchive.Text

/-! ## Digits -/

theorem numberOf_eq (ds : List Char) : numberOf ds = Nat.ofDigitChars 10 ds 0 := by
  rw [numberOf, Nat.ofDigitChars]
  congr 1
  funext n c
  rw [Nat.mul_comm]
  rfl

/-- What begins with no digit. -/
def NoDigit (rest : List Char) : Prop := ∀ c ∈ rest.head?, c.isDigit = false

theorem noDigit_cons {c : Char} (h : c.isDigit = false) (rest : List Char) :
    NoDigit (c :: rest) := by
  rintro d hd
  cases hd
  exact h

/-- **Digits are read up to the first character that is none**, if there are as many as are asked
for at least, and not more than are let in at most. -/
theorem number_digits {ds rest : List Char} (least : Nat) (most : Option Nat)
    (h : ∀ c ∈ ds, c.isDigit = true) (hrest : NoDigit rest) (hleast : least ≤ ds.length)
    (hmost : ∀ m ∈ most, ds.length ≤ m) (hfits : numberOf ds < 2 ^ 63) :
    number least most (ds ++ rest) = .ok (numberOf ds, rest) := by
  have hleading : leadingDigits most (ds ++ rest) = ds := by
    rw [leadingDigits.eq_def, takeWhile_append_front h hrest]
    cases most with
    | none => rfl
    | some m => exact List.take_of_length_le (hmost m rfl)
  have hlength : ¬(ds ++ rest).length < least := by
    rw [List.length_append]
    omega
  rw [number, if_neg hlength]
  simp only [hleading, twoTo_eq, if_neg (Nat.not_lt.mpr hleast), if_neg (Nat.not_le.mpr hfits),
    List.drop_left]

/-! ## Padded numbers -/

namespace Timestamp

theorem padded_eq (width n : Nat) :
    padded width n = List.replicate (width - digitCount n) '0' ++ natDigits n := by
  rw [digitCount_eq]
  rfl

theorem isDigit_padded {width n : Nat} {c : Char} (h : c ∈ padded width n) :
    c.isDigit = true := by
  rw [padded_eq] at h
  rcases List.mem_append.mp h with h | h
  · rw [List.eq_of_mem_replicate h]
    rfl
  · exact isDigit_natDigits h

theorem numberOf_padded (width n : Nat) : numberOf (padded width n) = n := by
  rw [numberOf_eq, padded_eq, ofDigitChars_append, ofDigitChars_natDigits,
    Nat.ofDigitChars_replicate_zero, Nat.mul_zero, Nat.zero_mul, Nat.zero_add]

theorem width_le_length_padded (width n : Nat) : width ≤ (padded width n).length := by
  rw [padded_eq, List.length_append, List.length_replicate, ← digitCount_eq]
  omega

theorem length_padded {width n : Nat} (hwidth : 0 < width) (h : n < 10 ^ width) :
    (padded width n).length = width := by
  have := (digitCount_le_iff hwidth).mpr h
  rw [padded_eq, List.length_append, List.length_replicate, ← digitCount_eq]
  omega

end Timestamp

/-! ## The fields -/

open Timestamp

theorem trimStart_cons {c : Char} (h : isBlank c = false) (cs : List Char) :
    trimStart (c :: cs) = c :: cs := by
  rw [trimStart, List.dropWhile_cons_of_neg (by simp [h])]

theorem isBlank_of_isDigit {c : Char} (h : c.isDigit = true) : isBlank c = false := by
  obtain ⟨hlow, hhigh⟩ := toNat_of_isDigit h
  simp only [isBlank, Bool.or_eq_false_iff, Bool.and_eq_false_iff, decide_eq_false_iff_not,
    beq_eq_false_iff_ne]
  omega

/-- A padded number begins with a digit. -/
theorem trimStart_padded {width : Nat} (hwidth : 0 < width) (n : Nat) (rest : List Char) :
    trimStart (padded width n ++ rest) = padded width n ++ rest := by
  have hlength := width_le_length_padded width n
  obtain ⟨c, cs, hcons⟩ := List.exists_cons_of_length_pos (Nat.lt_of_lt_of_le hwidth hlength)
  have hc : c.isDigit = true := isDigit_padded (hcons ▸ List.mem_cons_self)
  rw [hcons, List.cons_append, trimStart_cons (isBlank_of_isDigit hc)]

/-- A number that is written padded is read by any reader that lets it have its digits. -/
theorem number_padded {width n : Nat} {most : Option Nat} (hwidth : 0 < width)
    (hmost : ∀ m ∈ most, width ≤ m ∧ n < 10 ^ width) (hfits : n < 2 ^ 63) {rest : List Char}
    (hrest : NoDigit rest) : number 1 most (padded width n ++ rest) = .ok (n, rest) := by
  have hlength := width_le_length_padded width n
  have hall : ∀ c ∈ padded width n, c.isDigit = true := fun c hc => isDigit_padded hc
  have hdigits := number_digits 1 most hall hrest (by omega)
    (fun m hm => by
      rw [length_padded hwidth (hmost m hm).2]
      exact (hmost m hm).1)
    (by rwa [numberOf_padded])
  rwa [numberOf_padded] at hdigits

/-- A field of two digits is read as its number, if that is within its bounds. -/
theorem shortField_padded {low high n : Nat} (hlow : low ≤ n) (hhigh : n ≤ high)
    (hn : n < 100) {rest : List Char} (hrest : NoDigit rest) :
    shortField low high (padded 2 n ++ rest) = .ok (n, rest) := by
  have hnumber : number 1 (some 2) (padded 2 n ++ rest) = .ok (n, rest) :=
    number_padded (by omega) (by rintro m ⟨⟩; omega) (by omega) hrest
  rw [shortField, trimStart_padded (by omega), numberWithin, hnumber]
  simp only [bind, Except.bind, if_pos (And.intro hlow hhigh)]

/-- The year, with its sign and all its digits, which are more than four where the year is beyond
9999, and behind a sign where it is before the year zero. -/
theorem year_yearText {y : Int} (hlow : -262143 ≤ y) (hhigh : y ≤ 262142) {rest : List Char}
    (hrest : NoDigit rest) : year (yearText y ++ rest) = .ok (y, rest) := by
  have hrange : -(twoTo 31 : Int) ≤ y ∧ y < twoTo 31 := by
    rw [twoTo_eq]
    omega
  have hsigned : number 1 none (padded 4 y.natAbs ++ rest) = .ok (y.natAbs, rest) :=
    number_padded (by omega) (by rintro m ⟨⟩) (by omega) hrest
  rw [yearText]
  by_cases hplain : 0 ≤ y ∧ y ≤ 9999
  · have hnumber : number 1 (some 4) (padded 4 y.toNat ++ rest) = .ok (y.toNat, rest) :=
      number_padded (by omega) (by rintro m ⟨⟩; omega) (by omega) hrest
    have hlength := width_le_length_padded 4 y.toNat
    obtain ⟨c, cs, hcons⟩ :=
      List.exists_cons_of_length_pos (Nat.lt_of_lt_of_le (by omega : 0 < 4) hlength)
    -- The year begins with a digit, so the reader finds no sign and takes four digits at most.
    have hc : c.isDigit = true := isDigit_padded (hcons ▸ List.mem_cons_self)
    have hminus : c ≠ '-' := by rintro rfl; cases hc
    have hplus : c ≠ '+' := by rintro rfl; cases hc
    rw [if_pos hplain]
    rw [hcons, List.cons_append] at hnumber ⊢
    have hback : (y.toNat : Int) = y := by omega
    simp [year, bind, Except.bind, pure, Except.pure, hminus, hplus, hnumber, hback]
    exact if_pos (by omega)
  · rw [if_neg hplain, List.cons_append]
    by_cases hy : y < 0
    · have hback : -(y.natAbs : Int) = y := by omega
      rw [if_pos hy]
      simp only [year, bind, Except.bind, pure, Except.pure, hsigned, hback, if_pos hrange]
    · have hback : (y.natAbs : Int) = y := by omega
      rw [if_neg hy]
      simp only [year, bind, Except.bind, pure, Except.pure, hsigned, hback, if_pos hrange]

theorem trimStart_yearText (y : Int) (rest : List Char) :
    trimStart (yearText y ++ rest) = yearText y ++ rest := by
  rw [yearText]
  split
  · exact trimStart_padded (by omega) _ _
  · rw [List.cons_append, trimStart_cons]
    split <;> rfl

/-- A fraction counts in the units of its last digit. -/
theorem fraction_padded {width n : Nat} (hwidth : 0 < width) (hle : width ≤ 9)
    (hn : n < 10 ^ width) {rest : List Char} (hrest : NoDigit rest) :
    fraction ('.' :: padded width n ++ rest) = .ok (n * 10 ^ (9 - width), rest) := by
  have hsmall : 10 ^ width ≤ 10 ^ 9 := Nat.pow_le_pow_right (by omega) hle
  have hnumber : number 1 (some 9) (padded width n ++ rest) = .ok (n, rest) :=
    number_padded hwidth (by rintro m ⟨⟩; exact ⟨hle, hn⟩) (by omega) hrest
  have hplaces : (padded width n ++ rest).length - rest.length = width := by
    rw [List.length_append, Nat.add_sub_cancel, length_padded hwidth hn]
  have hnone : ∀ c ∈ ([] : List Char), c.isDigit = true := by simp
  have hdrop : rest.dropWhile Char.isDigit = rest := dropWhile_append_front hnone hrest
  rw [List.cons_append]
  simp only [fraction, bind, Except.bind, hnumber, hplaces, hdrop, tenTo_eq]
  rfl

/-- The fraction of a second, in three, six or nine digits. -/
theorem fraction_fractionText {n : Nat} (hn : n < 1000000000) {rest : List Char}
    (hrest : NoDigit rest) (hdot : '.' ∉ rest.head?) :
    fraction (fractionText n ++ rest) = .ok (n, rest) := by
  rw [fractionText]
  by_cases hzero : n = 0
  · rw [if_pos hzero, List.nil_append, hzero]
    cases rest with
    | nil => rfl
    | cons c rest =>
      have hc : c ≠ '.' := by rintro rfl; exact hdot rfl
      simp [fraction, hc]
  · rw [if_neg hzero]
    by_cases hmillis : n % 1000000 = 0
    · rw [if_pos hmillis, fraction_padded (by omega) (by omega) (by omega) hrest]
      congr 2
      omega
    · rw [if_neg hmillis]
      by_cases hmicros : n % 1000 = 0
      · rw [if_pos hmicros, fraction_padded (by omega) (by omega) (by omega) hrest]
        congr 2
        omega
      · rw [if_neg hmicros, fraction_padded (by omega) (by omega) (by omega) hrest]
        congr 2
        omega

/-! ## The whole form -/

namespace Timestamp

/-- The fields of a point in time are within the bounds that they are read with. -/
theorem fields_bounds (t : Timestamp) :
    t.hour ≤ 23 ∧ t.minute ≤ 59 ∧ t.secondOfMinute ≤ 60 ∧ t.subsecond < 1000000000 := by
  obtain ⟨-, -, hnano, hleap⟩ := t.inRange
  simp only [hour, minute, secondOfMinute, subsecond, secondOfDay]
  omega

theorem year_date_bounds (t : Timestamp) : -262143 ≤ t.date.year ∧ t.date.year ≤ 262142 := by
  obtain ⟨hfirst, hlast, -, -⟩ := t.inRange
  rw [firstSecond] at hfirst
  rw [lastSecond] at hlast
  exact Date.year_bounds (by omega) (by omega)

/-- The second of the day is made of the clock's fields; a leap second counts as the one
before it. -/
theorem clock_eq (t : Timestamp) :
    (t.hour * 3600 + t.minute * 60 + t.secondOfDay % 60 : Nat) = t.secondOfDay := by
  simp only [hour, minute, secondOfDay]
  omega

/-- The fields of a point in time make it up again, less what the clock is ahead by. -/
theorem toTimestamp_ahead (t : Timestamp) {ahead : Int} (hahead : ¬86400 ≤ ahead.natAbs) :
    Fields.toTimestamp ⟨t.date, t.hour, t.minute, t.secondOfMinute, t.subsecond, ahead⟩
      = match of? (t.second - ahead) t.nano with
        | some t => .ok t
        | none => .error .impossible := by
  obtain ⟨hlow, hhigh⟩ := t.year_date_bounds
  have hyear : isYear t.date.year = true := by simp [isYear, hlow, hhigh]
  have hvalid : t.date.isValid = true := Date.isValid_ofDayNumber _
  have hday : t.date.dayNumber = t.second / 86400 := Date.dayNumber_ofDayNumber _
  have hofDay : (t.secondOfDay : Int) = t.second % 86400 := by
    rw [secondOfDay]
    omega
  have hclock := t.clock_eq
  obtain ⟨-, -, hnano, hleap⟩ := t.inRange
  -- The second 60 stands for the leap second after 59.
  have hsplit : (if t.secondOfMinute = 60 then (59, 1000000000) else (t.secondOfMinute, 0))
      = (t.secondOfDay % 60, t.nano / 1000000000 * 1000000000) := by
    by_cases hin : 1000000000 ≤ t.nano
    · have hlast : t.secondOfDay % 60 = 59 := by
        have := hleap hin
        omega
      have hone : t.nano / 1000000000 = 1 := by omega
      rw [secondOfMinute, hlast, hone]
      rfl
    · have hnone : t.nano / 1000000000 = 0 := by omega
      rw [secondOfMinute, hnone, if_neg (by omega)]
      rfl
  have hsecond : t.date.dayNumber * 86400
      + (t.hour * 3600 + t.minute * 60 + t.secondOfDay % 60 : Nat) = t.second := by
    rw [hclock, hday, hofDay]
    omega
  have hwhole : t.nano / 1000000000 * 1000000000 + t.subsecond = t.nano :=
    Nat.div_add_mod' _ _
  simp only [Fields.toTimestamp, hyear, hvalid, hsplit, hsecond, hwhole, if_neg hahead]
  rfl

/-- The fields of a point in time make it up again. -/
theorem toTimestamp_fields (t : Timestamp) :
    Fields.toTimestamp ⟨t.date, t.hour, t.minute, t.secondOfMinute, t.subsecond, 0⟩ = .ok t := by
  have hof : of? (t.second - 0) t.nano = some t := by
    rw [Int.sub_zero, of?, dif_pos t.inRange]
  rw [t.toTimestamp_ahead (by decide), hof]

end Timestamp

/-- A mark between fields is read where it stands, if it is not white space: the reader drops that
before each mark. -/
theorem expect_mark {c : Char} (h : isBlank c = false) (rest : List Char) :
    expect c (trimStart (c :: rest)) = .ok rest := by
  rw [trimStart_cons h, expect]
  simp

/-- **A point in time is read from its RFC 3339 form**, for every point that there is a timestamp
of. -/
theorem readRfc3339_rfc3339 (t : Timestamp) : readRfc3339 t.rfc3339 = .ok t := by
  have hform : t.rfc3339 = yearText t.date.year ++ ('-' :: (padded 2 t.date.month ++
      ('-' :: (padded 2 t.date.day ++ ('T' :: (padded 2 t.hour ++ (':' :: (padded 2 t.minute ++
        (':' :: (padded 2 t.secondOfMinute ++ (fractionText t.subsecond ++ ['Z'])))))))))))
      := by
    simp [rfc3339, dateText]
  obtain ⟨hlow, hhigh⟩ := t.year_date_bounds
  obtain ⟨hmonth, hmonth', hday, hday'⟩ := Date.ofDayNumber_bounds (t.second / 86400)
  obtain ⟨hhour, hminute, hsecond, hnano⟩ := t.fields_bounds
  change 1 ≤ t.date.month at hmonth
  change t.date.month ≤ 12 at hmonth'
  change 1 ≤ t.date.day at hday
  change t.date.day ≤ 31 at hday'
  have hfraction : NoDigit (fractionText t.subsecond ++ ['Z']) := by
    rw [fractionText]
    repeat' split
    all_goals exact noDigit_cons (by decide) _
  have hzone : zone (trimStart ['Z']) = .ok (0, []) := by decide
  -- The mark after each field is what ends its digits.
  rw [hform]
  simp only [readRfc3339, bind, Except.bind, trimStart_yearText,
    year_yearText hlow hhigh (noDigit_cons (c := '-') (by decide) _),
    expect_mark (c := '-') (by decide), expect_mark (c := ':') (by decide),
    shortField_padded hmonth hmonth' (by omega) (noDigit_cons (c := '-') (by decide) _),
    shortField_padded hday hday' (by omega) (noDigit_cons (c := 'T') (by decide) _),
    shortField_padded (Nat.zero_le _) hhour (by omega) (noDigit_cons (c := ':') (by decide) _),
    shortField_padded (Nat.zero_le _) hminute (by omega) (noDigit_cons (c := ':') (by decide) _),
    shortField_padded (Nat.zero_le _) hsecond (by omega) hfraction,
    fraction_fractionText hnano (noDigit_cons (c := 'Z') (by decide) []) (by simp), hzone]
  exact t.toTimestamp_fields

end ExchangeArchive.Time
