import ExchangeArchive.Time.Calendar
import Mathlib.Tactic.IntervalCases
/-
The calendar and the day numbers are inverse to one another.

A day number is split into a cycle of 400 years, a century of it, a group of four years of
that, a year of the group and a day of the year. The split loses nothing (`split_days`), and
its last days are those of leap years only, so the day that comes of it is one of the calendar
(`isValid_ofDayNumber`) and has the number that it came from (`dayNumber_ofDayNumber`).
-/

set_option autoImplicit false

namespace ExchangeArchive.Time.Date

/-- How a day stands in its cycle of 400 years, the years beginning in March. -/
structure Split where
  cycle : Int
  century : Nat
  group : Nat
  yearInGroup : Nat
  dayOfYear : Nat

namespace Split

/-- The bounds of a split. A year has a last day of its own only if it ends in a leap day: that is
the day of number 365, and it needs a fourth year of four, and so for the centuries. -/
structure Sound (s : Split) : Prop where
  century_le : s.century ≤ 3
  group_le : s.group ≤ 24
  yearInGroup_le : s.yearInGroup ≤ 3
  dayOfYear_le : s.dayOfYear ≤ 365
  leap : s.dayOfYear = 365 → s.yearInGroup = 3 ∧ (s.group = 24 → s.century = 3)

/-- The year, beginning in March. -/
def year (s : Split) : Int := s.cycle * 400 + (s.century * 100 + s.group * 4 + s.yearInGroup : Nat)

/-- The month, March being 0. -/
def month (s : Split) : Nat := (5 * s.dayOfYear + 2) / 153

/-- The day number. -/
def number (s : Split) : Int :=
  s.cycle * 146097 + (s.century * 36524 + s.group * 1461 + s.yearInGroup * 365 + s.dayOfYear : Nat)
    - 719468

/-- The day of the calendar. -/
def date (s : Split) : Date :=
  let day := s.dayOfYear - daysBeforeMonth s.month + 1
  if s.month < 10 then ⟨s.year, s.month + 3, day⟩ else ⟨s.year + 1, s.month - 9, day⟩

end Split

/-- Every day number is split, before the first year as well as after it, since the cycle may be
negative and the other parts are not. -/
theorem split_days (n : Int) : ∃ s : Split, s.Sound ∧ s.number = n ∧ ofDayNumber n = s.date := by
  -- The last day of a cycle, and of a leap year, would begin a century or a year too many.
  let inCycle := ((n + 719468) % 146097).toNat
  let century := min (inCycle / 36524) 3
  let inCentury := inCycle - century * 36524
  let group := inCentury / 1461
  let inGroup := inCentury - group * 1461
  let yearInGroup := min (inGroup / 365) 3
  refine ⟨⟨(n + 719468) / 146097, century, group, yearInGroup, inGroup - yearInGroup * 365⟩,
    ?_, ?_, rfl⟩
  · constructor <;> dsimp only [inCycle, century, inCentury, group, inGroup, yearInGroup] <;> omega
  · dsimp only [Split.number, inCycle, century, inCentury, group, inGroup, yearInGroup]
    omega

namespace Split

variable {s : Split}

theorem Sound.month_le (h : s.Sound) : s.month ≤ 11 := by
  have := h.dayOfYear_le
  rw [month]
  omega

/-- The month begins no later than the day. -/
theorem Sound.daysBeforeMonth_le (h : s.Sound) : daysBeforeMonth s.month ≤ s.dayOfYear := by
  have := h.dayOfYear_le
  simp only [daysBeforeMonth, month]
  omega

/-- The first of March of the year, by the parts of the split. -/
theorem Sound.marchFirst_year (h : s.Sound) :
    marchFirst s.year + s.dayOfYear = s.number := by
  obtain ⟨hcentury, hgroup, hyear, -, -⟩ := h
  simp only [marchFirst, year, number]
  omega

/-- The day has the number that was split. -/
theorem Sound.dayNumber_date (h : s.Sound) : s.date.dayNumber = s.number := by
  have hmonth := h.month_le
  have hday := h.daysBeforeMonth_le
  rw [← h.marchFirst_year]
  by_cases hm : s.month < 10
  · have hback : (s.month + 3 + 9) % 12 = s.month := by omega
    simp only [date, if_pos hm, dayNumber, hback, if_neg (show ¬s.month + 3 ≤ 2 by omega)]
    omega
  · -- January and February are months of the year before, counted from March.
    have hback : (s.month - 9 + 9) % 12 = s.month := by omega
    simp only [date, if_neg hm, dayNumber, hback, if_pos (show s.month - 9 ≤ 2 by omega),
      Int.add_sub_cancel]
    omega

/-- The year that a leap day ends is a leap year: in the calendar that is the year after the one
that began in March. -/
theorem Sound.isLeap_year (h : s.Sound) (hlast : s.dayOfYear = 365) :
    isLeap (s.year + 1) = true := by
  obtain ⟨hcentury, hgroup, hyear, -, hleap⟩ := h
  obtain ⟨hthird, hfourth⟩ := hleap hlast
  simp only [isLeap, year, Bool.and_eq_true, Bool.or_eq_true, beq_iff_eq, bne_iff_ne]
  omega

/-- Every month but February ends where the next one begins. -/
theorem day_le_daysInMonth {m d : Nat} {y : Int} (hm : m = (5 * d + 2) / 153) (hd : d ≤ 365)
    (hleap : d = 365 → isLeap (y + 1) = true) :
    d - (153 * m + 2) / 5 + 1 ≤
      if m < 10 then daysInMonth y (m + 3) else daysInMonth (y + 1) (m - 9) := by
  have hle : m ≤ 11 := by omega
  interval_cases m
  case «11» =>
    by_cases hlast : d = 365
    · simp [daysInMonth, hleap hlast, hlast]
    · simp [daysInMonth]
      split <;> omega
  all_goals simp [daysInMonth]; omega

/-- The day is one of the calendar. -/
theorem Sound.isValid_date (h : s.Sound) : s.date.isValid = true := by
  have hday := day_le_daysInMonth (m := s.month) rfl h.dayOfYear_le h.isLeap_year
  by_cases hm : s.month < 10
  · rw [if_pos hm] at hday
    simp only [date, if_pos hm, isValid, daysBeforeMonth, hday]
    simp
  · rw [if_neg hm] at hday
    simp only [date, if_neg hm, isValid, daysBeforeMonth, hday]
    simp

end Split

/-- **Every day number is that of its day**, so no two day numbers have the same day. -/
theorem dayNumber_ofDayNumber (n : Int) : (ofDayNumber n).dayNumber = n := by
  obtain ⟨s, hs, hnumber, hdate⟩ := split_days n
  rw [hdate, hs.dayNumber_date, hnumber]

/-- **The day of a day number is one of the calendar.** -/
theorem isValid_ofDayNumber (n : Int) : (ofDayNumber n).isValid = true := by
  obtain ⟨s, hs, -, hdate⟩ := split_days n
  rw [hdate, hs.isValid_date]

/-- The months and days are those that a date is written with. -/
theorem ofDayNumber_bounds (n : Int) :
    1 ≤ (ofDayNumber n).month ∧ (ofDayNumber n).month ≤ 12 ∧ 1 ≤ (ofDayNumber n).day ∧
      (ofDayNumber n).day ≤ 31 := by
  have hvalid := isValid_ofDayNumber n
  rw [isValid, Bool.and_eq_true, decide_eq_true_eq, decide_eq_true_eq] at hvalid
  obtain ⟨s, hs, -, hdate⟩ := split_days n
  have hmonth := hs.month_le
  have hmonths : ∀ y : Int, ∀ m, daysInMonth y m ≤ 31 := by
    intro y m
    unfold daysInMonth
    split <;> (try split) <;> omega
  have := hmonths (ofDayNumber n).year (ofDayNumber n).month
  refine ⟨?_, ?_, hvalid.1, by omega⟩ <;> rw [hdate, Split.date] <;> split <;> dsimp only <;> omega

/-- The days of the years that have timestamps: a day that is not before the first of them and not
after the last is of a year in between. -/
theorem year_bounds {n : Int} (hlow : dayNumber ⟨-262143, 1, 1⟩ ≤ n)
    (hhigh : n ≤ dayNumber ⟨262142, 12, 31⟩) :
    -262143 ≤ (ofDayNumber n).year ∧ (ofDayNumber n).year ≤ 262142 := by
  have hfirst : dayNumber ⟨-262143, 1, 1⟩ = -96465292 := by decide
  have hlast : dayNumber ⟨262142, 12, 31⟩ = 95026236 := by decide
  rw [hfirst] at hlow
  rw [hlast] at hhigh
  obtain ⟨s, hs, rfl, hdate⟩ := split_days n
  have hm : s.month = (5 * s.dayOfYear + 2) / 153 := rfl
  obtain ⟨hcentury, hgroup, hyear, hday, -⟩ := hs
  rw [hdate]
  simp only [Split.number] at hlow hhigh
  by_cases hbefore : s.month < 10
  · simp only [Split.date, Split.year, if_pos hbefore]
    omega
  · simp only [Split.date, Split.year, if_neg hbefore]
    refine ⟨by omega, ?_⟩
    -- January and February of the last year are days of the year before, counted from March.
    by_contra hbeyond
    have hcycle : s.cycle = 655 := by omega
    have hlastCentury : s.century = 1 := by omega
    have hlastGroup : s.group = 10 := by omega
    omega

end ExchangeArchive.Time.Date
