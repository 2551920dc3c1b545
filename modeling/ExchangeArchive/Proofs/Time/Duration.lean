import ExchangeArchive.Proofs.Decimal.Digits
import ExchangeArchive.Time.Duration
import Mathlib.Data.List.Basic
/-
**A length of time that was written is read as the length that it was.**

The text of a length is a list of amounts, each a number and the name of a unit, with blanks
between (`durationText_eq`). The units do not divide one another, but the amounts are taken
off one after the other and nothing is left over, so they come to the whole length
(`sum_amounts`).

The reader adds amounts as they come. What carries the reading is that it never passes a bound
on the way: every sum is one of some of the amounts and so within the length, and those below
a second do not make up one (`Fits`). So each amount is added as it stands (`Fits.add`),
however near the length is to the greatest one.
-/

set_option autoImplicit false

namespace ExchangeArchive.Time

open ExchangeArchive.Decimal ExchangeArchive.Text

/-! ## Amounts -/

/-- A number of a unit, such as three days. The text of a length is a list of these. -/
structure Amount where
  number : Nat
  unit : TimeUnit

namespace TimeUnit

/-- A unit in nanoseconds. The table of units has its sizes in seconds or in nanoseconds. -/
def nanos (u : TimeUnit) : Nat := if u.isSubsecond then u.size else u.size * nanosPerSecond

/-- The name that is written for one of a unit. -/
def written : TimeUnit → String
  | .nanosecond => "ns"
  | .microsecond => "us"
  | .millisecond => "ms"
  | .second => "s"
  | .minute => "m"
  | .hour => "h"
  | .day => "day"
  | .week => "week"
  | .month => "month"
  | .year => "year"

/-- Whether the name is another for more than one. -/
def hasPlural : TimeUnit → Bool
  | .day | .week | .month | .year => true
  | _ => false

end TimeUnit

namespace Amount

/-- The name of the unit as it is written behind the number. -/
def unitText (a : Amount) : String :=
  a.unit.written ++ if a.unit.hasPlural && 1 < a.number then "s" else ""

/-- The text of an amount. -/
def text (a : Amount) : List Char := natDigits a.number ++ a.unitText.toList

/-- An amount in nanoseconds. -/
def nanos (a : Amount) : Nat := a.number * a.unit.nanos

/-- What amounts come to. -/
def sum (as : List Amount) : Nat := (as.map nanos).sum

/-- What those of units below a second come to. -/
def sumBelowSecond (as : List Amount) : Nat := sum (as.filter (·.unit.isSubsecond))

variable {a : Amount} {as : List Amount}

@[simp] theorem sum_nil : sum [] = 0 := rfl

@[simp] theorem sum_cons (a : Amount) (as : List Amount) : sum (a :: as) = a.nanos + sum as := by
  rw [sum, sum, List.map_cons, List.sum_cons]

theorem sum_append (as bs : List Amount) : sum (as ++ bs) = sum as + sum bs := by
  rw [sum, sum, sum, List.map_append, List.sum_append]

theorem sumBelowSecond_cons (a : Amount) (as : List Amount) :
    sumBelowSecond (a :: as)
      = (if a.unit.isSubsecond then a.nanos else 0) + sumBelowSecond as := by
  rw [sumBelowSecond, List.filter_cons]
  split
  · rfl
  · exact (Nat.zero_add _).symm

theorem sum_filter (p : Amount → Bool) (h : ∀ a, p a = false → a.nanos = 0) (as : List Amount) :
    sum (as.filter p) = sum as ∧ sumBelowSecond (as.filter p) = sumBelowSecond as := by
  induction as with
  | nil => exact ⟨rfl, rfl⟩
  | cons a as ih =>
    cases hp : p a with
    | true =>
      rw [List.filter_cons_of_pos hp, sum_cons, sum_cons, sumBelowSecond_cons,
        sumBelowSecond_cons, ih.1, ih.2]
      exact ⟨rfl, rfl⟩
    | false =>
      rw [List.filter_cons_of_neg (by simp [hp]), sum_cons, sumBelowSecond_cons, h a hp, ite_self,
        Nat.zero_add, Nat.zero_add]
      exact ih

end Amount

/-! ## The amounts of a length -/

/-- What a number of seconds is split into. -/
def secondAmounts (seconds : Nat) : List Amount :=
  [⟨seconds / 31557600, .year⟩, ⟨seconds % 31557600 / 2630016, .month⟩,
    ⟨seconds % 31557600 % 2630016 / 86400, .day⟩,
    ⟨seconds % 31557600 % 2630016 % 86400 / 3600, .hour⟩,
    ⟨seconds % 31557600 % 2630016 % 86400 % 3600 / 60, .minute⟩,
    ⟨seconds % 31557600 % 2630016 % 86400 % 60, .second⟩]

/-- What less than a second is split into. -/
def nanoAmounts (nanos : Nat) : List Amount :=
  [⟨nanos / 1000000, .millisecond⟩, ⟨nanos / 1000 % 1000, .microsecond⟩,
    ⟨nanos % 1000, .nanosecond⟩]

/-- What a length is split into, the greatest unit first, amounts of which there are none
included. -/
def amounts (total : Nat) : List Amount :=
  secondAmounts (total / nanosPerSecond) ++ nanoAmounts (total % nanosPerSecond)

/-- The amounts of a length that are written: those of which there are any, or else no
seconds. -/
def writtenAmounts (total : Nat) : List Amount :=
  match (amounts total).filter fun a => a.number != 0 with
  | [] => [⟨0, .second⟩]
  | a :: rest => a :: rest

/-- Years, months, days, hours and minutes leave nothing of the seconds but seconds. -/
theorem sum_secondAmounts (seconds : Nat) :
    Amount.sum (secondAmounts seconds) = seconds * nanosPerSecond := by
  have hminutes : ∀ n, n % 3600 % 60 = n % 60 := fun n => Nat.mod_mod_of_dvd n (by decide)
  have hsplit : seconds / 31557600 * 31557600 + (seconds % 31557600 / 2630016 * 2630016
      + (seconds % 31557600 % 2630016 / 86400 * 86400
        + (seconds % 31557600 % 2630016 % 86400 / 3600 * 3600
          + (seconds % 31557600 % 2630016 % 86400 % 3600 / 60 * 60
            + seconds % 31557600 % 2630016 % 86400 % 60)))) = seconds := by
    rw [← hminutes, Nat.div_add_mod', Nat.div_add_mod', Nat.div_add_mod', Nat.div_add_mod',
      Nat.div_add_mod']
  have hsplit := congrArg (· * nanosPerSecond) hsplit
  simp only [Nat.add_mul] at hsplit
  simp only [secondAmounts, Amount.sum_cons, Amount.sum_nil, Amount.nanos, TimeUnit.nanos,
    TimeUnit.isSubsecond, TimeUnit.size, if_false, Bool.false_eq_true, ← Nat.mul_assoc,
    Nat.mul_one, Nat.add_zero]
  exact hsplit

theorem sum_nanoAmounts (nanos : Nat) : Amount.sum (nanoAmounts nanos) = nanos := by
  simp only [nanoAmounts, Amount.sum_cons, Amount.sum_nil, Amount.nanos, TimeUnit.nanos,
    TimeUnit.isSubsecond, TimeUnit.size, if_true]
  omega

/-- **The amounts of a length come to the length**, and those below a second to what it has
beyond its whole seconds. -/
theorem sum_amounts (total : Nat) :
    Amount.sum (amounts total) = total
      ∧ Amount.sumBelowSecond (amounts total) = total % nanosPerSecond := by
  have hbelow : (amounts total).filter (·.unit.isSubsecond)
      = nanoAmounts (total % nanosPerSecond) := rfl
  constructor
  · rw [amounts, Amount.sum_append, sum_secondAmounts, sum_nanoAmounts, Nat.div_add_mod']
  · rw [Amount.sumBelowSecond, hbelow, sum_nanoAmounts]

theorem sum_writtenAmounts (total : Nat) :
    Amount.sum (writtenAmounts total) = total
      ∧ Amount.sumBelowSecond (writtenAmounts total) = total % nanosPerSecond := by
  have hfilter := Amount.sum_filter (fun a => a.number != 0) (fun a h => by
    rw [Amount.nanos, show a.number = 0 by simpa using h, Nat.zero_mul]) (amounts total)
  have hsum := sum_amounts total
  rw [← hfilter.1, ← hfilter.2] at hsum
  rw [writtenAmounts]
  cases h : (amounts total).filter fun a => a.number != 0 with
  | nil =>
    rw [h] at hsum
    exact hsum
  | cons a rest =>
    rw [h] at hsum
    exact hsum

theorem durationItem_eq (a : Amount) :
    durationItem a.number a.unit.written a.unit.hasPlural
      = if a.number != 0 then some (String.ofList a.text) else none := by
  have htext : toString a.number ++ a.unit.written
      ++ (if a.unit.hasPlural && 1 < a.number then "s" else "") = String.ofList a.text := by
    rw [String.append_assoc, Amount.text, String.ofList_append, String.ofList_toList, natDigits,
      String.ofList_toList, Amount.unitText]
    rfl
  rw [durationItem, htext]
  by_cases hzero : a.number = 0
  · rw [if_pos hzero, if_neg (by simp [hzero])]
  · rw [if_neg hzero, if_pos (by simp [hzero])]

/-- Of amounts only those are written of which there are any, which is the writer's own test turned
into a filter. -/
theorem filterMap_durationItem (as : List Amount) :
    as.filterMap (fun a => durationItem a.number a.unit.written a.unit.hasPlural)
      = (as.filter fun a => a.number != 0).map (String.ofList ∘ Amount.text) := by
  induction as with
  | nil => rfl
  | cons a as ih =>
    rw [List.filterMap_cons, List.filter_cons, durationItem_eq, ih]
    cases a.number != 0 <;> rfl

/-- **The text of a length is that of its amounts**, with a blank between. -/
theorem durationText_eq (total : Nat) :
    (durationText total).toList = [' '].intercalate ((writtenAmounts total).map Amount.text) := by
  let items := (amounts total).map fun a =>
    durationItem a.number a.unit.written a.unit.hasPlural
  have hitems : items.filterMap id
      = ((amounts total).filter fun a => a.number != 0).map (String.ofList ∘ Amount.text) := by
    rw [List.filterMap_map]
    exact filterMap_durationItem (amounts total)
  show (if (items.filterMap id).isEmpty then "0s"
    else " ".intercalate (items.filterMap id)).toList = _
  rw [hitems, writtenAmounts]
  cases (amounts total).filter fun a => a.number != 0 with
  | nil => rfl
  | cons a rest =>
    have hback : String.toList ∘ String.ofList ∘ Amount.text = Amount.text := by
      funext a
      exact String.toList_ofList
    rw [List.map_cons, List.isEmpty_cons, if_neg Bool.false_ne_true, ← List.map_cons,
      String.toList_intercalate, List.map_map, hback]
    rfl

/-! ## Adding amounts -/

/-- Amounts can be added to a length: together they are not too long, and what is below a second
does not come to a second. -/
structure Fits (total : Nat) (as : List Amount) : Prop where
  within : total + Amount.sum as < 2 ^ 64 * nanosPerSecond
  belowSecond : total % nanosPerSecond + Amount.sumBelowSecond as < nanosPerSecond

theorem nanosPerSecond_pos : 0 < nanosPerSecond := by decide

theorem word_eq {n : Nat} (h : n < 2 ^ 64) : word n = .ok n := if_pos h

/-- Seconds and nanoseconds are added as they stand if nothing has to be carried. -/
theorem addParts_eq (total seconds nanos : Nat)
    (hwithin : total + (seconds * nanosPerSecond + nanos) < 2 ^ 64 * nanosPerSecond)
    (hbelow : total % nanosPerSecond + nanos < nanosPerSecond) :
    addParts total seconds nanos = .ok (total + (seconds * nanosPerSecond + nanos)) := by
  have hnanos : word (total % nanosPerSecond + nanos) = .ok (total % nanosPerSecond + nanos) :=
    word_eq (by simp only [nanosPerSecond] at *; omega)
  have hseconds : word (seconds + 0) = .ok seconds :=
    word_eq (by simp only [nanosPerSecond] at *; omega)
  have hall : word (total / nanosPerSecond + seconds) = .ok (total / nanosPerSecond + seconds) :=
    word_eq (by simp only [nanosPerSecond] at *; omega)
  have htotal : (total / nanosPerSecond + seconds) * nanosPerSecond
      + (total % nanosPerSecond + nanos) = total + (seconds * nanosPerSecond + nanos) := by
    simp only [nanosPerSecond]
    omega
  rw [addParts, hnanos]
  simp only [bind, Except.bind, if_neg (Nat.not_lt.mpr hbelow.le), hseconds, hall, htotal]
  exact if_pos hwithin

theorem addWhole_eq {total n : Nat} {u : TimeUnit} (h : n * u.size < 2 ^ 64) :
    addWhole total n u
      = if u.isSubsecond then addParts total 0 (n * u.size) else addParts total (n * u.size) 0 := by
  rw [addWhole, word_eq h]
  rfl

/-- **An amount that fits is added as it stands**, and the others still fit. -/
theorem Fits.add {total : Nat} {a : Amount} {as : List Amount} (h : Fits total (a :: as)) :
    addWhole total a.number a.unit = .ok (total + a.nanos) ∧ a.number < 2 ^ 64
      ∧ Fits (total + a.nanos) as := by
  obtain ⟨hwithin, hbelow⟩ := h
  rw [Amount.sum_cons] at hwithin
  rw [Amount.sumBelowSecond_cons] at hbelow
  have hsize : 0 < a.unit.size := by cases a.unit <;> decide
  have hnumber : a.number ≤ a.number * a.unit.size := Nat.le_mul_of_pos_right _ hsize
  cases hsub : a.unit.isSubsecond with
  | true =>
    have hnanos : a.nanos = a.number * a.unit.size := by
      rw [Amount.nanos, TimeUnit.nanos, if_pos hsub]
    rw [hsub, if_pos rfl] at hbelow
    have hword : a.number * a.unit.size < 2 ^ 64 := by
      simp only [nanosPerSecond] at hbelow
      omega
    have hadd := addParts_eq total 0 a.nanos (by omega) (by omega)
    rw [Nat.zero_mul, Nat.zero_add] at hadd
    have hcarry : (total + a.nanos) % nanosPerSecond = total % nanosPerSecond + a.nanos := by
      rw [← Nat.mod_add_mod, Nat.mod_eq_of_lt (by omega)]
    refine ⟨?_, Nat.lt_of_le_of_lt hnumber hword, by omega, by omega⟩
    rw [addWhole_eq hword, if_pos hsub, ← hnanos, hadd]
  | false =>
    have hnanos : a.nanos = a.number * a.unit.size * nanosPerSecond := by
      rw [Amount.nanos, TimeUnit.nanos, hsub, if_neg Bool.false_ne_true, Nat.mul_assoc]
    rw [hsub, if_neg Bool.false_ne_true, Nat.zero_add] at hbelow
    have hword : a.number * a.unit.size < 2 ^ 64 :=
      (Nat.mul_lt_mul_right nanosPerSecond_pos).mp (by omega)
    have hadd := addParts_eq total (a.number * a.unit.size) 0 (by omega)
      (Nat.mod_lt total nanosPerSecond_pos)
    rw [Nat.add_zero, ← hnanos] at hadd
    refine ⟨?_, Nat.lt_of_le_of_lt hnumber hword, by omega, ?_⟩
    · rw [addWhole_eq hword, hsub, if_neg Bool.false_ne_true, hadd]
    · rw [hnanos, Nat.add_mul_mod_self_right]
      exact hbelow

/-! ## Reading -/

variable {total n : Nat} {phase : DurationPhase} {rest : List Char}

theorem readDurationFrom_cons (total : Nat) (phase : DurationPhase) (c : Char)
    (rest : List Char) : readDurationFrom total phase (c :: rest)
      = durationStep total phase c >>= fun next => readDurationFrom next.1 next.2 rest := by
  cases phase <;> rfl

/-- Digits are read as a number of 64 bits, as long as it is one; the reader looks for an overflow
at every digit. -/
theorem readDurationFrom_digits {ds : List Char} (hdigits : ∀ c ∈ ds, c.isDigit = true)
    (hword : Nat.ofDigitChars 10 ds n < 2 ^ 64) :
    readDurationFrom total (.whole n) (ds ++ rest)
      = readDurationFrom total (.whole (Nat.ofDigitChars 10 ds n)) rest := by
  induction ds generalizing n with
  | nil => rfl
  | cons d ds ih =>
    rw [List.forall_mem_cons] at hdigits
    rw [Nat.ofDigitChars_cons, Nat.mul_comm] at hword ⊢
    -- The number that has been read so far is not greater than all of it.
    have hsofar : n * 10 + (d.toNat - '0'.toNat) < 2 ^ 64 := by
      refine Nat.lt_of_le_of_lt ?_ hword
      rw [Nat.ofDigitChars_eq_ofDigitChars_zero]
      exact (Nat.le_mul_of_pos_left _ (Nat.pow_pos (by decide))).trans (Nat.le_add_right _ _)
    have hstep : durationStep total (.whole n) d
        = .ok (total, .whole (n * 10 + (d.toNat - '0'.toNat))) := by
      rw [durationStep]
      simp only [hdigits.1, if_true, word_eq hsofar]
      rfl
    rw [List.cons_append, readDurationFrom_cons, hstep]
    exact ih hdigits.2 hword

/-- Whether a number may begin, which it does at the start and between amounts, but not inside of a
name or of a fraction. -/
def DurationPhase.IsFree (phase : DurationPhase) : Prop := phase = .start ∨ phase = .between

/-- A number is read from its digits. -/
theorem readDurationFrom_number (hphase : phase.IsFree) (hn : n < 2 ^ 64) :
    readDurationFrom total phase (natDigits n ++ rest)
      = readDurationFrom total (.whole n) rest := by
  have hdigits : ∀ c ∈ natDigits n, c.isDigit = true := fun c hc => isDigit_natDigits hc
  have hvalue := ofDigitChars_natDigits n
  cases hn' : natDigits n with
  | nil => exact absurd hn' (natDigits_ne_nil n)
  | cons d ds =>
    rw [hn', List.forall_mem_cons] at hdigits
    rw [hn', Nat.ofDigitChars_cons, Nat.mul_zero, Nat.zero_add] at hvalue
    have hstep : durationStep total phase d = .ok (total, .whole (d.toNat - '0'.toNat)) := by
      rcases hphase with rfl | rfl <;>
      · rw [durationStep]
        simp only [hdigits.1, if_true]
        rfl
    rw [List.cons_append, readDurationFrom_cons, hstep, ← hvalue]
    exact readDurationFrom_digits hdigits.2 (by rw [hvalue]; exact hn)

/-- A character that only the name of a unit can take further. -/
def IsNameLetter (c : Char) : Prop :=
  c.isDigit = false ∧ isBlank c = false ∧ isUnitLetter c = true

instance (c : Char) : Decidable (IsNameLetter c) := by
  unfold IsNameLetter
  infer_instance

theorem readDurationFrom_letters {ls : List Char} (hletters : ∀ c ∈ ls, IsNameLetter c)
    (name : List Char) :
    readDurationFrom total (.unit n none name) (ls ++ rest)
      = readDurationFrom total (.unit n none (ls.reverse ++ name)) rest := by
  induction ls generalizing name with
  | nil => rfl
  | cons c ls ih =>
    obtain ⟨⟨hdigit, hblank, hletter⟩, hletters⟩ := List.forall_mem_cons.mp hletters
    have hstep : durationStep total (.unit n none name) c
        = .ok (total, .unit n none (c :: name)) := by
      rw [durationStep]
      simp only [hdigit, hblank, hletter]
      rfl
    rw [List.cons_append, readDurationFrom_cons, hstep, List.reverse_cons, List.append_assoc]
    exact ih hletters (c :: name)

/-- The name of a unit is read behind a number. The reader holds its letters, the last one first,
until it comes to what ends the name. -/
theorem readDurationFrom_name {ls : List Char} (hne : ls ≠ [])
    (hletters : ∀ c ∈ ls, IsNameLetter c) :
    readDurationFrom total (.whole n) (ls ++ rest)
      = readDurationFrom total (.unit n none ls.reverse) rest := by
  cases ls with
  | nil => exact absurd rfl hne
  | cons c ls =>
    obtain ⟨⟨hdigit, hblank, hletter⟩, hletters⟩ := List.forall_mem_cons.mp hletters
    have hstep : durationStep total (.whole n) c = .ok (total, .unit n none [c]) := by
      rw [durationStep]
      simp only [hdigit, hblank, hletter]
      rfl
    rw [List.cons_append, readDurationFrom_cons, hstep, List.reverse_cons]
    exact readDurationFrom_letters hletters [c]

-- As a statement on all characters this could be decided by trying every one that there is.
theorem unitName_spec (u : TimeUnit) (many : Bool) :
    (u.written ++ if u.hasPlural && many then "s" else "").toList ≠ []
      ∧ ((u.written ++ if u.hasPlural && many then "s" else "").toList.all
        fun c => decide (IsNameLetter c)) = true
      ∧ TimeUnit.ofName? (u.written ++ if u.hasPlural && many then "s" else "") = some u := by
  cases u <;> cases many <;> decide +kernel

/-- What is written for a unit is a name of it, in the singular and in the plural. -/
theorem unitText_spec (a : Amount) :
    a.unitText.toList ≠ [] ∧ (∀ c ∈ a.unitText.toList, IsNameLetter c)
      ∧ TimeUnit.ofName? a.unitText = some a.unit := by
  obtain ⟨hne, hletters, hname⟩ := unitName_spec a.unit (decide (1 < a.number))
  exact ⟨hne, fun c hc => of_decide_eq_true (List.all_eq_true.mp hletters c hc), hname⟩

/-- An amount is read up to the end of its name. -/
theorem readDurationFrom_amount (total : Nat) (rest : List Char) (a : Amount)
    (hphase : phase.IsFree) (hn : a.number < 2 ^ 64) :
    readDurationFrom total phase (a.text ++ rest)
      = readDurationFrom total (.unit a.number none a.unitText.toList.reverse) rest := by
  obtain ⟨hne, hletters, -⟩ := unitText_spec a
  rw [Amount.text, List.append_assoc, readDurationFrom_number hphase hn,
    readDurationFrom_name hne hletters]

/-- A number of a unit is added once its name is read. The reader splits it into seconds and
nanoseconds, which together are the amount. -/
theorem addUnits_eq (total : Nat) (a : Amount) :
    addUnits total a.number none a.unitText.toList.reverse = addWhole total a.number a.unit := by
  rw [addUnits, List.reverse_reverse, String.ofList_toList, (unitText_spec a).2.2]
  dsimp only
  cases addWhole total a.number a.unit <;> rfl

/-- **Amounts that fit are read and added one after the other.** The induction is on the amounts,
with what was added so far as a parameter. -/
theorem readDurationFrom_amounts {a : Amount} {as : List Amount} (hphase : phase.IsFree)
    (h : Fits total (a :: as)) :
    readDurationFrom total phase ([' '].intercalate ((a :: as).map Amount.text))
      = .ok (total + Amount.sum (a :: as)) := by
  induction as generalizing total phase a with
  | nil =>
    obtain ⟨hadd, hn, -⟩ := h.add
    have hread := readDurationFrom_amount total [] a hphase hn
    rw [List.append_nil] at hread
    rw [List.map_singleton, List.intercalate_singleton, hread, Amount.sum_cons, Amount.sum_nil]
    exact (addUnits_eq total a).trans hadd
  | cons b as ih =>
    obtain ⟨hadd, hn, hfits⟩ := h.add
    -- The blank ends the name, and the next number may begin.
    have hblank : durationStep total (.unit a.number none a.unitText.toList.reverse) ' '
        = .ok (total + a.nanos, .between) := by
      have hunits := (addUnits_eq total a).trans hadd
      rw [durationStep]
      simp only [hunits]
      rfl
    rw [List.map_cons, List.map_cons, List.intercalate_cons_cons, List.append_assoc,
      readDurationFrom_amount total _ a hphase hn, List.singleton_append, readDurationFrom_cons,
      hblank]
    have hrest := ih (.inr rfl) hfits
    rw [List.map_cons] at hrest
    rw [Amount.sum_cons a, ← Nat.add_assoc]
    exact hrest

/-- No text of amounts is a lone zero, which is read in a way of its own. -/
theorem intercalate_amounts_ne (a : Amount) (as : List Amount) :
    [' '].intercalate ((a :: as).map Amount.text) ≠ ['0'] := by
  have hdigits := List.length_pos_iff.mpr (natDigits_ne_nil a.number)
  have hname := List.length_pos_iff.mpr (unitText_spec a).1
  intro heq
  have hlength : List.length _ = 1 := congrArg List.length heq
  have htext : a.text.length = (natDigits a.number).length + a.unitText.toList.length :=
    List.length_append
  cases as with
  | nil =>
    rw [List.map_singleton, List.intercalate_singleton, htext] at hlength
    omega
  | cons b as =>
    rw [List.map_cons, List.map_cons, List.intercalate_cons_cons, List.length_append,
      List.length_append, htext, List.length_singleton] at hlength
    omega

theorem writtenAmounts_ne_nil (total : Nat) : writtenAmounts total ≠ [] := by
  rw [writtenAmounts]
  split
  · exact List.cons_ne_nil _ _
  · exact List.cons_ne_nil _ _

/-- **What is written for a length is read as the length**, up to the greatest there is. -/
theorem readDuration_durationText (h : total < 2 ^ 64 * nanosPerSecond) :
    readDuration (durationText total).toList = .ok total := by
  obtain ⟨hsum, hbelow⟩ := sum_writtenAmounts total
  rw [durationText_eq]
  obtain ⟨a, as, hwritten⟩ := List.exists_cons_of_ne_nil (writtenAmounts_ne_nil total)
  rw [hwritten] at hsum hbelow ⊢
  have hfits : Fits 0 (a :: as) := by
    refine ⟨by rwa [hsum, Nat.zero_add], ?_⟩
    rw [hbelow, Nat.zero_mod, Nat.zero_add]
    exact Nat.mod_lt total nanosPerSecond_pos
  rw [readDuration, if_neg (by simpa using intercalate_amounts_ne a as),
    readDurationFrom_amounts (.inl rfl) hfits, hsum, Nat.zero_add]

end ExchangeArchive.Time
