import ExchangeArchive.Decimal.Numeral
import Mathlib.Tactic.IntervalCases
import Mathlib.Tactic.Ring
/-
The decimal digits of a natural number.

What is written of a number is the list of its digits, and every reader of digits computes
the same value from it (`Nat.ofDigitChars`). Two facts about the list itself are needed
besides: how its length bounds the number, and that it starts with a zero only if it is the
zero. Readers take digits from the front of a text up to what is none.
-/

set_option autoImplicit false

namespace ExchangeArchive.Decimal

@[simp] theorem twoTo_eq (n : Nat) : twoTo n = 2 ^ n := rfl

@[simp] theorem tenTo_eq (n : Nat) : tenTo n = 10 ^ n := rfl

/-- The digits of a number as the library has them, so that its lemmas about them can be used. -/
theorem natDigits_eq (n : Nat) : natDigits n = Nat.toDigits 10 n := by
  rw [natDigits, Nat.repr_eq_ofList_toDigits, String.toList_ofList]

theorem natDigits_ne_nil (n : Nat) : natDigits n ≠ [] := by
  rw [natDigits_eq]
  exact Nat.toDigits_ne_nil

theorem isDigit_natDigits {n : Nat} {c : Char} (h : c ∈ natDigits n) : c.isDigit = true := by
  rw [natDigits_eq] at h
  exact Nat.isDigit_of_mem_toDigits (by omega) (by omega) h

theorem toNat_of_isDigit {c : Char} (h : c.isDigit = true) : 48 ≤ c.toNat ∧ c.toNat ≤ 57 :=
  Char.isDigit_iff_toNat.mp h

/-- Digits are read as the number that they were written for. Every reader of digits is shown to
compute the left side, so this is all that any of them needs. -/
theorem ofDigitChars_natDigits (n : Nat) : Nat.ofDigitChars 10 (natDigits n) 0 = n := by
  rw [natDigits_eq]
  exact Nat.ofDigitChars_ten_toDigits

/-- What two lists of digits stand for together. -/
theorem ofDigitChars_append (xs ys : List Char) :
    Nat.ofDigitChars 10 (xs ++ ys) 0
      = Nat.ofDigitChars 10 xs 0 * 10 ^ ys.length + Nat.ofDigitChars 10 ys 0 := by
  rw [Nat.ofDigitChars_append, Nat.ofDigitChars_eq_ofDigitChars_zero, Nat.mul_comm]

/-! ## How many digits there are -/

theorem digitCount_eq (n : Nat) : digitCount n = (natDigits n).length := by
  rw [digitCount, natDigits, String.length_toList]

theorem digitCount_pos (n : Nat) : 0 < digitCount n := by
  rw [digitCount_eq]
  exact List.length_pos_iff.mpr (natDigits_ne_nil n)

theorem digitCount_le_iff {n k : Nat} (hk : 0 < k) : digitCount n ≤ k ↔ n < 10 ^ k := by
  rw [digitCount_eq, natDigits_eq]
  exact Nat.length_toDigits_le_iff (by omega) hk

theorem lt_ten_pow_digitCount (n : Nat) : n < 10 ^ digitCount n :=
  (digitCount_le_iff (digitCount_pos n)).mp (Nat.le_refl _)

/-! ## Zeros -/

/-- Zeros at the end multiply by a power of ten, except those of the zero itself. -/
theorem natDigits_mul_ten_pow {n : Nat} (hn : n ≠ 0) (k : Nat) :
    natDigits (n * 10 ^ k) = natDigits n ++ List.replicate k '0' := by
  induction k with
  | zero => simp
  | succ k ih =>
    have hpos : 0 < n * 10 ^ k := Nat.mul_pos (by omega) (by positivity)
    have hlast := Nat.toDigits_append_toDigits (b := 10) (d := 0) (by omega) hpos (by omega)
    rw [Nat.toDigits_zero, Nat.add_zero] at hlast
    rw [natDigits_eq, natDigits_eq, pow_succ, ← Nat.mul_assoc, Nat.mul_comm (n * 10 ^ k) 10,
      ← hlast, ← natDigits_eq, ih, List.replicate_succ', ← natDigits_eq, List.append_assoc]

theorem digitCount_mul_ten_pow {n : Nat} (hn : n ≠ 0) (k : Nat) :
    digitCount (n * 10 ^ k) = digitCount n + k := by
  rw [digitCount_eq, digitCount_eq, natDigits_mul_ten_pow hn, List.length_append,
    List.length_replicate]

/-- Only zero starts with a zero. The induction is on the digits from the last. -/
theorem eq_zero_of_natDigits {n : Nat} {ds : List Char} (h : natDigits n = '0' :: ds) :
    n = 0 := by
  induction n using Nat.strong_induction_on generalizing ds with
  | _ n ih =>
    rw [natDigits_eq] at h
    by_cases hlt : n < 10
    · rw [Nat.toDigits_of_lt_base hlt] at h
      have hfirst : n.digitChar = '0' := (List.cons.inj h).1
      interval_cases n <;> first | rfl | exact absurd hfirst (by decide)
    · rw [Nat.toDigits_of_base_le (by omega) (by omega)] at h
      -- The first digit is that of the number without its last.
      obtain ⟨d, more, hmore⟩ : ∃ d more, natDigits (n / 10) = d :: more :=
        List.exists_cons_of_ne_nil (natDigits_ne_nil _)
      rw [← natDigits_eq, hmore, List.cons_append] at h
      obtain ⟨rfl, -⟩ := List.cons.inj h
      have hzero := ih (n / 10) (by omega) hmore
      omega

/-! ## What is at the front of a list -/

section Front

variable {α : Type} {p : α → Bool} {xs rest : List α}

/-- What is taken while a condition holds ends where it fails first, and nothing of what follows
matters. -/
theorem takeWhile_append_front (h : ∀ x ∈ xs, p x = true)
    (hrest : ∀ x ∈ rest.head?, p x = false) : (xs ++ rest).takeWhile p = xs := by
  rw [List.takeWhile_append_of_pos h]
  cases rest with
  | nil => exact List.append_nil xs
  | cons x rest => rw [List.takeWhile_cons_of_neg (by simp [hrest x rfl]), List.append_nil]

theorem dropWhile_append_front (h : ∀ x ∈ xs, p x = true)
    (hrest : ∀ x ∈ rest.head?, p x = false) : (xs ++ rest).dropWhile p = rest := by
  rw [List.dropWhile_append_of_pos h]
  cases rest with
  | nil => rfl
  | cons x rest => exact List.dropWhile_cons_of_neg (by simp [hrest x rfl])

end Front

end ExchangeArchive.Decimal
