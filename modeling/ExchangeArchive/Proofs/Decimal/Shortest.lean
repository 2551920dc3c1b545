import ExchangeArchive.Proofs.Decimal.Nearest
/-
The shortest numeral of a double.

The search tries numerals and keeps the first that is read as the double, and where it finds
none the exact value is written, so what is written is read as the double in any case
(`toDouble?_shortest`). Besides the search only the exact value and the removal of zeros
need an argument. Both go by value: a numeral is read by the number that it stands for and
the place of its leading digit (`bits?_congr`).
-/

set_option autoImplicit false

namespace ExchangeArchive.Decimal

namespace Numeral

/-! ## Numerals that are read alike -/

/-- The number that a numeral stands for. -/
def value (n : Numeral) : ℚ := n.digits * 10 ^ n.exponent

/-- The place of the leading digit, which is all that counts far from every double. -/
def top (n : Numeral) : Int := digitCount n.digits + n.exponent

/-- The quotient that a numeral is read as, with a power of ten above or below the line. -/
def ratio (n : Numeral) : Nat × Nat :=
  if 0 ≤ n.exponent then (n.digits * tenTo n.exponent.toNat, 1)
  else (n.digits, tenTo (-n.exponent).toNat)

theorem ratio_snd_ne_zero (n : Numeral) : n.ratio.2 ≠ 0 := by
  rw [ratio]
  split <;> simp

theorem ratio_eq_value (n : Numeral) : (n.ratio.1 : ℚ) / n.ratio.2 = n.value := by
  rw [ratio, value]
  by_cases he : 0 ≤ n.exponent
  · obtain ⟨k, hk⟩ := Int.eq_ofNat_of_zero_le he
    simp [hk]
  · obtain ⟨k, hk⟩ := Int.eq_ofNat_of_zero_le (show 0 ≤ -n.exponent by omega)
    rw [if_neg he, hk, show n.exponent = -(k : Int) by omega]
    simp [div_eq_mul_inv]

theorem bits?_eq (n : Numeral) :
    n.bits? = if n.digits = 0 then some 0 else if 400 < n.top then none
      else if n.top < -400 then some 0 else nearestBits n.ratio.1 n.ratio.2 := by
  simp only [bits?, top, ratio]
  by_cases he : 0 ≤ n.exponent <;> simp [he]

/-- Numerals of one value with their leading digit in one place are read alike. The place does not
follow from the value for a zero, which is why that is asked for. -/
theorem bits?_congr {n n' : Numeral} (hvalue : n.value = n'.value) (htop : n.top = n'.top)
    (hzero : n.digits = 0 ↔ n'.digits = 0) : n.bits? = n'.bits? := by
  have hnear : nearestBits n.ratio.1 n.ratio.2 = nearestBits n'.ratio.1 n'.ratio.2 :=
    nearestBits_congr n.ratio_snd_ne_zero n'.ratio_snd_ne_zero
      (by rw [ratio_eq_value, ratio_eq_value, hvalue])
  simp only [bits?_eq, htop, hzero, hnear]

/-- Zeros at the end of the digits are as good as a greater exponent, also for a number that is so
small or so great that only its leading digit is looked at. -/
theorem bits?_mul_ten_pow (d k : Nat) (e : Int) :
    bits? ⟨d * 10 ^ k, e⟩ = bits? ⟨d, e + k⟩ := by
  -- Zeros have no leading digit to compare, but all of them are read as zero.
  by_cases hd : d = 0
  · simp [hd, bits?]
  · refine bits?_congr ?_ ?_ (by simp)
    · simp only [value]
      rw [zpow_add₀ (by norm_num), zpow_natCast]
      push_cast
      ring
    · simp only [top]
      rw [digitCount_mul_ten_pow hd]
      push_cast
      ring

/-! ## The search -/

theorem bits?_of_search {num den bits : Nat} {p : Int} {length more : Nat} {n : Numeral}
    (h : search num den bits p length more = some n) : n.bits? = some bits := by
  induction more generalizing length with
  | zero => cases h
  | succ more ih =>
    rw [search] at h
    split at h
    · next hfound =>
      cases h
      simpa using List.find?_some hfound
    · exact ih h

theorem bits?_stripZeros (fuel : Nat) (n : Numeral) : (stripZeros fuel n).bits? = n.bits? := by
  induction fuel generalizing n with
  | zero => rfl
  | succ fuel ih =>
    rw [stripZeros]
    split
    · next hzero =>
      rw [ih]
      have hscaled := bits?_mul_ten_pow (n.digits / 10) 1 n.exponent
      rw [pow_one, Nat.div_mul_cancel (by omega)] at hscaled
      exact hscaled.symm
    · rfl

/-! ## The exact value -/

theorem value_exact (m : Nat) (e : Int) : (exact m e).value = m * 2 ^ e := by
  rw [exact, value]
  by_cases he : 0 ≤ e
  · obtain ⟨k, rfl⟩ := Int.eq_ofNat_of_zero_le he
    simp
  · obtain ⟨k, hk⟩ := Int.eq_ofNat_of_zero_le (show 0 ≤ -e by omega)
    have hten : (10 : ℚ) ^ k = 5 ^ k * 2 ^ k := by rw [← mul_pow]; norm_num
    rw [if_neg he, hk, show e = -(k : Int) by omega, Int.toNat_natCast, zpow_neg, zpow_neg,
      zpow_natCast, zpow_natCast, hten, Nat.pow_eq]
    push_cast
    field_simp

theorem digitCount_mul_two_pow_le {m k : Nat} (hlt : m < 2 ^ 53) (hk : k ≤ 971) :
    digitCount (m * 2 ^ k) ≤ 400 := by
  rw [digitCount_le_iff (by omega)]
  calc m * 2 ^ k < 2 ^ 53 * 2 ^ 971 :=
        Nat.mul_lt_mul_of_lt_of_le hlt (Nat.pow_le_pow_right (by omega) hk) (by positivity)
    _ ≤ 10 ^ 400 := by decide +kernel

theorem digitCount_mul_five_pow_le {m k : Nat} (hlt : m < 2 ^ 53) :
    digitCount (m * 5 ^ k) ≤ k + 16 := by
  rw [digitCount_le_iff (by omega), Nat.pow_add, Nat.mul_comm (10 ^ k)]
  exact Nat.mul_lt_mul_of_lt_of_le (by omega) (Nat.pow_le_pow_left (by omega) k) (by positivity)

/-- The least double has its leading digit no more than 400 places after the point. -/
theorem le_digitCount_mul_five_pow {m k : Nat} (hm : m ≠ 0) (hk : k ≤ 1074) :
    k ≤ digitCount (m * 5 ^ k) + 400 := by
  -- Else `10 ^ k` would have more digits than `5 ^ k * 2 ^ k`.
  by_contra hfew
  have hsmall : 5 ^ k * 10 ^ 400 < 5 ^ k * 2 ^ k :=
    calc 5 ^ k * 10 ^ 400 ≤ m * 5 ^ k * 10 ^ 400 :=
          Nat.mul_le_mul_right _ (Nat.le_mul_of_pos_left _ (by omega))
      _ < 10 ^ digitCount (m * 5 ^ k) * 10 ^ 400 :=
          Nat.mul_lt_mul_of_pos_right (lt_ten_pow_digitCount _) (by positivity)
      _ ≤ 10 ^ k := by
          rw [← Nat.pow_add]
          exact Nat.pow_le_pow_right (by omega) (by omega)
      _ = 5 ^ k * 2 ^ k := by rw [← Nat.mul_pow]
  have hpow : 2 ^ k ≤ 10 ^ 400 :=
    (Nat.pow_le_pow_right (by omega) hk).trans (by decide +kernel)
  exact absurd (Nat.lt_of_mul_lt_mul_left hsmall) (Nat.not_lt.mpr hpow)

/-- The exact value of a finite double has its leading digit near those of all doubles, so it is not
taken for zero or for something infinite. -/
theorem top_exact {m : Nat} {e : Int} (hm : m ≠ 0) (hlt : m < 2 ^ 53) (hlow : -1074 ≤ e)
    (hhigh : e ≤ 971) : -400 ≤ (exact m e).top ∧ (exact m e).top ≤ 400 := by
  rw [exact, top]
  by_cases he : 0 ≤ e
  · obtain ⟨k, rfl⟩ := Int.eq_ofNat_of_zero_le he
    have hle := digitCount_mul_two_pow_le hlt (show k ≤ 971 by omega)
    rw [if_pos he, Int.toNat_natCast, twoTo_eq]
    dsimp only
    omega
  · obtain ⟨k, hk⟩ := Int.eq_ofNat_of_zero_le (show 0 ≤ -e by omega)
    have hle := digitCount_mul_five_pow_le (k := k) hlt
    have hge := le_digitCount_mul_five_pow hm (show k ≤ 1074 by omega)
    rw [if_neg he, hk, Int.toNat_natCast, Nat.pow_eq]
    dsimp only
    omega

theorem bits?_exact {x : Float} {p : Parts} (h : parts? x = some p) (hm : p.mantissa ≠ 0) :
    (exact p.mantissa p.exponent).bits? = some (x.toBits.toNat % 2 ^ 63) := by
  obtain ⟨-, hlt, hlow, hhigh, -⟩ := parts?_eq_some h
  obtain ⟨hfrom, hto⟩ := top_exact hm hlt hlow hhigh
  have hdigits : (exact p.mantissa p.exponent).digits ≠ 0 := by
    rw [exact]
    split <;> simp [hm]
  rw [bits?_eq, if_neg hdigits, if_neg (by omega), if_neg (by omega)]
  exact nearestBits_parts h (ratio_snd_ne_zero _) (by rw [ratio_eq_value, value_exact])

/-! ## The shortest numeral -/

theorem bits?_shortest {x : Float} {p : Parts} (h : parts? x = some p) :
    (shortest p).bits? = some (x.toBits.toNat % 2 ^ 63) := by
  rw [shortest]
  by_cases hm : p.mantissa = 0
  · obtain ⟨-, -, -, -, -, hbits⟩ := parts?_eq_some h
    rw [if_pos hm, hbits, if_pos hm, bits?, if_pos rfl]
  · rw [if_neg hm]
    obtain ⟨num, den, hq⟩ : ∃ num den, (if 0 ≤ p.exponent
        then (p.mantissa * twoTo p.exponent.toNat, 1)
        else (p.mantissa, twoTo (-p.exponent).toNat)) = (num, den) := ⟨_, _, rfl⟩
    -- The search is for the magnitude of the double, as a quotient.
    have hquot : den ≠ 0 ∧ (num : ℚ) / den = p.mantissa * 2 ^ p.exponent := by
      by_cases he : 0 ≤ p.exponent
      · rw [if_pos he] at hq
        obtain ⟨k, hk⟩ := Int.eq_ofNat_of_zero_le he
        cases hq
        simp [hk]
      · rw [if_neg he] at hq
        obtain ⟨k, hk⟩ := Int.eq_ofNat_of_zero_le (show 0 ≤ -p.exponent by omega)
        cases hq
        rw [hk, show p.exponent = -(k : Int) by omega]
        simp [div_eq_mul_inv]
    have hnear := nearestBits_parts h hquot.1 hquot.2
    rw [hq]
    simp only [hnear]
    split
    · -- What the search returns it has read back itself.
      next hfound => rw [bits?_stripZeros, bits?_of_search hfound]
    · exact bits?_exact h hm

/-- **What is written of a finite double is read as the double**, its sign included. That it is the
shortest numeral with this property is not needed for it. -/
theorem toDouble?_shortest {x : Float} {p : Parts} (h : parts? x = some p) :
    (shortest p).toDouble? p.negative = some x := by
  obtain ⟨hsign, -⟩ := parts?_eq_some h
  rw [toDouble?, bits?_shortest h, hsign, Option.map_some, ofSignedBits_signBit]

end Numeral

end ExchangeArchive.Decimal
