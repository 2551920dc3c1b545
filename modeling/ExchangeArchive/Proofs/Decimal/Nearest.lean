import ExchangeArchive.Proofs.Decimal.Digits
import Mathlib
/-
The nearest double to a quotient.

Rounding is defined on a pair of natural numbers. It goes by their quotient alone
(`nearestBits_congr`): the binary logarithm that it starts from is that of the quotient
(`floorLog2_eq`), and the mantissa is a rounded quotient too. And it does nothing to a
quotient that is a double already (`nearestBits_of_double`), so that the magnitude of a
finite double is rounded to the double itself (`nearestBits_parts`).
-/

set_option autoImplicit false

namespace ExchangeArchive.Decimal

/-! ## The binary logarithm -/

/-- Comparing a quotient with a power of two, on natural numbers: which side is multiplied depends
on the sign of the exponent. -/
theorem two_zpow_le_div_iff (num : Nat) {den : Nat} (hden : den ≠ 0) (l : Int) :
    (if 0 ≤ l then den * twoTo l.toNat ≤ num else den ≤ num * twoTo (-l).toNat) ↔
      (2 : ℚ) ^ l ≤ (num : ℚ) / den := by
  have hpos : (0 : ℚ) < den := by exact_mod_cast Nat.pos_of_ne_zero hden
  rw [le_div_iff₀ hpos, twoTo_eq, twoTo_eq]
  by_cases hl : 0 ≤ l
  · rw [if_pos hl]
    obtain ⟨k, rfl⟩ := Int.eq_ofNat_of_zero_le hl
    rw [Int.toNat_natCast, zpow_natCast, mul_comm ((2 : ℚ) ^ k)]
    exact_mod_cast Iff.rfl
  · rw [if_neg hl]
    obtain ⟨k, hk⟩ := Int.eq_ofNat_of_zero_le (show 0 ≤ -l by omega)
    have hl' : l = -(k : Int) := by omega
    have hpow : (0 : ℚ) < 2 ^ k := by positivity
    rw [hl', neg_neg, Int.toNat_natCast, zpow_neg, zpow_natCast, inv_mul_le_iff₀ hpow,
      mul_comm ((2 : ℚ) ^ k)]
    exact_mod_cast Iff.rfl

/-- The binary logarithm is that of the quotient. -/
theorem floorLog2_eq {num den : Nat} (hnum : num ≠ 0) (hden : den ≠ 0) :
    floorLog2 num den = Int.log 2 ((num : ℚ) / den) := by
  have hq : (0 : ℚ) < (num : ℚ) / den := by positivity
  have hle : ∀ x : Int, (2 : ℚ) ^ x ≤ (num : ℚ) / den ↔ x ≤ Int.log 2 ((num : ℚ) / den) :=
    fun x => by exact_mod_cast Int.zpow_le_iff_le_log (b := 2) (by norm_num) hq
  have hlt : ∀ x : Int, (num : ℚ) / den < (2 : ℚ) ^ x ↔ Int.log 2 ((num : ℚ) / den) < x :=
    fun x => by exact_mod_cast Int.lt_zpow_iff_log_lt (b := 2) (by norm_num) hq
  -- The logarithms of both are exact to one, so that of the quotient is within one of theirs.
  have hlow : ((num.log2 : Int) - den.log2) - 1 ≤ Int.log 2 ((num : ℚ) / den) := by
    rw [← hle, zpow_sub₀ (by norm_num), zpow_sub₀ (by norm_num), zpow_natCast, zpow_natCast,
      zpow_one]
    have hn : (2 : ℚ) ^ num.log2 ≤ num := by exact_mod_cast Nat.log2_self_le hnum
    have hd : (den : ℚ) < 2 * 2 ^ den.log2 := by
      have hlt := Nat.lt_log2_self (n := den)
      rw [pow_succ, mul_comm] at hlt
      exact_mod_cast hlt
    have hdpos : (0 : ℚ) < den := by positivity
    rw [div_div, div_le_div_iff₀ (by positivity) hdpos]
    nlinarith
  have hhigh : Int.log 2 ((num : ℚ) / den) < ((num.log2 : Int) - den.log2) + 1 := by
    rw [← hlt, zpow_add₀ (by norm_num), zpow_sub₀ (by norm_num),
      zpow_natCast, zpow_natCast, zpow_one]
    have hn : (num : ℚ) < 2 * 2 ^ num.log2 := by
      have hlt := Nat.lt_log2_self (n := num)
      rw [pow_succ, mul_comm] at hlt
      exact_mod_cast hlt
    have hd : (2 : ℚ) ^ den.log2 ≤ den := by exact_mod_cast Nat.log2_self_le hden
    have hdpos : (0 : ℚ) < den := by positivity
    rw [div_mul_eq_mul_div, div_lt_div_iff₀ hdpos (by positivity)]
    nlinarith
  -- Of the two that are left, the comparison finds out which it is.
  have hreached := (two_zpow_le_div_iff num hden (num.log2 - den.log2)).trans (hle _)
  rw [floorLog2]
  by_cases hr : ((num.log2 : Int) - den.log2) ≤ Int.log 2 ((num : ℚ) / den)
  · rw [if_pos (by simpa using hreached.mpr hr)]
    omega
  · rw [if_neg (by simpa using fun h => hr (hreached.mp h))]
    omega

/-! ## Rounding a quotient to a natural number -/

theorem roundHalfEven_mul_right (num den : Nat) {k : Nat} (hk : k ≠ 0) :
    roundHalfEven (num * k) (den * k) = roundHalfEven num den := by
  have hpos : 0 < k := Nat.pos_of_ne_zero hk
  have hlow : 2 * (num % den * k) < den * k ↔ 2 * (num % den) < den := by
    rw [← Nat.mul_assoc]
    exact Nat.mul_lt_mul_right hpos
  have hhigh : den * k < 2 * (num % den * k) ↔ den < 2 * (num % den) := by
    rw [← Nat.mul_assoc]
    exact Nat.mul_lt_mul_right hpos
  simp only [roundHalfEven, Nat.mul_div_mul_right _ _ hpos, Nat.mul_mod_mul_right, hlow, hhigh]

theorem roundHalfEven_congr {num den num' den' : Nat} (hden : den ≠ 0) (hden' : den' ≠ 0)
    (h : num * den' = num' * den) : roundHalfEven num den = roundHalfEven num' den' :=
  calc roundHalfEven num den
      = roundHalfEven (num * den') (den * den') := (roundHalfEven_mul_right _ _ hden').symm
    _ = roundHalfEven (num' * den) (den' * den) := by rw [h, Nat.mul_comm den]
    _ = roundHalfEven num' den' := roundHalfEven_mul_right _ _ hden

/-- A natural number is not changed. -/
theorem roundHalfEven_mul_self (m : Nat) {den : Nat} (hden : den ≠ 0) :
    roundHalfEven (m * den) den = m := by
  have hpos : 0 < den := Nat.pos_of_ne_zero hden
  simp [roundHalfEven, Nat.mul_div_cancel _ hpos, hpos]

/-! ## Rounding a quotient to a double -/

/-- **The nearest double goes by the quotient alone**, however numerator and denominator are given.
A numeral with zeros at its end is therefore read as the one without. -/
theorem nearestBits_congr {num den num' den' : Nat} (hden : den ≠ 0) (hden' : den' ≠ 0)
    (h : (num : ℚ) / den = num' / den') : nearestBits num den = nearestBits num' den' := by
  have hcross : num * den' = num' * den := by
    rw [div_eq_div_iff (by exact_mod_cast hden) (by exact_mod_cast hden')] at h
    exact_mod_cast h
  have hzero : num = 0 ↔ num' = 0 := by
    rw [← mul_eq_zero_iff_right hden', hcross, mul_eq_zero_iff_right hden]
  by_cases hnum : num = 0
  · rw [nearestBits, nearestBits, if_pos hnum, if_pos (hzero.mp hnum)]
  · have hnum' : num' ≠ 0 := fun h => hnum (hzero.mpr h)
    have hlog : floorLog2 num den = floorLog2 num' den' := by
      rw [floorLog2_eq hnum hden, floorLog2_eq hnum' hden', h]
    have hup : ∀ k, roundHalfEven num (den * twoTo k) = roundHalfEven num' (den' * twoTo k) :=
      fun k => roundHalfEven_congr (by simp [hden]) (by simp [hden'])
        (by rw [← Nat.mul_assoc, ← Nat.mul_assoc, hcross])
    have hdown : ∀ k, roundHalfEven (num * twoTo k) den = roundHalfEven (num' * twoTo k) den' :=
      fun k => roundHalfEven_congr hden hden'
        (by rw [Nat.mul_right_comm, hcross, Nat.mul_right_comm])
    simp only [nearestBits, hnum, hnum', if_false, hlog, hup, hdown]

/-- The binary logarithm of a mantissa with an exponent. -/
theorem floorLog2_mul_zpow {num den m : Nat} {e : Int} (hm : m ≠ 0) (hnum : num ≠ 0)
    (hden : den ≠ 0) (hquot : (num : ℚ) / den = m * 2 ^ e) :
    floorLog2 num den = m.log2 + e := by
  have hscale : (0 : ℚ) < 2 ^ e := zpow_pos (by norm_num) e
  have hpos : (0 : ℚ) < m * 2 ^ e := mul_pos (by positivity) hscale
  have hfrom : (2 : ℚ) ^ (m.log2 + e) ≤ m * 2 ^ e := by
    rw [zpow_add₀ (by norm_num), zpow_natCast]
    exact mul_le_mul_of_nonneg_right (by exact_mod_cast Nat.log2_self_le hm) hscale.le
  have hto : (m : ℚ) * 2 ^ e < 2 ^ (((m.log2 + 1 : Nat) : Int) + e) := by
    rw [zpow_add₀ (by norm_num), zpow_natCast]
    exact mul_lt_mul_of_pos_right (by exact_mod_cast Nat.lt_log2_self) hscale
  have hge := (Int.zpow_le_iff_le_log (b := 2) (by norm_num) hpos).mp (by exact_mod_cast hfrom)
  have hlt := (Int.lt_zpow_iff_log_lt (b := 2) (by norm_num) hpos).mp (by exact_mod_cast hto)
  rw [floorLog2_eq hnum hden, hquot]
  omega

/-- A multiple of the unit of a grid is not changed by rounding to the grid. -/
theorem roundHalfEven_mul_zpow {num den m : Nat} {e : Int} (hden : den ≠ 0)
    (hquot : (num : ℚ) / den = m * 2 ^ e) :
    (if 0 ≤ e then roundHalfEven num (den * twoTo e.toNat)
      else roundHalfEven (num * twoTo (-e).toNat) den) = m := by
  rw [div_eq_iff (by exact_mod_cast hden)] at hquot
  by_cases he : 0 ≤ e
  · obtain ⟨k, rfl⟩ := Int.eq_ofNat_of_zero_le he
    have hnat : num = m * (den * 2 ^ k) := by
      rw [zpow_natCast, mul_assoc, mul_comm _ (den : ℚ)] at hquot
      exact_mod_cast hquot
    rw [if_pos he, Int.toNat_natCast, twoTo_eq, hnat, roundHalfEven_mul_self]
    positivity
  · obtain ⟨k, hk⟩ := Int.eq_ofNat_of_zero_le (show 0 ≤ -e by omega)
    have hnat : num * 2 ^ k = m * den := by
      rw [show e = -(k : Int) by omega, zpow_neg, zpow_natCast, mul_right_comm,
        eq_mul_inv_iff_mul_eq₀ (by positivity)] at hquot
      exact_mod_cast hquot
    rw [if_neg he, hk, Int.toNat_natCast, twoTo_eq, hnat, roundHalfEven_mul_self m hden]

/-- **A quotient that is a double already is that double.** The hypotheses on the mantissa and the
exponent are those of a finite double, the least exponent being that of the subnormal ones. -/
theorem nearestBits_of_double {num den m : Nat} {e : Int} (hm : m ≠ 0) (hlt : m < 2 ^ 53)
    (hlow : -1074 ≤ e) (hhigh : e ≤ 971) (hnormal : e = -1074 ∨ 2 ^ 52 ≤ m) (hden : den ≠ 0)
    (hquot : (num : ℚ) / den = m * 2 ^ e) :
    nearestBits num den = some ((e + 1074).toNat * 2 ^ 52 + m) := by
  have hnum : num ≠ 0 := by
    rintro rfl
    rw [Nat.cast_zero, zero_div, eq_comm, mul_eq_zero] at hquot
    exact hquot.elim (by exact_mod_cast hm) (zpow_ne_zero e (by norm_num))
  -- The grid that it is rounded on is its own.
  have hgrid : max (floorLog2 num den - 52) (-1074) = e := by
    have hlog := (Nat.log2_lt hm).mpr hlt
    rw [floorLog2_mul_zpow hm hnum hden hquot]
    rcases hnormal with rfl | hbig
    · omega
    · have hle := (Nat.le_log2 hm).mpr hbig
      omega
  have hfits : (e + 1074).toNat * 2 ^ 52 + m < 2047 * 2 ^ 52 := by
    have : (e + 1074).toNat ≤ 2045 := by omega
    omega
  rw [← twoTo_eq 52] at hfits ⊢
  simp only [nearestBits, hnum, if_false, hgrid, roundHalfEven_mul_zpow hden hquot, if_pos hfits]

/-! ## Finite doubles -/

/-- The parts of a finite double, and how they make up its bits. -/
theorem parts?_eq_some {x : Float} {p : Parts} (h : parts? x = some p) :
    p.negative = signBit x.toBits.toNat ∧ p.mantissa < 2 ^ 53 ∧ -1074 ≤ p.exponent ∧
      p.exponent ≤ 971 ∧ (p.exponent = -1074 ∨ 2 ^ 52 ≤ p.mantissa) ∧
      x.toBits.toNat % 2 ^ 63
        = if p.mantissa = 0 then 0 else (p.exponent + 1074).toNat * 2 ^ 52 + p.mantissa := by
  have hbits : x.toBits.toNat < 2 ^ 64 := x.toBits.toNat_lt
  have hexp : exponentField x.toBits.toNat = x.toBits.toNat / 2 ^ 52 % 2 ^ 11 := rfl
  have hfrac : fractionField x.toBits.toNat = x.toBits.toNat % 2 ^ 52 := rfl
  simp only [parts?, twoTo_eq] at h
  -- The bits and their two fields are numbers from here on, tied together by division alone.
  generalize x.toBits.toNat = bits, exponentField x.toBits.toNat = e,
    fractionField x.toBits.toNat = f at *
  by_cases htop : e = 2047
  · rw [if_pos htop] at h
    cases h
  · rw [if_neg htop] at h
    by_cases hzero : e = 0
    · rw [if_pos hzero] at h
      cases h
      dsimp only
      refine ⟨rfl, by omega, by omega, by omega, .inl rfl, ?_⟩
      split <;> omega
    · rw [if_neg hzero] at h
      cases h
      dsimp only
      refine ⟨rfl, by omega, by omega, by omega, .inr (by omega), ?_⟩
      rw [if_neg (by omega)]
      omega

/-- A double is made of its sign and its other bits. -/
theorem ofSignedBits_signBit (x : Float) :
    ofSignedBits (signBit x.toBits.toNat) (x.toBits.toNat % 2 ^ 63) = x := by
  have hlt : x.toBits.toNat < 2 ^ 64 := x.toBits.toNat_lt
  have hsum : (if signBit x.toBits.toNat = true then twoTo 63 + x.toBits.toNat % 2 ^ 63
      else x.toBits.toNat % 2 ^ 63) = x.toBits.toNat := by
    simp only [signBit, beq_iff_eq, twoTo_eq]
    split <;> omega
  rw [ofSignedBits, hsum, UInt64.ofNat_toNat, Float.ofBits_toBits]

/-- **The magnitude of a finite double is rounded to the double itself.** Zero is a case of its own:
no exponent belongs to it. -/
theorem nearestBits_parts {x : Float} {p : Parts} {num den : Nat} (h : parts? x = some p)
    (hden : den ≠ 0) (hquot : (num : ℚ) / den = p.mantissa * 2 ^ p.exponent) :
    nearestBits num den = some (x.toBits.toNat % 2 ^ 63) := by
  obtain ⟨-, hlt, hlow, hhigh, hnormal, hbits⟩ := parts?_eq_some h
  by_cases hm : p.mantissa = 0
  · have hnum : num = 0 := by
      rw [hm, Nat.cast_zero, zero_mul, div_eq_zero_iff] at hquot
      exact_mod_cast hquot.resolve_right (by exact_mod_cast hden)
    rw [hbits, if_pos hm, hnum, nearestBits, if_pos rfl]
  · rw [hbits, if_neg hm, nearestBits_of_double hm hlt hlow hhigh hnormal hden hquot]

end ExchangeArchive.Decimal
