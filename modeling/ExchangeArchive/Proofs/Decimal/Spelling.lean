import ExchangeArchive.Proofs.Decimal.Shortest
/-
How a double is spelt.

A number in writing is a list of digits, places after a point and an exponent, of which the
last two may be missing. The text of a finite double is of that form (`finiteText_spells`),
begins with a zero only before the point, and stands for a numeral that is read as the
double, however its digits are laid out.
-/

set_option autoImplicit false

namespace ExchangeArchive.Decimal

/-- A number in writing without its sign; the exponent is written after a sign of its own. -/
structure Spelling where
  whole : List Char
  places : List Char
  exponent : Option Int

namespace Spelling

/-- The sign that an exponent is written with. -/
def sign (e : Int) : List Char := if e < 0 then ['-'] else ['+']

/-- The exponent in writing. -/
def exponentText (s : Spelling) : List Char :=
  match s.exponent with
  | none => []
  | some e => 'e' :: sign e ++ natDigits e.natAbs

/-- The point and the places. -/
def placesText (s : Spelling) : List Char := if s.places = [] then [] else '.' :: s.places

/-- The number in writing. -/
def text (s : Spelling) : List Char := s.whole ++ s.placesText ++ s.exponentText

/-- The numeral in writing: all its digits as one number, with an exponent that takes the places
into account. -/
def numeral (s : Spelling) : Numeral :=
  ⟨Nat.ofDigitChars 10 (s.whole ++ s.places) 0, s.exponent.getD 0 - s.places.length⟩

/-- A number is spelt well if it has digits, and no zero before others. A reader of numbers takes
the whole of such a text and nothing of what follows it. -/
structure Sound (s : Spelling) : Prop where
  some_digit : s.whole ≠ []
  whole_digits : ∀ c ∈ s.whole, c.isDigit = true
  places_digits : ∀ c ∈ s.places, c.isDigit = true
  zero_alone : ∀ ds, s.whole = '0' :: ds → ds = []

end Spelling

/-! ## The digits of a number -/

theorem zero_alone_natDigits {n : Nat} {ds : List Char} (h : natDigits n = '0' :: ds) :
    ds = [] := by
  have hzero := eq_zero_of_natDigits h
  subst hzero
  exact (List.cons.inj h).2.symm

/-- An integer is spelt well, zero included. -/
theorem sound_natDigits (n : Nat) : Spelling.Sound ⟨natDigits n, [], none⟩ where
  some_digit := natDigits_ne_nil n
  whole_digits _ h := isDigit_natDigits h
  places_digits _ h := absurd h List.not_mem_nil
  zero_alone _ h := zero_alone_natDigits h

/-! ## The two notations -/

/-- What a text says of a numeral: it is well spelt and read as the numeral, and more than
the digits of an integer. By the last a reader can tell it from an integer, which would come back
as another kind of number. -/
def Spells (text : List Char) (n : Numeral) : Prop :=
  ∃ s : Spelling, s.text = text ∧ s.Sound ∧ (s.places ≠ [] ∨ s.exponent ≠ none) ∧
    s.numeral.bits? = n.bits?

/-- A whole number is its digits with zeros after them, and ends in `.0`. -/
theorem wholeText_spells {n : Numeral} (he : 0 ≤ n.exponent) :
    Spells (positionalText true n) n := by
  obtain ⟨k, hk⟩ := Int.eq_ofNat_of_zero_le he
  have hwhole : (if n.digits = 0 then ['0']
      else natDigits n.digits ++ List.replicate n.exponent.toNat '0')
        = natDigits (n.digits * 10 ^ k) := by
    by_cases hd : n.digits = 0
    · rw [if_pos hd, hd, Nat.zero_mul]
      rfl
    · rw [if_neg hd, hk, Int.toNat_natCast, natDigits_mul_ten_pow hd]
  refine ⟨⟨natDigits (n.digits * 10 ^ k), ['0'], none⟩, ?_, ?_, .inl (by simp), ?_⟩
  · simp [Spelling.text, Spelling.placesText, Spelling.exponentText, positionalText, he, hwhole]
  · exact { sound_natDigits _ with places_digits := by simp }
  · have hdigits : Nat.ofDigitChars 10 (natDigits (n.digits * 10 ^ k) ++ ['0']) 0
        = n.digits * 10 ^ (k + 1) := by
      rw [ofDigitChars_append, ofDigitChars_natDigits, Nat.pow_succ, ← Nat.mul_assoc]
      rfl
    simp only [Spelling.numeral, hdigits, Numeral.bits?_mul_ten_pow]
    congr 2
    simp [hk]

/-- Digits that reach beyond the point are cut in two by it. What is before the point begins as the
digits do, so it has no zero before others. -/
theorem cutText_spells {n : Numeral} {k : Nat} (hk : n.exponent = -(k : Int)) (hpos : 0 < k)
    (hplaces : k < (natDigits n.digits).length) : Spells (positionalText true n) n := by
  have hneg : ¬0 ≤ n.exponent := by omega
  have hks : (-n.exponent).toNat = k := by omega
  have hcut : (natDigits n.digits).drop ((natDigits n.digits).length - k) ≠ [] := by
    rw [Ne, List.drop_eq_nil_iff]
    omega
  -- The two parts together are the digits again, so both are digits and are read as the number.
  refine ⟨⟨(natDigits n.digits).take ((natDigits n.digits).length - k),
    (natDigits n.digits).drop ((natDigits n.digits).length - k), none⟩, ?_, ⟨?_, ?_, ?_, ?_⟩,
    .inl hcut, ?_⟩
  · simp only [Spelling.text, Spelling.placesText, Spelling.exponentText, positionalText,
      if_neg hneg, hks, if_pos hplaces, if_neg hcut, List.append_nil]
  · rw [Ne, List.take_eq_nil_iff]
    simp only [natDigits_ne_nil, or_false]
    omega
  · exact fun c hc => isDigit_natDigits (List.mem_of_mem_take hc)
  · exact fun c hc => isDigit_natDigits (List.mem_of_mem_drop hc)
  · intro ds hzero
    dsimp only at hzero
    have hall := List.take_append_drop ((natDigits n.digits).length - k) (natDigits n.digits)
    rw [hzero, List.cons_append] at hall
    have hnone := zero_alone_natDigits hall.symm
    exact (List.append_eq_nil_iff.mp hnone).1
  · simp only [Spelling.numeral, List.take_append_drop, ofDigitChars_natDigits,
      List.length_drop, Option.getD_none]
    congr 2
    omega

/-- Digits that all stand after the point follow a zero before it and zeros that fill the gap. -/
theorem smallText_spells {n : Numeral} {k : Nat} (hk : n.exponent = -(k : Int)) (hpos : 0 < k)
    (hplaces : (natDigits n.digits).length ≤ k) : Spells (positionalText true n) n := by
  have hneg : ¬0 ≤ n.exponent := by omega
  have hks : (-n.exponent).toNat = k := by omega
  have hdigits : Nat.ofDigitChars 10
      (['0'] ++ (List.replicate (k - (natDigits n.digits).length) '0' ++ natDigits n.digits)) 0
        = n.digits := by
    rw [← List.append_assoc, ← List.replicate_one, List.replicate_append_replicate,
      ofDigitChars_append, ofDigitChars_natDigits, Nat.ofDigitChars_replicate_zero]
    simp
  refine ⟨⟨['0'], List.replicate (k - (natDigits n.digits).length) '0' ++ natDigits n.digits,
    none⟩, ?_, ⟨by simp, by simp, ?_, fun ds h => (List.cons.inj h).2.symm⟩,
    .inl (by simp [natDigits_ne_nil]), ?_⟩
  · simp [Spelling.text, Spelling.placesText, Spelling.exponentText, positionalText,
      if_neg hneg, hks, Nat.not_lt.mpr hplaces, natDigits_ne_nil]
  · intro c hc
    rcases List.mem_append.mp hc with hc | hc
    · rw [List.eq_of_mem_replicate hc]
      rfl
    · exact isDigit_natDigits hc
  · simp only [Spelling.numeral, hdigits, List.length_append, List.length_replicate,
      Option.getD_none]
    congr 2
    omega

/-- Without an exponent, where the point stands decides between the three forms above. -/
theorem positionalText_spells (n : Numeral) : Spells (positionalText true n) n := by
  by_cases he : 0 ≤ n.exponent
  · exact wholeText_spells he
  · obtain ⟨k, hk⟩ := Int.eq_ofNat_of_zero_le (show 0 ≤ -n.exponent by omega)
    rcases Nat.lt_or_ge k (natDigits n.digits).length with hplaces | hplaces
    · exact cutText_spells (by omega) (by omega) hplaces
    · exact smallText_spells (by omega) (by omega) hplaces

/-- With an exponent, after its sign, one digit stands before the point and the others after it. -/
theorem scientificText_spells (n : Numeral) : Spells (scientificText true n) n := by
  obtain ⟨d, more, hds⟩ := List.exists_cons_of_ne_nil (natDigits_ne_nil n.digits)
  have hdigits : ∀ c ∈ d :: more, c.isDigit = true := fun c hc =>
    isDigit_natDigits (by rwa [hds])
  refine ⟨⟨[d], more, some ((natDigits n.digits).length - 1 + n.exponent)⟩, ?_, ?_,
    .inr (by simp), ?_⟩
  · -- A single digit has no point after it.
    cases more <;>
      simp [Spelling.text, Spelling.placesText, Spelling.exponentText, Spelling.sign,
        scientificText, hds]
  · exact ⟨by simp, fun c hc => hdigits c (by simp_all), fun c hc => hdigits c (by simp [hc]),
      fun ds h => (List.cons.inj h).2.symm⟩
  · simp only [Spelling.numeral, List.singleton_append, ← hds, ofDigitChars_natDigits,
      Option.getD_some]
    congr 2
    simp [hds]

/-- **The text of a finite double is its sign and the spelling of a numeral that is read as
the double.** -/
theorem finiteText_spells (positional : Int → Bool) (p : Parts) :
    ∃ text, finiteText ⟨positional, true, true⟩ p = (if p.negative then ['-'] else []) ++ text ∧
      Spells text (Numeral.shortest p) := by
  refine ⟨_, rfl, ?_⟩
  split
  · exact positionalText_spells _
  · exact scientificText_spells _

end ExchangeArchive.Decimal
