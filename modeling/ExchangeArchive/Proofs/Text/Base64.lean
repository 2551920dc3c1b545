import ExchangeArchive.Text.Base64
import ExchangeArchive.Proofs.Text.Utf8
/-
Base64 that is written is read again.

Three octets and four digits are the same number, once in base 256 and once in base 64, and so are
one or two octets and the digits before the padding, but for the spare bits, which are zero. A
digit is never the padding character, so the groups are told apart by where that stands.

What is written takes four characters for each three octets begun, all of them ASCII: it is never
as long as the octets, unless there are none.
-/

set_option autoImplicit false

namespace ExchangeArchive.Text.Base64

/-! ## Digits -/

theorem value?_digit {n : Nat} (h : n < 64) : value? (digit n) = some n := by
  have hall : ∀ k ∈ List.range 64, value? (digit k) = some k := by decide
  exact hall n (List.mem_range.mpr h)

theorem digit_ne_pad {n : Nat} (h : n < 64) : digit n ≠ '=' := by
  have hall : ∀ k ∈ List.range 64, digit k ≠ '=' := by decide
  exact hall n (List.mem_range.mpr h)

/-- A digit is ASCII, and so is what stands for a number that is none. -/
theorem digit_ascii (n : Nat) : (digit n).toNat ≤ 127 := by
  by_cases h : n < 64
  · have hall : ∀ k ∈ List.range 64, (digit k).toNat ≤ 127 := by decide
    exact hall n (List.mem_range.mpr h)
  · rw [digit, if_neg (by omega), if_neg (by omega), if_neg (by omega), if_neg (by omega)]
    decide

/-! ## Groups -/

/-- One octet, and four spare bits. Two digits are written, and the padding is what tells the reader
that there are not three octets. -/
theorem decode?_one (a : UInt8) :
    decode? [digit (a.toNat * 16 / 64), digit (a.toNat * 16 % 64), '=', '='] = some [a] := by
  have ha := a.toNat_lt
  rw [decode?, value?_digit (by omega), value?_digit (by omega)]
  -- The digits make up the number again, and its spare bits are zero, as the reader demands.
  have hnumber : a.toNat * 16 / 64 * 64 + a.toNat * 16 % 64 = a.toNat * 16 := by omega
  show (if (a.toNat * 16 / 64 * 64 + a.toNat * 16 % 64) % 16 = 0 then _ else _) = _
  rw [hnumber, if_pos (by omega), Utf8.ofNat_of_eq (b := a) (by omega)]

/-- Two octets, and two spare bits. -/
theorem decode?_two (a b : UInt8) {n : Nat} (hn : n = (a.toNat * 256 + b.toNat) * 4) :
    decode? [digit (n / 4096), digit (n / 64 % 64), digit (n % 64), '='] = some [a, b] := by
  have ha := a.toNat_lt
  have hb := b.toNat_lt
  rw [decode?.eq_3 _ _ _ (digit_ne_pad (by omega)), value?_digit (by omega),
    value?_digit (by omega), value?_digit (by omega)]
  have hnumber : (n / 4096 * 64 + n / 64 % 64) * 64 + n % 64 = n := by omega
  show (if ((n / 4096 * 64 + n / 64 % 64) * 64 + n % 64) % 4 = 0 then _ else _) = _
  rw [hnumber, if_pos (by omega), Utf8.ofNat_of_eq (b := a) (by omega),
    Utf8.ofNat_of_eq (b := b) (by omega)]

/-- Three octets, whatever comes after them: a group of four digits has nothing to spare, so the
rest is read as if it stood alone. -/
theorem decode?_three (a b c : UInt8) {n : Nat}
    (hn : n = (a.toNat * 256 + b.toNat) * 256 + c.toNat) (rest : List Char) :
    decode? (digit (n / 262144) :: digit (n / 4096 % 64) :: digit (n / 64 % 64) :: digit (n % 64)
        :: rest)
      = (decode? rest).map fun more => a :: b :: c :: more := by
  have ha := a.toNat_lt
  have hb := b.toNat_lt
  have hc := c.toNat_lt
  -- Padding in the last place would be read as a group that ends the text.
  have hlast : digit (n % 64) ≠ '=' := digit_ne_pad (by omega)
  rw [decode?.eq_4 _ _ _ _ _ (fun _ h _ => hlast h) (fun h _ => hlast h),
    value?_digit (by omega), value?_digit (by omega), value?_digit (by omega),
    value?_digit (by omega)]
  have hnumber : ((n / 262144 * 64 + n / 4096 % 64) * 64 + n / 64 % 64) * 64 + n % 64 = n := by
    omega
  show ((decode? rest).bind fun more => some (
      UInt8.ofNat ((((n / 262144 * 64 + n / 4096 % 64) * 64 + n / 64 % 64) * 64 + n % 64) / 65536)
      :: _ :: _ :: more)) = _
  rw [hnumber, Utf8.ofNat_of_eq (b := a) (by omega), Utf8.ofNat_of_eq (b := b) (by omega),
    Utf8.ofNat_of_eq (b := c) (by omega)]
  cases decode? rest <;> rfl

/-- **Base64 is read as the octets that it was written for.** The induction takes three octets at a
time, as the writer does. -/
theorem decode?_encode (octets : List UInt8) : decode? (encode octets) = some octets := by
  induction octets using encode.induct with
  | case1 => rfl
  | case2 a => exact decode?_one a
  | case3 a b => exact decode?_two a b rfl
  | case4 a b c rest ih =>
    rw [encode, decode?_three a b c rfl, ih]
    rfl

/-! ## Lengths -/

/-- Four characters are written for each three octets begun, so what is written is longer than what
it was written for, unless that is empty. -/
theorem length_encode (octets : List UInt8) :
    (encode octets).length = (octets.length + 2) / 3 * 4 := by
  induction octets using encode.induct with
  | case1 => rfl
  | case2 a => simp [encode]
  | case3 a b => simp [encode]
  | case4 a b c rest ih =>
    simp only [encode, List.length_cons, ih]
    omega

/-- What is written is ASCII. -/
theorem ascii_of_mem_encode {octets : List UInt8} {c : Char} (h : c ∈ encode octets) :
    c.toNat ≤ 127 := by
  have hpad : '='.toNat ≤ 127 := by decide
  induction octets using encode.induct with
  | case1 => cases h
  | case2 a =>
    simp only [encode, List.mem_cons, List.not_mem_nil, or_false] at h
    rcases h with rfl | rfl | rfl | rfl
    · exact digit_ascii _
    · exact digit_ascii _
    · exact hpad
    · exact hpad
  | case3 a b =>
    simp only [encode, List.mem_cons, List.not_mem_nil, or_false] at h
    rcases h with rfl | rfl | rfl | rfl
    · exact digit_ascii _
    · exact digit_ascii _
    · exact digit_ascii _
    · exact hpad
  | case4 a b c rest ih =>
    simp only [encode, List.mem_cons] at h
    rcases h with rfl | rfl | rfl | rfl | h
    · exact digit_ascii _
    · exact digit_ascii _
    · exact digit_ascii _
    · exact digit_ascii _
    · exact ih h

/-- What is written takes as many octets as it has characters, so its size in octets is known from
the length of what it was written for. -/
theorem length_encode_utf8 (octets : List UInt8) :
    (Utf8.encode (encode octets)).length = (octets.length + 2) / 3 * 4 := by
  rw [Utf8.encode_ascii (fun c hc => ascii_of_mem_encode hc), List.length_map, length_encode]

end ExchangeArchive.Text.Base64
