import ExchangeArchive.Proofs.Text.Utf8
/-
UTF-8 keeps the order of texts.

The octets of a character are its digits, the most significant first, and the first of them
also says how many follow: the more there are, the greater it is. So octets compared one by
one say what characters compared one by one do, and names in the order of their octets are in
the order of their characters.
-/

set_option autoImplicit false

namespace ExchangeArchive.Text.Utf8

variable {v w : Nat} {bs bs' : List UInt8}

/-! ## Digits -/

/-- Lists are compared by their first octets, and by the rest if these are equal. The octets are
given as numbers, which is how the encoding has them. -/
theorem ofNat_cons_lt {m n : Nat} (hn : n < 256) (hle : m ≤ n) (h : m = n → bs < bs') :
    UInt8.ofNat m :: bs < UInt8.ofNat n :: bs' := by
  have hm : m < 256 := Nat.lt_of_le_of_lt hle hn
  rw [List.cons_lt_cons_iff, UInt8.lt_iff_toNat_lt, toNat_ofNat hm, toNat_ofNat hn]
  rcases Nat.lt_or_eq_of_le hle with hlt | rfl
  · exact .inl hlt
  · exact .inr ⟨rfl, h rfl⟩

theorem ofNat_cons_lt_of_lt {m n : Nat} (hn : n < 256) (hlt : m < n) :
    UInt8.ofNat m :: bs < UInt8.ofNat n :: bs' :=
  ofNat_cons_lt hn (Nat.le_of_lt hlt) fun h => absurd h (Nat.ne_of_lt hlt)

theorem tail_lt (h : v % 64 < w % 64) :
    UInt8.ofNat (v % 64 + 128) :: bs < UInt8.ofNat (w % 64 + 128) :: bs' :=
  ofNat_cons_lt_of_lt (by omega) (by omega)

theorem two_tails_lt (h : v % 4096 < w % 4096) :
    UInt8.ofNat (v / 64 % 64 + 128) :: UInt8.ofNat (v % 64 + 128) :: bs
      < UInt8.ofNat (w / 64 % 64 + 128) :: UInt8.ofNat (w % 64 + 128) :: bs' :=
  ofNat_cons_lt (by omega) (by omega) fun heq => tail_lt (by omega)

theorem three_tails_lt (h : v % 262144 < w % 262144) :
    UInt8.ofNat (v / 4096 % 64 + 128) :: UInt8.ofNat (v / 64 % 64 + 128) ::
        UInt8.ofNat (v % 64 + 128) :: bs
      < UInt8.ofNat (w / 4096 % 64 + 128) :: UInt8.ofNat (w / 64 % 64 + 128) ::
        UInt8.ofNat (w % 64 + 128) :: bs' :=
  ofNat_cons_lt (by omega) (by omega) fun heq => two_tails_lt (by omega)

/-! ## Characters and texts -/

/-- **A smaller character has smaller octets**, whatever follows them. More octets mean a greater
first octet, and with equally many the digits in base 64 decide. -/
theorem encodeChar_append_lt {a b : Char} (h : a < b) (bs bs' : List UInt8) :
    String.utf8EncodeChar a ++ bs < String.utf8EncodeChar b ++ bs' := by
  have hlt : a.toNat < b.toNat := h
  have hb : b.toNat < 0x110000 := by
    have hvalid : b.toNat < 0xD800 ∨ (0xDFFF < b.toNat ∧ b.toNat < 0x110000) := b.valid
    omega
  rw [String.utf8EncodeChar.eq_1, String.utf8EncodeChar.eq_1, Char.toNat_val, Char.toNat_val]
  generalize a.toNat = v at hlt ⊢
  generalize b.toNat = w at hlt hb ⊢
  -- The first octets decide if the sequence of `b` is longer, or else the digits.
  by_cases hv1 : v ≤ 127
  · rw [if_pos hv1]
    repeat' split
    all_goals exact ofNat_cons_lt_of_lt (by omega) (by omega)
  rw [if_neg hv1, if_neg (show ¬w ≤ 127 by omega)]
  by_cases hv2 : v ≤ 2047
  · rw [if_pos hv2]
    by_cases hw2 : w ≤ 2047
    · rw [if_pos hw2]
      exact ofNat_cons_lt (by omega) (by omega) fun heq => tail_lt (by omega)
    · rw [if_neg hw2]
      split
      all_goals exact ofNat_cons_lt_of_lt (by omega) (by omega)
  rw [if_neg hv2, if_neg (show ¬w ≤ 2047 by omega)]
  by_cases hv3 : v ≤ 65535
  · rw [if_pos hv3]
    by_cases hw3 : w ≤ 65535
    · rw [if_pos hw3]
      exact ofNat_cons_lt (by omega) (by omega) fun heq => two_tails_lt (by omega)
    · rw [if_neg hw3]
      exact ofNat_cons_lt_of_lt (by omega) (by omega)
  rw [if_neg hv3, if_neg (show ¬w ≤ 65535 by omega)]
  exact ofNat_cons_lt (by omega) (by omega) fun heq => three_tails_lt (by omega)

/-- **A smaller text has smaller octets.** The induction is on where the texts begin to
differ. -/
theorem encode_lt_of_lt {as bs : List Char} (h : as < bs) : encode as < encode bs := by
  induction h with
  | @nil b bs =>
    obtain ⟨first, more, hoctets, -⟩ := head_encodeChar b (encode bs)
    rw [encode_cons, hoctets, List.cons_append]
    exact List.nil_lt_cons first _
  | @rel a as b bs hlt =>
    rw [encode_cons, encode_cons]
    exact encodeChar_append_lt hlt _ _
  | @cons a as bs _ ih =>
    rw [encode_cons, encode_cons]
    exact List.append_left_lt ih

end ExchangeArchive.Text.Utf8
