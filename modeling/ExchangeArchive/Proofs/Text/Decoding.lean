import ExchangeArchive.Proofs.Text.Utf8
/-
UTF-8 that is read was written.

Strict reading accepts no octets but those that some text is written as: the text that it gives is
written as just these octets again (`encode_of_decode?`). The rows of the table are what makes it
so. A character of two octets could be written by `C0` or `C1` and a second octet as well, one of
three by `E0` and a small second octet, and so on; the table has no row for these, so the octets of
a head are the shortest for the character that they stand for, and the number that they add up to
is that of a character.
-/

set_option autoImplicit false

namespace ExchangeArchive.Text.Utf8

/-! ## Rows of the table -/

/-- What a row of the table says, by the number of octets that follow the first: which octets may
come first, and between which bounds the second must lie. The bounds are narrower where otherwise
a form that is too long, half of a pair or a number beyond the last character could be written. -/
def Row (b low high : Nat) : Nat → Prop
  | 1 => 0xC2 ≤ b ∧ b ≤ 0xDF ∧ low = 0x80 ∧ high = 0xBF
  | 2 => 0xE0 ≤ b ∧ b ≤ 0xEF ∧ 0x80 ≤ low ∧ high ≤ 0xBF ∧ (b = 0xE0 → 0xA0 ≤ low)
      ∧ (b = 0xED → high ≤ 0x9F)
  | 3 => 0xF0 ≤ b ∧ b ≤ 0xF4 ∧ 0x80 ≤ low ∧ high ≤ 0xBF ∧ (b = 0xF0 → 0x90 ≤ low)
      ∧ (b = 0xF4 → high ≤ 0x8F)
  | _ => False

theorem row_of_follow? {b low high : UInt8} {n : Nat} (h : follow? b = some (low, high, n)) :
    Row b.toNat low.toNat high.toNat n := by
  have hb : b = UInt8.ofNat b.toNat := (UInt8.ofNat_toNat).symm
  rw [hb, follow?_ofNat b.toNat_lt] at h
  repeat' split at h
  all_goals
    simp only [Option.some.injEq, Prod.mk.injEq, reduceCtorEq] at h
  all_goals
    obtain ⟨rfl, rfl, rfl⟩ := h
    simp [Row]
    omega

/-! ## Characters by their octets -/

theorem toNat_char {v : Nat} (h : v < 0xD800 ∨ (0xDFFF < v ∧ v < 0x110000)) :
    (Char.ofNat v).toNat = v := by
  rw [Char.ofNat, dif_pos h]
  rfl

theorem encodeChar_two {b b₁ : UInt8} {low high : Nat} (hrow : Row b.toNat low high 1)
    (hlow : low ≤ b₁.toNat) (hhigh : b₁.toNat ≤ high) :
    String.utf8EncodeChar (Char.ofNat (addTail (b.toNat - 0xC0) b₁)) = [b, b₁] := by
  obtain ⟨hb, hb', rfl, rfl⟩ := hrow
  have hv : addTail (b.toNat - 0xC0) b₁ = (b.toNat - 0xC0) * 64 + (b₁.toNat - 0x80) := rfl
  rw [String.utf8EncodeChar.eq_1, Char.toNat_val, toNat_char (by omega), if_neg (by omega),
    if_pos (by omega), hv, ofNat_of_eq (b := b) (by omega), ofNat_of_eq (b := b₁) (by omega)]

theorem encodeChar_three {b b₁ b₂ : UInt8} {low high : Nat} (hrow : Row b.toNat low high 2)
    (hlow : low ≤ b₁.toNat) (hhigh : b₁.toNat ≤ high) (hlow₂ : 0x80 ≤ b₂.toNat)
    (hhigh₂ : b₂.toNat ≤ 0xBF) :
    String.utf8EncodeChar (Char.ofNat (addTail (addTail (b.toNat - 0xE0) b₁) b₂))
      = [b, b₁, b₂] := by
  obtain ⟨hb, hb', hlow', hhigh', hfirst, hlast⟩ := hrow
  have hv : addTail (addTail (b.toNat - 0xE0) b₁) b₂
      = ((b.toNat - 0xE0) * 64 + (b₁.toNat - 0x80)) * 64 + (b₂.toNat - 0x80) := rfl
  rw [String.utf8EncodeChar.eq_1, Char.toNat_val, toNat_char (by omega), if_neg (by omega),
    if_neg (by omega), if_pos (by omega), hv, ofNat_of_eq (b := b) (by omega),
    ofNat_of_eq (b := b₁) (by omega), ofNat_of_eq (b := b₂) (by omega)]

theorem encodeChar_four {b b₁ b₂ b₃ : UInt8} {low high : Nat} (hrow : Row b.toNat low high 3)
    (hlow : low ≤ b₁.toNat) (hhigh : b₁.toNat ≤ high) (hlow₂ : 0x80 ≤ b₂.toNat)
    (hhigh₂ : b₂.toNat ≤ 0xBF) (hlow₃ : 0x80 ≤ b₃.toNat) (hhigh₃ : b₃.toNat ≤ 0xBF) :
    String.utf8EncodeChar (Char.ofNat (addTail (addTail (addTail (b.toNat - 0xF0) b₁) b₂) b₃))
      = [b, b₁, b₂, b₃] := by
  obtain ⟨hb, hb', hlow', hhigh', hfirst, hlast⟩ := hrow
  have hv : addTail (addTail (addTail (b.toNat - 0xF0) b₁) b₂) b₃
      = (((b.toNat - 0xF0) * 64 + (b₁.toNat - 0x80)) * 64 + (b₂.toNat - 0x80)) * 64
        + (b₃.toNat - 0x80) := rfl
  rw [String.utf8EncodeChar.eq_1, Char.toNat_val, toNat_char (by omega), if_neg (by omega),
    if_neg (by omega), if_neg (by omega), hv, ofNat_of_eq (b := b) (by omega),
    ofNat_of_eq (b := b₁) (by omega), ofNat_of_eq (b := b₂) (by omega),
    ofNat_of_eq (b := b₃) (by omega)]

theorem isTail_iff {b : UInt8} : isTail b = true ↔ 0x80 ≤ b.toNat ∧ b.toNat ≤ 0xBF := by
  rw [isTail, Bool.and_eq_true, decide_eq_true_eq, decide_eq_true_eq, UInt8.le_iff_toNat_le,
    UInt8.le_iff_toNat_le]
  rfl

/-- **A head that is a character is how the character is written.** The proof goes by the rows,
since each has its own bounds on the number that is made of the octets. -/
theorem encodeChar_of_head {b : UInt8} {rest : List UInt8} {c : Char} {n : Nat}
    (h : head b rest = .char c n) : String.utf8EncodeChar c ++ rest.drop (n - 1) = b :: rest := by
  by_cases hone : b < 0x80
  · -- An ASCII character is its own octet, and no row of the table is looked at.
    rw [head.eq_def, if_pos hone] at h
    obtain ⟨rfl, rfl⟩ := Head.char.inj h
    have hb : b.toNat < 0x80 := UInt8.lt_iff_toNat_lt.mp hone
    rw [String.utf8EncodeChar.eq_1, Char.toNat_val, toNat_char (by omega), if_pos (by omega),
      ofNat_of_eq rfl]
    rfl
  · rw [head.eq_def, if_neg hone] at h
    cases hfollow : follow? b with
    | none =>
      rw [hfollow] at h
      cases h
    | some row =>
      obtain ⟨low, high, count⟩ := row
      have hrow := row_of_follow? hfollow
      rw [hfollow] at h
      cases rest with
      | nil => cases h
      | cons b₁ rest =>
        dsimp only at h
        split at h
        · next hsecond =>
          obtain ⟨hlow, hhigh⟩ := hsecond
          rw [UInt8.le_iff_toNat_le] at hlow hhigh
          -- One octet, two or three are to follow; a head that lacks one of them is no character.
          split at h
          · obtain ⟨rfl, rfl⟩ := Head.char.inj h
            rw [encodeChar_two hrow hlow hhigh]
            rfl
          · split at h
            · next hthird =>
              obtain ⟨rfl, rfl⟩ := Head.char.inj h
              rw [encodeChar_three hrow hlow hhigh (isTail_iff.mp hthird).1
                (isTail_iff.mp hthird).2]
              rfl
            · cases h
          · split at h
            · next hthird =>
              split at h
              · next hfourth =>
                obtain ⟨rfl, rfl⟩ := Head.char.inj h
                rw [encodeChar_four hrow hlow hhigh (isTail_iff.mp hthird).1
                  (isTail_iff.mp hthird).2 (isTail_iff.mp hfourth).1 (isTail_iff.mp hfourth).2]
                rfl
              · cases h
            · cases h
          · split at h <;> cases h
          · cases h
        · cases h

/-! ## Texts -/

/-- **Octets that are read as a text are those that it is written as.** So no text can be written
in two ways, and octets that are not read are those of no text. -/
theorem encode_of_decode? {octets : List UInt8} {cs : List Char}
    (h : decode? octets = some cs) : encode cs = octets := by
  induction octets using decode?.induct generalizing cs with
  | case1 =>
    rw [decode?] at h
    cases h
    rfl
  | case2 b rest c n hhead ih =>
    rw [decode?, hhead] at h
    obtain ⟨more, hmore, rfl⟩ := Option.map_eq_some_iff.mp h
    rw [encode_cons, ih hmore]
    exact encodeChar_of_head hhead
  | case3 b rest n hhead =>
    rw [decode?, hhead] at h
    cases h

end ExchangeArchive.Text.Utf8
