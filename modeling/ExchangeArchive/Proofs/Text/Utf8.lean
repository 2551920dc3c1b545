import ExchangeArchive.Text.Utf8
/-
UTF-8 that is written is read again.

Each character is written as one to four octets, and the table of well-formed sequences has a
row for them: the first octet gives the row, and the bounds of the second leave out just what
is too long, too great or half a pair. So a head is the character that was written, whatever
follows it (`head_encodeChar`), and a text is read character by character.
-/

set_option autoImplicit false

namespace ExchangeArchive.Text.Utf8

/-! ## Octets as numbers -/

theorem toNat_ofNat {n : Nat} (h : n < 256) : (UInt8.ofNat n).toNat = n :=
  UInt8.toNat_ofNat_of_lt' h

theorem ofNat_le {n : Nat} (h : n < 256) (b : UInt8) : UInt8.ofNat n ≤ b ↔ n ≤ b.toNat := by
  rw [UInt8.le_iff_toNat_le, toNat_ofNat h]

theorem le_ofNat {n : Nat} (h : n < 256) (b : UInt8) : b ≤ UInt8.ofNat n ↔ b.toNat ≤ n := by
  rw [UInt8.le_iff_toNat_le, toNat_ofNat h]

theorem ofNat_eq {n : Nat} (h : n < 256) (b : UInt8) : UInt8.ofNat n = b ↔ n = b.toNat := by
  rw [← UInt8.toNat_inj, toNat_ofNat h]

/-- The octet of a number that is its own. The encoding makes octets of numbers, and the table is
read with numbers again. -/
theorem ofNat_of_eq {n : Nat} {b : UInt8} (h : n = b.toNat) : UInt8.ofNat n = b := by
  rw [h, UInt8.ofNat_toNat]

theorem addTail_ofNat (high : Nat) {n : Nat} (h : n < 64) :
    addTail high (UInt8.ofNat (n + 128)) = high * 64 + n := by
  have hn : n + 128 < 256 := by omega
  unfold addTail
  rw [toNat_ofNat hn, Nat.add_sub_cancel]

theorem isTail_ofNat {n : Nat} (h : n < 64) : isTail (UInt8.ofNat (n + 128)) = true := by
  simp only [isTail, ofNat_le (show n + 128 < 256 by omega),
    le_ofNat (show n + 128 < 256 by omega), Bool.and_eq_true, decide_eq_true_eq]
  exact ⟨Nat.le_add_left _ _, show n + 128 ≤ 191 by omega⟩

/-- The rows of the table by the number of the first octet. -/
theorem follow?_ofNat {n : Nat} (h : n < 256) :
    follow? (UInt8.ofNat n) =
      if 0xC2 ≤ n ∧ n ≤ 0xDF then some (0x80, 0xBF, 1)
      else if n = 0xE0 then some (0xA0, 0xBF, 2)
      else if n = 0xED then some (0x80, 0x9F, 2)
      else if 0xE1 ≤ n ∧ n ≤ 0xEF then some (0x80, 0xBF, 2)
      else if n = 0xF0 then some (0x90, 0xBF, 3)
      else if 0xF1 ≤ n ∧ n ≤ 0xF3 then some (0x80, 0xBF, 3)
      else if n = 0xF4 then some (0x80, 0x8F, 3)
      else none := by
  simp only [follow?, ofNat_le h, le_ofNat h, ofNat_eq h]
  rfl

theorem not_ofNat_lt {n : Nat} (h : n < 256) (hn : 128 ≤ n) : ¬UInt8.ofNat n < 0x80 := by
  rw [UInt8.lt_iff_toNat_lt, toNat_ofNat h]
  exact Nat.not_lt.mpr hn

/-! ## Heads -/

theorem head_one {v : Nat} (h : v ≤ 127) (rest : List UInt8) :
    head (UInt8.ofNat v) rest = .char (Char.ofNat v) 1 := by
  have hlt : UInt8.ofNat v < 0x80 := by
    rw [UInt8.lt_iff_toNat_lt, toNat_ofNat (by omega)]
    exact Nat.lt_succ_of_le h
  rw [head.eq_def, if_pos hlt, toNat_ofNat (by omega)]

theorem head_two {v : Nat} (hlow : 127 < v) (hhigh : v ≤ 2047) (rest : List UInt8) :
    head (UInt8.ofNat (v / 64 % 32 + 192)) (UInt8.ofNat (v % 64 + 128) :: rest)
      = .char (Char.ofNat v) 2 := by
  have hrow := follow?_ofNat (show v / 64 % 32 + 192 < 256 by omega)
  rw [if_pos (by omega)] at hrow
  have hsecond : 0x80 ≤ UInt8.ofNat (v % 64 + 128) ∧ UInt8.ofNat (v % 64 + 128) ≤ 0xBF := by
    simpa [isTail] using isTail_ofNat (show v % 64 < 64 by omega)
  simp only [head, if_neg (not_ofNat_lt (show v / 64 % 32 + 192 < 256 by omega) (by omega)), hrow,
    if_pos hsecond, toNat_ofNat (show v / 64 % 32 + 192 < 256 by omega),
    addTail_ofNat _ (show v % 64 < 64 by omega)]
  congr 2
  omega

/-- Of three octets, the second is bounded so that nothing shorter and no half of a pair is
written. -/
theorem head_three {v : Nat} (hlow : 2047 < v) (hhigh : v ≤ 65535)
    (hvalid : v < 0xD800 ∨ 0xDFFF < v) (rest : List UInt8) :
    head (UInt8.ofNat (v / 4096 % 16 + 224))
      (UInt8.ofNat (v / 64 % 64 + 128) :: UInt8.ofNat (v % 64 + 128) :: rest)
      = .char (Char.ofNat v) 3 := by
  have hrow : ∃ low high, follow? (UInt8.ofNat (v / 4096 % 16 + 224)) = some (low, high, 2) ∧
      low ≤ UInt8.ofNat (v / 64 % 64 + 128) ∧ UInt8.ofNat (v / 64 % 64 + 128) ≤ high := by
    rw [follow?_ofNat (show v / 4096 % 16 + 224 < 256 by omega), if_neg (by omega)]
    simp only [le_ofNat (show v / 64 % 64 + 128 < 256 by omega),
      ofNat_le (show v / 64 % 64 + 128 < 256 by omega)]
    -- `E0` is bounded by what two octets can say, `ED` by the halves of pairs.
    by_cases h0 : v / 4096 % 16 + 224 = 0xE0
    · exact ⟨_, _, if_pos h0, show 0xA0 ≤ v / 64 % 64 + 128 by omega,
        show v / 64 % 64 + 128 ≤ 0xBF by omega⟩
    · rw [if_neg h0]
      by_cases hD : v / 4096 % 16 + 224 = 0xED
      · exact ⟨_, _, if_pos hD, show 0x80 ≤ v / 64 % 64 + 128 by omega,
          show v / 64 % 64 + 128 ≤ 0x9F by omega⟩
      · rw [if_neg hD]
        exact ⟨_, _, if_pos (by omega), show 0x80 ≤ v / 64 % 64 + 128 by omega,
          show v / 64 % 64 + 128 ≤ 0xBF by omega⟩
  obtain ⟨low, high, hrow, hsecond⟩ := hrow
  simp only [head, if_neg (not_ofNat_lt (show v / 4096 % 16 + 224 < 256 by omega) (by omega)),
    hrow, if_pos hsecond, toNat_ofNat (show v / 4096 % 16 + 224 < 256 by omega),
    isTail_ofNat (show v % 64 < 64 by omega), if_true, addTail_ofNat _ (show v % 64 < 64 by omega),
    addTail_ofNat _ (show v / 64 % 64 < 64 by omega)]
  congr 2
  omega

/-- Of four octets, the second is bounded so that nothing shorter and nothing beyond the last
character is written. -/
theorem head_four {v : Nat} (hlow : 65535 < v) (hhigh : v < 0x110000) (rest : List UInt8) :
    head (UInt8.ofNat (v / 262144 % 8 + 240))
      (UInt8.ofNat (v / 4096 % 64 + 128) :: UInt8.ofNat (v / 64 % 64 + 128) ::
        UInt8.ofNat (v % 64 + 128) :: rest)
      = .char (Char.ofNat v) 4 := by
  have hrow : ∃ low high, follow? (UInt8.ofNat (v / 262144 % 8 + 240)) = some (low, high, 3) ∧
      low ≤ UInt8.ofNat (v / 4096 % 64 + 128) ∧ UInt8.ofNat (v / 4096 % 64 + 128) ≤ high := by
    rw [follow?_ofNat (show v / 262144 % 8 + 240 < 256 by omega), if_neg (by omega),
      if_neg (by omega), if_neg (by omega), if_neg (by omega)]
    simp only [le_ofNat (show v / 4096 % 64 + 128 < 256 by omega),
      ofNat_le (show v / 4096 % 64 + 128 < 256 by omega)]
    -- `F0` is bounded by what three octets can say, `F4` by the last character.
    by_cases h0 : v / 262144 % 8 + 240 = 0xF0
    · exact ⟨_, _, if_pos h0, show 0x90 ≤ v / 4096 % 64 + 128 by omega,
        show v / 4096 % 64 + 128 ≤ 0xBF by omega⟩
    · rw [if_neg h0]
      by_cases h3 : v / 262144 % 8 + 240 ≤ 0xF3
      · exact ⟨_, _, if_pos ⟨by omega, h3⟩, show 0x80 ≤ v / 4096 % 64 + 128 by omega,
          show v / 4096 % 64 + 128 ≤ 0xBF by omega⟩
      · rw [if_neg (by omega)]
        exact ⟨_, _, if_pos (by omega), show 0x80 ≤ v / 4096 % 64 + 128 by omega,
          show v / 4096 % 64 + 128 ≤ 0x8F by omega⟩
  obtain ⟨low, high, hrow, hsecond⟩ := hrow
  simp only [head, if_neg (not_ofNat_lt (show v / 262144 % 8 + 240 < 256 by omega) (by omega)),
    hrow, if_pos hsecond, toNat_ofNat (show v / 262144 % 8 + 240 < 256 by omega),
    isTail_ofNat (show v % 64 < 64 by omega), isTail_ofNat (show v / 64 % 64 < 64 by omega),
    if_true, addTail_ofNat _ (show v % 64 < 64 by omega),
    addTail_ofNat _ (show v / 64 % 64 < 64 by omega),
    addTail_ofNat _ (show v / 4096 % 64 < 64 by omega)]
  congr 2
  omega

/-- **The octets of a character are a head that is the character**, whatever comes after them. There
are four cases, by the number of octets. -/
theorem head_encodeChar (c : Char) (rest : List UInt8) :
    ∃ b more, String.utf8EncodeChar c = b :: more ∧
      head b (more ++ rest) = .char c (more.length + 1) := by
  have hvalid : c.toNat < 0xD800 ∨ (0xDFFF < c.toNat ∧ c.toNat < 0x110000) := c.valid
  have hback : Char.ofNat c.toNat = c := Char.ofNat_toNat c
  rw [String.utf8EncodeChar.eq_1, Char.toNat_val]
  by_cases h1 : c.toNat ≤ 127
  · refine ⟨_, _, if_pos h1, ?_⟩
    rw [List.nil_append, head_one h1, hback, List.length_nil]
  · rw [if_neg h1]
    by_cases h2 : c.toNat ≤ 2047
    · refine ⟨_, _, if_pos h2, ?_⟩
      exact (head_two (by omega) h2 rest).trans (by rw [hback]; rfl)
    · rw [if_neg h2]
      by_cases h3 : c.toNat ≤ 65535
      · refine ⟨_, _, if_pos h3, ?_⟩
        exact (head_three (by omega) h3 (by omega) rest).trans (by rw [hback]; rfl)
      · refine ⟨_, _, if_neg h3, ?_⟩
        exact (head_four (by omega) (by omega) rest).trans (by rw [hback]; rfl)

/-! ## Texts -/

theorem encode_cons (c : Char) (cs : List Char) :
    encode (c :: cs) = String.utf8EncodeChar c ++ encode cs := List.flatMap_cons

theorem encode_append (cs ds : List Char) : encode (cs ++ ds) = encode cs ++ encode ds :=
  List.flatMap_append

/-- **A text is read from its octets**, one character after the other. -/
theorem decode?_encode (cs : List Char) : decode? (encode cs) = some cs := by
  induction cs with
  | nil => rw [encode, List.flatMap_nil, decode?]
  | cons c cs ih =>
    obtain ⟨b, more, hoctets, hhead⟩ := head_encodeChar c (encode cs)
    rw [encode_cons, hoctets, List.cons_append, decode?, hhead]
    simp [ih]

/-- Nothing is lost of a text, even where octets that are none would be replaced. -/
theorem decodeLossy_encode (cs : List Char) : decodeLossy (encode cs) = cs := by
  induction cs with
  | nil => rw [encode, List.flatMap_nil, decodeLossy]
  | cons c cs ih =>
    obtain ⟨b, more, hoctets, hhead⟩ := head_encodeChar c (encode cs)
    rw [encode_cons, hoctets, List.cons_append, decodeLossy, hhead]
    simp [ih]

/-- An ASCII character is one octet. -/
theorem encodeChar_ascii {c : Char} (h : c.toNat ≤ 127) :
    String.utf8EncodeChar c = [UInt8.ofNat c.toNat] := by
  rw [String.utf8EncodeChar.eq_1, Char.toNat_val, if_pos h]

/-- An ASCII text has an octet for each character. -/
theorem encode_ascii {cs : List Char} (h : ∀ c ∈ cs, c.toNat ≤ 127) :
    encode cs = cs.map fun c => UInt8.ofNat c.toNat := by
  induction cs with
  | nil => rfl
  | cons c cs ih =>
    obtain ⟨hc, hrest⟩ := List.forall_mem_cons.mp h
    rw [encode_cons, encodeChar_ascii hc, ih hrest]
    rfl

end ExchangeArchive.Text.Utf8
