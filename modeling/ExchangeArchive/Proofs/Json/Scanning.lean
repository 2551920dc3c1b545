import ExchangeArchive.Json.Token
import ExchangeArchive.Proofs.Decimal.Spelling
import ExchangeArchive.Proofs.Text.Utf8
/-
The tokens of what is written.

A text, a number and a word are each written so that the scanner takes them as one token and
leaves what follows alone. A text ends at its own quotation mark, because the marks inside it
are escaped (`scanText_render`). A number has no end of its own and needs one that is no part
of a number (`Ends`); whatever its notation, it is the token of the double or the integer that
it was written for (`scanNumber_spelling`).
-/

set_option autoImplicit false

namespace ExchangeArchive.Json.Token

open ExchangeArchive.Decimal ExchangeArchive.Text

/-! ## Texts -/

/-- An octet that stands for itself in a text: it is none of the marks and no control character. -/
theorem scanText_octet {b : UInt8} (hquote : b ≠ 0x22) (hslash : b ≠ 0x5C) (hlow : ¬b < 0x20)
    (acc : List Piece) (rest : List UInt8) :
    scanText acc (b :: rest) = scanText (.octet b :: acc) rest := by
  rw [scanText.eq_def]
  simp only [if_neg hquote, if_neg hslash, if_neg hlow]

/-- An escape with one letter. -/
theorem scanText_shortEscape {e b : UInt8} (hu : e ≠ 0x75) (h : shortEscape? e = some b)
    (acc : List Piece) (rest : List UInt8) :
    scanText acc (0x5C :: e :: rest) = scanText (.octet b :: acc) rest := by
  rw [scanText.eq_def]
  simp [hu, h]

/-- An escape with four digits. It stands for a unit of UTF-16, which may be half of a character. -/
theorem scanText_unit {h1 h2 h3 h4 : UInt8} {u : Nat} (h : unit? h1 h2 h3 h4 = some u)
    (acc : List Piece) (rest : List UInt8) :
    scanText acc (0x5C :: 0x75 :: h1 :: h2 :: h3 :: h4 :: rest)
      = scanText (.unit u :: acc) rest := by
  rw [scanText.eq_def]
  simp [h]

/-- What a text in writing is scanned as, and the octets that come of it. It says so before any
rest, so that one character can be followed by another. -/
def ScannedAs (written octetsOf : List UInt8) : Prop :=
  ∃ ps : List Piece,
    (∀ acc rest, scanText acc (written ++ rest) = scanText (ps.reverse ++ acc) rest) ∧
    ∀ ending acc more,
      octets ending acc (ps ++ more) = octets ending (octetsOf.reverse ++ acc) more

theorem ScannedAs.nil : ScannedAs [] [] := ⟨[], fun _ _ => rfl, fun _ _ _ => rfl⟩

theorem ScannedAs.append {written written' bs bs' : List UInt8} (h : ScannedAs written bs)
    (h' : ScannedAs written' bs') : ScannedAs (written ++ written') (bs ++ bs') := by
  obtain ⟨ps, hscan, hoctets⟩ := h
  obtain ⟨ps', hscan', hoctets'⟩ := h'
  refine ⟨ps ++ ps', fun acc rest => ?_, fun ending acc more => ?_⟩
  · rw [List.append_assoc, hscan, hscan', List.reverse_append, List.append_assoc]
  · rw [List.append_assoc, hoctets, hoctets', List.reverse_append, List.append_assoc]

/-- One octet comes of what is scanned as it. -/
theorem ScannedAs.octet {written : List UInt8} {b : UInt8}
    (h : ∀ acc rest, scanText acc (written ++ rest) = scanText (.octet b :: acc) rest) :
    ScannedAs written [b] :=
  ⟨[.octet b], h, fun _ _ _ => by rw [List.singleton_append, octets]; rfl⟩

/-- Octets that are no marks stand for themselves. -/
theorem ScannedAs.self {bs : List UInt8} (h : ∀ b ∈ bs, b ≠ 0x22 ∧ b ≠ 0x5C ∧ ¬b < 0x20) :
    ScannedAs bs bs := by
  induction bs with
  | nil => exact .nil
  | cons b bs ih =>
    obtain ⟨hquote, hslash, hlow⟩ := h b List.mem_cons_self
    have hfirst : ScannedAs [b] [b] := .octet (scanText_octet hquote hslash hlow)
    exact hfirst.append (ih fun b hb => h b (List.mem_cons_of_mem _ hb))

/-- The octets of a character that is not escaped are no marks. Within a character of several octets
none is of ASCII, and the marks all are. -/
theorem not_mark_of_mem_encodeChar {c : Char} {b : UInt8} (hquote : c ≠ '"') (hslash : c ≠ '\\')
    (hlow : ¬c.toNat < 0x20) (hb : b ∈ String.utf8EncodeChar c) :
    b ≠ 0x22 ∧ b ≠ 0x5C ∧ ¬b < 0x20 := by
  -- All octets but those of ASCII are beyond the marks.
  have hhigh : ∀ n, 0x80 ≤ n → n < 256 → b = UInt8.ofNat n → b ≠ 0x22 ∧ b ≠ 0x5C ∧ ¬b < 0x20 := by
    rintro n hlow hlt rfl
    simp only [Ne, ← UInt8.toNat_inj, UInt8.lt_iff_toNat_lt, Utf8.toNat_ofNat hlt]
    exact ⟨by simp; omega, by simp; omega, by simp; omega⟩
  rw [String.utf8EncodeChar.eq_1, Char.toNat_val] at hb
  split at hb
  · next hascii =>
    have hne : ∀ d : Char, c ≠ d → c.toNat ≠ d.toNat := fun d h heq => h (Char.toNat_inj.mp heq)
    have h1 := hne _ hquote
    have h2 := hne _ hslash
    rw [List.mem_singleton] at hb
    subst hb
    simp only [Ne, ← UInt8.toNat_inj, UInt8.lt_iff_toNat_lt,
      Utf8.toNat_ofNat (show c.toNat < 256 by omega)]
    exact ⟨h1, h2, hlow⟩
  · split at hb
    · simp only [List.mem_cons, List.not_mem_nil, or_false] at hb
      rcases hb with hb | hb <;> exact hhigh _ (by omega) (by omega) hb
    · split at hb
      · simp only [List.mem_cons, List.not_mem_nil, or_false] at hb
        rcases hb with hb | hb | hb <;> exact hhigh _ (by omega) (by omega) hb
      · simp only [List.mem_cons, List.not_mem_nil, or_false] at hb
        rcases hb with hb | hb | hb | hb <;> exact hhigh _ (by omega) (by omega) hb

/-- A control character without a letter is a unit of four digits, the first two zeros. It is never
half of a pair, so it is complete where it stands. -/
theorem scannedAs_unit {n : Nat} (h : n < 0x20) :
    ScannedAs (Utf8.encode ['\\', 'u', '0', '0', Hex.digit (n / 16), Hex.digit (n % 16)])
      (String.utf8EncodeChar (Char.ofNat n)) := by
  -- There are only 32 of them.
  have hwritten : ∀ n < 0x20,
      Utf8.encode ['\\', 'u', '0', '0', Hex.digit (n / 16), Hex.digit (n % 16)]
        = [0x5C, 0x75, 0x30, 0x30, UInt8.ofNat (Hex.digit (n / 16)).toNat,
            UInt8.ofNat (Hex.digit (n % 16)).toNat] := by decide
  have hunit : ∀ n < 0x20, unit? 0x30 0x30 (UInt8.ofNat (Hex.digit (n / 16)).toNat)
      (UInt8.ofNat (Hex.digit (n % 16)).toNat) = some n := by decide
  have hplain : ∀ n < 0x20, isLow n = false ∧ isHigh n = false := by decide
  rw [hwritten n h]
  refine ⟨[.unit n], fun acc rest => scanText_unit (hunit n h) acc rest, fun ending acc more => ?_⟩
  rw [List.singleton_append, octets.eq_def]
  simp [hplain n h, Utf8.encode]

/-- **A character in writing is scanned as the character**, in each of the three ways that it may be
written: as itself, after a backslash, or as a unit. -/
theorem scannedAs_escaped (c : Char) :
    ScannedAs (Utf8.encode (Json.escaped c)) (String.utf8EncodeChar c) := by
  have hshort : ∀ e b : UInt8, e ≠ 0x75 → shortEscape? e = some b → ScannedAs [0x5C, e] [b] :=
    fun e b hu h => .octet (scanText_shortEscape hu h)
  unfold Json.escaped
  split
  · exact hshort 0x22 0x22 (by decide) (by decide)
  · exact hshort 0x5C 0x5C (by decide) (by decide)
  · exact hshort 0x62 0x08 (by decide) (by decide)
  · exact hshort 0x66 0x0C (by decide) (by decide)
  · exact hshort 0x6E 0x0A (by decide) (by decide)
  · exact hshort 0x72 0x0D (by decide) (by decide)
  · exact hshort 0x74 0x09 (by decide) (by decide)
  · next hquote hslash _ _ _ _ _ =>
    split
    · next hlow =>
      have hunit := scannedAs_unit hlow
      rwa [Char.ofNat_toNat] at hunit
    · next hlow =>
      rw [Utf8.encode, List.flatMap_singleton]
      exact .self fun b hb => not_mark_of_mem_encodeChar hquote hslash hlow hb

theorem scannedAs_flatMap_escaped (cs : List Char) :
    ScannedAs (Utf8.encode (cs.flatMap Json.escaped)) (Utf8.encode cs) := by
  induction cs with
  | nil => exact .nil
  | cons c cs ih =>
    rw [List.flatMap_cons, Utf8.encode_append, Utf8.encode_cons]
    exact (scannedAs_escaped c).append ih

/-- **A text in quotation marks is the token of the text**, and the scan goes on right behind the
closing mark. -/
theorem scanText_render (s : String) (rest : List UInt8) :
    ∃ ps, scanText [] (Utf8.encode (s.toList.flatMap Json.escaped) ++ 0x22 :: rest)
        = (ps, .closed, rest) ∧
      ofText ps.reverse .closed = .atom (.text s) := by
  obtain ⟨ps, hscan, hoctets⟩ := scannedAs_flatMap_escaped s.toList
  refine ⟨ps.reverse, ?_, ?_⟩
  · rw [hscan, scanText.eq_def, List.append_nil]
    simp
  · have hall := hoctets .closed [] []
    rw [List.append_nil, List.append_nil, octets] at hall
    simp [ofText, List.reverse_reverse, hall, Utf8.decode?_encode]

/-! ## Digits -/

/-- Octets that no number goes on with: at the end of the text, or before anything but a digit, a
point or the letter of an exponent. -/
def Ends (rest : List UInt8) : Prop :=
  ∀ b ∈ rest.head?, isDigit b = false ∧ b ≠ 0x2E ∧ b ≠ 0x65 ∧ b ≠ 0x45

/-- Digits in octets. -/
def Digits (bs : List UInt8) : Prop := ∀ b ∈ bs, isDigit b = true

/-- Digits are one octet each, as they are ASCII. -/
theorem encode_digits {ds : List Char} (h : ∀ c ∈ ds, c.isDigit = true) :
    Utf8.encode ds = ds.map fun c => UInt8.ofNat c.toNat := by
  induction ds with
  | nil => rfl
  | cons c ds ih =>
    have hascii := toNat_of_isDigit (h c List.mem_cons_self)
    rw [Utf8.encode_cons, Utf8.encodeChar_ascii (by omega),
      ih fun d hd => h d (List.mem_cons_of_mem _ hd)]
    rfl

theorem digits_encode {ds : List Char} (h : ∀ c ∈ ds, c.isDigit = true) :
    Digits (Utf8.encode ds) := by
  rw [encode_digits h]
  intro b hb
  obtain ⟨c, hc, rfl⟩ := List.mem_map.mp hb
  obtain ⟨hlow, hhigh⟩ := toNat_of_isDigit (h c hc)
  simp only [isDigit, Utf8.ofNat_le (show c.toNat < 256 by omega),
    Utf8.le_ofNat (show c.toNat < 256 by omega), Bool.and_eq_true, decide_eq_true_eq]
  exact ⟨hlow, hhigh⟩

/-- Digits stand for the same number as octets. -/
theorem number_encode {ds : List Char} (h : ∀ c ∈ ds, c.isDigit = true) :
    number (Utf8.encode ds) = Nat.ofDigitChars 10 ds 0 := by
  rw [encode_digits h, number, List.foldl_map, Nat.ofDigitChars]
  refine List.foldl_ext _ _ _ fun n c hc => ?_
  obtain ⟨-, hhigh⟩ := toNat_of_isDigit (h c hc)
  rw [Utf8.toNat_ofNat (by omega), Nat.mul_comm]
  rfl

/-! ## Numbers -/

theorem Ends.not_digit {rest : List UInt8} (h : Ends rest) :
    ∀ b ∈ rest.head?, isDigit b = false := fun b hb => (h b hb).1

theorem encode_ne_nil {cs : List Char} (h : cs ≠ []) : Utf8.encode cs ≠ [] := by
  obtain ⟨c, cs, rfl⟩ := List.exists_cons_of_ne_nil h
  rw [Utf8.encode_cons]
  exact List.append_ne_nil_of_left_ne_nil String.utf8EncodeChar_ne_nil _

/-- The digits of an exponent are read up to what is no digit. -/
theorem scanExponent_digits (n : Nat) {rest : List UInt8} (hrest : Ends rest) :
    scanExponent (0x2D :: (Utf8.encode (natDigits n) ++ rest)) = (some (-(n : Int)), rest) ∧
      scanExponent (0x2B :: (Utf8.encode (natDigits n) ++ rest)) = (some (n : Int), rest) := by
  have hdigits := digits_encode fun c hc => isDigit_natDigits (n := n) hc
  have hnumber := number_encode fun c hc => isDigit_natDigits (n := n) hc
  rw [ofDigitChars_natDigits] at hnumber
  have hsome := encode_ne_nil (natDigits_ne_nil n)
  constructor <;>
    simp [scanExponent, takeWhile_append_front hdigits hrest.not_digit,
      dropWhile_append_front hdigits hrest.not_digit, hnumber]

/-- An exponent is read with its sign. -/
theorem scanExponent_sign (e : Int) {rest : List UInt8} (hrest : Ends rest) :
    scanExponent (Utf8.encode (Spelling.sign e ++ natDigits e.natAbs) ++ rest)
      = (some e, rest) := by
  obtain ⟨hminus, hplus⟩ := scanExponent_digits e.natAbs hrest
  rw [Spelling.sign, Utf8.encode_append]
  by_cases he : e < 0
  · rw [if_pos he]
    exact hminus.trans (by rw [show -(e.natAbs : Int) = e by omega])
  · rw [if_neg he]
    exact hplus.trans (by rw [show (e.natAbs : Int) = e by omega])

/-- What the scanner makes of a number in writing: an integer if it has neither a point nor an
exponent and fits, and else a double. -/
def ofSpelling (negative : Bool) (s : Spelling) : Token :=
  if s.places = [] ∧ s.exponent = none then ofInteger negative (Nat.ofDigitChars 10 s.whole 0)
  else ofInteger.ofReal negative s.numeral

theorem encode_exponentText (s : Spelling) {e : Int} (h : s.exponent = some e) :
    Utf8.encode s.exponentText
      = 0x65 :: Utf8.encode (Spelling.sign e ++ natDigits e.natAbs) := by
  rw [Spelling.exponentText, h]
  rfl

theorem encode_placesText (s : Spelling) (h : s.places ≠ []) :
    Utf8.encode s.placesText = 0x2E :: Utf8.encode s.places := by
  rw [Spelling.placesText, if_neg h]
  rfl

/-- Neither the point nor the letter of an exponent is a digit. -/
theorem not_digit_after_whole (s : Spelling) {rest : List UInt8} (hrest : Ends rest) :
    ∀ b ∈ (Utf8.encode (s.placesText ++ s.exponentText) ++ rest).head?, isDigit b = false := by
  rw [Utf8.encode_append, List.append_assoc]
  by_cases hplaces : s.places = []
  · cases hexp : s.exponent with
    | none => simpa [Spelling.placesText, Spelling.exponentText, hplaces, hexp, Utf8.encode]
        using hrest.not_digit
    | some e =>
      rw [encode_exponentText s hexp, Spelling.placesText, if_pos hplaces]
      simp [Utf8.encode, isDigit]
  · rw [encode_placesText s hplaces]
    simp [isDigit]

/-- After the digits before it, a point with its places is read, and an exponent. -/
theorem scanFraction_spelling (negative : Bool) {s : Spelling} (hs : s.Sound)
    {rest : List UInt8} (hrest : Ends rest) :
    scanFraction negative (Utf8.encode s.whole)
      (Utf8.encode (s.placesText ++ s.exponentText) ++ rest) = (ofSpelling negative s, rest) := by
  have hplaces := digits_encode hs.places_digits
  have hwhole := number_encode hs.whole_digits
  have hall : number (Utf8.encode s.whole ++ Utf8.encode s.places)
      = Nat.ofDigitChars 10 (s.whole ++ s.places) 0 := by
    rw [← Utf8.encode_append]
    exact number_encode fun c hc =>
      (List.mem_append.mp hc).elim (hs.whole_digits c) (hs.places_digits c)
  have hlength : (Utf8.encode s.places).length = s.places.length := by
    rw [encode_digits hs.places_digits, List.length_map]
  rw [Utf8.encode_append, List.append_assoc]
  -- Each part that is missing leaves the octet after it to be told from its mark.
  by_cases hnone : s.places = []
  · rw [hnone, List.append_nil] at hall
    have hempty : Utf8.encode s.placesText = [] := by rw [Spelling.placesText, if_pos hnone]; rfl
    rw [hempty, List.nil_append]
    cases hexp : s.exponent with
    | none =>
      have hempty : Utf8.encode s.exponentText = [] := by rw [Spelling.exponentText, hexp]; rfl
      rw [hempty, List.nil_append]
      cases rest with
      | nil => simp [scanFraction, ofSpelling, hwhole, hnone, hexp]
      | cons b rest =>
        obtain ⟨-, hdot, he, hE⟩ := hrest b rfl
        simp [scanFraction, ofSpelling, hdot, he, hE, hwhole, hnone, hexp]
    | some e =>
      rw [encode_exponentText s hexp, List.cons_append]
      simp [scanFraction, ofSpelling, scanExponent_sign e hrest, Spelling.numeral, hwhole, hnone,
        hexp]
  · have hsome := encode_ne_nil hnone
    rw [encode_placesText s hnone, List.cons_append]
    cases hexp : s.exponent with
    | none =>
      have hempty : Utf8.encode s.exponentText = [] := by rw [Spelling.exponentText, hexp]; rfl
      have htake := takeWhile_append_front hplaces hrest.not_digit
      have hdrop := dropWhile_append_front hplaces hrest.not_digit
      rw [hempty, List.nil_append]
      simp only [scanFraction, htake, hdrop]
      cases rest with
      | nil => simp [ofSpelling, hnone, hsome, Spelling.numeral, hall, hlength, hexp]
      | cons b rest =>
        obtain ⟨-, -, he, hE⟩ := hrest b rfl
        simp [ofSpelling, he, hE, hnone, hsome, Spelling.numeral, hall, hlength, hexp]
    | some e =>
      have hletter : ∀ more : List UInt8, ∀ b ∈ (0x65 :: more).head?, isDigit b = false := by
        simp [isDigit]
      rw [encode_exponentText s hexp, List.cons_append]
      simp [scanFraction, ofSpelling, takeWhile_append_front hplaces (hletter _),
        dropWhile_append_front hplaces (hletter _), scanExponent_sign e hrest, hsome,
        Spelling.numeral, hall, hlength, hexp]

/-- **A number in writing is scanned as the number that it spells**, and nothing of what comes after
is taken, as long as that does not go on with a number. -/
theorem scanNumber_spelling (negative : Bool) {s : Spelling} (hs : s.Sound)
    {rest : List UInt8} (hrest : Ends rest) :
    scanNumber negative (Utf8.encode s.text ++ rest) = (ofSpelling negative s, rest) := by
  have hdigits := digits_encode hs.whole_digits
  have hafter := not_digit_after_whole s hrest
  have htext : Utf8.encode s.text ++ rest
      = Utf8.encode s.whole ++ (Utf8.encode (s.placesText ++ s.exponentText) ++ rest) := by
    rw [Spelling.text, List.append_assoc, Utf8.encode_append, List.append_assoc]
  rw [htext, scanNumber, takeWhile_append_front hdigits hafter,
    dropWhile_append_front hdigits hafter]
  split
  · next h => exact absurd h (encode_ne_nil hs.some_digit)
  · next b bs h =>
    -- Only the number zero begins with its digit.
    obtain ⟨c, ds, hcons⟩ := List.exists_cons_of_ne_nil hs.some_digit
    have hc := toNat_of_isDigit (hs.whole_digits c (by rw [hcons]; exact List.mem_cons_self))
    rw [encode_digits hs.whole_digits, hcons, List.map_cons, List.cons.injEq,
      Utf8.ofNat_eq (by omega)] at h
    have hzero : c = '0' := Char.toNat_inj.mp h.1
    rw [hs.zero_alone ds (hzero ▸ hcons)] at h
    cases h.2
  · exact scanFraction_spelling negative hs hrest

/-! ## Atoms -/

/-- An atom that has a token of its own: any but an integer of more than 64 bits and a double
that is not finite. -/
def Writable : Atom → Prop
  | .int i => -2 ^ 63 ≤ i ∧ i < 2 ^ 64
  | .real x => isFinite x = true
  | _ => True

/-- The octets begin no white space and are scanned as the token before what follows. White space
would be dropped before the scan of a token. -/
def IsToken (written : List UInt8) (t : Token) (rest : List UInt8) : Prop :=
  ∃ b more, written = b :: more ∧ isSpace b = false ∧ scanOne b (more ++ rest) = (t, rest)

theorem ofInteger_eq {i : Int} (h : Writable (.int i)) :
    ofInteger (decide (i < 0)) i.natAbs = .atom (.int i) := by
  obtain ⟨hlow, hhigh⟩ := h
  rw [ofInteger]
  by_cases hi : i < 0
  · rw [if_pos (by simpa using hi), if_neg (by rw [twoTo_eq]; omega)]
    congr 2
    omega
  · rw [if_neg (by simpa using hi), if_pos (by rw [twoTo_eq]; omega)]
    congr 2
    omega

theorem scanOne_digit {b : UInt8} (h : isDigit b = true) (rest : List UInt8) :
    isSpace b = false ∧ scanOne b rest = scanNumber false (b :: rest) := by
  have hdigit : b = 0x30 ∨ b = 0x31 ∨ b = 0x32 ∨ b = 0x33 ∨ b = 0x34 ∨ b = 0x35 ∨ b = 0x36 ∨
      b = 0x37 ∨ b = 0x38 ∨ b = 0x39 := by
    simp only [isDigit, UInt8.le_iff_toNat_le, Bool.and_eq_true, decide_eq_true_eq] at h
    simp only [← UInt8.toNat_inj]
    obtain ⟨hlow, hhigh⟩ := h
    change 48 ≤ b.toNat at hlow
    change b.toNat ≤ 57 at hhigh
    show b.toNat = 48 ∨ b.toNat = 49 ∨ b.toNat = 50 ∨ b.toNat = 51 ∨ b.toNat = 52 ∨
      b.toNat = 53 ∨ b.toNat = 54 ∨ b.toNat = 55 ∨ b.toNat = 56 ∨ b.toNat = 57
    omega
  rcases hdigit with rfl | rfl | rfl | rfl | rfl | rfl | rfl | rfl | rfl | rfl <;> exact ⟨rfl, rfl⟩

/-- A number begins with its sign, or else with its first digit. -/
theorem isToken_spelling (negative : Bool) {s : Spelling} (hs : s.Sound) {rest : List UInt8}
    (hrest : Ends rest) :
    IsToken (Utf8.encode ((if negative then ['-'] else []) ++ s.text)) (ofSpelling negative s)
      rest := by
  have hscan := scanNumber_spelling negative hs hrest
  cases negative with
  | true => exact ⟨0x2D, Utf8.encode s.text, rfl, by decide, hscan⟩
  | false =>
    obtain ⟨c, ds, hcons⟩ := List.exists_cons_of_ne_nil hs.some_digit
    have hc := hs.whole_digits c (by rw [hcons]; exact List.mem_cons_self)
    have hfirst : isDigit (UInt8.ofNat c.toNat) = true :=
      digits_encode hs.whole_digits _ (by
        rw [encode_digits hs.whole_digits, hcons]
        exact List.mem_cons_self)
    have htext : Utf8.encode s.text
        = UInt8.ofNat c.toNat :: Utf8.encode (ds ++ s.placesText ++ s.exponentText) := by
      have := toNat_of_isDigit hc
      rw [Spelling.text, hcons, List.cons_append, List.cons_append, Utf8.encode_cons,
        Utf8.encodeChar_ascii (by omega), List.singleton_append]
    rw [htext, List.cons_append] at hscan
    obtain ⟨hspace, hone⟩ := scanOne_digit hfirst
      (Utf8.encode (ds ++ s.placesText ++ s.exponentText) ++ rest)
    exact ⟨_, _, htext, hspace, hone.trans hscan⟩

theorem renderInt_eq (i : Int) :
    Json.renderInt i = (if decide (i < 0) then ['-'] else []) ++ natDigits i.natAbs := by
  rw [Json.renderInt, natDigits]
  by_cases hi : i < 0 <;> simp [hi]

theorem isToken_int {i : Int} (h : Writable (.int i)) {rest : List UInt8} (hrest : Ends rest) :
    IsToken (Utf8.encode (Json.renderInt i)) (.atom (.int i)) rest := by
  have htoken := isToken_spelling (decide (i < 0)) (sound_natDigits i.natAbs) hrest
  have htext : Spelling.text ⟨natDigits i.natAbs, [], none⟩ = natDigits i.natAbs := by
    simp [Spelling.text, Spelling.placesText, Spelling.exponentText]
  have hspelt : ofSpelling (decide (i < 0)) ⟨natDigits i.natAbs, [], none⟩ = .atom (.int i) := by
    rw [ofSpelling, if_pos ⟨rfl, rfl⟩, ofDigitChars_natDigits, ofInteger_eq h]
  rw [renderInt_eq]
  rwa [htext, hspelt] at htoken

/-- **A finite double is scanned as itself**, whichever of its spellings it has. -/
theorem isToken_real {x : Float} (h : isFinite x = true) {rest : List UInt8}
    (hrest : Ends rest) :
    IsToken (Utf8.encode (Json.renderReal x)) (.atom (.real x)) rest := by
  obtain ⟨p, hp⟩ := Option.isSome_iff_exists.mp h
  obtain ⟨text, htext, s, rfl, hs, hreal, hbits⟩ :=
    finiteText_spells Json.numberStyle.positional p
  have hvalue : s.numeral.toDouble? p.negative = some x := by
    rw [← Numeral.toDouble?_shortest hp, Numeral.toDouble?, hbits]
    rfl
  have htoken := isToken_spelling p.negative hs hrest
  -- A double has places or an exponent, so that it is not taken for an integer.
  rw [← htext, ofSpelling, if_neg (by tauto), ofInteger.ofReal, hvalue] at htoken
  rw [Json.renderReal, hp]
  exact htoken

/-- A word is scanned as what it says. -/
theorem isToken_word (rest : List UInt8) :
    IsToken (Utf8.encode "null".toList) (.atom .null) rest ∧
      IsToken (Utf8.encode "true".toList) (.atom (.bool true)) rest ∧
      IsToken (Utf8.encode "false".toList) (.atom (.bool false)) rest := by
  have hull : "ull".toUTF8.toList = [0x75, 0x6C, 0x6C] := by cbv
  have hrue : "rue".toUTF8.toList = [0x72, 0x75, 0x65] := by cbv
  have halse : "alse".toUTF8.toList = [0x61, 0x6C, 0x73, 0x65] := by cbv
  refine ⟨⟨0x6E, [0x75, 0x6C, 0x6C], by decide, by decide, ?_⟩,
    ⟨0x74, [0x72, 0x75, 0x65], by decide, by decide, ?_⟩,
    ⟨0x66, [0x61, 0x6C, 0x73, 0x65], by decide, by decide, ?_⟩⟩
  · exact (congrArg (scanWord _ · _) hull).trans rfl
  · exact (congrArg (scanWord _ · _) hrue).trans rfl
  · exact (congrArg (scanWord _ · _) halse).trans rfl

/-- A text is scanned up to its own quotation mark: those that are in it are escaped. -/
theorem isToken_text (s : String) (rest : List UInt8) :
    IsToken (Utf8.encode (Json.renderText s)) (.atom (.text s)) rest := by
  obtain ⟨ps, hscan, htoken⟩ := scanText_render s rest
  refine ⟨0x22, Utf8.encode (s.toList.flatMap Json.escaped) ++ [0x22], ?_, by decide, ?_⟩
  · rw [Json.renderText, List.cons_append, Utf8.encode_cons, Utf8.encode_append]
    rfl
  · rw [List.append_assoc, List.singleton_append]
    show (ofText (scanText [] _).1.reverse (scanText [] _).2.1, (scanText [] _).2.2) = _
    rw [hscan, htoken]

/-- **What is written of an atom is scanned as the atom**, if the atom has a token of its own and
what follows does not go on with a number. -/
theorem isToken_renderAtom {a : Atom} (h : Writable a) {rest : List UInt8} (hrest : Ends rest) :
    IsToken (Utf8.encode (Json.renderAtom a)) (.atom a) rest := by
  obtain ⟨hnull, htrue, hfalse⟩ := isToken_word rest
  cases a with
  | null => exact hnull
  | bool b =>
    cases b with
    | true => exact htrue
    | false => exact hfalse
  | int i => exact isToken_int h hrest
  | real x => exact isToken_real h hrest
  | text s => exact isToken_text s rest

end ExchangeArchive.Json.Token
