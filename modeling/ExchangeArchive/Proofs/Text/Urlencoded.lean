import ExchangeArchive.Proofs.Text.Trimming
import ExchangeArchive.Proofs.Text.Utf8
import ExchangeArchive.Text.FormUrlencoded
/-
Pairs that are written in a query are read again.

The marks of the format never stand in what is written of a name or value: an octet is a letter, a
digit or one of four other marks, or a plus for the space, or else it is escaped. So a query is cut
where pairs were joined, a pair where its `=` was put (`parse_render`), and each octet is read as
itself (`unescape_escapeOctet`), whatever comes after it.

What is read of any octets, also of those that nothing was written as, is `Unescapes`: a plus is a
space, a percent sign with two hexadecimal digits is the octet that these stand for, and everything
else is itself, a percent sign without digits too.
-/

set_option autoImplicit false

namespace ExchangeArchive.Text.FormUrlencoded

variable {written octets : List UInt8} {b : UInt8}

/-! ## Reading any octets -/

/-- Whether octets start with two hexadecimal digits. A percent sign that has no two digits after it
stands for itself. -/
def startsWithDigits : List UInt8 → Bool
  | h :: l :: _ => (hexValue? h).isSome && (hexValue? l).isSome
  | _ => false

/-- What the octets of a name or value stand for: a plus is a blank, a percent sign with two digits
the octet of that number, and everything else itself. -/
inductive Unescapes : List UInt8 → List UInt8 → Prop where
  | nil : Unescapes [] []
  | space {rest octets : List UInt8} (hrest : Unescapes rest octets) :
    Unescapes (0x2B :: rest) (0x20 :: octets)
  | escaped {h l high low : UInt8} {rest octets : List UInt8} (hhigh : hexValue? h = some high)
    (hlow : hexValue? l = some low) (hrest : Unescapes rest octets) :
    Unescapes (0x25 :: h :: l :: rest) ((high * 16 + low) :: octets)
  | self {b : UInt8} {rest octets : List UInt8} (hplus : b ≠ 0x2B)
    (hpercent : b = 0x25 → startsWithDigits rest = false) (hrest : Unescapes rest octets) :
    Unescapes (b :: rest) (b :: octets)

theorem unescape_self {rest : List UInt8} (hplus : b ≠ 0x2B)
    (hpercent : b = 0x25 → startsWithDigits rest = false) :
    unescape (b :: rest) = b :: unescape rest := by
  -- A percent sign has an equation of its own, which falls back to the octet itself.
  by_cases hb : b = 0x25
  · subst hb
    obtain - | ⟨h, - | ⟨l, rest⟩⟩ := rest
    · rfl
    · rfl
    · have hdigits := hpercent rfl
      rw [startsWithDigits, Bool.and_eq_false_iff, Option.isSome_eq_false_iff,
        Option.isSome_eq_false_iff, Option.isNone_iff_eq_none, Option.isNone_iff_eq_none] at hdigits
      rw [unescape]
      rcases hdigits with hnone | hnone
      · rw [hnone]
      · rw [hnone]
        cases hexValue? h <;> rfl
  · exact unescape.eq_3 b rest (fun _ _ _ h _ => hb h) hplus

theorem unescape_escaped {h l high low : UInt8} {rest : List UInt8}
    (hhigh : hexValue? h = some high) (hlow : hexValue? l = some low) :
    unescape (0x25 :: h :: l :: rest) = (high * 16 + low) :: unescape rest := by
  rw [unescape, hhigh, hlow]

/-- **Octets stand for just one list of octets**, which is the one that reading them gives. -/
theorem unescapes_iff : Unescapes written octets ↔ unescape written = octets := by
  constructor
  · intro h
    induction h with
    | nil => rfl
    | space _ ih => rw [unescape, ih]
    | escaped hhigh hlow _ ih => rw [unescape_escaped hhigh hlow, ih]
    | self hplus hpercent _ ih => rw [unescape_self hplus hpercent, ih]
  · rintro rfl
    induction written using unescape.induct with
    | case1 h l rest high low hlow hhigh ih =>
      rw [unescape_escaped hhigh hlow]
      exact .escaped hhigh hlow ih
    | case2 h l rest hnot ih =>
      -- Two octets follow, but one of them is no digit.
      have hdigits : startsWithDigits (h :: l :: rest) = false := by
        rw [startsWithDigits, Bool.and_eq_false_iff]
        cases hhigh : hexValue? h with
        | none => exact .inl rfl
        | some high => cases hlow : hexValue? l with
          | none => exact .inr rfl
          | some low => exact (hnot high low hhigh hlow).elim
      rw [unescape_self (by decide) fun _ => hdigits]
      exact .self (by decide) (fun _ => hdigits) ih
    | case3 rest ih => exact .space ih
    | case4 b rest hnot hplus ih =>
      -- If this is a percent sign, fewer than two octets follow.
      have hdigits : b = 0x25 → startsWithDigits rest = false := fun hb => by
        obtain - | ⟨h, - | ⟨l, rest⟩⟩ := rest
        · rfl
        · rfl
        · exact (hnot h l rest hb rfl).elim
      rw [unescape_self hplus hdigits]
      exact .self hplus hdigits ih
    | case5 => exact .nil

/-! ## Names and values -/

theorem hexValue?_hexDigit {n : Nat} (h : n < 16) :
    hexValue? (hexDigit (UInt8.ofNat n)) = some (UInt8.ofNat n) := by
  have hall : ∀ k ∈ List.range 16,
      hexValue? (hexDigit (UInt8.ofNat k)) = some (UInt8.ofNat k) := by decide
  exact hall n (List.mem_range.mpr h)

/-- Every octet is its two digits. -/
theorem unescape_digits (b : UInt8) (rest : List UInt8) :
    unescape (0x25 :: hexDigit (b / 16) :: hexDigit (b % 16) :: rest) = b :: unescape rest := by
  have hb := b.toNat_lt
  have hhigh : b / 16 = UInt8.ofNat (b.toNat / 16) := UInt8.toNat_inj.mp (by simp; omega)
  have hlow : b % 16 = UInt8.ofNat (b.toNat % 16) := UInt8.toNat_inj.mp (by simp; omega)
  have hnumber : UInt8.ofNat (b.toNat / 16) * 16 + UInt8.ofNat (b.toNat % 16) = b :=
    UInt8.toNat_inj.mp (by simp; omega)
  rw [hhigh, hlow, unescape_escaped (hexValue?_hexDigit (by omega))
    (hexValue?_hexDigit (by omega)), hnumber]

/-- **What is written of an octet is read as it**, whatever comes after it. -/
theorem unescape_escapeOctet (b : UInt8) (rest : List UInt8) :
    unescape (escapeOctet b ++ rest) = b :: unescape rest := by
  rw [escapeOctet]
  split
  · next hplain =>
    refine unescape_self ?_ ?_
    · rintro rfl
      exact absurd hplain (by decide)
    · rintro rfl
      exact absurd hplain (by decide)
  · split
    · next hspace =>
      rw [eq_of_beq hspace]
      exact unescape.eq_2 rest
    · exact unescape_digits b rest

theorem text_escape (s : String) : text (escape s) = s := by
  have hall : ∀ bs : List UInt8, unescape (bs.flatMap escapeOctet) = bs := by
    intro bs
    induction bs with
    | nil => rfl
    | cons b bs ih => rw [List.flatMap_cons, unescape_escapeOctet, ih]
  rw [text, escape, hall, Utf8.decodeLossy_encode, String.ofList_toList]

theorem text_nil : text [] = "" := text_escape ""

/-- No octet is written with a mark that separates, so a name or value that has such marks in it
does not fall apart. -/
theorem separators_not_mem_escape (s : String) : 0x26 ∉ escape s ∧ 0x3D ∉ escape s := by
  have hall : ∀ k ∈ List.range 256, (0x26 : UInt8) ∉ escapeOctet (UInt8.ofNat k)
      ∧ (0x3D : UInt8) ∉ escapeOctet (UInt8.ofNat k) := by decide +kernel
  have hoctet (b : UInt8) : 0x26 ∉ escapeOctet b ∧ 0x3D ∉ escapeOctet b := by
    simpa using hall b.toNat (List.mem_range.mpr b.toNat_lt)
  constructor
  · intro hmem
    obtain ⟨b, -, hb⟩ := List.mem_flatMap.mp hmem
    exact (hoctet b).1 hb
  · intro hmem
    obtain ⟨b, -, hb⟩ := List.mem_flatMap.mp hmem
    exact (hoctet b).2 hb

/-! ## Pairs -/

theorem splitPair_of_not_mem (h : 0x3D ∉ written) : splitPair written = (written, []) := by
  induction written with
  | nil => rfl
  | cons b rest ih =>
    rw [List.mem_cons, not_or] at h
    rw [splitPair, if_neg (by simpa using Ne.symm h.1), ih h.2]

/-- A segment is split at an `=` that has none before it. -/
theorem splitPair_append {name : List UInt8} (h : 0x3D ∉ name) (value : List UInt8) :
    splitPair (name ++ 0x3D :: value) = (name, value) := by
  induction name with
  | nil => rfl
  | cons b name ih =>
    rw [List.mem_cons, not_or] at h
    rw [List.cons_append, splitPair, if_neg (by simpa using Ne.symm h.1), ih h.2]

theorem pair_renderPair (p : String × String) : pair (renderPair p) = p := by
  rw [pair, renderPair, splitPair_append (separators_not_mem_escape p.1).2]
  exact Prod.ext (text_escape p.1) (text_escape p.2)

/-! ## Queries -/

theorem segments_eq_splitOn (query : List UInt8) : segments query = query.splitOn 0x26 :=
  cut_eq_splitOn rfl (fun _ query => by rw [segments]; cases segments query <;> rfl) query

theorem render_eq (pairs : List (String × String)) :
    render pairs = [0x26].intercalate (pairs.map renderPair) := by
  induction pairs with
  | nil => rfl
  | cons p pairs ih =>
    cases pairs with
    | nil => rw [render, List.map_singleton, List.intercalate_singleton]
    | cons q pairs =>
      rw [render.eq_3 p (q :: pairs) (List.cons_ne_nil q pairs), ih, List.map_cons, List.map_cons,
        List.map_cons, List.intercalate_cons_cons, List.append_assoc, List.singleton_append]

/-- **A query is read as the pairs that it was written of**, in order, those with empty names and
values included. -/
theorem parse_render (pairs : List (String × String)) : parse (render pairs) = pairs := by
  have hsegment (p : String × String) : 0x26 ∉ renderPair p := by
    simp [renderPair, (separators_not_mem_escape _).1]
  -- No pair is written as an empty segment, since its `=` is always there.
  have hkept : ((pairs.map renderPair).filter fun segment => !segment.isEmpty)
      = pairs.map renderPair := by
    refine List.filter_eq_self.mpr fun segment hmem => ?_
    obtain ⟨p, -, rfl⟩ := List.mem_map.mp hmem
    simp [renderPair]
  rw [parse, segments_eq_splitOn, render_eq]
  -- No pairs at all are written as an empty query, which has one segment and not none.
  by_cases hnil : pairs = []
  · subst hnil
    rfl
  · have hseparate : ∀ segment ∈ pairs.map renderPair, 0x26 ∉ segment := fun segment hmem => by
      obtain ⟨p, -, rfl⟩ := List.mem_map.mp hmem
      exact hsegment p
    rw [List.splitOn_intercalate 0x26 hseparate (by simpa using hnil), hkept, List.map_map]
    exact List.map_id'' pair_renderPair pairs

end ExchangeArchive.Text.FormUrlencoded
