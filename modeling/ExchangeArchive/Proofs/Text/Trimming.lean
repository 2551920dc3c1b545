import ExchangeArchive.Text.Blank
import Mathlib.Data.List.DropRight
/-
Parts of a text, and what stands around them.

A text is cut at every separator, which joining its parts undoes (`parts_eq_splitOn`), or at the
first one. White space around a part, or quotation marks around a value, are dropped as far as
they go: `Wrapped` says that a text is a core with such characters before and behind it and that
the core neither begins nor ends with one, and dropping finds just this core (`trim_eq_iff`,
`strip_eq_iff`).
-/

set_option autoImplicit false

namespace ExchangeArchive.Text

/-! ## Separators -/

section Separator

variable {α : Type} [BEq α]

/-- What is cut at each separator, one element after the other, is cut as `List.splitOn` does. It is
stated for any such function, since texts and octets are cut by different ones. -/
theorem cut_eq_splitOn {sep : α} {cut : List α → List (List α)} (hnil : cut [] = [[]])
    (hcons : ∀ c cs, cut (c :: cs) = if c == sep then [] :: cut cs
      else match cut cs with
        | [] => [[c]]
        | part :: more => (c :: part) :: more) (cs : List α) : cut cs = cs.splitOn sep := by
  induction cs with
  | nil => exact hnil
  | cons c cs ih =>
    rw [hcons, ih, List.splitOn_cons_eq_if_modifyHead]
    split
    · rfl
    · cases hparts : cs.splitOn sep with
      | nil => exact absurd hparts (List.splitOn_ne_nil sep cs)
      | cons part more => rfl

theorem not_mem_of_mem_splitOn [LawfulBEq α] {sep : α} {cs part : List α}
    (h : part ∈ cs.splitOn sep) : sep ∉ part := by
  induction cs generalizing part with
  | nil =>
    rw [List.splitOn_nil, List.mem_singleton] at h
    simp [h]
  | cons c cs ih =>
    rw [List.splitOn_cons_eq_if_modifyHead] at h
    split at h
    · rcases List.mem_cons.mp h with rfl | h
      · exact List.not_mem_nil
      · exact ih h
    · next hc =>
      -- Only the first part grows, and by no separator.
      obtain ⟨first, more, hparts⟩ := List.exists_cons_of_ne_nil (List.splitOn_ne_nil sep cs)
      rw [hparts] at ih h
      rcases List.mem_cons.mp h with rfl | h
      · rw [List.mem_cons, not_or]
        exact ⟨fun heq => hc (by simp [heq]), ih List.mem_cons_self⟩
      · exact ih (List.mem_cons_of_mem _ h)

end Separator

/-- **The parts of a text are what its separators separate.** Joined with the separator they are the
text again, and no part has a separator in it. -/
theorem parts_eq_splitOn (sep : Char) (cs : List Char) : parts sep cs = cs.splitOn sep :=
  cut_eq_splitOn rfl (fun _ cs => by rw [parts]; cases parts sep cs <;> rfl) cs

/-- What is not a separator is in one of the parts. -/
theorem mem_part_of_mem (sep : Char) {c : Char} {cs : List Char} (h : c ∈ cs) :
    c = sep ∨ ∃ part ∈ parts sep cs, c ∈ part := by
  induction cs with
  | nil => cases h
  | cons d cs ih =>
    rw [parts_eq_splitOn] at ih ⊢
    rw [List.splitOn_cons_eq_if_modifyHead]
    obtain ⟨first, more, hparts⟩ := List.exists_cons_of_ne_nil (List.splitOn_ne_nil sep cs)
    rw [hparts] at ih ⊢
    split
    · next hd =>
      rcases List.mem_cons.mp h with rfl | h
      · exact .inl (eq_of_beq hd)
      · exact (ih h).imp_right fun ⟨part, hpart, hc⟩ => ⟨part, List.mem_cons_of_mem _ hpart, hc⟩
    · -- The first part grows by the character that is not a separator.
      rcases List.mem_cons.mp h with rfl | h
      · exact .inr ⟨c :: first, List.mem_cons_self, List.mem_cons_self⟩
      · rcases ih h with heq | ⟨part, hpart, hc⟩
        · exact .inl heq
        · rcases List.mem_cons.mp hpart with rfl | hpart
          · exact .inr ⟨d :: part, List.mem_cons_self, List.mem_cons_of_mem _ hc⟩
          · exact .inr ⟨part, List.mem_cons_of_mem _ hpart, hc⟩

theorem splitFirst?_of_not_mem {sep : Char} {cs : List Char} (h : sep ∉ cs) :
    splitFirst? sep cs = none := by
  induction cs with
  | nil => rfl
  | cons c cs ih =>
    rw [List.mem_cons, not_or] at h
    rw [splitFirst?, if_neg (by simpa using Ne.symm h.1), ih h.2]
    rfl

/-- A text is split at a separator that has none before it, whatever comes after it. -/
theorem splitFirst?_append {sep : Char} {before : List Char} (h : sep ∉ before)
    (after : List Char) : splitFirst? sep (before ++ sep :: after) = some (before, after) := by
  induction before with
  | nil => rw [List.nil_append, splitFirst?, if_pos (beq_self_eq_true sep)]
  | cons c before ih =>
    rw [List.mem_cons, not_or] at h
    rw [List.cons_append, splitFirst?, if_neg (by simpa using Ne.symm h.1), ih h.2]
    rfl

/-! ## What stands around a text -/

/-- A text that is `core` with characters of a kind around it, of which `core` itself neither
begins nor ends with one. -/
inductive Wrapped (p : Char → Bool) (core : List Char) : List Char → Prop where
  | intro {before after : List Char} (hbefore : ∀ c ∈ before, p c = true)
    (hafter : ∀ c ∈ after, p c = true) (hfirst : ∀ c ∈ core.head?, p c = false)
    (hlast : ∀ c ∈ core.getLast?, p c = false) : Wrapped p core (before ++ core ++ after)

variable {p : Char → Bool} {c : Char} {core written : List Char}

/-- A text has in it only what its core has, and what stands around that. -/
theorem Wrapped.mem_iff (h : Wrapped p core written) (hc : p c = false) :
    c ∈ written ↔ c ∈ core := by
  obtain ⟨hbefore, hafter, -, -⟩ := h
  rename_i before after
  have hnot : ∀ l : List Char, (∀ c ∈ l, p c = true) → c ∉ l := fun l hl hmem => by
    simp [hl c hmem] at hc
  simp [hnot before hbefore, hnot after hafter]

/-- Around a core, more of the same may stand, and the core is what it was. -/
theorem Wrapped.extend (h : Wrapped p core written) {before after : List Char}
    (hbefore : ∀ c ∈ before, p c = true) (hafter : ∀ c ∈ after, p c = true) :
    Wrapped p core (before ++ written ++ after) := by
  obtain ⟨hbefore', hafter', hfirst, hlast⟩ := h
  rename_i before' after'
  have hshape : before ++ (before' ++ core ++ after') ++ after
      = (before ++ before') ++ core ++ (after' ++ after) := by simp only [List.append_assoc]
  rw [hshape]
  exact .intro (List.forall_mem_append.mpr ⟨hbefore, hbefore'⟩)
    (List.forall_mem_append.mpr ⟨hafter', hafter⟩) hfirst hlast

/-- Dropping what stands around a core leaves the core. -/
theorem Wrapped.dropWhile (h : Wrapped p core written) :
    (written.dropWhile p).rdropWhile p = core := by
  obtain ⟨hbefore, hafter, hfirst, hlast⟩ := h
  rename_i before after
  rw [List.append_assoc, List.dropWhile_append_of_pos hbefore]
  -- Without a core, what stands behind is dropped from the front already.
  cases core with
  | nil =>
    rw [List.nil_append, List.dropWhile_eq_nil_iff.mpr hafter]
    rfl
  | cons c core =>
    have hc : p c = false := hfirst c rfl
    rw [List.cons_append, List.dropWhile_cons_of_neg (by simp [hc]), ← List.cons_append,
      List.rdropWhile, List.reverse_append,
      List.dropWhile_append_of_pos fun c hc => hafter c (List.mem_reverse.mp hc)]
    refine List.rdropWhile_eq_self_iff.mpr fun hne => ?_
    simp [hlast _ (List.getLast?_eq_some_getLast hne)]

/-- What is left of a text stands in it with characters of the kind around it. -/
theorem wrapped_dropWhile (p : Char → Bool) (written : List Char) :
    Wrapped p ((written.dropWhile p).rdropWhile p) written := by
  have hwritten : written.takeWhile p ++ (written.dropWhile p).rdropWhile p
      ++ (written.dropWhile p).rtakeWhile p = written := by
    rw [List.append_assoc, List.rdropWhile_append_rtakeWhile, List.takeWhile_append_dropWhile]
  have hfirst : ∀ c ∈ ((written.dropWhile p).rdropWhile p).head?, p c = false := by
    intro c hc
    -- What is dropped at the end leaves the first character as it is, if it leaves any.
    have hne : (written.dropWhile p).rdropWhile p ≠ [] :=
      List.ne_nil_of_mem (List.mem_of_mem_head? hc)
    rw [List.head?_eq_some_head hne, Option.mem_some_iff, (List.rdropWhile_prefix p _).head hne]
      at hc
    rw [← hc]
    exact List.head_dropWhile_not p _
  have hlast : ∀ c ∈ ((written.dropWhile p).rdropWhile p).getLast?, p c = false := by
    intro c hc
    obtain ⟨hne, rfl⟩ := List.mem_getLast?_eq_getLast hc
    simpa using List.rdropWhile_last_not p _ hne
  have hbefore : ∀ c ∈ written.takeWhile p, p c = true := fun c hc => List.mem_takeWhile_imp hc
  have hafter : ∀ c ∈ (written.dropWhile p).rtakeWhile p, p c = true :=
    fun c hc => List.mem_rtakeWhile_imp hc
  have hwrapped := Wrapped.intro hbefore hafter hfirst hlast
  rwa [hwritten] at hwrapped

theorem dropWhile_eq_iff (p : Char → Bool) (core written : List Char) :
    (written.dropWhile p).rdropWhile p = core ↔ Wrapped p core written :=
  ⟨fun h => h ▸ wrapped_dropWhile p written, Wrapped.dropWhile⟩

/-- **Trimming finds the text that white space stands around.** There is only one such text, as it
neither begins nor ends with white space. -/
theorem trim_eq_iff : trim written = core ↔ Wrapped isBlank core written :=
  dropWhile_eq_iff isBlank core written

/-- Trimming takes nothing away but white space before and behind. -/
theorem exists_trim (written : List Char) : ∃ before after : List Char,
    (∀ c ∈ before, isBlank c = true) ∧ (∀ c ∈ after, isBlank c = true) ∧
      written = before ++ trim written ++ after := by
  have hwrapped : Wrapped isBlank (trim written) written := trim_eq_iff.mp rfl
  generalize trim written = core at hwrapped
  obtain ⟨hbefore, hafter, -, -⟩ := hwrapped
  exact ⟨_, _, hbefore, hafter, rfl⟩

/-- White space around a text makes no difference to what trimming finds. -/
theorem trim_append {before after : List Char} (hbefore : ∀ c ∈ before, isBlank c = true)
    (hafter : ∀ c ∈ after, isBlank c = true) (cs : List Char) :
    trim (before ++ cs ++ after) = trim cs :=
  trim_eq_iff.mpr ((trim_eq_iff.mp rfl).extend hbefore hafter)

/-- Stripping finds the text that the mark stands around, however often it stands there and whether
or not it does so on both sides. -/
theorem strip_eq_iff : strip c written = core ↔ Wrapped (· == c) core written :=
  dropWhile_eq_iff (· == c) core written

end ExchangeArchive.Text
