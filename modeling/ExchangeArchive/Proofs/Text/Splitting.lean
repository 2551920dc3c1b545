import ExchangeArchive.Text.Blank
import Mathlib.Data.List.Basic
/-
Splitting a text at the last separator.

What comes after the separator has no other, and that alone settles where the text is split
(`splitLast?_append`). The two lemmas after it say what more text before or behind does to the
split.
-/

set_option autoImplicit false

namespace ExchangeArchive.Text

variable {sep : Char} {cs before after : List Char}

theorem splitLast?_of_not_mem (h : sep ∉ cs) : splitLast? sep cs = none := by
  induction cs with
  | nil => rfl
  | cons c cs ih =>
    rw [List.mem_cons, not_or] at h
    rw [splitLast?, ih h.2]
    exact if_neg (by simpa using Ne.symm h.1)

/-- A text is split at a separator that does not come again, whatever is before it, separators
included. -/
theorem splitLast?_append (before : List Char) (h : sep ∉ after) :
    splitLast? sep (before ++ sep :: after) = some (before, after) := by
  induction before with
  | nil =>
    rw [List.nil_append, splitLast?, splitLast?_of_not_mem h]
    exact if_pos (beq_self_eq_true sep)
  | cons c before ih => rw [List.cons_append, splitLast?, ih]

/-- A text has a last separator or none. With `splitLast?_append` this is all that is needed to know
where a text is split. -/
theorem last_or_not_mem (sep : Char) (cs : List Char) :
    sep ∉ cs ∨ ∃ before after, cs = before ++ sep :: after ∧ sep ∉ after := by
  by_cases hmem : sep ∈ cs
  · obtain ⟨after, before, hcs, hnot⟩ := List.eq_append_cons_of_mem (List.mem_reverse.mpr hmem)
    refine .inr ⟨before.reverse, after.reverse, ?_, by simpa using hnot⟩
    rw [← cs.reverse_reverse, hcs]
    simp
  · exact .inl hmem

/-- The last separator before a text without one is the last in all. -/
theorem splitLast?_append_of_not_mem {rest : List Char} (h : sep ∉ rest) (cs : List Char) :
    splitLast? sep (cs ++ rest) = (splitLast? sep cs).map fun (b, a) => (b, a ++ rest) := by
  rcases last_or_not_mem sep cs with hnone | ⟨before, after, rfl, hafter⟩
  · rw [splitLast?_of_not_mem hnone, splitLast?_of_not_mem (by simp [hnone, h])]
    rfl
  · rw [List.append_assoc, List.cons_append, splitLast?_append _ hafter,
      splitLast?_append _ (by simp [hafter, h])]
    rfl

/-- The last separator of a text that has one is the last with whatever before it. -/
theorem splitLast?_append_of_mem (before : List Char) {cs : List Char} (h : sep ∈ cs) :
    (splitLast? sep (before ++ cs)).map Prod.snd = (splitLast? sep cs).map Prod.snd := by
  rcases last_or_not_mem sep cs with hnone | ⟨between, after, rfl, hafter⟩
  · exact absurd h hnone
  · rw [← List.append_assoc, splitLast?_append _ hafter, splitLast?_append _ hafter]
    rfl

end ExchangeArchive.Text
