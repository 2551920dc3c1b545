import ExchangeArchive.Proofs.Storage.Files
/-
How the content of an open file is replaced: go back to its beginning, cut it to nothing,
write the text one character after the other, and have it stored.

`Disk.replaceContent` is one operation that an outage may hit. Here it is taken apart. An
open file has a place that the next character goes to; writing in the midst of a content
overwrites it, and writing beyond the end leaves a gap before. So the first two steps both
matter: without going back the text would come after a gap, and without cutting the rest of
a longer content would stay behind it. `rewrite_stopped` says what is there when the steps
stop, wherever that is, and `replaceContent_steps` that an outage is just such a stop.
-/

set_option autoImplicit false

namespace ExchangeArchive.Storage

/-- The content of an open file, and the place in it that the next character goes to. -/
structure Cursor where
  text : List Char
  place : Nat

/-- A step of replacing the content of an open file: the place is set back, the content is cut, one
character is put, or what was written is stored. An outage may come between any two. -/
inductive WriteStep where
  | rewind
  | cut
  | put (c : Char)
  | sync

namespace WriteStep

/-- Does a step. A gap before the place is filled, as when a content was cut behind the back of a
place further on. -/
def run (f : Cursor) : WriteStep → Cursor
  | .rewind => { f with place := 0 }
  | .cut => { f with text := [] }
  | .put c =>
    { text := f.text.take f.place ++ List.replicate (f.place - f.text.length) '\x00'
        ++ c :: f.text.drop (f.place + 1)
      place := f.place + 1 }
  | .sync => f

/-- Does steps one after the other. -/
def runAll (f : Cursor) (steps : List WriteStep) : Cursor := steps.foldl run f

/-- The steps that replace a content by a text. The place is set before anything is cut, so that the
text starts at the beginning of the file. -/
def rewrite (text : List Char) : List WriteStep :=
  .rewind :: .cut :: (text.map .put ++ [.sync])

theorem length_rewrite (text : List Char) : (rewrite text).length = text.length + 3 := by
  simp [rewrite]

/-- At the end of a content characters are added to it, and the place stays at the end. -/
theorem runAll_put (text more : List Char) :
    runAll ⟨text, text.length⟩ (more.map .put) = ⟨text ++ more, (text ++ more).length⟩ := by
  induction more generalizing text with
  | nil => simp [runAll]
  | cons c more ih =>
    have hput : run ⟨text, text.length⟩ (.put c) = ⟨text ++ [c], (text ++ [c]).length⟩ := by
      simp [run]
    rw [List.map_cons, runAll, List.foldl_cons, hput]
    refine (ih (text ++ [c])).trans ?_
    rw [List.append_assoc]
    rfl

/-- **Wherever the steps stop, the content is what it was or a beginning of the text.**
Nothing of the former content is left once it has been cut, whatever it was and wherever
the file was written before. -/
theorem rewrite_stopped (f : Cursor) (text : List Char) (k : Nat) :
    (runAll f ((rewrite text).take k)).text = if k < 2 then f.text else text.take (k - 2) := by
  match k with
  | 0 => rfl
  | 1 => rfl
  | k + 2 =>
    have hputs : runAll f ((rewrite text).take (k + 2))
        = runAll ⟨[], 0⟩ ((text.map put ++ [sync]).take k) := rfl
    rw [if_neg (by omega), Nat.add_sub_cancel, hputs, List.take_append, List.length_map,
      ← List.map_take]
    -- Storing what has been written changes nothing of it.
    have hsync : ∀ n, ∀ g : Cursor, runAll g ([sync].take n) = g := by
      intro n g
      cases n <;> simp [runAll, run]
    rw [runAll, List.foldl_append, ← runAll, ← runAll, hsync]
    exact congrArg Cursor.text (runAll_put [] (text.take k))

/-- All the steps together leave the text and nothing else, whatever was in the file and wherever it
was written before. -/
theorem rewrite_done (f : Cursor) (text : List Char) :
    (runAll f (rewrite text)).text = text := by
  have h := rewrite_stopped f text (rewrite text).length
  rw [List.take_length, length_rewrite, if_neg (by omega)] at h
  rw [h, List.take_of_length_le (by omega)]

end WriteStep

namespace Disk

open WriteStep

/-- The outage at which the steps stop after so many of them. -/
def stopAfter (fault : IoFault) (k : Nat) : Outage :=
  ⟨fault, if k < 2 then none else some (k - 2)⟩

variable (d : Disk) (n : Nat) (text : String)

/-- What a replacement of the content of a file comes to when an outage hits it: the file has as
much of the text as was written by then. -/
theorem replaceContent_of_outage {o : Outage} (h : d.outages d.operations = some o) :
    (d.replaceContent (.file n) text).1 = .error o
      ∧ ((d.replaceContent (.file n) text).2.content n).toList
        = (o.written.map fun k => text.toList.take k).getD (d.content n).toList := by
  have houtage : d.outage = (some o, d.outage.2) := by rw [outage, h]
  unfold replaceContent
  rw [houtage]
  obtain ⟨fault, _ | k⟩ := o
  · exact ⟨rfl, rfl⟩
  · refine ⟨rfl, ?_⟩
    dsimp only
    rw [content_setContent, if_pos rfl, String.toList_ofList]
    rfl

/-- What it comes to otherwise: the file has the whole text. -/
theorem replaceContent_of_calm (h : d.outages d.operations = none) :
    (d.replaceContent (.file n) text).1 = .ok ()
      ∧ (d.replaceContent (.file n) text).2.content n = text := by
  have houtage : d.outage = (none, d.outage.2) := by rw [outage, h]
  unfold replaceContent
  rw [houtage]
  exact ⟨rfl, (content_setContent _ n n text).trans (if_pos rfl)⟩

/-- **Every stop of the steps is an outage.** So what is proved for all outages holds wherever
writing may stop. -/
theorem replaceContent_stopAfter {fault : IoFault} {k : Nat}
    (h : d.outages d.operations = some (stopAfter fault k)) (place : Nat) :
    (d.replaceContent (.file n) text).1 = .error (stopAfter fault k)
      ∧ ((d.replaceContent (.file n) text).2.content n).toList
        = (runAll ⟨(d.content n).toList, place⟩ ((rewrite text.toList).take k)).text := by
  obtain ⟨hresult, hcontent⟩ := d.replaceContent_of_outage n text h
  refine ⟨hresult, ?_⟩
  rw [hcontent, rewrite_stopped, stopAfter]
  by_cases hk : k < 2
  · rw [if_pos hk, if_pos hk]
    rfl
  · rw [if_neg hk, if_neg hk]
    rfl

/-- **Replacing the content of a file is doing the steps**, all of them if it goes well, and
up to one of them if it fails. -/
theorem replaceContent_steps (place : Nat) :
    ∃ k ≤ (rewrite text.toList).length,
      ((d.replaceContent (.file n) text).2.content n).toList
          = (runAll ⟨(d.content n).toList, place⟩ ((rewrite text.toList).take k)).text
        ∧ ((d.replaceContent (.file n) text).1 = .ok () ↔ k = (rewrite text.toList).length) := by
  cases h : d.outages d.operations with
  | none =>
    obtain ⟨hresult, hcontent⟩ := d.replaceContent_of_calm n text h
    refine ⟨_, Nat.le_refl _, ?_, iff_of_true hresult rfl⟩
    rw [hcontent, List.take_length, rewrite_done]
  | some o =>
    obtain ⟨hresult, hcontent⟩ := d.replaceContent_of_outage n text h
    have hfails : ∀ k < (rewrite text.toList).length,
        ((d.replaceContent (.file n) text).1 = .ok () ↔ k = (rewrite text.toList).length) :=
      fun k hk => iff_of_false (by rw [hresult]; exact nofun) (Nat.ne_of_lt hk)
    have hlength := length_rewrite text.toList
    obtain ⟨fault, _ | k⟩ := o
    · -- Nothing was written: it is as if not even the first step was done.
      exact ⟨0, by omega, hcontent, hfails 0 (by omega)⟩
    · -- More than all of the text cannot be written.
      refine ⟨min k text.toList.length + 2, by omega, ?_, hfails _ (by omega)⟩
      rw [hcontent, rewrite_stopped, if_neg (by omega), Nat.add_sub_cancel]
      exact List.take_eq_take_min

end Disk

end ExchangeArchive.Storage
