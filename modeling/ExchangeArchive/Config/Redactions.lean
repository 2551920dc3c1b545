/-
The headers whose values are hidden, with what they are replaced by.

Names are kept in ascending order and each only once; the order is part of the type. A
name that is given again gets the later value.
-/

set_option autoImplicit false

namespace ExchangeArchive.Config

/-- Names with values, in ascending order of the names. -/
structure Redactions where
  pairs : List (String × String)
  sorted : pairs.Pairwise fun a b => a.1 < b.1

namespace Redactions

instance : DecidableEq Redactions := fun a b =>
  if h : a.pairs = b.pairs then isTrue (by cases a; cases b; simp_all)
  else isFalse (by rintro rfl; simp at h)

/-- No headers. -/
def empty : Redactions := ⟨[], .nil⟩

instance : Inhabited Redactions := ⟨empty⟩

/-- The pairs with a name set to a value. -/
def insertPair (name value : String) : List (String × String) → List (String × String)
  | [] => [(name, value)]
  | (n, v) :: rest =>
    if name < n then (name, value) :: (n, v) :: rest
    else if name = n then (name, value) :: rest
    else (n, v) :: insertPair name value rest

/-- The names in a list with a name set are that name and those before. -/
theorem mem_insertPair {name value : String} {pairs : List (String × String)}
    {p : String × String} (h : p ∈ insertPair name value pairs) :
    p.1 = name ∨ p ∈ pairs := by
  induction pairs with
  | nil => simp_all [insertPair]
  | cons q rest ih =>
    unfold insertPair at h
    split at h
    · rcases List.mem_cons.1 h with rfl | h
      · exact .inl rfl
      · exact .inr h
    · split at h
      · rcases List.mem_cons.1 h with rfl | h
        · exact .inl rfl
        · exact .inr (List.mem_cons_of_mem _ h)
      · rcases List.mem_cons.1 h with rfl | h
        · exact .inr (List.mem_cons_self ..)
        · exact (ih h).imp_right (List.mem_cons_of_mem _)

/-- Setting a name keeps the order. -/
theorem sorted_insertPair (name value : String) {pairs : List (String × String)}
    (h : pairs.Pairwise fun a b => a.1 < b.1) :
    (insertPair name value pairs).Pairwise fun a b => a.1 < b.1 := by
  induction pairs with
  | nil => simp [insertPair]
  | cons q rest ih =>
    obtain ⟨hq, hrest⟩ := List.pairwise_cons.1 h
    unfold insertPair
    split
    · rename_i hlt
      refine List.pairwise_cons.2 ⟨fun p hp => ?_, h⟩
      rcases List.mem_cons.1 hp with rfl | hp
      · exact hlt
      · exact String.lt_trans hlt (hq p hp)
    · rename_i hge
      split
      · rename_i heq
        exact List.pairwise_cons.2 ⟨fun p hp => heq ▸ hq p hp, hrest⟩
      · rename_i hne
        refine List.pairwise_cons.2 ⟨fun p hp => ?_, ih hrest⟩
        rcases mem_insertPair hp with heq | hp
        · rw [heq]
          exact Std.lt_of_le_of_ne (String.not_lt.1 hge) (fun h => hne h.symm)
        · exact hq p hp

/-- Sets the value of a name. -/
def insert (name value : String) (r : Redactions) : Redactions :=
  ⟨insertPair name value r.pairs, sorted_insertPair name value r.sorted⟩

/-- The value of a name. -/
def get? (name : String) (r : Redactions) : Option String := r.pairs.lookup name

end Redactions

end ExchangeArchive.Config
