import ExchangeArchive.Proofs.Json.Reading
import ExchangeArchive.Proofs.Time.Rfc3339
/-
Codecs that give back what they were given.

A codec returns a value if it writes it as something that JSON text can hold and reads the
same value from the document of that (`Codec.Returns`). This is said of one value, for not
every double can be written and not every integer has 64 bits. Values without parts are
returned within their bounds, and a list or an optional value is returned if its parts are.

A record is returned if its fields are (`Shape.Lawful.returns`). That needs two things of its shape:
its fields are told apart by their names, and each is stored in a place of its own, all of
them together being the record (`Shape.Lawful`). The reader fills a blank record with the
members that it meets, and then with what the absence of the others stands for; after that
every field has the value that was written, or was left out for being the default.
-/

set_option autoImplicit false

namespace ExchangeArchive.Document

open ExchangeArchive.Decimal ExchangeArchive.Time

/-- A value that comes back from the document that it is written as. It is never written as
`null`, which would say that it is missing. -/
structure Codec.Returns {α : Type} (c : Codec α) (x : α) : Prop where
  writable : (c.write x).Writable
  not_null : c.write x ≠ Json.null
  read_write : c.read .jsonText (Node.ofJson (c.write x)) = .ok x

/-! ## Values without parts -/

/-- What is accepted as the atom that it was written as is returned. Each kind of value without
parts is a case of this. -/
theorem scalar_returns {α : Type} {expected : String} {write : α → Json}
    {accept : Atom → Option (Except DataFault α)} {x : α} {a : Atom} (hwrite : write x = .atom a)
    (hwritable : Json.Token.Writable a) (hnull : a ≠ .null) (haccept : accept a = some (.ok x)) :
    (scalar expected write accept).Returns x where
  writable := by
    show (write x).Writable
    rw [hwrite]
    exact .atom hwritable
  not_null := by
    show write x ≠ _
    rw [hwrite]
    simpa using hnull
  read_write := by
    show readAtom expected accept (Node.ofJson (write x)) = .ok x
    rw [hwrite, Node.ofJson, readAtom, haccept]

@[simp] theorem text_returns (s : String) : text.Returns s where
  writable := .atom trivial
  not_null := by simp [text]
  read_write := rfl

@[simp] theorem boolean_returns (b : Bool) : boolean.Returns b :=
  scalar_returns rfl trivial (by simp) rfl

theorem int64_returns {i : Int} (h : -2 ^ 63 ≤ i ∧ i < 2 ^ 63) : int64.Returns i := by
  refine scalar_returns rfl ⟨by omega, by omega⟩ (by simp) ?_
  rw [integerWithin, if_pos (by rw [twoTo_eq]; omega)]

theorem nat16_returns {n : Nat} (h : n < 2 ^ 16) : nat16.Returns n := by
  refine scalar_returns rfl ⟨by omega, by omega⟩ (by simp) ?_
  rw [integerWithin, if_pos (by rw [twoTo_eq]; omega)]
  rfl

theorem double_returns {x : Float} (h : isFinite x = true) : double.Returns x :=
  scalar_returns rfl h (by simp) rfl

@[simp] theorem timestamp_returns (t : Timestamp) : timestamp.Returns t := by
  refine scalar_returns rfl trivial (by simp) ?_
  simp only [String.toList_ofList, readRfc3339_rfc3339]
  rfl

/-! ## Lists and optional values -/

theorem readItems_write {α : Type} {c : Codec α} {xs : List α} (h : ∀ x ∈ xs, c.Returns x)
    (index : Nat) : readItems c .jsonText index (Node.ofItems (xs.map c.write)) = .ok xs := by
  induction xs generalizing index with
  | nil => rfl
  | cons x xs ih =>
    have hrest := ih (fun y hy => h y (List.mem_cons_of_mem _ hy)) (index + 1)
    have hfirst := (h x List.mem_cons_self).read_write
    rw [List.map_cons, Node.ofItems, readItems]
    show (do
      let x ← c.read .jsonText (Node.ofJson (c.write x))
      let xs ← readItems c .jsonText (index + 1) (Node.ofItems (xs.map c.write))
      return x :: xs) = _
    rw [hfirst, hrest]
    rfl

theorem list_returns {α : Type} {c : Codec α} {xs : List α} (h : ∀ x ∈ xs, c.Returns x) :
    (list c).Returns xs where
  writable := .list fun v hv => by
    obtain ⟨x, hx, rfl⟩ := List.mem_map.mp hv
    exact (h x hx).writable
  not_null := by simp [list]
  read_write := by
    show (do
      let xs ← readItems c .jsonText 0 (Node.ofItems (xs.map c.write))
      Node.raise none
      return xs) = _
    rw [readItems_write h]
    rfl

/-- Only `null` is read as an optional value without asking the codec of the value. So an optional
value comes back because what is written of it is never `null`. -/
theorem optional_read {α : Type} (c : Codec α) {v : Json} (h : v ≠ Json.null) :
    (optional c).read .jsonText (Node.ofJson v)
      = (c.read .jsonText (Node.ofJson v)).map some := by
  cases v with
  | atom a =>
    cases a with
    | null => exact absurd rfl h
    | _ => rfl
  | _ => rfl

theorem optional_returns {α : Type} {c : Codec α} {x : α} (h : c.Returns x) :
    (optional c).Returns (some x) where
  writable := h.writable
  not_null := h.not_null
  read_write := by
    show (optional c).read .jsonText (Node.ofJson (c.write x)) = .ok (some x)
    rw [optional_read c h.not_null, h.read_write]
    rfl

/-! ## Fields -/

namespace Field

variable {ρ α : Type} {name : String} {c : Codec α} {x : α} {get : ρ → α} {set : α → ρ → ρ}
  {get? : ρ → Option α} {set? : Option α → ρ → ρ}

/-- What a field does not write is what its absence stands for: its default, or that there is no
value. -/
def OmitsAbsent (f : Field ρ) : Prop := ∀ x, f.omits x = true → f.absent = some x

/-- A field of a record that comes back if it is written at all. -/
def Returned (f : Field ρ) (r : ρ) : Prop :=
  f.omits (f.get r) = false → f.codec.Returns (f.get r)

@[simp] theorem required_returned {r : ρ} (h : c.Returns (get r)) :
    (required name c get set).Returned r := fun _ => h

@[simp] theorem withDefault_returned {r : ρ} (h : c.Returns (get r)) :
    (withDefault name c x get set).Returned r := fun _ => h

@[simp] theorem maybe_returned {r : ρ} (h : ∀ x ∈ get? r, c.Returns x) :
    (maybe name c get? set?).Returned r := by
  intro hwritten
  obtain ⟨x, hx⟩ : ∃ x, get? r = some x :=
    Option.isSome_iff_exists.mp (by simpa [maybe] using hwritten)
  show (optional c).Returns (get? r)
  rw [hx]
  exact optional_returns (h x hx)

end Field

/-! ## Records -/

namespace Shape

variable {ρ : Type}

/-- A shape whose fields have names of their own and places of their own, and whose fields
are all that there is of a record. -/
structure Lawful (s : Shape ρ) : Prop where
  names : (s.fields.map Field.name).Nodup
  stores : ∀ f ∈ s.fields, ∀ r r' : ρ, f.get (f.set (f.get r) r') = f.get r
  keeps : ∀ f ∈ s.fields, ∀ g ∈ s.fields, ∀ r r' : ρ, f.get r' = f.get r →
    f.get (g.set (g.get r) r') = f.get r
  whole : ∀ r r' : ρ, (∀ f ∈ s.fields, f.get r' = f.get r) → r' = r
  absent : ∀ f ∈ s.fields, f.OmitsAbsent

variable {s : Shape ρ}

theorem Lawful.eq_of_name (hs : s.Lawful) {f g : Field ρ} (hf : f ∈ s.fields)
    (hg : g ∈ s.fields) (h : f.name = g.name) : f = g :=
  List.inj_on_of_nodup_map hs.names hf hg h

/-- A field is found by its name. -/
theorem Lawful.field?_name (hs : s.Lawful) {f : Field ρ} (hf : f ∈ s.fields) :
    s.field? f.name = some f := by
  have hfound : (s.fields.find? fun g => g.name == f.name).isSome = true :=
    List.find?_isSome.mpr ⟨f, hf, beq_self_eq_true f.name⟩
  obtain ⟨g, hg⟩ := Option.isSome_iff_exists.mp hfound
  have hname : g.name = f.name := by simpa using List.find?_some hg
  have heq := hs.eq_of_name (List.mem_of_find?_eq_some hg) hf hname
  rw [field?, hg, heq]

/-- The member of a field that was not seen before is stored in the field, and the field is seen. -/
theorem readMembers_cons (hs : s.Lawful) {f : Field ρ} (hf : f ∈ s.fields) {x : f.Value}
    (hx : f.codec.Returns x) {seen : List String} (hseen : f.name ∉ seen) (r : ρ)
    (rest : List (Node × Node)) :
    s.readMembers .jsonText ((.atom (.text f.name), Node.ofJson (f.codec.write x)) :: rest) seen r
      = s.readMembers .jsonText rest (f.name :: seen) (f.set x r) := by
  have hfield : s.fieldFor .jsonText (.atom (.text f.name)) = .ok (some f) := by
    rw [fieldFor, fieldNamed, hs.field?_name hf]
  have hmember : readMember f .jsonText (.atom (.text f.name)) (Node.ofJson (f.codec.write x))
      seen r = .ok (f.name :: seen, f.set x r) := by
    rw [readMember, if_neg hseen, hx.read_write]
    rfl
  rw [readMembers.eq_def]
  simp only [hfield, hmember]
  rfl

/-- Reading the members of a record stores the fields that were written and keeps all others. The
induction is on the fields; the record that is being filled and the names seen so far change
along the way. -/
theorem readMembers_members (hs : s.Lawful) {r : ρ}
    (h : ∀ f ∈ s.fields, f.Returned r)
    {fs : List (Field ρ)} (hfs : fs.Sublist s.fields) (seen : List String)
    (hseen : ∀ f ∈ fs, f.name ∉ seen) (r' : ρ) :
    ∃ seen' r'',
      s.readMembers .jsonText (Node.ofMembers (fs.filterMap fun f => f.member? r)) seen r'
        = .ok (seen', r'') ∧
      (∀ name, name ∈ seen' ↔ name ∈ seen ∨ ∃ f ∈ fs, f.omits (f.get r) = false ∧ f.name = name) ∧
      ∀ g ∈ s.fields, (g.get r' = g.get r ∨ g ∈ fs ∧ g.omits (g.get r) = false) →
        g.get r'' = g.get r := by
  induction fs generalizing seen r' with
  | nil => exact ⟨seen, r', rfl, by simp, by simp⟩
  | cons f fs ih =>
    have hf : f ∈ s.fields := hfs.subset List.mem_cons_self
    have hrest : fs.Sublist s.fields := (List.sublist_cons_self f fs).trans hfs
    -- A field that is left out has no member, and the others are read as if it were not there.
    by_cases homits : f.omits (f.get r) = true
    · obtain ⟨seen', r'', hread, hnames, hget⟩ :=
        ih hrest seen (fun g hg => hseen g (List.mem_cons_of_mem _ hg)) r'
      refine ⟨seen', r'', ?_, ?_, ?_⟩
      · rw [List.filterMap_cons_none (by rw [Field.member?, if_pos homits])]
        exact hread
      · simpa [homits] using hnames
      · rintro g hg (hsame | ⟨hmem, hwritten⟩)
        · exact hget g hg (.inl hsame)
        · rcases List.mem_cons.mp hmem with rfl | hmem
          · rw [homits] at hwritten
            cases hwritten
          · exact hget g hg (.inr ⟨hmem, hwritten⟩)
    · have hkept : f.omits (f.get r) = false := by simpa using homits
      -- No member comes twice, because no other field has the name.
      have hnew : ∀ g ∈ fs, g.name ∉ f.name :: seen := by
        have hnodup := (hfs.map Field.name).nodup hs.names
        rw [List.map_cons, List.nodup_cons] at hnodup
        intro g hg hmem
        rcases List.mem_cons.mp hmem with heq | hmem
        · exact hnodup.1 (heq ▸ List.mem_map_of_mem hg)
        · exact hseen g (List.mem_cons_of_mem _ hg) hmem
      obtain ⟨seen', r'', hread, hnames, hget⟩ :=
        ih hrest (f.name :: seen) hnew (f.set (f.get r) r')
      refine ⟨seen', r'', ?_, ?_, ?_⟩
      · rw [List.filterMap_cons_some (by rw [Field.member?, if_neg homits]), Node.ofMembers,
          readMembers_cons hs hf (h f hf hkept) (hseen f List.mem_cons_self), hread]
      · intro name
        rw [hnames, List.mem_cons]
        simp only [List.mem_cons, exists_eq_or_imp, hkept, true_and]
        tauto
      · rintro g hg (hsame | ⟨hmem, hwritten⟩)
        · exact hget g hg (.inl (hs.keeps g hg f hf r r' hsame))
        · rcases List.mem_cons.mp hmem with rfl | hmem
          · exact hget g hg (.inl (hs.stores g hg r r'))
          · exact hget g hg (.inr ⟨hmem, hwritten⟩)

/-- The fields that were not seen are filled with their defaults, and all others kept. Those that
were not seen were not written, so their defaults are their values. -/
theorem complete_unseen (hs : s.Lawful) {r : ρ} (seen : List String) {fs : List (Field ρ)}
    (hfs : ∀ f ∈ fs, f ∈ s.fields) (hunseen : ∀ f ∈ fs, f.name ∉ seen → f.omits (f.get r) = true)
    (r' : ρ) :
    ∃ r'', complete fs seen r' = .ok r'' ∧
      ∀ g ∈ s.fields, (g.get r' = g.get r ∨ g ∈ fs ∧ g.name ∉ seen) → g.get r'' = g.get r := by
  induction fs generalizing r' with
  | nil => exact ⟨r', rfl, by simp⟩
  | cons f fs ih =>
    have hf : f ∈ s.fields := hfs f List.mem_cons_self
    have ih := ih (fun g hg => hfs g (List.mem_cons_of_mem _ hg))
      (fun g hg => hunseen g (List.mem_cons_of_mem _ hg))
    by_cases hseen : f.name ∈ seen
    · obtain ⟨r'', hread, hget⟩ := ih r'
      refine ⟨r'', by rw [complete, if_pos hseen, hread], ?_⟩
      rintro g hg (hsame | ⟨hmem, hnew⟩)
      · exact hget g hg (.inl hsame)
      · rcases List.mem_cons.mp hmem with rfl | hmem
        · exact absurd hseen hnew
        · exact hget g hg (.inr ⟨hmem, hnew⟩)
    · have habsent := hs.absent f hf (f.get r) (hunseen f List.mem_cons_self hseen)
      obtain ⟨r'', hread, hget⟩ := ih (f.set (f.get r) r')
      refine ⟨r'', by rw [complete, if_neg hseen, habsent]; exact hread, ?_⟩
      rintro g hg (hsame | ⟨hmem, hnew⟩)
      · exact hget g hg (.inl (hs.keeps g hg f hf r r' hsame))
      · rcases List.mem_cons.mp hmem with rfl | hmem
        · exact hget g hg (.inl (hs.stores g hg r r'))
        · exact hget g hg (.inr ⟨hmem, hnew⟩)

/-- **A record is returned if its written fields are.** After the members and the defaults every
field has its value, and by `Lawful.whole` there is no more to a record. -/
theorem Lawful.returns (hs : s.Lawful) {r : ρ}
    (h : ∀ f ∈ s.fields, f.Returned r) :
    s.codec.Returns r where
  writable := .object fun m hm => by
    obtain ⟨f, hf, hmember⟩ := List.mem_filterMap.mp hm
    rw [Field.member?] at hmember
    split at hmember
    · cases hmember
    · next homits =>
      cases hmember
      exact (h f hf (by simpa using homits)).writable
  not_null := by simp [codec]
  read_write := by
    obtain ⟨seen, r₁, hread, hnames, hget⟩ :=
      readMembers_members hs h (List.Sublist.refl s.fields) [] (by simp) s.blank
    -- A field is seen if and only if it was written.
    have hseen : ∀ f ∈ s.fields, f.name ∈ seen ↔ f.omits (f.get r) = false := by
      intro f hf
      rw [hnames]
      constructor
      · rintro (hnone | ⟨g, hg, hwritten, hname⟩)
        · cases hnone
        · rwa [hs.eq_of_name hg hf hname] at hwritten
      · exact fun hwritten => .inr ⟨f, hf, hwritten, rfl⟩
    obtain ⟨r₂, hcomplete, hget'⟩ := complete_unseen hs seen (fun f hf => hf)
      (fun f hf hnew => by simpa using mt (hseen f hf).mpr hnew) r₁
    have hall : r₂ = r := hs.whole r r₂ fun f hf => by
      by_cases hwritten : f.omits (f.get r) = false
      · exact hget' f hf (.inl (hget f hf (.inr ⟨hf, hwritten⟩)))
      · exact hget' f hf (.inr ⟨hf, mt (hseen f hf).mp hwritten⟩)
    show s.readObject .jsonText (Node.ofMembers (s.members r)) .closed = .ok r
    rw [readObject, members, hread]
    show complete s.fields seen r₁ = .ok r
    rw [hcomplete, hall]

end Shape

end ExchangeArchive.Document
