import ExchangeArchive.Proofs.Document.Members
import Mathlib.Data.List.Pairwise
/-
Members in another order, members that a record does not have, and members that come twice.

Of the members before it the reader of a member knows only which names there were, and each
field is stored in a place of its own (`Orderly`). So two neighbours can change their places:
both are still new, and what they store is stored all the same. That is all there is to any
permutation (`read_perm`). A member that a record does not have may stand anywhere, with any value
that can be passed over: that is any value without a flaw (`intact_iff`), and whether a value has
one does not depend on the order in it. A second member of a field is refused wherever it stands,
because no name that was read is new (`new_of_readMembers`).

Records stand inside of other records. `PassesOn` says how the reading of a whole follows that of
a part: it goes well only if that does, comes to the same if that does, and fails with its fault.
The lemmas at the end say that a record passes on what is read of each of its members and
positions, a list what is read of its items, and an optional value what is read of the value.
-/

set_option autoImplicit false

namespace ExchangeArchive.Document

/-! ## Values that can be passed over -/

/-- A value without a flaw that shows when it is passed over. A value that cannot be read may
still be passed over: a number that is too great for any type, for instance. -/
inductive Node.Intact : Node → Prop where
  | atom (a : Atom) : Intact (.atom a)
  | plain (written : String) (present : Except DataFault Bool) (v : Node) :
    Intact (.plain written present v)
  | list {items : List Node} {ending : Ending} (h : ∀ v ∈ items, v.Intact)
    (hending : ending.skippedListFlaw? = none) : Intact (.list items ending)
  | object {members : List (Node × Node)} {ending : Ending} (hkeys : ∀ p ∈ members, p.1.Intact)
    (hvalues : ∀ p ∈ members, p.2.Intact) (hending : ending.skippedObjectFlaw? = none) :
    Intact (.object members ending)
  | broken (fault : Fault) : Intact (.broken fault none)

/-- The members of one of the objects in a value stand in another order. How deep the object stands
does not matter. -/
inductive Node.Reordered : Node → Node → Prop where
  | members {members members' : List (Node × Node)} {ending : Ending}
    (h : members.Perm members') : Reordered (.object members ending) (.object members' ending)
  | member {before after : List (Node × Node)} {key v v' : Node} {ending : Ending}
    (h : Reordered v v') : Reordered (.object (before ++ (key, v) :: after) ending)
      (.object (before ++ (key, v') :: after) ending)
  | item {before after : List Node} {v v' : Node} {ending : Ending} (h : Reordered v v') :
    Reordered (.list (before ++ v :: after) ending) (.list (before ++ v' :: after) ending)

namespace Node

theorem Reordered.symm {v v' : Node} (h : v.Reordered v') : v'.Reordered v := by
  induction h with
  | members h => exact .members h.symm
  | member _ ih => exact .member ih
  | item _ ih => exact .item ih

mutual

theorem intact_of_skip : ∀ {v : Node}, v.skip = .ok () → v.Intact
  | .atom a, _ => .atom a
  | .plain written present v, _ => .plain written present v
  | .list items ending, h => by
    obtain ⟨_, hitems, hending⟩ := bind_eq_ok.mp h
    exact .list (intact_of_skipItems hitems) (raise_eq_ok.mp hending)
  | .object members ending, h => by
    obtain ⟨_, hmembers, hending⟩ := bind_eq_ok.mp h
    exact .object (fun p hp => (intact_of_skipMembers hmembers p hp).1)
      (fun p hp => (intact_of_skipMembers hmembers p hp).2) (raise_eq_ok.mp hending)
  | .broken fault skipped, h => by
    obtain rfl := raise_eq_ok.mp h
    exact .broken fault

theorem intact_of_skipItems : ∀ {items : List Node}, skipItems items = .ok () →
    ∀ v ∈ items, v.Intact
  | [], _ => List.forall_mem_nil _
  | v :: rest, h => by
    obtain ⟨_, hv, hrest⟩ := bind_eq_ok.mp h
    exact List.forall_mem_cons.mpr ⟨intact_of_skip hv, intact_of_skipItems hrest⟩

theorem intact_of_skipMembers : ∀ {members : List (Node × Node)}, skipMembers members = .ok () →
    ∀ p ∈ members, p.1.Intact ∧ p.2.Intact
  | [], _ => List.forall_mem_nil _
  | (k, v) :: rest, h => by
    obtain ⟨_, hk, h⟩ := bind_eq_ok.mp h
    obtain ⟨_, hv, hrest⟩ := bind_eq_ok.mp h
    exact List.forall_mem_cons.mpr
      ⟨⟨intact_of_skip hk, intact_of_skip hv⟩, intact_of_skipMembers hrest⟩

end

theorem skipItems_of_forall {items : List Node} (h : ∀ v ∈ items, v.skip = .ok ()) :
    skipItems items = .ok () := by
  induction items with
  | nil => rfl
  | cons v items ih =>
    obtain ⟨hv, hitems⟩ := List.forall_mem_cons.mp h
    rw [skipItems, hv]
    exact ih hitems

theorem skipMembers_of_forall {members : List (Node × Node)}
    (hkeys : ∀ p ∈ members, p.1.skip = .ok ()) (hvalues : ∀ p ∈ members, p.2.skip = .ok ()) :
    skipMembers members = .ok () := by
  induction members with
  | nil => rfl
  | cons p members ih =>
    obtain ⟨key, value⟩ := p
    obtain ⟨hkey, hkeys⟩ := List.forall_mem_cons.mp hkeys
    obtain ⟨hvalue, hvalues⟩ := List.forall_mem_cons.mp hvalues
    rw [skipMembers, hkey]
    show (value.skip >>= fun _ => skipMembers members) = _
    rw [hvalue]
    exact ih hkeys hvalues

theorem Intact.skip {v : Node} (h : v.Intact) : v.skip = .ok () := by
  induction h with
  | atom a => rfl
  | plain written present v => rfl
  | list _ hending ih =>
    rw [Node.skip, skipItems_of_forall ih, hending]
    rfl
  | object _ _ hending ihkeys ihvalues =>
    rw [Node.skip, skipMembers_of_forall ihkeys ihvalues, hending]
    rfl
  | broken fault => rfl

/-- **What can be passed over** is what has no flaw that shows in passing. The reader is on the
right, and on the left a property of the value that does not depend on an order. -/
theorem intact_iff {v : Node} : v.Intact ↔ v.skip = .ok () := ⟨Intact.skip, intact_of_skip⟩

/-- The order of members does not matter for that, in whichever object it is changed. -/
theorem Intact.reordered {v v' : Node} (hv : v.Intact) (h : v.Reordered v') : v'.Intact := by
  induction h with
  | members h =>
    cases hv with
    | object hkeys hvalues hending =>
      exact .object (fun p hp => hkeys p (h.mem_iff.mpr hp))
        (fun p hp => hvalues p (h.mem_iff.mpr hp)) hending
  | member _ ih =>
    cases hv with
    | object hkeys hvalues hending =>
      rw [List.forall_mem_append, List.forall_mem_cons] at hkeys hvalues
      refine .object ?_ ?_ hending
      · exact List.forall_mem_append.mpr ⟨hkeys.1, List.forall_mem_cons.mpr hkeys.2⟩
      · exact List.forall_mem_append.mpr
          ⟨hvalues.1, List.forall_mem_cons.mpr ⟨ih hvalues.2.1, hvalues.2.2⟩⟩
  | item _ ih =>
    cases hv with
    | list hitems hending =>
      rw [List.forall_mem_append, List.forall_mem_cons] at hitems
      exact .list (List.forall_mem_append.mpr
        ⟨hitems.1, List.forall_mem_cons.mpr ⟨ih hitems.2.1, hitems.2.2⟩⟩) hending

mutual

/-- Any JSON value can be passed over, since one that has been built has no flaw of the text. -/
theorem intact_ofJson : ∀ v : Json, (ofJson v).Intact
  | .atom a => .atom a
  | .list items => .list (intact_ofItems items) rfl
  | .object members => .object (fun p hp => (intact_ofMembers members p hp).1)
    (fun p hp => (intact_ofMembers members p hp).2) rfl

theorem intact_ofItems : ∀ items : List Json, ∀ v ∈ ofItems items, v.Intact
  | [] => List.forall_mem_nil _
  | v :: rest => List.forall_mem_cons.mpr ⟨intact_ofJson v, intact_ofItems rest⟩

theorem intact_ofMembers : ∀ members : List (String × Json),
    ∀ p ∈ ofMembers members, p.1.Intact ∧ p.2.Intact
  | [] => List.forall_mem_nil _
  | (k, v) :: rest =>
    List.forall_mem_cons.mpr ⟨⟨.atom (.text k), intact_ofJson v⟩, intact_ofMembers rest⟩

end

end Node

/-! ## Order -/

/-- Two fields that do not get into each other's way: it does not matter which is stored first. -/
def Field.Commutes {ρ : Type} (f g : Field ρ) : Prop :=
  ∀ x y r, f.set x (g.set y r) = g.set y (f.set x r)

instance {ρ : Type} : Std.Symm (@Field.Commutes ρ) := ⟨fun _ _ h x y r => (h y x r).symm⟩

namespace Shape

variable {ρ : Type} {s : Shape ρ} {m : Manner} {f g : Field ρ} {key value : Node}
  {before after members members' : List (Node × Node)} {seen seen' : List String} {r x : ρ}
  {out : List String × ρ} {ending : Ending}

/-- A shape whose fields are stored in places of their own. It is checked once for each record,
field against field. -/
def Orderly (s : Shape ρ) : Prop := s.fields.Pairwise Field.Commutes

theorem Orderly.commutes (hs : s.Orderly) (hf : f ∈ s.fields) (hg : g ∈ s.fields)
    (hne : f.name ≠ g.name) : f.Commutes g :=
  hs.forall hf hg fun heq => hne (congrArg _ heq)

theorem mem_fields_of_fieldNamed {name : String} (h : s.fieldNamed name = .ok (some f)) :
    f ∈ s.fields := by
  rw [fieldNamed] at h
  split at h
  · next hfound =>
    obtain rfl := Option.some.inj (Except.ok.inj h)
    exact List.mem_of_find?_eq_some hfound
  · split at h <;> cases h

/-- A field that is found for a key is one of the record, also in the manners that number fields. -/
theorem mem_fields_of_fieldFor (h : s.fieldFor m key = .ok (some f)) : f ∈ s.fields := by
  fun_induction s.fieldFor m key with
  | case1 name => exact mem_fields_of_fieldNamed h
  | case2 written present v hopen => exact mem_fields_of_fieldNamed h
  | case3 written present v hopen ih => exact ih h
  | case4 i hbuffered => exact List.mem_of_getElem? (Except.ok.inj h)
  | case5 i hbuffered => cases h
  | case6 v htext hplain hint => cases h

/-- What reading one member comes to if it goes well: the member is passed over, or it is the first
of its field and is stored there. -/
theorem readOne_eq_ok : s.readOne m key value seen r = .ok out ↔
    (s.fieldFor m key = .ok none ∧ value.skip = .ok () ∧ out = (seen, r)) ∨
      ∃ f x, s.fieldFor m key = .ok (some f) ∧ f.name ∉ seen ∧ f.codec.read m value = .ok x ∧
        out = (f.name :: seen, f.set x r) := by
  constructor
  · intro h
    rw [readOne] at h
    split at h
    · cases h
    · next hfield =>
      obtain ⟨_, hskip, h⟩ := bind_eq_ok.mp h
      exact .inl ⟨hfield, hskip, (Except.ok.inj h).symm⟩
    · next f hfield =>
      rw [readMember] at h
      split at h
      · cases h
      · next hnew =>
        obtain ⟨x, hread, h⟩ := bind_eq_ok.mp h
        exact .inr ⟨f, x, hfield, hnew, Manner.within_eq_ok.mp hread, (Except.ok.inj h).symm⟩
  · rintro (⟨hfield, hskip, rfl⟩ | ⟨f, x, hfield, hnew, hread, rfl⟩)
    · rw [readOne, hfield]
      dsimp only
      rw [hskip]
      rfl
    · rw [readOne, hfield]
      dsimp only
      rw [readMember, if_neg hnew, Manner.within_eq_ok.mpr hread]
      rfl

/-! ### Members in another order -/

/-- Of the names that were seen only that they were matters, and not in which order. -/
theorem readMembers_seen (h : s.readMembers m members seen r = .ok out) (hseen : seen.Perm seen') :
    ∃ out', s.readMembers m members seen' r = .ok out' ∧ out'.2 = out.2 ∧ out.1.Perm out'.1 := by
  induction members generalizing seen seen' r with
  | nil =>
    cases h
    exact ⟨(seen', r), rfl, rfl, hseen⟩
  | cons p members ih =>
    obtain ⟨key, value⟩ := p
    rw [readMembers_readOne] at h
    obtain ⟨next, hone, h⟩ := bind_eq_ok.mp h
    rcases readOne_eq_ok.mp hone with ⟨hfield, hskip, rfl⟩ | ⟨f, x, hfield, hnew, hread, rfl⟩
    · obtain ⟨out', hrest, hresult⟩ := ih h hseen
      refine ⟨out', ?_, hresult⟩
      rw [readMembers_readOne, readOne_eq_ok.mpr (.inl ⟨hfield, hskip, rfl⟩)]
      exact hrest
    · -- The name that was read is behind the others here and among them there.
      obtain ⟨out', hrest, hresult⟩ := ih h (hseen.cons f.name)
      refine ⟨out', ?_, hresult⟩
      have hnew' : f.name ∉ seen' := fun hmem => hnew (hseen.mem_iff.mpr hmem)
      rw [readMembers_readOne, readOne_eq_ok.mpr (.inr ⟨f, x, hfield, hnew', hread, rfl⟩)]
      exact hrest

/-- Two members that are read one after the other can be read the other way around. This is the
one step that any permutation is made of. -/
theorem readOne_swap (hs : s.Orderly) {key' value' : Node} {next : List String × ρ}
    (hfirst : s.readOne m key value seen r = .ok next)
    (hsecond : s.readOne m key' value' next.1 next.2 = .ok out) :
    ∃ next' out', s.readOne m key' value' seen r = .ok next' ∧
      s.readOne m key value next'.1 next'.2 = .ok out' ∧ out'.2 = out.2 ∧ out.1.Perm out'.1 := by
  rcases readOne_eq_ok.mp hfirst with ⟨hfield, hskip, rfl⟩ | ⟨f, x, hfield, hnew, hread, rfl⟩
  · -- A member that is passed over makes no difference to the other.
    refine ⟨out, out, hsecond, readOne_eq_ok.mpr (.inl ⟨hfield, hskip, rfl⟩), rfl, .refl _⟩
  · rcases readOne_eq_ok.mp hsecond with
      ⟨hfield', hskip', rfl⟩ | ⟨g, y, hfield', hnew', hread', rfl⟩
    · exact ⟨(seen, r), _, readOne_eq_ok.mpr (.inl ⟨hfield', hskip', rfl⟩), hfirst, rfl, .refl _⟩
    · -- Both are read into fields, and into two: the second is new behind the first.
      rw [List.mem_cons, not_or] at hnew'
      have hcommutes : f.Commutes g := hs.commutes (mem_fields_of_fieldFor hfield)
        (mem_fields_of_fieldFor hfield') fun heq => hnew'.1 heq.symm
      have hnew'' : f.name ∉ g.name :: seen := by
        rw [List.mem_cons, not_or]
        exact ⟨fun heq => hnew'.1 heq.symm, hnew⟩
      exact ⟨(g.name :: seen, g.set y r), (f.name :: g.name :: seen, f.set x (g.set y r)),
        readOne_eq_ok.mpr (.inr ⟨g, y, hfield', hnew'.2, hread', rfl⟩),
        readOne_eq_ok.mpr (.inr ⟨f, x, hfield, hnew'', hread, rfl⟩),
        hcommutes x y r, .swap _ _ _⟩

/-- **Members are read alike in any order.** The induction is on the permutation. The names are seen
in another order then, which `readMembers_seen` makes good. -/
theorem readMembers_perm (hs : s.Orderly) (hperm : members.Perm members')
    (h : s.readMembers m members seen r = .ok out) :
    ∃ out', s.readMembers m members' seen r = .ok out' ∧ out'.2 = out.2 ∧ out.1.Perm out'.1 := by
  induction hperm generalizing seen r out with
  | nil => exact ⟨out, h, rfl, .refl _⟩
  | cons p hperm ih =>
    obtain ⟨key, value⟩ := p
    rw [readMembers_readOne] at h
    obtain ⟨next, hone, h⟩ := bind_eq_ok.mp h
    obtain ⟨out', hrest, hresult⟩ := ih h
    refine ⟨out', ?_, hresult⟩
    rw [readMembers_readOne, hone]
    exact hrest
  | swap p q members =>
    obtain ⟨key, value⟩ := p
    obtain ⟨key', value'⟩ := q
    rw [readMembers_readOne] at h
    obtain ⟨next, hfirst, h⟩ := bind_eq_ok.mp h
    have h : s.readMembers m ((key, value) :: members) next.1 next.2 = .ok out := h
    rw [readMembers_readOne] at h
    obtain ⟨both, hsecond, h⟩ := bind_eq_ok.mp h
    obtain ⟨next', both', hfirst', hsecond', hsame, hseen⟩ := readOne_swap hs hfirst hsecond
    -- The names have been seen in another order now, and the rest is read behind both.
    obtain ⟨out', hrest, hresult⟩ := readMembers_seen h hseen
    refine ⟨out', ?_, hresult⟩
    rw [readMembers_readOne, hfirst']
    show s.readMembers m ((key', value') :: members) next'.1 next'.2 = _
    rw [readMembers_readOne, hsecond']
    show s.readMembers m members both'.1 both'.2 = _
    rw [hsame]
    exact hrest
  | trans hperm hperm' ih ih' =>
    obtain ⟨between, hread, hsame, hseen⟩ := ih h
    obtain ⟨out', hread', hsame', hseen'⟩ := ih' hread
    exact ⟨out', hread', hsame'.trans hsame, hseen.trans hseen'⟩

theorem complete_perm (hseen : seen.Perm seen') (fs : List (Field ρ)) (r : ρ) :
    complete fs seen r = complete fs seen' r := by
  induction fs generalizing r with
  | nil => rfl
  | cons f fs ih =>
    rw [complete, complete]
    simp only [ih, hseen.mem_iff]

/-- **A record is read alike from its members in any order**: the same value, and not only some
value. A text in which they are not read may fail with another fault, so nothing is said of that. -/
theorem read_perm (hs : s.Orderly) (hperm : members.Perm members')
    (h : s.read m (.object members ending) = .ok x) :
    s.read m (.object members' ending) = .ok x := by
  rw [read_object, Manner.settle_eq_ok] at h ⊢
  obtain ⟨out, hmembers, h⟩ := bind_eq_ok.mp h
  obtain ⟨out', hmembers', hsame, hseen⟩ := readMembers_perm hs hperm hmembers
  rw [hmembers']
  show (Node.raise ending.objectFlaw? >>= fun _ => complete s.fields out'.1 out'.2) = _
  rw [hsame, ← complete_perm hseen]
  exact h

/-! ### Members that come twice -/

/-- The names of the fields that are read were not seen before, and are seen then. By this a second
member comes too late wherever it stands. -/
theorem new_of_readMembers (h : s.readMembers m members seen r = .ok out) :
    (∀ name ∈ seen, name ∈ out.1) ∧
      ∀ p ∈ members, ∀ f, s.fieldFor m p.1 = .ok (some f) → f.name ∉ seen ∧ f.name ∈ out.1 := by
  induction members generalizing seen r with
  | nil =>
    cases h
    exact ⟨fun _ hname => hname, List.forall_mem_nil _⟩
  | cons p members ih =>
    obtain ⟨key, value⟩ := p
    rw [readMembers_readOne] at h
    obtain ⟨next, hone, h⟩ := bind_eq_ok.mp h
    obtain ⟨hkept, hnew⟩ := ih h
    rcases readOne_eq_ok.mp hone with ⟨hfield, -, rfl⟩ | ⟨g, y, hfield, hfresh, -, rfl⟩
    · refine ⟨hkept, List.forall_mem_cons.mpr ⟨fun f hf => ?_, hnew⟩⟩
      cases hfield.symm.trans hf
    · refine ⟨fun name hname => hkept name (List.mem_cons_of_mem _ hname),
        List.forall_mem_cons.mpr ⟨fun f hf => ?_, fun p hp f hf => ?_⟩⟩
      · obtain rfl := Option.some.inj (Except.ok.inj (hfield.symm.trans hf))
        exact ⟨hfresh, hkept _ List.mem_cons_self⟩
      · obtain ⟨hfresh', hseen⟩ := hnew p hp f hf
        exact ⟨fun hmem => hfresh' (List.mem_cons_of_mem _ hmem), hseen⟩

/-- **A second member of a field is refused**, wherever it stands and even if it says the same as
the first. -/
theorem not_read_repeated {old : Node} (hfield : s.fieldFor m key = .ok (some f))
    (hold : (key, old) ∈ before ++ after) :
    s.read m (.object (before ++ (key, value) :: after) ending) ≠ .ok x := by
  intro h
  rw [read_object, Manner.settle_eq_ok] at h
  obtain ⟨out, h, -⟩ := bind_eq_ok.mp h
  rw [readMembers_append] at h
  obtain ⟨first, hbefore, h⟩ := bind_eq_ok.mp h
  have h : s.readMembers m ((key, value) :: after) first.1 first.2 = .ok out := h
  have hnew := (new_of_readMembers h).2 _ List.mem_cons_self f hfield
  -- Where the other one stands says which of the two comes too late.
  rcases List.mem_append.mp hold with hold | hold
  · exact hnew.1 ((new_of_readMembers hbefore).2 _ hold f hfield).2
  · rw [readMembers_readOne] at h
    obtain ⟨next, hone, h⟩ := bind_eq_ok.mp h
    obtain ⟨hfresh, -⟩ := (new_of_readMembers h).2 _ hold f hfield
    rcases readOne_eq_ok.mp hone with ⟨hnone, -⟩ | ⟨g, y, hfield', -, -, rfl⟩
    · cases hfield.symm.trans hnone
    · obtain rfl := Option.some.inj (Except.ok.inj (hfield.symm.trans hfield'))
      exact hfresh List.mem_cons_self

/-- Behind the first, the fault of a second member names it. -/
theorem read_repeated {old : Node} (hfield : s.fieldFor m key = .ok (some f))
    (hothers : s.read m (.object (before ++ after) ending) = .ok x) (hold : (key, old) ∈ before) :
    s.read m (.object (before ++ (key, value) :: after) ending)
      = m.settle (.error (.data (.duplicate f.name) none)) := by
  rw [read_object, Manner.settle_eq_ok] at hothers
  obtain ⟨out, hothers, -⟩ := bind_eq_ok.mp hothers
  rw [readMembers_append] at hothers
  obtain ⟨first, hbefore, -⟩ := bind_eq_ok.mp hothers
  have hseen : f.name ∈ first.1 := ((new_of_readMembers hbefore).2 _ hold f hfield).2
  have hone : s.readOne m key value first.1 first.2
      = .error (.data (.duplicate f.name) none) := by
    rw [readOne, hfield]
    dsimp only
    rw [readMember, if_pos hseen]
    rfl
  rw [read_object, readMembers_append, hbefore]
  show m.settle (s.readMembers m ((key, value) :: after) first.1 first.2 >>= _) = _
  rw [readMembers_readOne, hone]
  rfl

end Shape

/-! ## Parts -/

/-- A whole goes well only if its part does; with another part it comes to the same if that part
does, and fails with the fault of that part if it has one. -/
def PassesOn {α β : Type} (part part' : Except Fault β) (whole whole' : Except Fault α) : Prop :=
  ∀ x, whole = .ok x → ∃ y, part = .ok y ∧ (part' = .ok y → whole' = .ok x) ∧
    ∀ fault, part' = .error fault → whole' = .error fault

namespace PassesOn

variable {α β γ : Type} {part part' : Except Fault β}

theorem refl (part part' : Except Fault β) : PassesOn part part' part part' :=
  fun x hx => ⟨x, hx, id, fun _ => id⟩

/-- Parts of parts are parts, so a record may stand as deep as it likes. -/
theorem trans {between between' : Except Fault γ} {whole whole' : Except Fault α}
    (h : PassesOn part part' between between') (h' : PassesOn between between' whole whole') :
    PassesOn part part' whole whole' := by
  intro x hx
  obtain ⟨z, hz, hsame', hfails'⟩ := h' x hx
  obtain ⟨y, hy, hsame, hfails⟩ := h z hz
  exact ⟨y, hy, fun heq => hsame' (hsame heq),
    fun fault herror => hfails' fault (hfails fault herror)⟩

theorem bind (next : β → Except Fault α) :
    PassesOn part part' (part >>= next) (part' >>= next) := by
  intro x hx
  obtain ⟨y, hy, hnext⟩ := bind_eq_ok.mp hx
  refine ⟨y, hy, ?_, ?_⟩
  · rintro rfl
    exact hnext
  · rintro fault rfl
    rfl

/-- What is read before the part is the same for both, and if it fails so does either whole. -/
theorem after (first : Except Fault γ) {whole whole' : γ → Except Fault α}
    (h : ∀ z, PassesOn part part' (whole z) (whole' z)) :
    PassesOn part part' (first >>= whole) (first >>= whole') := by
  intro x hx
  obtain ⟨z, rfl, hwhole⟩ := bind_eq_ok.mp hx
  exact h z x hwhole

theorem map (f : β → α) : PassesOn part part' (part.map f) (part'.map f) := by
  intro x hx
  cases part with
  | error fault => cases hx
  | ok y =>
    refine ⟨y, rfl, ?_, ?_⟩
    · rintro rfl
      exact hx
    · rintro fault rfl
      rfl

end PassesOn

namespace Shape

variable {ρ : Type} {s : Shape ρ} {f : Field ρ} {key : Node} {ending : Ending}

/-- A record passes on what is read of a member, after those before it have been read. -/
theorem passesOn_member (hfield : s.fieldFor .jsonText key = .ok (some f))
    (before after : List (Node × Node)) (value value' : Node) :
    PassesOn (f.codec.read .jsonText value) (f.codec.read .jsonText value')
      (s.read .jsonText (.object (before ++ (key, value) :: after) ending))
      (s.read .jsonText (.object (before ++ (key, value') :: after) ending)) := by
  have hone : ∀ seen r, PassesOn (f.codec.read .jsonText value) (f.codec.read .jsonText value')
      (s.readOne .jsonText key value seen r) (s.readOne .jsonText key value' seen r) := by
    intro seen r
    rw [readOne, readOne, hfield]
    dsimp only
    rw [readMember, readMember]
    by_cases hseen : f.name ∈ seen
    · -- A member that comes twice is a fault whatever its value.
      rw [if_pos hseen, if_pos hseen]
      exact fun x hx => by cases hx
    · rw [if_neg hseen, if_neg hseen]
      exact .bind _
  have hmembers : PassesOn (f.codec.read .jsonText value) (f.codec.read .jsonText value')
      (s.readMembers .jsonText (before ++ (key, value) :: after) [] s.blank)
      (s.readMembers .jsonText (before ++ (key, value') :: after) [] s.blank) := by
    rw [readMembers_append, readMembers_append]
    refine .after _ fun first => ?_
    dsimp only
    rw [readMembers_readOne, readMembers_readOne]
    exact (hone first.1 first.2).trans (.bind _)
  exact hmembers.trans (.bind _)

theorem passesOn_positions {v v' : Node} {before : List Node} (after : List Node)
    {fs : List (Field ρ)} (hf : fs[before.length]? = some f) (index : Nat) (r : ρ) :
    PassesOn (f.codec.read .jsonText v) (f.codec.read .jsonText v')
      (s.readPositions .jsonText ending index fs (before ++ v :: after) r)
      (s.readPositions .jsonText ending index fs (before ++ v' :: after) r) := by
  induction before generalizing index fs r with
  | nil =>
    cases fs with
    | nil => cases hf
    | cons g fs =>
      obtain rfl : g = f := Option.some.inj hf
      exact .bind _
  | cons u before ih =>
    cases fs with
    | nil => cases hf
    | cons g fs => exact .after _ fun x => ih hf (index + 1) (g.set x r)

/-- In its list form it passes on what is read of a position. -/
theorem passesOn_position {v v' : Node} {before : List Node} (after : List Node)
    (hf : s.fields[before.length]? = some f) :
    PassesOn (f.codec.read .jsonText v) (f.codec.read .jsonText v')
      (s.read .jsonText (.list (before ++ v :: after) ending))
      (s.read .jsonText (.list (before ++ v' :: after) ending)) := by
  have hlength : (before ++ v' :: after).length = (before ++ v :: after).length := by simp
  show PassesOn _ _ (s.readList .jsonText (before ++ v :: after) ending)
    (s.readList .jsonText (before ++ v' :: after) ending)
  rw [readList, readList, hlength]
  exact (passesOn_positions after hf 0 s.blank).trans (.bind _)

end Shape

section Parts

variable {α : Type} (c : Codec α) {v v' : Node} {ending : Ending}

theorem passesOn_items (before after : List Node) (index : Nat) :
    PassesOn (c.read .jsonText v) (c.read .jsonText v')
      (readItems c .jsonText index (before ++ v :: after))
      (readItems c .jsonText index (before ++ v' :: after)) := by
  induction before generalizing index with
  | nil => exact .bind _
  | cons u before ih => exact .after _ fun x => (ih (index + 1)).trans (.bind _)

/-- A list passes on what is read of an item. -/
theorem passesOn_item (before after : List Node) :
    PassesOn (c.read .jsonText v) (c.read .jsonText v')
      ((list c).read .jsonText (.list (before ++ v :: after) ending))
      ((list c).read .jsonText (.list (before ++ v' :: after) ending)) :=
  (passesOn_items c before after 0).trans (.bind _)

/-- A list or an object. These are what another record can stand in. -/
inductive Node.IsCompound : Node → Prop where
  | list (items : List Node) (ending : Ending) : IsCompound (.list items ending)
  | object (members : List (Node × Node)) (ending : Ending) : IsCompound (.object members ending)

/-- What is read of a value that may be missing is what is read of the value, if it is there. -/
theorem passesOn_present (hv : v.IsCompound) (hv' : v'.IsCompound) :
    PassesOn (c.read .jsonText v) (c.read .jsonText v')
      ((optional c).read .jsonText v) ((optional c).read .jsonText v') := by
  cases hv <;> cases hv' <;> exact .map some

end Parts

end ExchangeArchive.Document
