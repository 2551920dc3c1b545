import ExchangeArchive.Document.Codec
import ExchangeArchive.Json.Text
/-
What a record makes of the members of its object.

Members are read one after the other, so a list of them is read piece by piece
(`readMembers_append`), and what is read has only members that the record takes
(`takes_of_readMembers`): a member of a field whose value the field reads, or one that no field
names and that is passed over. Members of the second kind might as well not be there
(`readMembers_passed`). A strict record has none of them.

Where a document is read as a whole first, so is a member that is passed over later, and this is
all that is asked of it. A value can be held so if it is no deeper than the room for it and nothing
in it is flawed (`held_iff`).
-/

set_option autoImplicit false

namespace ExchangeArchive.Document

/-! ## Outcomes -/

section Outcomes

variable {α β : Type} {r : Except Fault α} {x : α}

theorem bind_eq_ok {f : α → Except Fault β} {y : β} :
    r >>= f = .ok y ↔ ∃ x, r = .ok x ∧ f x = .ok y := by
  cases r with
  | error fault => simp [bind, Except.bind]
  | ok x => simp [bind, Except.bind]

/-- What is not accepted is an error, of whatever kind. -/
theorem exists_error (h : ∀ x, r ≠ .ok x) : ∃ fault, r = .error fault := by
  cases r with
  | error fault => exact ⟨fault, rfl⟩
  | ok x => exact absurd rfl (h x)

theorem Manner.settle_eq_ok {m : Manner} : m.settle r = .ok x ↔ r = .ok x := by
  rw [settle]
  split
  · cases r with
    | error fault => exact iff_of_false nofun nofun
    | ok x' => rfl
  · rfl

theorem Manner.within_eq_ok {m : Manner} {step : Step} : m.within step r = .ok x ↔ r = .ok x := by
  rw [within]
  split
  · cases r with
    | error fault => exact iff_of_false nofun nofun
    | ok x' => rfl
  · rfl

theorem Node.raise_eq_ok {flaw? : Option Json.Flaw} {u : Unit} :
    raise flaw? = .ok u ↔ flaw? = none := by
  cases flaw? <;> simp [raise]

end Outcomes

namespace Codec

variable {α : Type} {c : Codec α} {octets : List UInt8} {root : Node} {tail : Option Json.Flaw}

/-- A text is read if its document is, and nothing comes after the document. Both may fail; the
fault of the document comes first. -/
theorem ofJsonText_eq_ok (h : Json.document octets = (root, tail)) {x : α} :
    c.ofJsonText octets = .ok x ↔ c.read .jsonText root = .ok x ∧ tail = none := by
  rw [ofJsonText, h]
  constructor
  · intro hx
    obtain ⟨y, hread, hx⟩ := bind_eq_ok.mp hx
    obtain ⟨_, htail, hx⟩ := bind_eq_ok.mp hx
    cases hx
    exact ⟨hread, Node.raise_eq_ok.mp htail⟩
  · rintro ⟨hread, rfl⟩
    exact bind_eq_ok.mpr ⟨x, hread, rfl⟩

theorem ofJsonText_eq_error (h : Json.document octets = (root, tail)) {fault : Fault}
    (hread : c.read .jsonText root = .error fault) : c.ofJsonText octets = .error fault := by
  rw [ofJsonText, h]
  show c.read .jsonText root >>= _ = _
  rw [hread]
  rfl

end Codec

/-! ## Values that are held as a whole -/

namespace Node

variable {m : Manner}

/-- A value that nests no deeper than `room` and has no flaw, nor an integer beyond 64 bits. -/
inductive Held : Nat → Node → Prop where
  | atom {room : Nat} {a : Atom} (h : ∀ i, a = .int i → fitsWord i = true) : Held room (.atom a)
  | plain {room : Nat} {written : String} {present : Except DataFault Bool} {v : Node}
    (h : Held room v) : Held room (.plain written present v)
  | list {room : Nat} {items : List Node} {ending : Ending} (hitems : ∀ v ∈ items, Held room v)
    (hending : ending.listFlaw? = none) : Held (room + 1) (.list items ending)
  | object {room : Nat} {members : List (Node × Node)} {ending : Ending}
    (hkeys : ∀ p ∈ members, Held room p.1) (hvalues : ∀ p ∈ members, Held room p.2)
    (hending : ending.objectFlaw? = none) : Held (room + 1) (.object members ending)

mutual

/-- What was read as a whole can be passed over, and so can all that is in it. The induction is on
the value, together with its items and its members. -/
theorem held_of_buffer : ∀ {room : Nat} {v v' : Node}, v.buffer m room = .ok v' →
    v.Held room ∧ v'.skip = .ok ()
  | room, .atom a, v', h => by
    -- Of the atoms, only an integer can be refused.
    have hfits : ∀ i, a = .int i → fitsWord i = true := by
      rintro i rfl
      by_cases hi : fitsWord i = true
      · exact hi
      · rw [buffer, if_neg hi] at h
        cases h
    have hv' : v' = .atom a := by
      cases a with
      | int i =>
        rw [buffer, if_pos (hfits i rfl)] at h
        exact (Except.ok.inj h).symm
      | _ => exact (Except.ok.inj h).symm
    exact ⟨.atom hfits, hv' ▸ rfl⟩
  | room, .plain written present v, v', h => by
    rw [buffer, Manner.settle_eq_ok] at h
    obtain ⟨hheld, hskip⟩ := held_of_buffer h
    exact ⟨.plain hheld, hskip⟩
  | 0, .list items ending, v', h => by
    rw [buffer, Manner.settle_eq_ok] at h
    cases h
  | room + 1, .list items ending, v', h => by
    rw [buffer, Manner.settle_eq_ok] at h
    obtain ⟨items', hitems, h⟩ := bind_eq_ok.mp h
    obtain ⟨_, hending, h⟩ := bind_eq_ok.mp h
    obtain ⟨hheld, hskip⟩ := held_of_bufferItems hitems
    obtain rfl := Except.ok.inj h
    refine ⟨.list hheld (raise_eq_ok.mp hending), ?_⟩
    rw [skip, hskip]
    rfl
  | 0, .object members ending, v', h => by
    rw [buffer, Manner.settle_eq_ok] at h
    cases h
  | room + 1, .object members ending, v', h => by
    rw [buffer, Manner.settle_eq_ok] at h
    obtain ⟨members', hmembers, h⟩ := bind_eq_ok.mp h
    obtain ⟨_, hending, h⟩ := bind_eq_ok.mp h
    obtain ⟨hheld, hskip⟩ := held_of_bufferMembers hmembers
    obtain rfl := Except.ok.inj h
    refine ⟨.object (fun p hp => (hheld p hp).1) (fun p hp => (hheld p hp).2)
      (raise_eq_ok.mp hending), ?_⟩
    rw [skip, hskip]
    rfl
  | room, .broken fault skipped, v', h => by
    rw [buffer, Manner.settle_eq_ok] at h
    cases h

theorem held_of_bufferItems : ∀ {room index : Nat} {items items' : List Node},
    bufferItems m room index items = .ok items' →
      (∀ v ∈ items, v.Held room) ∧ skipItems items' = .ok ()
  | _, _, [], items', h => by
    obtain rfl := Except.ok.inj h
    exact ⟨List.forall_mem_nil _, rfl⟩
  | room, index, v :: rest, items', h => by
    rw [bufferItems] at h
    obtain ⟨v', hv, h⟩ := bind_eq_ok.mp h
    obtain ⟨rest', hrest, h⟩ := bind_eq_ok.mp h
    obtain rfl := Except.ok.inj h
    obtain ⟨hheld, hskip⟩ := held_of_buffer (Manner.within_eq_ok.mp hv)
    obtain ⟨hheld', hskip'⟩ := held_of_bufferItems hrest
    exact ⟨List.forall_mem_cons.mpr ⟨hheld, hheld'⟩, by rw [skipItems, hskip]; exact hskip'⟩

theorem held_of_bufferMembers : ∀ {room : Nat} {members members' : List (Node × Node)},
    bufferMembers m room members = .ok members' →
      (∀ p ∈ members, p.1.Held room ∧ p.2.Held room) ∧ skipMembers members' = .ok ()
  | _, [], members', h => by
    obtain rfl := Except.ok.inj h
    exact ⟨List.forall_mem_nil _, rfl⟩
  | room, (k, v) :: rest, members', h => by
    rw [bufferMembers] at h
    obtain ⟨k', hk, h⟩ := bind_eq_ok.mp h
    obtain ⟨v', hv, h⟩ := bind_eq_ok.mp h
    obtain ⟨rest', hrest, h⟩ := bind_eq_ok.mp h
    obtain rfl := Except.ok.inj h
    obtain ⟨hheldKey, hskipKey⟩ := held_of_buffer hk
    obtain ⟨hheld, hskip⟩ := held_of_buffer (Manner.within_eq_ok.mp hv)
    obtain ⟨hheld', hskip'⟩ := held_of_bufferMembers hrest
    refine ⟨List.forall_mem_cons.mpr ⟨⟨hheldKey, hheld⟩, hheld'⟩, ?_⟩
    rw [skipMembers, hskipKey]
    show (v'.skip >>= fun _ => skipMembers rest') = _
    rw [hskip]
    exact hskip'

end

theorem exists_bufferItems {room : Nat} {items : List Node}
    (h : ∀ v ∈ items, ∃ v', v.buffer m room = .ok v') (index : Nat) :
    ∃ items', bufferItems m room index items = .ok items' := by
  induction items generalizing index with
  | nil => exact ⟨[], rfl⟩
  | cons v rest ih =>
    obtain ⟨⟨v', hv⟩, hrest⟩ := List.forall_mem_cons.mp h
    obtain ⟨rest', hrest⟩ := ih hrest (index + 1)
    refine ⟨v' :: rest', ?_⟩
    rw [bufferItems, Manner.within_eq_ok.mpr hv, hrest]
    rfl

theorem exists_bufferMembers {room : Nat} {members : List (Node × Node)}
    (hkeys : ∀ p ∈ members, ∃ k', p.1.buffer m room = .ok k')
    (hvalues : ∀ p ∈ members, ∃ v', p.2.buffer m room = .ok v') :
    ∃ members', bufferMembers m room members = .ok members' := by
  induction members with
  | nil => exact ⟨[], rfl⟩
  | cons p rest ih =>
    obtain ⟨⟨k', hk⟩, hkeys⟩ := List.forall_mem_cons.mp hkeys
    obtain ⟨⟨v', hv⟩, hvalues⟩ := List.forall_mem_cons.mp hvalues
    obtain ⟨rest', hrest⟩ := ih hkeys hvalues
    refine ⟨(k', v') :: rest', ?_⟩
    rw [bufferMembers, hk, Manner.within_eq_ok.mpr hv, hrest]
    rfl

theorem exists_buffer {room : Nat} {v : Node} (h : v.Held room) :
    ∃ v', v.buffer m room = .ok v' := by
  induction h with
  | @atom room a h =>
    refine ⟨.atom a, ?_⟩
    cases a with
    | int i => rw [buffer, if_pos (h i rfl)]
    | _ => rfl
  | plain _ ih =>
    obtain ⟨v', hv⟩ := ih
    exact ⟨v', by rw [buffer, Manner.settle_eq_ok, hv]⟩
  | list _ hending ih =>
    obtain ⟨items', hitems⟩ := exists_bufferItems ih 0
    refine ⟨.list items' .closed, ?_⟩
    rw [buffer, Manner.settle_eq_ok, hitems, hending]
    rfl
  | object _ _ hending ihkeys ihvalues =>
    obtain ⟨members', hmembers⟩ := exists_bufferMembers ihkeys ihvalues
    refine ⟨.object members' .closed, ?_⟩
    rw [buffer, Manner.settle_eq_ok, hmembers, hending]
    rfl

/-- **What can be read as a whole** is what nests no deeper than the room for it and has no flaw.
The right side is what the reader does, the left side says it of the value. -/
theorem held_iff {room : Nat} {v : Node} : v.Held room ↔ ∃ v', v.buffer m room = .ok v' :=
  ⟨exists_buffer, fun ⟨_, h⟩ => (held_of_buffer h).1⟩

end Node

/-! ## Members of a record -/

namespace Shape

variable {ρ : Type} {s : Shape ρ} {m : Manner} {f : Field ρ} {key value value' : Node}
  {before after members : List (Node × Node)} {seen : List String} {r : ρ}

/-- How a member is taken: into a field, or passed over. A record that is read has no member that is
taken in neither way. -/
inductive Takes (s : Shape ρ) (m : Manner) (key value : Node) : Prop where
  | field {f : Field ρ} {x : f.Value} (hfield : s.fieldFor m key = .ok (some f))
    (hread : f.codec.read m value = .ok x) : Takes s m key value
  | passed (hfield : s.fieldFor m key = .ok none) (hskip : value.skip = .ok ()) :
    Takes s m key value

/-- Reads one member. -/
def readOne (s : Shape ρ) (m : Manner) (key value : Node) (seen : List String) (r : ρ) :
    Except Fault (List String × ρ) :=
  match s.fieldFor m key with
  | .error fault => .error fault
  | .ok none => do
    value.skip
    return (seen, r)
  | .ok (some f) => readMember f m key value seen r

theorem readMembers_readOne (key value : Node) (rest : List (Node × Node)) (seen : List String)
    (r : ρ) : s.readMembers m ((key, value) :: rest) seen r = (do
      let (seen, r) ← s.readOne m key value seen r
      s.readMembers m rest seen r) := by
  rw [readMembers.eq_def, readOne]
  dsimp only
  rcases s.fieldFor m key with fault | _ | f
  · rfl
  · dsimp only
    cases value.skip <;> rfl
  · rfl

theorem readMembers_append (before after : List (Node × Node)) (seen : List String) (r : ρ) :
    s.readMembers m (before ++ after) seen r = (do
      let (seen, r) ← s.readMembers m before seen r
      s.readMembers m after seen r) := by
  induction before generalizing seen r with
  | nil => rfl
  | cons p before ih =>
    obtain ⟨key, value⟩ := p
    rw [List.cons_append, readMembers_readOne, readMembers_readOne]
    cases s.readOne m key value seen r with
    | error fault => rfl
    | ok next => exact ih next.1 next.2

theorem takes_of_readOne {out : List String × ρ} (h : s.readOne m key value seen r = .ok out) :
    s.Takes m key value := by
  rw [readOne] at h
  split at h
  · cases h
  · next hfield =>
    obtain ⟨_, hskip, -⟩ := bind_eq_ok.mp h
    exact .passed hfield hskip
  · next f hfield =>
    rw [readMember] at h
    -- A member that was seen before is an error, whatever its value.
    split at h
    · cases h
    · obtain ⟨x, hread, -⟩ := bind_eq_ok.mp h
      exact .field hfield (Manner.within_eq_ok.mp hread)

/-- **What is read has only members that the record takes**, those behind a repeated one included:
that would not have been read. -/
theorem takes_of_readMembers {out : List String × ρ}
    (h : s.readMembers m members seen r = .ok out) : ∀ p ∈ members, s.Takes m p.1 p.2 := by
  induction members generalizing seen r with
  | nil => exact List.forall_mem_nil _
  | cons p rest ih =>
    rw [readMembers_readOne] at h
    obtain ⟨next, hfirst, h⟩ := bind_eq_ok.mp h
    exact List.forall_mem_cons.mpr ⟨takes_of_readOne hfirst, ih h⟩

/-- A member that is passed over might as well not be there: it is not seen, and stores nothing. -/
theorem readMembers_passed (hfield : s.fieldFor m key = .ok none) (hskip : value.skip = .ok ()) :
    s.readMembers m (before ++ (key, value) :: after) seen r
      = s.readMembers m (before ++ after) seen r := by
  have hone (seen : List String) (r : ρ) : s.readOne m key value seen r = .ok (seen, r) := by
    rw [readOne, hfield, hskip]
    rfl
  simp only [readMembers_append, readMembers_readOne, hone]
  rfl

/-- What is read depends on the value of a member only by what its field reads. -/
theorem readMembers_congr (hfield : s.fieldFor m key = .ok (some f))
    (hread : f.codec.read m value = f.codec.read m value') :
    s.readMembers m (before ++ (key, value) :: after) seen r
      = s.readMembers m (before ++ (key, value') :: after) seen r := by
  have hone (seen : List String) (r : ρ) :
      s.readOne m key value seen r = s.readOne m key value' seen r := by
    rw [readOne, readOne, hfield]
    dsimp only
    rw [readMember, readMember, hread]
  simp only [readMembers_append, readMembers_readOne, hone]

/-- A record is refused at the first member that it does not take, and the fault is of that
member. -/
theorem readMembers_refused {fault : Fault} {out : List String × ρ}
    (hothers : s.readMembers m (before ++ after) seen r = .ok out)
    (hfield : s.fieldFor m key = .error fault) :
    s.readMembers m (before ++ (key, value) :: after) seen r = .error fault := by
  rw [readMembers_append] at hothers
  obtain ⟨next, hbefore, -⟩ := bind_eq_ok.mp hothers
  rw [readMembers_append, hbefore]
  show s.readMembers m ((key, value) :: after) next.1 next.2 = _
  rw [readMembers_readOne, readOne, hfield]
  rfl

/-! ## Objects -/

variable {ending : Ending} {x : ρ}

theorem read_object (members : List (Node × Node)) (ending : Ending) :
    s.read m (.object members ending) = m.settle (do
      let (seen, r) ← s.readMembers m members [] s.blank
      Node.raise ending.objectFlaw?
      complete s.fields seen r) := rfl

theorem takes_of_read (h : s.read m (.object members ending) = .ok x) :
    ∀ p ∈ members, s.Takes m p.1 p.2 := by
  rw [read_object, Manner.settle_eq_ok] at h
  obtain ⟨out, h, -⟩ := bind_eq_ok.mp h
  exact takes_of_readMembers h

theorem read_passed (hfield : s.fieldFor m key = .ok none) (hskip : value.skip = .ok ()) :
    s.read m (.object (before ++ (key, value) :: after) ending)
      = s.read m (.object (before ++ after) ending) := by
  rw [read_object, read_object, readMembers_passed hfield hskip]

theorem read_congr (hfield : s.fieldFor m key = .ok (some f))
    (hread : f.codec.read m value = f.codec.read m value') :
    s.read m (.object (before ++ (key, value) :: after) ending)
      = s.read m (.object (before ++ (key, value') :: after) ending) := by
  rw [read_object, read_object, readMembers_congr hfield hread]

theorem read_refused {fault : Fault} (hothers : s.read m (.object (before ++ after) ending) = .ok x)
    (hfield : s.fieldFor m key = .error fault) :
    s.read m (.object (before ++ (key, value) :: after) ending) = m.settle (.error fault) := by
  rw [read_object, Manner.settle_eq_ok] at hothers
  obtain ⟨out, hothers, -⟩ := bind_eq_ok.mp hothers
  rw [read_object, readMembers_refused hothers hfield]
  rfl

/-! ## Names that no field has -/

theorem field?_eq_none {name : String} (h : name ∉ s.fields.map Field.name) :
    s.field? name = none := by
  refine List.find?_eq_none.mpr fun f hf heq => h ?_
  rw [← eq_of_beq heq]
  exact List.mem_map_of_mem hf

/-- A record that is not strict passes over a name that it does not know, in every manner of
reading. -/
theorem fieldFor_unknown {name : String} (h : name ∉ s.fields.map Field.name)
    (hstrict : s.strict = false) : s.fieldFor m (.atom (.text name)) = .ok none := by
  rw [fieldFor, fieldNamed, field?_eq_none h, hstrict]
  rfl

/-- A strict record refuses it, with the names that it knows in the fault. -/
theorem fieldFor_refused {name : String} (h : name ∉ s.fields.map Field.name)
    (hstrict : s.strict = true) : s.fieldFor m (.atom (.text name))
      = .error (.data (.unknownField name (s.fields.map Field.name)) none) := by
  rw [fieldFor, fieldNamed, field?_eq_none h, hstrict]
  rfl

end Shape

end ExchangeArchive.Document
