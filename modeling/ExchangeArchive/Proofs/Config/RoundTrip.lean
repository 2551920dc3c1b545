import ExchangeArchive.Proofs.Config.Strictness
import ExchangeArchive.Proofs.Document.Faithful
import ExchangeArchive.Proofs.Time.Duration
/-
**Every description of a recorder comes back from its JSON text.**

The description and the records of its outputs are lawful shapes, so this is a matter of the
values in them. Lengths of time come back as they are written. The headers to hide are written
in the order of their names, so each that is read goes behind all that were read before
(`insertPair_of_greater`).

An output is written as its kind and then the members of the record of that kind. It is read
as a whole first, and the record from what that leaves. Its values are all without parts, so
what is left is what was written (`readOutputMembers_ofMembers`), and a record whose members
have names is read in the same way whether or not it was held (`read_ofMembers_congr`).

What is asked of a description is that its numbers have the widths of their types.
-/

set_option autoImplicit false

namespace ExchangeArchive.Config

open ExchangeArchive.Decimal ExchangeArchive.Document ExchangeArchive.Text ExchangeArchive.Time

/-! ## Values -/

@[simp] theorem path_returns (p : String) : path.Returns p where
  writable := .atom trivial
  not_null := by simp [path]
  read_write := rfl

theorem nat64_returns {n : Nat} (h : n < 2 ^ 64) : nat64.Returns n := by
  refine scalar_returns rfl ⟨by omega, by omega⟩ (by simp) ?_
  rw [integerWithin, if_pos (by rw [twoTo_eq]; omega)]
  rfl

theorem duration_returns {n : Nat} (h : n < 2 ^ 64 * nanosPerSecond) : duration.Returns n where
  writable := .atom trivial
  not_null := by simp [duration]
  read_write := by
    show Manner.settle .jsonText _ = _
    rw [Manner.settle_eq_ok]
    refine bind_eq_ok.mpr ⟨durationText n, rfl, ?_⟩
    rw [readDuration_durationText h]
    rfl

/-- A name that is greater than all others goes behind them, and is none of them. -/
theorem insertPair_of_greater {name : String} (value : String) {pairs : List (String × String)}
    (h : ∀ p ∈ pairs, p.1 < name) :
    Redactions.insertPair name value pairs = pairs ++ [(name, value)] := by
  induction pairs with
  | nil => rfl
  | cons p pairs ih =>
    obtain ⟨hp, hpairs⟩ := List.forall_mem_cons.mp h
    rw [Redactions.insertPair, if_neg (String.lt_asymm hp), if_neg (String.ne_of_lt hp).symm,
      ih hpairs]
    rfl

theorem Redactions.ext_pairs {r r' : Redactions} (h : r.pairs = r'.pairs) : r = r' := by
  cases r
  cases r'
  cases h
  rfl

/-- Names in ascending order are read behind those before. The induction is on the names that are
still to be read, with all that were read before in hand. -/
theorem readRedactions_write {pairs : List (String × String)} (r : Redactions) {all : Redactions}
    (hall : all.pairs = r.pairs ++ pairs) :
    readRedactions .jsonText
      (Node.ofMembers (pairs.map fun (name, value) => (name, Json.text value))) r = .ok all := by
  induction pairs generalizing r with
  | nil =>
    rw [List.append_nil] at hall
    rw [Redactions.ext_pairs hall]
    rfl
  | cons p pairs ih =>
    obtain ⟨name, value⟩ := p
    have hgreater : ∀ p ∈ r.pairs, p.1 < name := by
      have hsorted := all.sorted
      rw [hall] at hsorted
      exact fun p hp => (List.pairwise_append.mp hsorted).2.2 p hp _ List.mem_cons_self
    show readRedactions .jsonText _ (r.insert name value) = .ok all
    have hpairs : (r.insert name value).pairs = r.pairs ++ [(name, value)] :=
      insertPair_of_greater value hgreater
    refine ih (r.insert name value) ?_
    rw [hpairs, List.append_assoc]
    exact hall

@[simp] theorem redactions_returns (r : Redactions) : redactions.Returns r where
  writable := .object fun m hm => by
    obtain ⟨p, -, rfl⟩ := List.mem_map.mp hm
    exact .atom trivial
  not_null := by simp [redactions]
  read_write := by
    show (do
      let r ← readRedactions .jsonText
        (Node.ofMembers (r.pairs.map fun (name, value) => (name, Json.text value))) .empty
      Node.raise none
      return r) = _
    rw [readRedactions_write .empty rfl]
    rfl

/-! ## The shapes -/

section Shapes

attribute [ext] Rotation Config

-- With these unfolded, each law compares the names and the places of finitely many fields.
attribute [local simp] Field.required Field.withDefault Field.maybe Field.OmitsAbsent

theorem fileShape_lawful : fileShape.Lawful := by
  constructor <;> simp +contextual [fileShape]

theorem rotationShape_lawful : rotationShape.Lawful := by
  constructor <;> simp +contextual [rotationShape, Rotation.ext_iff]

theorem shape_lawful : shape.Lawful := by
  have hempty : ∀ r : Redactions, r.pairs = [] → Redactions.empty = r :=
    fun r hr => Redactions.ext_pairs hr.symm
  constructor <;> simp +contextual [shape, Config.ext_iff]
  exact hempty

end Shapes

/-! ## Outputs -/

/-- The numbers of a sequence of files have the widths of their types: a size of 64 bits, and a
length of time of that many seconds. -/
structure Rotation.Sound (r : Rotation) : Prop where
  maxBytes : r.maxBytes < 2 ^ 64
  maxDuration : ∀ n ∈ r.maxDuration, n < 2 ^ 64 * nanosPerSecond

theorem file_returns (p : String) : fileShape.codec.Returns p :=
  fileShape_lawful.returns (by simp [fileShape])

theorem rotation_returns {r : Rotation} (h : r.Sound) : rotationShape.codec.Returns r := by
  have hduration : ∀ n ∈ r.maxDuration, duration.Returns n :=
    fun n hn => duration_returns (h.maxDuration n hn)
  exact rotationShape_lawful.returns
    (by simp [rotationShape, nat64_returns h.maxBytes, Field.maybe_returned hduration])

section Held

variable {ρ : Type} {s : Shape ρ} {m m' : Manner} {members : List (String × Json)}

/-- Members that have names are read alike in manners in which their values are. So a record does
not show whether its members were held first. -/
theorem readMembers_ofMembers_congr (hm : m.isOpenYaml = m'.isOpenYaml)
    (hread : ∀ f ∈ s.fields, f.codec.read m = f.codec.read m') (seen : List String) (r : ρ) :
    s.readMembers m (Node.ofMembers members) seen r
      = s.readMembers m' (Node.ofMembers members) seen r := by
  induction members generalizing seen r with
  | nil => rfl
  | cons p members ih =>
    obtain ⟨name, v⟩ := p
    have hone : s.readOne m (.atom (.text name)) (Node.ofJson v) seen r
        = s.readOne m' (.atom (.text name)) (Node.ofJson v) seen r := by
      rw [Shape.readOne, Shape.readOne, Shape.fieldFor, Shape.fieldFor, Shape.fieldNamed]
      cases hfield : s.field? name with
      | none => cases s.strict <;> rfl
      | some f =>
        have hf : f ∈ s.fields := List.mem_of_find?_eq_some hfield
        dsimp only
        rw [Shape.readMember, Shape.readMember, hread f hf, Manner.within, Manner.within, hm]
    rw [Node.ofMembers, Shape.readMembers_readOne, Shape.readMembers_readOne, hone]
    simp only [ih]

theorem read_ofMembers_congr (hm : m.isOpenYaml = m'.isOpenYaml)
    (hread : ∀ f ∈ s.fields, f.codec.read m = f.codec.read m') :
    s.read m (.object (Node.ofMembers members) .closed)
      = s.read m' (.object (Node.ofMembers members) .closed) := by
  rw [Shape.read_object, Shape.read_object, readMembers_ofMembers_congr hm hread, Manner.settle,
    Manner.settle, hm]

/-- A value that is held as it stands: without parts, there is nothing in it to be lost. -/
def IsHeldAsIs (v : Json) : Prop :=
  (Node.ofJson v).buffer .jsonText (roomInOutput .jsonText) = .ok (Node.ofJson v)

/-- Members of other names that are held as they stand are all that is left of an output. -/
theorem readOutputMembers_ofMembers (hnames : ∀ p ∈ members, p.1 ≠ kindName)
    (hheld : ∀ p ∈ members, IsHeldAsIs p.2) (kind? : Option OutputKind) :
    readOutputMembers .jsonText (Node.ofMembers members) kind?
      = .ok (kind?, Node.ofMembers members) := by
  induction members with
  | nil => rfl
  | cons p members ih =>
    obtain ⟨name, v⟩ := p
    rw [List.forall_mem_cons] at hnames hheld
    rw [Node.ofMembers, readOutputMembers_other hnames.1 hheld.1, ih hnames.2 hheld.2]
    rfl

/-- An output that names its kind first is the record that is read from the other members. -/
theorem outputCodec_read_write (kind : OutputKind) (hnames : ∀ p ∈ members, p.1 ≠ kindName)
    (hheld : ∀ p ∈ members, IsHeldAsIs p.2) :
    outputCodec.read .jsonText
        (Node.ofJson (.object ((kindName, Json.text kind.name) :: members)))
      = readOutputAs .closed (some kind, Node.ofMembers members) := by
  have hkind : readOutputMembers .jsonText
      ((.atom (.text kindName), .atom (.text kind.name)) :: Node.ofMembers members) none
        = readOutputMembers .jsonText (Node.ofMembers members) (some kind) := by
    cases kind <;> rfl
  show outputCodec.read .jsonText (.object
    ((.atom (.text kindName), .atom (.text kind.name)) :: Node.ofMembers members) .closed) = _
  rw [outputCodec_read, hkind, readOutputMembers_ofMembers hnames hheld]
  rfl

end Held

/-- The numbers of an output have the widths of their types; a single file has none, and any path
can be written. -/
def Output.Sound : Output → Prop
  | .file _ => True
  | .checkpoint r => r.Sound

section Kinds

variable {ρ : Type} {s : Shape ρ} {x : ρ}

/-- What is written of a record are values of its fields under their names, though not of all its
fields. -/
theorem forall_mem_members {P : String × Json → Prop}
    (h : ∀ f ∈ s.fields, P (f.name, f.codec.write (f.get x))) : ∀ p ∈ s.members x, P p := by
  intro p hp
  obtain ⟨f, hf, hmember⟩ := List.mem_filterMap.mp hp
  rw [Document.Field.member?] at hmember
  split at hmember
  · cases hmember
  · cases hmember
    exact h f hf

/-- A record with its kind before it can be written if the record can, since the kind is a text. -/
theorem tagged_writable (h : s.codec.Returns x) (kind : OutputKind) :
    (Json.object ((kindName, Json.text kind.name) :: s.members x)).Writable := by
  have hrecord : (Json.object (s.members x)).Writable := h.writable
  cases hrecord with
  | object hmembers => exact .object (List.forall_mem_cons.mpr ⟨.atom trivial, hmembers⟩)

/-- The record of an output comes back from what was held of it, if the values of its fields are
read the same from there. -/
theorem read_held (h : s.codec.Returns x)
    (hread : ∀ f ∈ s.fields, f.codec.read Manner.jsonText.buffer = f.codec.read .jsonText) :
    s.read Manner.jsonText.buffer (.object (Node.ofMembers (s.members x)) .closed) = .ok x := by
  have hheld : s.read Manner.jsonText.buffer (.object (Node.ofMembers (s.members x)) .closed)
      = s.read .jsonText (.object (Node.ofMembers (s.members x)) .closed) :=
    read_ofMembers_congr rfl hread
  rw [hheld]
  exact h.read_write

end Kinds

theorem int_isHeldAsIs {n : Nat} (h : n < 2 ^ 64) : IsHeldAsIs (Json.int n) := by
  have hfits : Node.fitsWord (n : Int) = true := by
    rw [Node.fitsWord, twoTo_eq, twoTo_eq, Bool.and_eq_true, decide_eq_true_eq, decide_eq_true_eq]
    omega
  exact if_pos hfits

theorem output_returns {o : Output} (h : o.Sound) : outputCodec.Returns o := by
  cases o with
  | file p =>
    have hrecord := file_returns p
    have hnames : ∀ m ∈ fileShape.members p, m.1 ≠ kindName :=
      forall_mem_members (by simp [fileShape, Document.Field.required, kindName])
    have hheld : ∀ m ∈ fileShape.members p, IsHeldAsIs m.2 :=
      forall_mem_members (List.forall_mem_singleton.mpr rfl)
    refine ⟨tagged_writable hrecord .file, by simp [outputCodec], ?_⟩
    have hback := read_held hrecord (List.forall_mem_singleton.mpr rfl)
    show outputCodec.read .jsonText (Node.ofJson (.object
      ((kindName, .text OutputKind.file.name) :: fileShape.members p))) = _
    rw [outputCodec_read_write .file hnames hheld, readOutputAs]
    simp only [hback]
    rfl
  | checkpoint r =>
    have hrecord := rotation_returns h
    -- No field has the name of the kind, and every value is held as it stands.
    have hnames : ∀ m ∈ rotationShape.members r, m.1 ≠ kindName :=
      forall_mem_members (by
        simp [rotationShape, Document.Field.required, Document.Field.withDefault,
          Document.Field.maybe, kindName])
    have hduration : IsHeldAsIs ((optional duration).write r.maxDuration) := by
      cases r.maxDuration <;> rfl
    have hheld : ∀ m ∈ rotationShape.members r, IsHeldAsIs m.2 := by
      refine forall_mem_members ?_
      rw [rotationShape, List.forall_mem_cons, List.forall_mem_cons, List.forall_mem_cons,
        List.forall_mem_singleton]
      exact ⟨rfl, rfl, int_isHeldAsIs h.maxBytes, hduration⟩
    refine ⟨tagged_writable hrecord .checkpoint, by simp [outputCodec], ?_⟩
    have hback := read_held hrecord (by
      rw [rotationShape, List.forall_mem_cons, List.forall_mem_cons, List.forall_mem_cons,
        List.forall_mem_singleton]
      exact ⟨rfl, rfl, rfl, rfl⟩)
    show outputCodec.read .jsonText (Node.ofJson (.object
      ((kindName, .text OutputKind.checkpoint.name) :: rotationShape.members r))) = _
    rw [outputCodec_read_write .checkpoint hnames hheld, readOutputAs]
    simp only [hback]
    rfl

/-! ## Descriptions -/

theorem returns {c : Config} (h : c.output.Sound) : codec.Returns c := by
  refine shape_lawful.returns ?_
  rw [shape]
  simp only [List.forall_mem_cons]
  exact ⟨Field.maybe_returned fun _ _ => text_returns _,
    Field.maybe_returned fun _ _ => text_returns _,
    Field.maybe_returned fun _ _ => text_returns _,
    Field.withDefault_returned (boolean_returns _),
    fun _ => redactions_returns c.redactHeaders,
    Field.required_returned (output_returns h), List.forall_mem_nil _⟩

/-- **A description is read from its JSON text**, whatever is said of the headers to hide, in both
forms of output, and with any numbers that have the widths of their types. -/
theorem ofJsonText_written_description (c : Config) (h : c.output.Sound) :
    codec.ofJsonText (Utf8.encode (codec.toJsonText c).toList) = .ok c := by
  rw [Codec.ofJsonText_toJsonText codec (returns h).writable, (returns h).read_write]

/-- The greatest size, the greatest length of time, and headers of which one has no name. -/
theorem ofJsonText_written_description_extremes :
    let c : Config := {
      version := some ""
      includeAll := false
      redactHeaders := ⟨[("", "\"\n"), ("authorization", "-")], by decide⟩
      output := .checkpoint {
        directory := "d"
        beginning := ""
        maxBytes := 2 ^ 64 - 1
        maxDuration := some (2 ^ 64 * nanosPerSecond - 1) } }
    c.output.Sound ∧ codec.ofJsonText (Utf8.encode (codec.toJsonText c).toList) = .ok c := by
  intro c
  have hsound : c.output.Sound := by
    refine ⟨by decide, fun n hn => ?_⟩
    rw [← Option.mem_some_iff.mp hn]
    decide
  exact ⟨hsound, ofJsonText_written_description c hsound⟩

end ExchangeArchive.Config
