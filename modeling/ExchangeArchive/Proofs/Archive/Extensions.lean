import ExchangeArchive.Proofs.Archive.RoundTrip
import ExchangeArchive.Proofs.Document.Order
import Mathlib.Logic.Relation
/-
Members that an archive does not have, and the order of those that it has.

None of the records of an archive is strict, and each stores its fields in places of their own
(`orderly`). So a record is read alike from its members in any order and among any others. What is
left is to say this of a record that stands inside of others. `Edited` says where it stands: it
follows the codecs from the whole document to the members that are changed, through the members of
records, the items of lists and values that may be missing. The reading of the whole follows that of
the record (`Edited.passesOn`), for a change that makes no difference as well as for a fault.
-/

set_option autoImplicit false

namespace ExchangeArchive.Archive

open ExchangeArchive.Document ExchangeArchive.Text

/-! ## The shapes -/

section Shapes

-- With these unfolded, all that is compared are the places of finitely many fields.
attribute [local simp] Document.Field.required Document.Field.withDefault Document.Field.maybe
  Document.Field.Commutes Shape.Orderly

theorem NamedValue.orderly (name : String) : (shape name).Orderly := by simp [shape]

theorem Agent.orderly : shape.Orderly := by simp [shape]

theorem PageTimings.orderly : shape.Orderly := by simp [shape]

theorem Page.orderly : shape.Orderly := by simp [shape]

theorem Cookie.orderly : shape.Orderly := by simp [shape]

theorem PostData.orderly : shape.Orderly := by simp [shape]

theorem Content.orderly : shape.Orderly := by simp [shape]

theorem Request.orderly : shape.Orderly := by simp [shape]

theorem Response.orderly : shape.Orderly := by simp [shape]

theorem Cache.orderly : shape.Orderly := by simp [shape]

theorem Timings.orderly : shape.Orderly := by simp [shape]

theorem Entry.orderly : shape.Orderly := by simp [shape]

theorem Log.orderly : shape.Orderly := by simp [shape]

theorem HttpArchive.orderly : shape.Orderly := by simp [shape]

theorem Version.orderly : shape.Orderly := by simp [shape]

end Shapes

namespace RecordKind

/-- The shape of the records of a kind. Everything that a codec does with the members of an object
goes by its shape, so a change to the members can be looked at here. -/
def shape : (k : RecordKind) → Shape k.Record
  | archive => HttpArchive.shape
  | log => Log.shape
  | agent => Agent.shape
  | page => Page.shape
  | pageTimings => PageTimings.shape
  | entry => Entry.shape
  | request => Request.shape
  | response => Response.shape
  | cookie => Cookie.shape
  | header => NamedValue.shape "struct Header"
  | queryParameter => NamedValue.shape "struct QueryString"
  | postData => PostData.shape
  | content => Content.shape
  | cache => Cache.shape
  | timings => Timings.shape
  | version => Version.shape

theorem read_eq (k : RecordKind) : k.codec.read = k.shape.read := by cases k <;> rfl

theorem not_strict (k : RecordKind) : k.shape.strict = false := by cases k <;> rfl

theorem lawful (k : RecordKind) : k.shape.Lawful := by
  cases k with
  | archive => exact HttpArchive.lawful
  | log => exact Log.lawful
  | agent => exact Agent.lawful
  | page => exact Page.lawful
  | pageTimings => exact PageTimings.lawful
  | entry => exact Entry.lawful
  | request => exact Request.lawful
  | response => exact Response.lawful
  | cookie => exact Cookie.lawful
  | header => exact NamedValue.lawful _
  | queryParameter => exact NamedValue.lawful _
  | postData => exact PostData.lawful
  | content => exact Content.lawful
  | cache => exact Cache.lawful
  | timings => exact Timings.lawful
  | version => exact Version.lawful

/-- Each field is stored in a place of its own, whatever order the fields are read in. -/
theorem orderly (k : RecordKind) : k.shape.Orderly := by
  cases k with
  | archive => exact HttpArchive.orderly
  | log => exact Log.orderly
  | agent => exact Agent.orderly
  | page => exact Page.orderly
  | pageTimings => exact PageTimings.orderly
  | entry => exact Entry.orderly
  | request => exact Request.orderly
  | response => exact Response.orderly
  | cookie => exact Cookie.orderly
  | header => exact NamedValue.orderly _
  | queryParameter => exact NamedValue.orderly _
  | postData => exact PostData.orderly
  | content => exact Content.orderly
  | cache => exact Cache.orderly
  | timings => exact Timings.orderly
  | version => exact Version.orderly

/-- The names of the members that a record has; any other member is passed over. -/
def memberNames (k : RecordKind) : List String := k.shape.fields.map Document.Field.name

theorem fieldFor_other {k : RecordKind} {name : String} (h : name ∉ k.memberNames) :
    k.shape.fieldFor .jsonText (.atom (.text name)) = .ok none :=
  Shape.fieldFor_unknown h k.not_strict

theorem fieldFor_name (k : RecordKind) {f : Document.Field k.Record} (hf : f ∈ k.shape.fields) :
    k.shape.fieldFor .jsonText (.atom (.text f.name)) = .ok (some f) := by
  rw [Shape.fieldFor, Shape.fieldNamed, k.lawful.field?_name hf]

/-! ## Changes to a record -/

/-- What makes no difference to a record: its members in another order, one more that the record
does not have, with any value that can be passed over, and another order inside of such a value. -/
inductive Extends (k : RecordKind) : List (Node × Node) → List (Node × Node) → Prop where
  | permuted {members members' : List (Node × Node)} (h : members.Perm members') :
    Extends k members members'
  | added {before after : List (Node × Node)} {name : String} {value : Node}
    (hname : name ∉ k.memberNames) (hvalue : value.Intact) :
    Extends k (before ++ after) (before ++ (.atom (.text name), value) :: after)
  | reordered {before after : List (Node × Node)} {name : String} {value value' : Node}
    (hname : name ∉ k.memberNames) (hvalue : value.Reordered value') :
    Extends k (before ++ (.atom (.text name), value) :: after)
      (before ++ (.atom (.text name), value') :: after)

/-- A record with a second member of a name that it has, with any value, the same one as well. -/
inductive Repeats (name : String) (k : RecordKind) :
    List (Node × Node) → List (Node × Node) → Prop where
  | intro {before after : List (Node × Node)} {old value : Node} (hname : name ∈ k.memberNames)
    (hold : (.atom (.text name), old) ∈ before ++ after) :
    Repeats name k (before ++ after) (before ++ (.atom (.text name), value) :: after)

/-- The second member stands behind the first, so that the first is read when the second comes up
and the fault is sure to be that of the name. -/
inductive RepeatsBehind (name : String) (k : RecordKind) :
    List (Node × Node) → List (Node × Node) → Prop where
  | intro {before after : List (Node × Node)} {old value : Node} (hname : name ∈ k.memberNames)
    (hold : (.atom (.text name), old) ∈ before) :
    RepeatsBehind name k (before ++ after) (before ++ (.atom (.text name), value) :: after)

variable {k : RecordKind} {x : k.Record} {members members' : List (Node × Node)} {ending : Ending}
  {name : String}

/-- A member that the record does not have can be passed over if the record is read with it: it
was passed over then. So nothing has to be asked of the value beforehand. -/
theorem intact_of_read {before after : List (Node × Node)} {value : Node}
    (hname : name ∉ k.memberNames)
    (hx : k.shape.read .jsonText (.object (before ++ (.atom (.text name), value) :: after) ending)
      = .ok x) : value.Intact := by
  have htakes := Shape.takes_of_read hx (.atom (.text name), value) (by simp)
  cases htakes with
  | field hfound _ => cases (fieldFor_other hname).symm.trans hfound
  | passed _ hskip => exact Node.intact_of_skip hskip

theorem read_reordered {before after : List (Node × Node)} {value value' : Node}
    (hname : name ∉ k.memberNames) (hvalue : value.Reordered value')
    (hx : k.shape.read .jsonText (.object (before ++ (.atom (.text name), value) :: after) ending)
      = .ok x) :
    k.shape.read .jsonText (.object (before ++ (.atom (.text name), value') :: after) ending)
      = .ok x := by
  have hfield := fieldFor_other hname
  have hintact := intact_of_read hname hx
  calc k.shape.read .jsonText (.object (before ++ (.atom (.text name), value') :: after) ending)
    _ = k.shape.read .jsonText (.object (before ++ after) ending) :=
        Shape.read_passed hfield (hintact.reordered hvalue).skip
    _ = k.shape.read .jsonText (.object (before ++ (.atom (.text name), value) :: after) ending) :=
        (Shape.read_passed hfield hintact.skip).symm
    _ = .ok x := hx

/-- A change that makes no difference to a record makes none to its reading, in either direction. -/
theorem read_extends (h : Extends k members members') :
    k.codec.read .jsonText (.object members ending) = .ok x ↔
      k.codec.read .jsonText (.object members' ending) = .ok x := by
  rw [read_eq]
  cases h with
  | permuted h => exact ⟨Shape.read_perm k.orderly h, Shape.read_perm k.orderly h.symm⟩
  | added hname hvalue => rw [Shape.read_passed (fieldFor_other hname) hvalue.skip]
  | reordered hname hvalue =>
    exact ⟨read_reordered hname hvalue, read_reordered hname hvalue.symm⟩

theorem read_repeats (h : Repeats name k members members') :
    ∃ fault, k.codec.read .jsonText (.object members' ending) = .error fault := by
  obtain ⟨hname, hold⟩ := h
  obtain ⟨f, hf, rfl⟩ := List.mem_map.mp hname
  rw [read_eq]
  exact exists_error fun x => Shape.not_read_repeated (k.fieldFor_name hf) hold

theorem read_repeatsBehind (h : RepeatsBehind name k members members')
    (hx : k.codec.read .jsonText (.object members ending) = .ok x) :
    k.codec.read .jsonText (.object members' ending)
      = .error (.data (.duplicate name) none) := by
  obtain ⟨hname, hold⟩ := h
  obtain ⟨f, hf, rfl⟩ := List.mem_map.mp hname
  rw [read_eq] at hx ⊢
  exact Shape.read_repeated (k.fieldFor_name hf) hx hold

/-! ## Records in a document -/

/-- A change to the members of one of the records in a value, as a codec reads the value: of the
record that it is, or of one inside of a member, a position, an item or a value that is present. -/
inductive Edited (edit : RecordKind → List (Node × Node) → List (Node × Node) → Prop) :
    {α : Type} → Codec α → Node → Node → Prop where
  | members {k : RecordKind} {members members' : List (Node × Node)} {ending : Ending}
    (h : edit k members members') :
    Edited edit k.codec (.object members ending) (.object members' ending)
  | member {k : RecordKind} {f : Document.Field k.Record} {before after : List (Node × Node)}
    {v v' : Node} {ending : Ending} (hf : f ∈ k.shape.fields) (h : Edited edit f.codec v v') :
    Edited edit k.codec (.object (before ++ (.atom (.text f.name), v) :: after) ending)
      (.object (before ++ (.atom (.text f.name), v') :: after) ending)
  | position {k : RecordKind} {f : Document.Field k.Record} {before after : List Node}
    {v v' : Node} {ending : Ending} (hf : k.shape.fields[before.length]? = some f)
    (h : Edited edit f.codec v v') :
    Edited edit k.codec (.list (before ++ v :: after) ending) (.list (before ++ v' :: after) ending)
  | item {α : Type} {c : Codec α} {before after : List Node} {v v' : Node} {ending : Ending}
    (h : Edited edit c v v') :
    Edited edit (list c) (.list (before ++ v :: after) ending)
      (.list (before ++ v' :: after) ending)
  | present {α : Type} {c : Codec α} {v v' : Node} (h : Edited edit c v v') :
    Edited edit (optional c) v v'

namespace Edited

variable {edit : RecordKind → List (Node × Node) → List (Node × Node) → Prop} {α : Type}
  {c : Codec α} {v v' : Node}

/-- What has a record in it is a list or an object, and cannot be taken for a missing value. -/
theorem isCompound (h : Edited edit c v v') : v.IsCompound ∧ v'.IsCompound := by
  induction h with
  | members _ => exact ⟨.object _ _, .object _ _⟩
  | member _ _ _ => exact ⟨.object _ _, .object _ _⟩
  | position _ _ _ => exact ⟨.list _ _, .list _ _⟩
  | item _ _ => exact ⟨.list _ _, .list _ _⟩
  | present _ ih => exact ih

/-- **What comes of a change is what comes of it in the record.** The induction is on where the
record stands. Each layer around it reads the rest as before, so that a fault inside is the fault
of the whole unless another one comes first, and that one was there before as well. -/
theorem passesOn (h : Edited edit c v v') : ∃ (k : RecordKind) (members members' : _)
    (ending : Ending), edit k members members' ∧
      PassesOn (k.codec.read .jsonText (.object members ending))
        (k.codec.read .jsonText (.object members' ending))
        (c.read .jsonText v) (c.read .jsonText v') := by
  induction h with
  -- The record is found; around it, each layer passes on what is read of the layer inside.
  | members h => exact ⟨_, _, _, _, h, .refl _ _⟩
  | @member k f before after v v' ending hf _ ih =>
    obtain ⟨k', members, members', ending', hedit, hpart⟩ := ih
    refine ⟨k', members, members', ending', hedit, hpart.trans ?_⟩
    rw [k.read_eq]
    exact Shape.passesOn_member (k.fieldFor_name hf) before after v v'
  | @position k f before after v v' ending hf _ ih =>
    obtain ⟨k', members, members', ending', hedit, hpart⟩ := ih
    refine ⟨k', members, members', ending', hedit, hpart.trans ?_⟩
    rw [k.read_eq]
    exact Shape.passesOn_position after hf
  | item _ ih =>
    obtain ⟨k', members, members', ending', hedit, hpart⟩ := ih
    exact ⟨k', members, members', ending', hedit, hpart.trans (passesOn_item _ _ _)⟩
  | present h ih =>
    -- Neither value is taken for a missing one, being no atom.
    obtain ⟨k', members, members', ending', hedit, hpart⟩ := ih
    exact ⟨k', members, members', ending', hedit,
      hpart.trans (passesOn_present _ h.isCompound.1 h.isCompound.2)⟩

/-- What was changed can be changed back, in the same place. -/
theorem back (h : Edited edit c v v') : Edited (fun k => flip (edit k)) c v' v := by
  induction h with
  | members h => exact .members h
  | member hf _ ih => exact .member hf ih
  | position hf _ ih => exact .position hf ih
  | item _ ih => exact .item ih
  | present _ ih => exact .present ih

theorem read_extended {x : α} (h : Edited Extends c v v') :
    c.read .jsonText v = .ok x ↔ c.read .jsonText v' = .ok x := by
  constructor
  · intro hx
    obtain ⟨k, members, members', ending, hextends, hwhole⟩ := h.passesOn
    obtain ⟨y, hy, hsame, -⟩ := hwhole x hx
    exact hsame ((read_extends hextends).mp hy)
  · intro hx
    obtain ⟨k, members, members', ending, hextends, hwhole⟩ := h.back.passesOn
    obtain ⟨y, hy, hsame, -⟩ := hwhole x hx
    exact hsame ((read_extends hextends).mpr hy)

theorem read_repeated {x : α} (h : Edited (Repeats name) c v v') (hx : c.read .jsonText v = .ok x) :
    ∃ fault, c.read .jsonText v' = .error fault := by
  obtain ⟨k, members, members', ending, hrepeats, hwhole⟩ := h.passesOn
  obtain ⟨y, -, -, hfails⟩ := hwhole x hx
  obtain ⟨fault, hfault⟩ := read_repeats hrepeats
  exact ⟨fault, hfails fault hfault⟩

theorem read_repeatedBehind {x : α} (h : Edited (RepeatsBehind name) c v v')
    (hx : c.read .jsonText v = .ok x) :
    c.read .jsonText v' = .error (.data (.duplicate name) none) := by
  obtain ⟨k, members, members', ending, hrepeats, hwhole⟩ := h.passesOn
  obtain ⟨y, hy, -, hfails⟩ := hwhole x hx
  exact hfails _ (read_repeatsBehind hrepeats hy)

/-- Any number of changes that make no difference make none. The induction is on the last of them,
since any may be to a record that an earlier one has moved. -/
theorem read_extensions {x : α} (h : Relation.ReflTransGen (Edited Extends c) v v') :
    c.read .jsonText v = .ok x ↔ c.read .jsonText v' = .ok x := by
  induction h with
  | refl => rfl
  | tail _ hlast ih => exact ih.trans hlast.read_extended

end Edited

/-! ## Texts -/

/-- **Extensions of an archive are not seen.** After any number of changes to the order of the
members of its objects, and by members that a record in it does not have, a text is read as the
record that it was read as before. With a second member of one that a record in it has the text is
refused; if that stands behind the first, the fault names it. -/
theorem extensions_unseen (k : RecordKind) (octets octets' : List UInt8) (root root' : Node)
    (tail : Option Json.Flaw) (h : Json.document octets = (root, tail))
    (h' : Json.document octets' = (root', tail)) :
    (Relation.ReflTransGen (Edited Extends k.codec) root root' →
      ∀ x, k.codec.ofJsonText octets = .ok x ↔ k.codec.ofJsonText octets' = .ok x) ∧
    ∀ name x, k.codec.ofJsonText octets = .ok x →
      (Edited (Repeats name) k.codec root root' →
        ∃ fault, k.codec.ofJsonText octets' = .error fault) ∧
      (Edited (RepeatsBehind name) k.codec root root' →
        k.codec.ofJsonText octets' = .error (.data (.duplicate name) none)) := by
  refine ⟨fun hextends x => ?_, fun name x hx => ?_⟩
  · rw [Codec.ofJsonText_eq_ok h, Codec.ofJsonText_eq_ok h', Edited.read_extensions hextends]
  · obtain ⟨hread, -⟩ := (Codec.ofJsonText_eq_ok h).mp hx
    refine ⟨fun hrepeats => ?_, fun hrepeats => ?_⟩
    · obtain ⟨fault, hfault⟩ := hrepeats.read_repeated hread
      exact ⟨fault, Codec.ofJsonText_eq_error h' hfault⟩
    · exact Codec.ofJsonText_eq_error h' (hrepeats.read_repeatedBehind hread)

/-- A log with its members in another order and with two that it does not have, one of them inside
of its creator; and a log whose creator has two names. -/
theorem extensions_unseen_log :
    let octets (text : String) : List UInt8 := Utf8.encode text.toList
    let plain := octets
      "\x7b\"version\":\"1.2\",\"creator\":\x7b\"name\":\"a\",\"version\":\"1\"\x7d\x7d"
    let extended := octets ("\x7b\"_x\":null,\"creator\":\x7b\"name\":\"a\",\"_y\":[\"b\"],"
      ++ "\"version\":\"1\"\x7d,\"version\":\"1.2\"\x7d")
    let repeated := octets ("\x7b\"version\":\"1.2\",\"creator\":"
      ++ "\x7b\"name\":\"a\",\"version\":\"1\",\"name\":\"b\"\x7d\x7d")
    let log : Log := { version := "1.2", creator := { name := "a", version := "1" } }
    Log.codec.ofJsonText plain = .ok log ∧ Log.codec.ofJsonText extended = .ok log ∧
      Log.codec.ofJsonText repeated = .error (.data (.duplicate "name") none) := by
  intro octets plain extended repeated log
  let root (members : List (Node × Node)) : Node := .object members .closed
  let member (name text : String) : Node × Node := (.atom (.text name), .atom (.text text))
  let creator (members : List (Node × Node)) : Node × Node :=
    (.atom (.text "creator"), .object members .closed)
  let outside : Node × Node := (.atom (.text "_x"), .ofJson .null)
  let inside : Node × Node := (.atom (.text "_y"), .ofJson (.list [.text "b"]))
  let version := member "version" "1.2"
  let agent := [member "name" "a", member "version" "1"]
  let agent' := [member "name" "a", inside, member "version" "1"]
  have htext (s : String) : (Json.text s).Writable := .atom trivial
  have hlist : (Json.list [.text "b"]).Writable := .list (by simp [htext])
  have hnull : Json.null.Writable := .atom trivial
  have hplain : Json.document plain = (root [version, creator agent], none) := by
    have hv : plain = Utf8.encode (Json.object [("version", .text "1.2"), ("creator", .object
      [("name", .text "a"), ("version", .text "1")])]).render := by decide +kernel
    rw [hv, Json.document_render (.object (by simpa [htext] using .object (by simp [htext])))]
    rfl
  have hextended : Json.document extended = (root [outside, creator agent', version], none) := by
    have hv : extended = Utf8.encode (Json.object [("_x", .null), ("creator", .object
      [("name", .text "a"), ("_y", .list [.text "b"]), ("version", .text "1")]),
      ("version", .text "1.2")]).render := by decide +kernel
    rw [hv, Json.document_render
      (.object (by simpa [htext, hnull] using .object (by simp [htext, hlist])))]
    rfl
  have hrepeated : Json.document repeated
      = (root [version, creator (agent ++ [member "name" "b"])], none) := by
    have hv : repeated = Utf8.encode (Json.object [("version", .text "1.2"), ("creator", .object
      [("name", .text "a"), ("version", .text "1"), ("name", .text "b")])]).render := by
      decide +kernel
    rw [hv, Json.document_render (.object (by simpa [htext] using .object (by simp [htext])))]
    rfl
  have hread : Log.codec.ofJsonText plain = .ok log := by
    rw [Codec.ofJsonText, hplain]
    rfl
  have hcreator : (.required "creator" Agent.codec (·.creator)
      fun v r => { r with creator := v } : Document.Field Log) ∈ Log.shape.fields := by
    simp [Log.shape]
  have hswapped : Edited Extends RecordKind.log.codec (root [version, creator agent])
      (root [creator agent, version]) :=
    .members (.permuted (.swap _ _ _))
  have houtside : Edited Extends RecordKind.log.codec (root [creator agent, version])
      (root [outside, creator agent, version]) :=
    .members (@Extends.added .log [] _ "_x" _ (by decide) (Node.intact_ofJson _))
  have hinside : Edited Extends RecordKind.log.codec (root [outside, creator agent, version])
      (root [outside, creator agent', version]) :=
    @Edited.member _ .log _ [outside] [version] _ _ _ hcreator
      (.members (@Extends.added .agent [member "name" "a"] _ "_y" _ (by decide)
        (Node.intact_ofJson _)))
  have hrepeats : Edited (RepeatsBehind "name") RecordKind.log.codec
      (root [version, creator agent]) (root [version, creator (agent ++ [member "name" "b"])]) :=
    @Edited.member _ .log _ [version] [] _ _ _ hcreator
      (.members (@RepeatsBehind.intro "name" .agent agent [] _ _ (by decide) List.mem_cons_self))
  obtain ⟨hsame, -⟩ := extensions_unseen .log plain extended _ _ none hplain hextended
  obtain ⟨-, hfails⟩ := extensions_unseen .log plain repeated _ _ none hplain hrepeated
  have hextends := ((Relation.ReflTransGen.single hswapped).tail houtside).tail hinside
  exact ⟨hread, (hsame hextends log).mp hread, (hfails "name" log hread).2 hrepeats⟩

end RecordKind

end ExchangeArchive.Archive
