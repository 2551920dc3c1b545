import ExchangeArchive.Config.Codec
import ExchangeArchive.Proofs.Document.Members
import ExchangeArchive.Proofs.Json.Reading
/-
Members that a description does not have.

A description is refused if it has a member of its own that is not one of the six, and the fault
names that member unless another comes first. Its output is not so strict: the members of the output
are read as a whole, apart from its kind (`readOutputMembers`), and the record of the kind passes
over those that it does not know. So a member of the output that is misspelt changes nothing, as if
it were not there: a limit that it was meant to set keeps its default.
-/

set_option autoImplicit false

namespace ExchangeArchive.Config

open ExchangeArchive.Document ExchangeArchive.Text

/-- The members of a description. -/
def memberNames : List String :=
  ["creator", "version", "harVersion", "includeAll", "redactHeaders", "output"]

/-- The members of an output of a kind, that which names the kind included. -/
def OutputKind.memberNames : OutputKind → List String
  | .file => ["type", "path"]
  | .checkpoint => ["type", "directory", "prefix", "maxBytes", "maxDuration"]

variable {before after members : List (Node × Node)} {name : String} {value : Node}
  {kind? : Option OutputKind} {kind : OutputKind} {m : Manner}

/-! ## The members of an output -/

/-- Reads one member of an output, whose name is buffered already. -/
def readOutputMember (m : Manner) (key key' value : Node) (kind? : Option OutputKind) :
    Except Fault (Option OutputKind × List (Node × Node)) :=
  match key' with
  | .atom (.text "type") =>
    if kind?.isSome then .error (.data (.duplicate kindName) none)
    else do
      let kind ← m.within key.stepTo (readKind m value)
      return (some kind, [])
  | _ => do
    let value' ← m.within key.stepTo (value.buffer m (roomInOutput m))
    return (kind?, [(key', value')])

theorem readOutputMembers_cons (key value : Node) (rest : List (Node × Node))
    (kind? : Option OutputKind) : readOutputMembers m ((key, value) :: rest) kind? = (do
      let key' ← key.buffer m (roomInOutput m)
      let (kind?, first) ← readOutputMember m key key' value kind?
      let (kind?, more) ← readOutputMembers m rest kind?
      return (kind?, first ++ more)) := by
  rw [readOutputMembers]
  congr 1
  funext key'
  split
  · rw [readOutputMember]
    cases kind? with
    | some _ => rfl
    | none => cases m.within key.stepTo (readKind m value) with
      | error fault => rfl
      | ok kind =>
        show readOutputMembers m rest (some kind)
          = readOutputMembers m rest (some kind) >>= fun next => .ok next
        cases readOutputMembers m rest (some kind) <;> rfl
  · next hkey =>
    rw [readOutputMember.eq_2 _ _ _ _ _ hkey]
    cases m.within key.stepTo (value.buffer m (roomInOutput m)) <;> rfl

theorem readOutputMembers_append (before after : List (Node × Node)) (kind? : Option OutputKind) :
    readOutputMembers m (before ++ after) kind? = (do
      let (kind?, first) ← readOutputMembers m before kind?
      let (kind?, more) ← readOutputMembers m after kind?
      return (kind?, first ++ more)) := by
  induction before generalizing kind? with
  | nil =>
    show readOutputMembers m after kind? = readOutputMembers m after kind? >>= fun next => .ok next
    cases readOutputMembers m after kind? <;> rfl
  | cons p before ih =>
    obtain ⟨key, value⟩ := p
    rw [List.cons_append, readOutputMembers_cons, readOutputMembers_cons]
    cases key.buffer m (roomInOutput m) with
    | error fault => rfl
    | ok key' => cases hone : readOutputMember m key key' value kind? with
      | error fault => simp [hone, bind, Except.bind]
      | ok next =>
        obtain ⟨kind?, first⟩ := next
        simp only [hone, ih, bind, Except.bind, pure, Except.pure]
        cases readOutputMembers m before kind? with
        | error fault => rfl
        | ok next =>
          obtain ⟨kind?, more⟩ := next
          dsimp only
          cases readOutputMembers m after kind? with
          | error fault => rfl
          | ok next => simp

/-- What is read of one member is the kind, for the first time, or the member. -/
theorem readOutputMember_cases {key key' : Node} {next? : Option OutputKind}
    {first : List (Node × Node)}
    (h : readOutputMember m key key' value kind? = .ok (next?, first)) :
    (key' = .atom (.text kindName) ∧ kind? = none ∧ first = [] ∧
        ∃ kind, next? = some kind ∧ readKind m value = .ok kind) ∨
      (key' ≠ .atom (.text kindName) ∧ next? = kind? ∧
        ∃ value', value.buffer m (roomInOutput m) = .ok value' ∧ first = [(key', value')]) := by
  by_cases hkey : key' = .atom (.text kindName)
  · subst hkey
    -- The reader matches on the text that `kindName` is.
    change readOutputMember m key (.atom (.text "type")) value kind? = _ at h
    rw [readOutputMember] at h
    split at h
    · cases h
    · next hnone =>
      obtain ⟨kind, hkind, h⟩ := bind_eq_ok.mp h
      cases h
      exact .inl ⟨rfl, by simpa using hnone, rfl, kind, rfl, Manner.within_eq_ok.mp hkind⟩
  · rw [readOutputMember.eq_2 _ _ _ _ _ hkey] at h
    obtain ⟨value', hvalue, h⟩ := bind_eq_ok.mp h
    cases h
    exact .inr ⟨hkey, rfl, value', Manner.within_eq_ok.mp hvalue, rfl⟩

theorem readOutputMembers_cons_eq_ok {p : Node × Node} {rest all : List (Node × Node)}
    {last? : Option OutputKind} (h : readOutputMembers m (p :: rest) kind? = .ok (last?, all)) :
    ∃ key' next? first more, p.1.buffer m (roomInOutput m) = .ok key' ∧
      readOutputMember m p.1 key' p.2 kind? = .ok (next?, first) ∧
      readOutputMembers m rest next? = .ok (last?, more) ∧ all = first ++ more := by
  rw [readOutputMembers_cons] at h
  obtain ⟨key', hkey, h⟩ := bind_eq_ok.mp h
  obtain ⟨⟨next?, first⟩, hone, h⟩ := bind_eq_ok.mp h
  obtain ⟨⟨last'?, more⟩, hrest, h⟩ := bind_eq_ok.mp h
  obtain ⟨rfl, rfl⟩ := Prod.mk.inj (Except.ok.inj h)
  exact ⟨key', next?, first, more, hkey, hone, hrest, rfl⟩

/-- A kind stays what it is once it was read, for a second one is refused. -/
theorem kind_kept {rest : List (Node × Node)}
    (h : readOutputMembers m members (some kind) = .ok (kind?, rest)) : kind? = some kind := by
  induction members generalizing rest with
  | nil =>
    cases h
    rfl
  | cons p members ih =>
    obtain ⟨key', next?, first, more, -, hone, hrest, -⟩ := readOutputMembers_cons_eq_ok h
    rcases readOutputMember_cases hone with ⟨-, hnone, -⟩ | ⟨-, rfl, -⟩
    · cases hnone
    · exact ih hrest

/-- An output that names its kind is of that kind, wherever the name stands among its members. -/
theorem kind_of_mem {last? : Option OutputKind} {rest : List (Node × Node)}
    (h : readOutputMembers .jsonText members kind? = .ok (last?, rest))
    (hmem : (.atom (.text kindName), .atom (.text kind.name)) ∈ members) : last? = some kind := by
  induction members generalizing kind? rest with
  | nil => cases hmem
  | cons p members ih =>
    obtain ⟨key', next?, first, more, hkey, hone, hrest, -⟩ := readOutputMembers_cons_eq_ok h
    rcases List.mem_cons.mp hmem with rfl | hmem
    · -- The kind is read here, and a second one behind it would be refused.
      cases hkey
      rcases readOutputMember_cases hone with ⟨-, -, -, kind', rfl, hkind⟩ | ⟨hne, -⟩
      · have hname : readKind .jsonText (.atom (.text kind.name)) = .ok kind := by
          cases kind <;> rfl
        rw [← Except.ok.inj (hkind.symm.trans hname)]
        exact kind_kept hrest
      · exact absurd rfl hne
    · exact ih hrest hmem

/-- Another member is read as a whole. -/
theorem readOutputMembers_other {rest : List (Node × Node)} {value' : Node}
    (hname : name ≠ kindName)
    (hvalue : value.buffer .jsonText (roomInOutput .jsonText) = .ok value')
    (kind? : Option OutputKind) :
    readOutputMembers .jsonText ((.atom (.text name), value) :: rest) kind? = (do
      let (last?, more) ← readOutputMembers .jsonText rest kind?
      return (last?, (.atom (.text name), value') :: more)) := by
  have hkey : Node.atom (.text name) = .atom (.text "type") → False := fun h => by
    cases h
    exact hname rfl
  have hone : readOutputMember .jsonText (.atom (.text name)) (.atom (.text name)) value kind?
      = .ok (kind?, [(.atom (.text name), value')]) := by
    rw [readOutputMember.eq_2 _ _ _ _ _ hkey, hvalue]
    rfl
  rw [readOutputMembers_cons]
  show (readOutputMember .jsonText (.atom (.text name)) (.atom (.text name)) value kind?
    >>= fun next => readOutputMembers .jsonText rest next.1
    >>= fun last => .ok (last.1, next.2 ++ last.2)) = _
  rw [hone]
  rfl

/-! ## Outputs -/

/-- Reads the other members of an output as a record of its kind. -/
def readOutputAs (ending : Ending) (split : Option OutputKind × List (Node × Node)) :
    Except Fault Output := do
  Node.raise ending.objectFlaw?
  match split with
  | (some .file, rest) =>
    return .file (← fileShape.read Manner.jsonText.buffer (.object rest .closed))
  | (some .checkpoint, rest) =>
    return .checkpoint (← rotationShape.read Manner.jsonText.buffer (.object rest .closed))
  | (none, _) => throw (.data (.missing kindName) none)

theorem outputCodec_read (members : List (Node × Node)) (ending : Ending) :
    outputCodec.read .jsonText (.object members ending)
      = readOutputMembers .jsonText members none >>= readOutputAs ending := by
  rw [outputCodec]
  dsimp only
  rw [splitOutput]
  cases readOutputMembers .jsonText members none with
  | error fault => rfl
  | ok split =>
    obtain ⟨kind?, rest⟩ := split
    cases ending <;> obtain _ | _ | _ := kind? <;> rfl

variable {ending : Ending}

/-- Both kinds pass over members that they do not have: neither of the two records is strict, though
the description around them is. -/
theorem readOutputAs_passed {first more : List (Node × Node)} {value' : Node}
    (hname : name ∉ kind.memberNames) (hskip : value'.skip = .ok ()) :
    readOutputAs ending (some kind, first ++ (.atom (.text name), value') :: more)
      = readOutputAs ending (some kind, first ++ more) := by
  rw [readOutputAs.eq_def, readOutputAs.eq_def]
  -- The kind itself was taken out before, so the record has one name less.
  cases kind with
  | file =>
    have hfields : name ∉ fileShape.fields.map Document.Field.name :=
      fun hmem => hname (List.mem_cons_of_mem _ hmem)
    dsimp only
    rw [Shape.read_passed (Shape.fieldFor_unknown hfields rfl) hskip]
  | checkpoint =>
    have hfields : name ∉ rotationShape.fields.map Document.Field.name :=
      fun hmem => hname (List.mem_cons_of_mem _ hmem)
    dsimp only
    rw [Shape.read_passed (Shape.fieldFor_unknown hfields rfl) hskip]

theorem ne_kindName (hname : name ∉ kind.memberNames) : name ≠ kindName := by
  rintro rfl
  cases kind <;> exact hname List.mem_cons_self

/-- **A member of an output that its kind does not have might as well not be there**, if it can be
read as a whole. -/
theorem outputCodec_passed
    (hkind : (.atom (.text kindName), .atom (.text kind.name)) ∈ before ++ after)
    (hname : name ∉ kind.memberNames) (hheld : value.Held (roomInOutput .jsonText)) :
    outputCodec.read .jsonText (.object (before ++ (.atom (.text name), value) :: after) ending)
      = outputCodec.read .jsonText (.object (before ++ after) ending) := by
  obtain ⟨value', hvalue⟩ := (Node.held_iff (m := .jsonText)).mp hheld
  -- On both sides the same members are read, up to one more at its place among the rest.
  have hsplit : ∀ kind?,
      readOutputMembers .jsonText (before ++ (.atom (.text name), value) :: after) kind? = _ :=
    readOutputMembers_append before _
  simp only [readOutputMembers_other (ne_kindName hname) hvalue] at hsplit
  rw [outputCodec_read, outputCodec_read, hsplit]
  cases hbefore : readOutputMembers .jsonText before none with
  | error fault =>
    rw [readOutputMembers_append, hbefore]
    rfl
  | ok split =>
    obtain ⟨kind?, first⟩ := split
    have hwithout : readOutputMembers .jsonText (before ++ after) none = (do
        let (last?, more) ← readOutputMembers .jsonText after kind?
        return (last?, first ++ more)) := by
      rw [readOutputMembers_append, hbefore]
      rfl
    rw [hwithout]
    simp only [bind, Except.bind]
    cases hafter : readOutputMembers .jsonText after kind? with
    | error fault => rfl
    | ok split =>
      obtain ⟨last?, more⟩ := split
      -- The kind may stand on either side of the member, so it is known only when all are read.
      have hread : readOutputMembers .jsonText (before ++ after) none
          = .ok (last?, first ++ more) := by
        rw [hwithout, hafter]
        rfl
      obtain rfl := kind_of_mem hread hkind
      exact readOutputAs_passed hname (Node.held_of_buffer hvalue).2

/-- A member that cannot be read as a whole makes an output fail, even if its kind would pass over
it: all members are read before the kind is known. -/
theorem held_of_outputCodec {o : Output} (hname : name ≠ kindName)
    (h : outputCodec.read .jsonText
      (.object (before ++ (.atom (.text name), value) :: after) ending) = .ok o) :
    value.Held (roomInOutput .jsonText) := by
  rw [outputCodec_read, readOutputMembers_append] at h
  obtain ⟨split, h, -⟩ := bind_eq_ok.mp h
  obtain ⟨⟨kind?, first⟩, -, h⟩ := bind_eq_ok.mp h
  obtain ⟨⟨last?, more⟩, h, -⟩ := bind_eq_ok.mp h
  obtain ⟨key', next?, one, rest, hkey, hone, -⟩ := readOutputMembers_cons_eq_ok h
  cases hkey
  rcases readOutputMember_cases hone with ⟨hkind, -⟩ | ⟨-, -, value', hvalue, -⟩
  · cases hkind
    exact absurd rfl hname
  · exact Node.held_iff.mpr ⟨value', hvalue⟩

/-! ## Descriptions -/

/-- A description whose output is an object with the given members; others may stand before and
behind the output. -/
def withOutput (before after members : List (Node × Node)) (inner outer : Ending) : Node :=
  .object (before ++ (.atom (.text "output"), .object members inner) :: after) outer

variable {octets octets' : List UInt8} {root root' : Node} {tail : Option Json.Flaw} {c : Config}
  {first more : List (Node × Node)} {inner outer : Ending}

theorem ofJsonText_congr (h : Json.document octets = (root, tail))
    (h' : Json.document octets' = (root', tail))
    (hread : shape.read .jsonText root = shape.read .jsonText root') :
    codec.ofJsonText octets = codec.ofJsonText octets' := by
  rw [Codec.ofJsonText, Codec.ofJsonText, h, h']
  show shape.read .jsonText root >>= _ = shape.read .jsonText root' >>= _
  rw [hread]

theorem read_of_ofJsonText (h : Json.document octets = (root, tail))
    (hc : codec.ofJsonText octets = .ok c) : shape.read .jsonText root = .ok c :=
  ((Codec.ofJsonText_eq_ok h).mp hc).1

/-- **A description has only members of its own.** What the fault is depends on what comes first, so
here it is only that there is one. -/
theorem refused_of_unknown
    (h : Json.document octets
      = (.object (before ++ (.atom (.text name), value) :: after) outer, tail))
    (hname : name ∉ memberNames) : ∃ fault, codec.ofJsonText octets = .error fault := by
  refine exists_error fun c hc => ?_
  have hfield := Shape.fieldFor_refused (s := shape) (m := .jsonText) hname rfl
  -- A strict record takes no member without a field, and this one has none.
  have htakes := Shape.takes_of_read (read_of_ofJsonText h hc) (.atom (.text name), value) (by simp)
  cases htakes with
  | field hfound _ => cases hfield.symm.trans hfound
  | passed hfound _ => cases hfield.symm.trans hfound

/-- The fault of one more member names it. -/
theorem unknown_named
    (h : Json.document octets
      = (.object (before ++ (.atom (.text name), value) :: after) outer, tail))
    (h' : Json.document octets' = (.object (before ++ after) outer, tail))
    (hname : name ∉ memberNames) (hc : codec.ofJsonText octets' = .ok c) :
    codec.ofJsonText octets = .error (.data (.unknownField name memberNames) none) :=
  Codec.ofJsonText_eq_error h
    (Shape.read_refused (read_of_ofJsonText h' hc) (Shape.fieldFor_refused hname rfl))

/-- The field of the output. -/
def outputField : Document.Field Config :=
  .required "output" outputCodec (·.output) fun v r => { r with output := v }

theorem fieldFor_output :
    shape.fieldFor .jsonText (.atom (.text "output")) = .ok (some outputField) := rfl

theorem passed_in_output
    (h : Json.document octets
      = (withOutput before after (first ++ (.atom (.text name), value) :: more) inner outer, tail))
    (h' : Json.document octets' = (withOutput before after (first ++ more) inner outer, tail))
    (hkind : (.atom (.text kindName), .atom (.text kind.name)) ∈ first ++ more)
    (hname : name ∉ kind.memberNames) (hheld : value.Held (roomInOutput .jsonText)) :
    codec.ofJsonText octets = codec.ofJsonText octets' :=
  ofJsonText_congr h h'
    (Shape.read_congr fieldFor_output (outputCodec_passed hkind hname hheld))

theorem refused_in_output
    (h : Json.document octets
      = (withOutput before after (first ++ (.atom (.text name), value) :: more) inner outer, tail))
    (hname : name ∉ kind.memberNames) (hheld : ¬value.Held (roomInOutput .jsonText)) :
    ∃ fault, codec.ofJsonText octets = .error fault := by
  refine exists_error fun c hc => hheld ?_
  have htakes := Shape.takes_of_read (read_of_ofJsonText h hc) (.atom (.text "output"), _)
    (List.mem_append_right _ List.mem_cons_self)
  cases htakes with
  | field hfound hread =>
    obtain rfl := Option.some.inj (Except.ok.inj (fieldFor_output.symm.trans hfound))
    exact held_of_outputCodec (ne_kindName hname) hread
  | passed hfound _ => cases fieldFor_output.symm.trans hfound

/-- **A description is strict but for its output.** With a member that is not one of the six it is
refused, and the fault names the member if nothing else is wrong. With a member that its output does
not have it is read as it would be without, unless that member cannot be read as a whole: so it is
refused only for that or for something else. -/
theorem strict_but_for_output (octets octets' : List UInt8)
    (before after first more : List (Node × Node)) (name : String) (value : Node)
    (kind : OutputKind) (inner outer : Ending) (tail : Option Json.Flaw) :
    (Json.document octets
        = (.object (before ++ (.atom (.text name), value) :: after) outer, tail) →
      name ∉ memberNames →
        (∃ fault, codec.ofJsonText octets = .error fault) ∧
        ∀ c, Json.document octets' = (.object (before ++ after) outer, tail) →
          codec.ofJsonText octets' = .ok c →
            codec.ofJsonText octets = .error (.data (.unknownField name memberNames) none)) ∧
    (Json.document octets = (withOutput before after
          (first ++ (.atom (.text name), value) :: more) inner outer, tail) →
      Json.document octets' = (withOutput before after (first ++ more) inner outer, tail) →
      (.atom (.text kindName), .atom (.text kind.name)) ∈ first ++ more →
      name ∉ kind.memberNames →
        (value.Held (roomInOutput .jsonText) →
          codec.ofJsonText octets = codec.ofJsonText octets') ∧
        ((∃ fault, codec.ofJsonText octets = .error fault) ↔
          ¬value.Held (roomInOutput .jsonText) ∨
            ∃ fault, codec.ofJsonText octets' = .error fault)) := by
  constructor
  · intro h hname
    exact ⟨refused_of_unknown h hname, fun c h' hc => unknown_named h h' hname hc⟩
  · intro h h' hkind hname
    have hpassed := passed_in_output h h' hkind hname
    refine ⟨hpassed, ?_⟩
    by_cases hheld : value.Held (roomInOutput .jsonText)
    · simp only [hpassed hheld, hheld, not_true_eq_false, false_or]
    · exact iff_of_true (refused_in_output h hname hheld) (.inl hheld)

/-- A limit in its place but misspelt is passed over, and one that stands outside of the output is
refused. The first two texts are read as the same description, the third as none. -/
theorem strict_but_for_output_misspelt :
    let octets (text : String) : List UInt8 := Utf8.encode text.toList
    let plain := octets "\x7b\"output\":\x7b\"type\":\"checkpoint\",\"directory\":\"d\"\x7d\x7d"
    let misspelt := octets
      "\x7b\"output\":\x7b\"type\":\"checkpoint\",\"maxByte\":5,\"directory\":\"d\"\x7d\x7d"
    let misplaced := octets
      "\x7b\"maxBytes\":5,\"output\":\x7b\"type\":\"checkpoint\",\"directory\":\"d\"\x7d\x7d"
    codec.ofJsonText misspelt = codec.ofJsonText plain ∧
      codec.ofJsonText misspelt = .ok { output := .checkpoint { directory := "d" } } ∧
      codec.ofJsonText misplaced = .error (.data (.unknownField "maxBytes" memberNames) none) := by
  intro octets plain misspelt misplaced
  let kind : Node × Node := (.atom (.text "type"), .atom (.text "checkpoint"))
  let directory : Node × Node := (.atom (.text "directory"), .atom (.text "d"))
  let output : Node × Node := (.atom (.text "output"), .object [kind, directory] .closed)
  have htext (s : String) : (Json.text s).Writable := .atom trivial
  have hfive : (Json.int 5).Writable := .atom ⟨by decide, by decide⟩
  have hplain : Json.document plain = (.object [output] .closed, none) := by
    have hv : plain = Utf8.encode (Json.object [("output", .object [("type", .text "checkpoint"),
      ("directory", .text "d")])]).render := by decide +kernel
    rw [hv, Json.document_render (.object (by simpa using .object (by simp [htext])))]
    rfl
  have hmisspelt : Json.document misspelt = (withOutput [] []
      [kind, (.atom (.text "maxByte"), .atom (.int 5)), directory] .closed .closed, none) := by
    have hv : misspelt = Utf8.encode (Json.object [("output", .object [("type", .text "checkpoint"),
      ("maxByte", .int 5), ("directory", .text "d")])]).render := by decide +kernel
    rw [hv, Json.document_render (.object (by simpa using .object (by simp [htext, hfive])))]
    rfl
  have hmisplaced : Json.document misplaced
      = (.object [(.atom (.text "maxBytes"), .atom (.int 5)), output] .closed, none) := by
    have hv : misplaced = Utf8.encode (Json.object [("maxBytes", .int 5), ("output", .object
      [("type", .text "checkpoint"), ("directory", .text "d")])]).render := by decide +kernel
    rw [hv, Json.document_render (.object (by simpa [hfive] using .object (by simp [htext])))]
    rfl
  have hread : codec.ofJsonText plain = .ok { output := .checkpoint { directory := "d" } } := by
    rw [Codec.ofJsonText, hplain]
    rfl
  have hheld : (Node.atom (.int 5)).Held (roomInOutput .jsonText) :=
    .atom fun i hi => by cases hi; decide
  obtain ⟨-, hinside⟩ := strict_but_for_output misspelt plain [] [] [kind] [directory] "maxByte"
    (.atom (.int 5)) .checkpoint .closed .closed none
  obtain ⟨houtside, -⟩ := strict_but_for_output misplaced plain [] [output] [] [] "maxBytes"
    (.atom (.int 5)) .checkpoint .closed .closed none
  have hsame := (hinside hmisspelt hplain List.mem_cons_self (by decide)).1 hheld
  exact ⟨hsame, hsame.trans hread, (houtside hmisplaced (by decide)).2 _ hplain hread⟩

/-- A misspelt limit is accepted, and the limit that was meant has its default. -/
theorem misspelt_limit_accepted :
    let octets := Utf8.encode
      "\x7b\"output\":\x7b\"type\":\"checkpoint\",\"directory\":\"d\",\"maxByte\":5\x7d\x7d".toList
    let members : List (Node × Node) :=
      [(.atom (.text "type"), .atom (.text "checkpoint")),
        (.atom (.text "directory"), .atom (.text "d")), (.atom (.text "maxByte"), .atom (.int 5))]
    Json.document octets = (withOutput [] [] members .closed .closed, none) ∧
      "maxByte" ∉ OutputKind.checkpoint.memberNames ∧
      codec.ofJsonText octets = .ok
        { output := .checkpoint { directory := "d", maxBytes := Receiver.defaultMaxBytes } } := by
  intro octets members
  have hv : octets = Utf8.encode (Json.object [("output", .object [("type", .text "checkpoint"),
    ("directory", .text "d"), ("maxByte", .int 5)])]).render := by decide +kernel
  have htext (s : String) : (Json.text s).Writable := .atom trivial
  have hfive : (Json.int 5).Writable := .atom ⟨by decide, by decide⟩
  have hdocument : Json.document octets = (withOutput [] [] members .closed .closed, none) := by
    rw [hv, Json.document_render (.object (by simpa using .object (by simp [htext, hfive])))]
    rfl
  refine ⟨hdocument, by decide, ?_⟩
  rw [Codec.ofJsonText, hdocument]
  rfl

end ExchangeArchive.Config
