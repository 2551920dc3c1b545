import ExchangeArchive.Document.Manner
/-
Records as documents: how a type is written, and how it is read back.

A `Codec` writes values of a type as JSON and reads them from a document. Records get
theirs from a list of fields: a record is written as the object of its fields in their
order, and read from an object whose members stand in any order, or from a list of its
fields in theirs. Members that no field names are passed over unless the record is
strict; a member that comes twice is a fault; a member that is missing is one too
unless its field says what its absence stands for. Reading starts from a blank record
and stores one field after the other, so what is read depends on the fields alone and
not on the order of the members.
-/

set_option autoImplicit false

namespace ExchangeArchive.Document

open ExchangeArchive.Decimal ExchangeArchive.Time

/-- How the values of a type are written and read. -/
structure Codec (α : Type) where
  write : α → Json
  read : Manner → Node → Except Fault α

/-! ## Values without parts -/

/-- Reads a value without parts. What `accept` does not take is of the wrong kind. -/
def readAtom {α : Type} (expected : String) (accept : Atom → Option (Except DataFault α)) :
    Node → Except Fault α
  | .plain _ _ v => readAtom expected accept v
  | .atom a =>
    match accept a with
    | some (.ok x) => .ok x
    | some (.error d) => .error (.data d none)
    | none => .error (.data (.wrongType (.atom a) expected) none)
  | v => .error (v.refuse expected)

/-- The codec of a type whose values have no parts. -/
def scalar {α : Type} (expected : String) (write : α → Json)
    (accept : Atom → Option (Except DataFault α)) : Codec α where
  write := write
  read m n := m.settle (readAtom expected accept n)

/-- Reads a text. -/
def readText (expected : String) (m : Manner) (n : Node) : Except Fault String :=
  match m.isOpenYaml, n with
  | true, .plain written _ _ => .ok written
  | _, _ => m.settle <| readAtom expected (fun
    | .text s => some (.ok s)
    | _ => none) n

/-- Texts. -/
def text : Codec String := ⟨Json.text, readText "a string"⟩

/-- Truth values. -/
def boolean : Codec Bool := scalar "a boolean" Json.bool fun
  | .bool b => some (.ok b)
  | _ => none

/-- Accepts the integers within bounds. -/
def integerWithin (low high : Int) (expected : String) : Atom → Option (Except DataFault Int)
  | .int i =>
    if low ≤ i ∧ i ≤ high then some (.ok i)
    else if Node.fitsWord i then some (.error (.wrongValue (.atom (.int i)) expected))
    else none
  | _ => none

/-- Integers of 64 bits with a sign. -/
def int64 : Codec Int :=
  scalar "i64" Json.int (integerWithin (-(twoTo 63 : Int)) (twoTo 63 - 1) "i64")

/-- The codec of the natural numbers up to `high`. -/
def natural (high : Nat) (expected : String) : Codec Nat :=
  scalar expected (fun n => Json.int n) fun a =>
    (integerWithin 0 high expected a).map fun r => r.map Int.toNat

/-- Natural numbers of 16 bits. -/
def nat16 : Codec Nat := natural (twoTo 16 - 1) "u16"

/-- Natural numbers of 64 bits. -/
def nat64 : Codec Nat := natural (twoTo 64 - 1) "u64"

/-- Doubles; an integer is read as the nearest one. -/
def double : Codec Float := scalar "f64" Json.real fun
  | .int i => if Node.fitsWord i then some (.ok (Decimal.ofInt i)) else none
  | .real x => some (.ok x)
  | _ => none

/-- Points in time. -/
def timestamp : Codec Timestamp :=
  scalar "an RFC 3339 formatted date and time string"
    (fun t => Json.text (String.ofList t.rfc3339)) fun
    | .text s => some ((readRfc3339 s.toList).mapError DataFault.noTimestamp)
    | _ => none

/-! ## Lists and optional values -/

/-- Reads the items of a list, the first having the given index. -/
def readItems {α : Type} (c : Codec α) (m : Manner) : (index : Nat) → List Node →
    Except Fault (List α)
  | _, [] => .ok []
  | index, v :: rest => do
    let x ← m.within (.item index) (c.read m v)
    let xs ← readItems c m (index + 1) rest
    return x :: xs

/-- Lists. -/
def list {α : Type} (c : Codec α) : Codec (List α) where
  write xs := .list (xs.map c.write)
  read m n := m.settle (match n with
    | .list items ending => do
      let xs ← readItems c m 0 items
      Node.raise ending.listFlaw?
      return xs
    | n => .error (n.refuse "a sequence"))

/-- Values that may be missing, which `null` says too. -/
def optional {α : Type} (c : Codec α) : Codec (Option α) where
  write
    | some x => c.write x
    | none => Json.null
  read m n :=
    match n with
    | .atom .null => .ok none
    | .plain _ (.error d) _ =>
      if m.isOpenYaml then .error (.data d none) else (c.read m n).map some
    | .plain _ (.ok false) _ => .ok none
    | _ => (c.read m n).map some

/-! ## Records -/

/-- A field of a record: its name, how its values are written and read, what its absence
stands for, which values are not written, and its place in the record. -/
structure Field (ρ : Type) where
  Value : Type
  name : String
  codec : Codec Value
  absent : Option Value
  omits : Value → Bool
  get : ρ → Value
  set : Value → ρ → ρ

namespace Field

variable {ρ : Type}

/-- A field that must be there. -/
def required {α : Type} (name : String) (codec : Codec α) (get : ρ → α) (set : α → ρ → ρ) :
    Field ρ := ⟨α, name, codec, none, fun _ => false, get, set⟩

/-- A field that is always written, and whose absence stands for a value. -/
def withDefault {α : Type} (name : String) (codec : Codec α) (absent : α) (get : ρ → α)
    (set : α → ρ → ρ) : Field ρ := ⟨α, name, codec, some absent, fun _ => false, get, set⟩

/-- A field that is written only if it has a value. -/
def maybe {α : Type} (name : String) (codec : Codec α) (get : ρ → Option α)
    (set : Option α → ρ → ρ) : Field ρ :=
  ⟨Option α, name, optional codec, some none, Option.isNone, get, set⟩

/-- The member that a field of a record is written as, if it is written. -/
def member? (f : Field ρ) (r : ρ) : Option (String × Json) :=
  if f.omits (f.get r) then none else some (f.name, f.codec.write (f.get r))

end Field

/-- The shape of a record. -/
structure Shape (ρ : Type) where
  name : String
  fields : List (Field ρ)
  blank : ρ
  strict : Bool

namespace Shape

variable {ρ : Type}

/-- The field with a name. -/
def field? (s : Shape ρ) (name : String) : Option (Field ρ) :=
  s.fields.find? fun f => f.name == name

/-- The field that a text names. -/
def fieldNamed (s : Shape ρ) (name : String) : Except Fault (Option (Field ρ)) :=
  match s.field? name with
  | some f => .ok (some f)
  | none =>
    if s.strict then .error (.data (.unknownField name (s.fields.map Field.name)) none)
    else .ok none

/-- The field that the key of a member names: by its name, or in a buffered document also
by its number. -/
def fieldFor (s : Shape ρ) (m : Manner) : Node → Except Fault (Option (Field ρ))
  | .atom (.text name) => s.fieldNamed name
  | .plain written _ v =>
    if m.isOpenYaml then s.fieldNamed written else s.fieldFor m v
  | .atom (.int i) =>
    if m.buffered && 0 ≤ i then .ok s.fields[i.toNat]?
    else .error (.data (.wrongType (.atom (.int i)) "field identifier") none)
  | v => .error (v.refuse "field identifier")

/-- Reads a member into a record, unless its field was seen before. -/
def readMember (f : Field ρ) (m : Manner) (key value : Node) (seen : List String) (r : ρ) :
    Except Fault (List String × ρ) := do
  if f.name ∈ seen then throw (.data (.duplicate f.name) none)
  let x ← m.within key.stepTo (f.codec.read m value)
  return (f.name :: seen, f.set x r)

/-- Reads members one after the other into a record; `seen` are the names of the fields
read so far. -/
def readMembers (s : Shape ρ) (m : Manner) :
    List (Node × Node) → (seen : List String) → ρ → Except Fault (List String × ρ)
  | [], seen, r => .ok (seen, r)
  | (key, value) :: rest, seen, r =>
    match s.fieldFor m key with
    | .error fault => .error fault
    | .ok none => do
      value.skip
      s.readMembers m rest seen r
    | .ok (some f) => do
      let (seen, r) ← readMember f m key value seen r
      s.readMembers m rest seen r

/-- Stores in a record what the absence of the fields that were not seen stands for. -/
def complete : List (Field ρ) → (seen : List String) → ρ → Except Fault ρ
  | [], _, r => .ok r
  | f :: rest, seen, r =>
    if f.name ∈ seen then complete rest seen r
    else match f.absent with
      | some x => complete rest seen (f.set x r)
      | none => .error (.data (.missing f.name) none)

/-- How many elements the list form of a record has. -/
def elements (s : Shape ρ) : String :=
  s.name ++ (if s.fields.length = 1 then " with 1 element"
    else s!" with {s.fields.length} elements")

/-- Reads the list form of a record; `index` is the number of the first of the fields.
What is left of the list comes back with the record. -/
def readPositions (s : Shape ρ) (m : Manner) (ending : Ending) :
    (index : Nat) → List (Field ρ) → List Node → ρ → Except Fault (List Node × ρ)
  | _, [], items, r => .ok (items, r)
  | index, f :: fields, v :: items, r => do
    let x ← m.within (.item index) (f.codec.read m v)
    s.readPositions m ending (index + 1) fields items (f.set x r)
  | index, f :: fields, [], r => do
    Node.raise ending.listFlaw?
    match f.absent with
    | some x => s.readPositions m ending (index + 1) fields [] (f.set x r)
    | none => throw (.data (.wrongLength index s.elements) none)

/-- Reads the object form of a record. -/
def readObject (s : Shape ρ) (m : Manner) (members : List (Node × Node)) (ending : Ending) :
    Except Fault ρ := do
  let (seen, r) ← s.readMembers m members [] s.blank
  Node.raise ending.objectFlaw?
  complete s.fields seen r

/-- Reads the list form of a record, to its end. -/
def readList (s : Shape ρ) (m : Manner) (items : List Node) (ending : Ending) :
    Except Fault ρ := do
  let (rest, r) ← s.readPositions m ending 0 s.fields items s.blank
  if rest.isEmpty then Node.raise ending.surplusFlaw?
  else throw (m.refuseSurplus items.length (items.length - rest.length))
  return r

/-- Reads a record. -/
def read (s : Shape ρ) (m : Manner) (n : Node) : Except Fault ρ :=
  m.settle (match n with
    | .object members ending => s.readObject m members ending
    | .list items ending => s.readList m items ending
    | n => .error (n.refuse s.name))

/-- The members that a record is written as. -/
def members (s : Shape ρ) (r : ρ) : List (String × Json) :=
  s.fields.filterMap fun f => f.member? r

/-- The codec of a record. -/
def codec (s : Shape ρ) : Codec ρ := ⟨fun r => .object (s.members r), s.read⟩

end Shape

end ExchangeArchive.Document
