import ExchangeArchive.Config.Config
import ExchangeArchive.Json.Text
import ExchangeArchive.Time.Duration
/-
The documents of descriptions.

A description is strict: it has no other members than its own. Its output says by one
of its members, `type`, of which kind it is; the other members are read as a whole first
and then as a record of that kind, which passes over members it does not know.
-/

set_option autoImplicit false

namespace ExchangeArchive.Config

open ExchangeArchive.Document ExchangeArchive.Time

/-! ## Values -/

/-- Paths. -/
def path : Codec String := ⟨Json.text, readText "path string"⟩

/-- Lengths of time in nanoseconds. -/
def duration : Codec Nat where
  write n := Json.text (durationText n)
  read m n := m.settle do
    let s ← readText "a duration" m n
    match readDuration s.toList with
    | .ok nanos => return nanos
    | .error .overflow => throw .overflow
    | .error .invalid => throw (.data (.wrongValue (.atom (.text s)) "a duration") none)

/-- Reads the members of an object of texts. -/
def readRedactions (m : Manner) : List (Node × Node) → Redactions → Except Fault Redactions
  | [], r => .ok r
  | (key, value) :: rest, r => do
    let name ← text.read m key
    let value ← m.within key.stepTo (text.read m value)
    readRedactions m rest (r.insert name value)

/-- Names of headers with the values that replace theirs. -/
def redactions : Codec Redactions where
  write r := .object (r.pairs.map fun (name, value) => (name, Json.text value))
  read m n := m.settle (match n with
    | .object members ending => do
      let r ← readRedactions m members .empty
      Node.raise ending.objectFlaw?
      return r
    | n => .error (n.refuse "a map"))

/-! ## Outputs -/

/-- The kinds of outputs. -/
inductive OutputKind where
  | file
  | checkpoint
  deriving DecidableEq, Repr

/-- The name of a kind. -/
def OutputKind.name : OutputKind → String
  | .file => "file"
  | .checkpoint => "checkpoint"

/-- The kinds by their names. -/
def outputKinds : List OutputKind := [.file, .checkpoint]

/-- The member that names the kind. -/
def kindName : String := "type"

/-- Reads the name of a kind. -/
def readKind (m : Manner) (n : Node) : Except Fault OutputKind := m.settle do
  let name ← readText "variant identifier" m n
  match outputKinds.find? fun k => k.name == name with
  | some k => return k
  | none => throw (.data (.unknownVariant name (outputKinds.map OutputKind.name)) none)

/-- The shape of an output to one file. -/
def fileShape : Shape String where
  name := "struct variant Output::File"
  fields := [.required "path" path id (fun v _ => v)]
  blank := ""
  strict := false

/-- The shape of an output to a sequence of files. -/
def rotationShape : Shape Rotation where
  name := "struct CheckpointConfig"
  fields := [
    .required "directory" path (·.directory) (fun v r => { r with directory := v }),
    .withDefault "prefix" text Receiver.defaultBeginning (·.beginning)
      (fun v r => { r with beginning := v }),
    .withDefault "maxBytes" nat64 Receiver.defaultMaxBytes (·.maxBytes)
      (fun v r => { r with maxBytes := v }),
    .maybe "maxDuration" duration (·.maxDuration) (fun v r => { r with maxDuration := v })]
  blank := {}
  strict := false

/-- How many lists and objects may be nested inside an output, which itself stands inside a
description. -/
def roomInOutput (m : Manner) : Nat := m.depthLimit - 2

/-- Reads the members of an output: the kind, and the other members as a whole. -/
def readOutputMembers (m : Manner) : List (Node × Node) → (kind : Option OutputKind) →
    Except Fault (Option OutputKind × List (Node × Node))
  | [], kind => .ok (kind, [])
  | (key, value) :: rest, kind => do
    let key' ← key.buffer m (roomInOutput m)
    match key' with
    | .atom (.text "type") =>
      if kind.isSome then throw (.data (.duplicate kindName) none)
      let k ← m.within key.stepTo (readKind m value)
      readOutputMembers m rest (some k)
    | _ =>
      let value ← m.within key.stepTo (value.buffer m (roomInOutput m))
      let (kind, more) ← readOutputMembers m rest kind
      return (kind, (key', value) :: more)

/-- Reads an output as far as its kind is concerned; the rest is a document of its own. -/
def splitOutput (m : Manner) (n : Node) : Except Fault (OutputKind × Node) := m.settle do
  match n with
  | .object members ending =>
    let (kind, rest) ← readOutputMembers m members none
    Node.raise ending.objectFlaw?
    match kind with
    | some k => return (k, .object rest .closed)
    | none => throw (.data (.missing kindName) none)
  | .list [] ending =>
    Node.raise ending.listFlaw?
    throw (.data (.missing kindName) none)
  | .list (first :: rest) ending =>
    let kind ← m.within (.item 0) (readKind m first)
    let rest ← Node.bufferItems m (roomInOutput m) 1 rest
    Node.raise ending.listFlaw?
    return (kind, .list rest .closed)
  | n => throw (n.refuse "internally tagged enum Output")

/-- Outputs. -/
def outputCodec : Codec Output where
  write
    | .file p => .object ((kindName, .text OutputKind.file.name) :: fileShape.members p)
    | .checkpoint r =>
      .object ((kindName, .text OutputKind.checkpoint.name) :: rotationShape.members r)
  read m n := do
    match ← splitOutput m n with
    | (.file, rest) => return .file (← fileShape.read m.buffer rest)
    | (.checkpoint, rest) => return .checkpoint (← rotationShape.read m.buffer rest)

/-! ## Descriptions -/

/-- The shape of a description. -/
def shape : Shape Config where
  name := "struct Config"
  fields := [
    .maybe "creator" text (·.creator) (fun v r => { r with creator := v }),
    .maybe "version" text (·.version) (fun v r => { r with version := v }),
    .maybe "harVersion" text (·.harVersion) (fun v r => { r with harVersion := v }),
    .withDefault "includeAll" boolean true (·.includeAll) (fun v r => { r with includeAll := v }),
    { Value := Redactions
      name := "redactHeaders"
      codec := redactions
      absent := some .empty
      omits := fun r => r.pairs.isEmpty
      get := (·.redactHeaders)
      set := fun v r => { r with redactHeaders := v } },
    .required "output" outputCodec (·.output) (fun v r => { r with output := v })]
  blank := { output := .file "" }
  strict := true

/-- The codec of descriptions. -/
def codec : Codec Config := shape.codec

end ExchangeArchive.Config
