import ExchangeArchive.Body.Script
import ExchangeArchive.Error
/-
Bodies under observation.

An observed body passes on what the body inside it gives and copies the data into a
capture. When the inner body ends, or the observed body is closed or dropped, the
capture is complete; whoever waits for that is told once, and never again. After the
end the inner body is not polled any more. An error of the inner body passes through
and completes nothing.

Telling is left to the caller: an operation says whether the completion is due, and
what its result then replaces.
-/

set_option autoImplicit false

namespace ExchangeArchive.Body

/-- What was observed of a body. -/
structure Capture where
  octets : List UInt8 := []
  complete : Bool := false
  deriving DecidableEq, Repr

/-- How many octets were observed. -/
def Capture.size (c : Capture) : Nat := c.octets.length

/-- A body under observation; without a capture it is passed through as it is. -/
structure Observed where
  inner : Script
  capture : Option Capture
  /-- Whether someone waits for the completion. -/
  awaited : Bool
  /-- Whether the inner body has ended. -/
  done : Bool := false

namespace Observed

/-- A body under observation from its beginning. -/
def new (inner : Script) (awaited : Bool) : Observed := ⟨inner, some {}, awaited, false⟩

/-- A body that is passed through unobserved. -/
def passthrough (inner : Script) : Observed := ⟨inner, none, false, false⟩

/-- Completes the capture, and says whether a completion is due. It is due if somebody waits for
it, and nobody does so afterwards. -/
def complete (o : Observed) : Observed × Bool :=
  match o.capture with
  | none => (o, false)
  | some c =>
    if c.complete then (o, false)
    else ({ o with capture := some { c with complete := true }, awaited := false }, o.awaited)

/-- The body after a poll of the inner one that gave these data. -/
def observe (o : Observed) (octets : List UInt8) (inner : Script) : Observed :=
  { o with
    inner := inner
    capture := o.capture.map fun c => { c with octets := c.octets ++ octets } }

/-- What a poll of an observed body comes to. -/
structure Polled where
  /-- The nanoseconds that pass. -/
  waited : Nat
  /-- What the poll gives, unless a completion fails. -/
  result : Poll Error
  /-- Whether a completion is due. -/
  due : Bool
  body : Observed

/-- Polls an observed body. Only the end of the inner body completes it; an error does not, and
neither do trailers, as there may be more to come. -/
def poll (o : Observed) : Polled :=
  if o.done then ⟨0, .ended, false, o⟩
  else
    match o.inner.poll with
    | (waited, .ended, inner) =>
      let (o, due) := complete { o with inner := inner, done := true }
      ⟨waited, .ended, due, o⟩
    | (waited, p, inner) => ⟨waited, p.mapError Error.body, false, o.observe p.octets inner⟩

/-- Whether the body says that it has ended. While a completion is awaited a reader has
to poll on to the end. -/
def isEndStream (o : Observed) : Bool := o.done || (!o.awaited && o.inner.isEndStream)

/-- The size hint is that of the inner body. -/
def sizeHint (o : Observed) : SizeHint := o.inner.sizeHint

/-- Drains a body whose completion nobody awaits: what each poll gives up to the end or
the first error, the body after that, and the nanoseconds that pass. The fuel bounds the polls;
`length` is always enough of it. -/
def drain : (fuel : Nat) → Observed → List (Poll Error) × Observed × Nat
  | 0, o => ([], o, 0)
  | fuel + 1, o =>
    let p := o.poll
    if p.result.isLast then ([p.result], p.body, p.waited)
    else
      let (more, body, waited) := drain fuel p.body
      (p.result :: more, body, p.waited + waited)

/-- How many polls a body can take before its end at most. -/
def length (o : Observed) : Nat := o.inner.cues.length + 1

/-- The text that describes a body whose inner one is called `inner`. -/
def describe (inner : String) (o : Observed) : String :=
  let observed := match o.capture with
    | some c => s!"Some({c.size})"
    | none => "None"
  s!"ObservedBody \x7b inner: {inner}, observed: {observed}, pending: {o.awaited} \x7d"

end Observed

/-- What is captured of a body that is read up to its end or the first error, and the
nanoseconds that pass. -/
def Capture.ofScript (s : Script) : Capture × Nat :=
  let o := Observed.new s false
  let (_, o, waited) := o.drain o.length
  (o.capture.getD {}, waited)

end ExchangeArchive.Body
