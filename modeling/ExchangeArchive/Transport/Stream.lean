import ExchangeArchive.Error
import ExchangeArchive.Transport.Script
/-
Streams whose use is reported.

A traced stream passes every operation on to the stream inside it and every outcome back
unchanged. It reports the first byte of the response at the first read that gives one, and
the end of the request at each flush after a write, as long as nothing has been read.
-/

set_option autoImplicit false

namespace ExchangeArchive.Transport

open ExchangeArchive.Body ExchangeArchive.Http ExchangeArchive.Trace

/-- An operation on a stream. -/
inductive StreamCall where
  | read
  | write
  /-- Writes several pieces at once. -/
  | gather
  | flush
  deriving DecidableEq, Repr

/-- The outcome of an operation on a stream. -/
inductive StreamOutcome where
  | pending
  | failed (fault : IoFault)
  /-- So many octets were read or written. -/
  | done (count : Nat)
  deriving DecidableEq, Repr

/-- What a traced stream knows of its past. -/
structure TracedStream where
  /-- Whether something was written since the request was last reported as written. -/
  wrote : Bool := false
  /-- Whether something was read. -/
  didRead : Bool := false
  deriving DecidableEq, Repr

namespace TracedStream

/-- Does an operation, given its outcome on the stream inside: its outcome, what is
reported, and the stream after it. Once something has been read, nothing that is written counts as
the request any more. -/
def step (t : TracedStream) (call : StreamCall) (inner : StreamOutcome) :
    StreamOutcome × List Event × TracedStream :=
  match call, inner with
  | .read, .done count =>
    if !t.didRead && 0 < count then (inner, [.firstResponseByte], { t with didRead := true })
    else (inner, [], t)
  | .write, .done count | .gather, .done count =>
    (inner, [], { t with wrote := t.wrote || count != 0 })
  | .flush, .done _ =>
    if t.wrote && !t.didRead then (inner, [.wroteRequest], { t with wrote := false })
    else (inner, [], t)
  | _, _ => (inner, [], t)

/-- What is reported during operations. -/
def events : TracedStream → List (StreamCall × StreamOutcome) → List Event
  | _, [] => []
  | t, (call, inner) :: rest =>
    let (_, reported, t) := t.step call inner
    reported ++ events t rest

end TracedStream

/-! ## Exchanges on a connection -/

/-- One moment of an exchange: something that a transport does, or an operation on the
stream of the connection with its outcome there. -/
inductive Moment where
  | act (action : Action)
  | io (call : StreamCall) (inner : StreamOutcome)

/-- What happens to a request on a connection, and what comes of it. -/
structure Exchange where
  moments : List Moment
  answer : Except String (ResponseHead × Script)

/-- The actions of moments; operations on the stream are seen only by what they report. -/
def actions : TracedStream → List Moment → List Action
  | _, [] => []
  | t, .act a :: rest => a :: actions t rest
  | t, .io call inner :: rest =>
    let (_, reported, t) := t.step call inner
    reported.map Action.report ++ actions t rest

end ExchangeArchive.Transport
