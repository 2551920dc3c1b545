import ExchangeArchive.Archive.Record
import ExchangeArchive.Text.Blank
import ExchangeArchive.Time.Clock
import ExchangeArchive.Time.Millis
import ExchangeArchive.Trace.Event
/-
The phases of a request, reconstructed from its events.

The phases are, in order: blocked, dns, connect, ssl, send, wait and receive. Each is
the time from its start to its end. dns, connect and ssl remain not applicable unless
they are reported; an end without a start counts from the beginning. Everything is kept
in exact nanoseconds and turned into milliseconds only in `finish`.
-/

set_option autoImplicit false

namespace ExchangeArchive.Trip

open ExchangeArchive.Archive ExchangeArchive.Time ExchangeArchive.Trace ExchangeArchive.Text

/-- When the phases under way began. -/
structure Marks where
  blocked : Option Nat := none
  dns : Option Nat := none
  connect : Option Nat := none
  tls : Option Nat := none
  send : Option Nat := none
  wait : Option Nat := none
  response : Option Nat := none
  deriving DecidableEq, Repr

/-- How long the phases took, in nanoseconds; none for one that does not apply. -/
structure Phases where
  blocked : Option Nat := none
  dns : Option Nat := none
  connect : Option Nat := none
  tls : Option Nat := none
  send : Nat := 0
  wait : Nat := 0
  receive : Nat := 0
  deriving DecidableEq, Repr

/-- A tracker of one request. -/
structure Tracker where
  started : Nat
  startedDateTime : Timestamp
  marks : Marks := {}
  phases : Phases := {}
  serverIPAddress : Option String := none
  connection : Option String := none

/-- The address and the connection of a host with its port: what stands before and after
the last colon. Without a colon there is no connection. -/
def splitHostPort (address : String) : String × String :=
  match splitLast? ':' address.toList with
  | some (before, after) => (String.ofList before, String.ofList after)
  | none => (address, "")

namespace Tracker

/-- The tracker of a request that starts now. -/
def new (c : Clock) : Tracker := { started := c.elapsed, startedDateTime := c.timestamp }

/-- The time from a mark, or from the start if there is none, until now. -/
def since (t : Tracker) (mark : Option Nat) (now : Nat) : Nat := now - mark.getD t.started

/-- Notes the first byte of the response, and no later one. It may be reported by the stream, by the
headers or by both, and the first report counts. -/
def noteResponse (t : Tracker) (now : Nat) : Tracker :=
  match t.marks.response with
  | some _ => t
  | none =>
    { t with
      phases := { t.phases with wait := t.since (t.marks.wait.or t.marks.send) now }
      marks := { t.marks with response := some now } }

/-- Applies an event that is seen now. An event that comes again counts again, so of several
attempts to connect the last one is what is reported. -/
def apply (t : Tracker) (now : Nat) : Event → Tracker
  | .getConnection _ => { t with marks := { t.marks with blocked := some now } }
  | .gotConnection _ =>
    { t with
      phases := { t.phases with blocked := some (t.since t.marks.blocked now) }
      marks := { t.marks with send := some now } }
  | .dnsStart _ => { t with marks := { t.marks with dns := some now } }
  | .dnsDone => { t with phases := { t.phases with dns := some (t.since t.marks.dns now) } }
  | .connectStart address =>
    let (host, port) := splitHostPort address
    { t with
      serverIPAddress := some host
      connection := if port.isEmpty then none else some port
      marks := { t.marks with connect := some now } }
  | .connectDone =>
    { t with
      phases := { t.phases with connect := some (t.since t.marks.connect now) }
      marks := { t.marks with send := some now } }
  | .tlsStart => { t with marks := { t.marks with tls := some now } }
  | .tlsDone =>
    { t with
      phases := { t.phases with tls := some (t.since t.marks.tls now) }
      marks := { t.marks with send := some now } }
  | .wroteRequest =>
    { t with
      phases := { t.phases with send := t.since t.marks.send now }
      marks := { t.marks with wait := some now } }
  | .firstResponseByte => t.noteResponse now

/-- Notes that the response's headers are there, which stands in for its first byte. -/
def responseHeaders (t : Tracker) (now : Nat) : Tracker := t.noteResponse now

/-- Notes that the response has been read, which ends the receive phase. -/
def responseRead (t : Tracker) (now : Nat) : Tracker :=
  { t with phases := { t.phases with receive := now - t.marks.response.getD now } }

/-- A phase in milliseconds. -/
def phaseMillis : Option Nat → Float
  | some nanos => millis nanos
  | none => notApplicable

/-- The phases as a record. -/
def timings (t : Tracker) : Timings where
  blocked := phaseMillis t.phases.blocked
  dns := phaseMillis t.phases.dns
  connect := phaseMillis t.phases.connect
  send := millis t.phases.send
  wait := millis t.phases.wait
  receive := millis t.phases.receive
  ssl := phaseMillis t.phases.tls

/-- The milliseconds since the start. -/
def time (t : Tracker) (now : Nat) : Float := millis (now - t.started)

end Tracker

end ExchangeArchive.Trip
