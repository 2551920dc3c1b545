import ExchangeArchive.Recorder.Session
import ExchangeArchive.Trace.Observer
import ExchangeArchive.Transport.Script
import ExchangeArchive.Trip.Report
/-
One call: a request on its way through a recorder.

A call has its own timing, its own bodies and its own observers, and shares only the
clock with other calls. `begin` takes the request; `perform` lets a transport do what it
does with it; `report` is what there is to record.
-/

set_option autoImplicit false

namespace ExchangeArchive.Recorder

open ExchangeArchive.Body ExchangeArchive.Http ExchangeArchive.Page ExchangeArchive.Time
  ExchangeArchive.Trace ExchangeArchive.Transport ExchangeArchive.Trip

/-- A request as a caller makes it. -/
structure Outgoing where
  head : RequestHead
  body : Script
  markers : Markers := {}
  /-- Whether the caller wants to see the events. -/
  traced : Bool := false

/-- Where the request body of a call is. -/
inductive Custody where
  /-- With the transport, during the call. -/
  | transport
  /-- Kept by the transport beyond the call. -/
  | held
  | dropped
  deriving DecidableEq, Repr

/-- A request on its way, with everything that its entry will be made of. What the caller and the
transport have of it, bodies included, is in here too. -/
structure Call where
  isRecorded : Bool
  /-- Whether the transport has still to be called. -/
  isWaiting : Bool := true
  tracker : Tracker
  pageRef : Option String
  endPage : Option String
  request : RequestHead
  /-- The markers stay with the request, for the transport to see. -/
  markers : Markers := {}
  requestBody : Observed
  custody : Custody := .transport
  /-- Whether the caller sees the events. -/
  traced : Bool
  /-- The events that the caller has seen. -/
  seen : List Event := []
  response : Option ResponseHead := none
  /-- The response body, as long as the caller has it. -/
  responseBody : Option Observed := none
  error : Option String := none

namespace Call

/-! ## The beginning -/

/-- Whether a request is to be recorded: all are, or those that ask for it. -/
def wants (includeAll : Bool) (o : Outgoing) : Bool := includeAll || o.markers.isIncluded

/-- The request body as the transport gets it. A body that has already ended is not
observed, and neither is that of a call that is not recorded. -/
def observedRequest (isRecorded : Bool) (body : Script) : Observed :=
  if isRecorded && !body.isEndStream then .new body false else .passthrough body

/-- Takes a request. Whether it is recorded is settled here, once, from its markers as they are
now. -/
def begin (includeAll : Bool) (c : Clock) (o : Outgoing) : Call where
  isRecorded := wants includeAll o
  tracker := .new c
  pageRef := o.markers.pageRef
  endPage := o.markers.endPage
  request := o.head
  markers := o.markers
  requestBody := observedRequest (wants includeAll o) o.body
  traced := o.traced

/-! ## Events -/

/-- The observer that times the call. -/
def timing (now : Nat) : Observer Call :=
  ⟨fun e call => { call with tracker := call.tracker.apply now e }⟩

/-- The observer of the caller. -/
def caller : Observer Call := ⟨fun e call => { call with seen := call.seen ++ [e] }⟩

/-- The observer that the transport finds with the request: of a recorded call the timing
and then the caller, of any other only the caller. -/
def observer? (call : Call) (now : Nat) : Option (Observer Call) :=
  match call.isRecorded, call.traced with
  | true, true => some ((timing now).chain caller)
  | true, false => some (timing now)
  | false, true => some caller
  | false, false => none

/-- A request as a transport receives it. -/
structure Received where
  head : RequestHead
  markers : Markers
  observer : Option (Observer Call)
  body : Observed

/-- The request of a call as its transport receives it: the head and the markers of the caller,
with whoever is to be told of events. -/
def received (call : Call) (now : Nat) : Received where
  head := call.request
  markers := call.markers
  observer := call.observer? now
  body := call.requestBody

/-- Reports an event to whoever is observing. -/
def see (call : Call) (now : Nat) (e : Event) : Call :=
  match call.observer? now with
  | some o => o.see e call
  | none => call

/-! ## The transport -/

/-- What a transport gets from reading a request body, or nothing if it has none. -/
inductive Reading where
  | polled (result : Option (Poll Error))
  | drained (results : Option (List (Poll Error)))

/-- The error that a drained body ended in. -/
def drainError? (results : List (Poll Error)) : Option Error :=
  match results.getLast? with
  | some (.failed e) => some e
  | _ => none

/-- Polls the request body so many times, also beyond its end; the time that each poll takes
passes. -/
def readTimes : Nat → Clock → Call → List Reading × Clock × Call
  | 0, c, call => ([], c, call)
  | n + 1, c, call =>
    let p := call.requestBody.poll
    let (more, c, call) := readTimes n (c.advance p.waited) { call with requestBody := p.body }
    (.polled (some p.result) :: more, c, call)

/-- Does one action: what was read, why the transport fails if it does, the clock and the
call after it. -/
def act (c : Clock) (call : Call) : Action →
    List Reading × Except String Unit × Clock × Call
  | .wait nanos => ([], .ok (), c.advance nanos, call)
  | .report e => ([], .ok (), c, call.see c.elapsed e)
  -- A body that the transport has dropped or kept already is neither dropped nor kept again.
  | .dropBody =>
    let custody := if call.custody = .transport then .dropped else call.custody
    ([], .ok (), c, { call with custody := custody })
  | .holdBody =>
    let custody := if call.custody = .transport then .held else call.custody
    ([], .ok (), c, { call with custody := custody })
  | .read n =>
    match call.custody with
    | .transport =>
      let (readings, c, call) := readTimes n c call
      (readings, .ok (), c, call)
    | _ => (List.replicate n (.polled none), .ok (), c, call)
  | .readAll =>
    match call.custody with
    | .transport =>
      let (results, body, waited) := call.requestBody.drain call.requestBody.length
      let outcome := match drainError? results with
        | some e => .error e.message
        | none => .ok ()
      ([.drained (some results)], outcome, c.advance waited, { call with requestBody := body })
    | _ => ([.drained none], .ok (), c, call)

/-- Does actions up to the first that makes the transport fail; what comes after that is never
done. -/
def actAll : Clock → Call → List Action → List Reading × Except String Unit × Clock × Call
  | c, call, [] => ([], .ok (), c, call)
  | c, call, a :: rest =>
    match act c call a with
    | (readings, .error text, c, call) => (readings, .error text, c, call)
    | (readings, .ok (), c, call) =>
      let (more, outcome, c, call) := actAll c call rest
      (readings ++ more, outcome, c, call)

/-- Lets a transport do what it does with the call: what it read, its answer, the clock
and the call after it. A request body that was not kept is dropped. -/
def perform (c : Clock) (call : Call) (reply : Reply) :
    List Reading × Except String (ResponseHead × Script) × Clock × Call :=
  let (readings, outcome, c, call) := actAll c call reply.actions
  let custody := if call.custody = .held then .held else .dropped
  let answer := match outcome with
    | .error text => .error text
    | .ok () => reply.answer
  (readings, answer, c, { call with custody := custody })

/-! ## What there is to record -/

/-- The report of a call, as it stands: a body that is still being read is in it with what was
captured so far. -/
def report (call : Call) : Report where
  tracker := call.tracker
  pageRef := call.pageRef
  request := call.request
  requestBody := call.requestBody.capture
  response := call.response
  responseBody := call.responseBody.bind (·.capture)
  error := call.error

end Call

end ExchangeArchive.Recorder
