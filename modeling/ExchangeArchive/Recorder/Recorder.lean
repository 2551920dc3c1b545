import ExchangeArchive.Recorder.Call
/-
Recorders.

A recorder forwards a request to a transport and records what happens. The entry of a
call is delivered when its response body has been read to its end, closed or dropped,
and at once if the transport fails; an error of that delivery reaches whoever caused it,
except when a body is dropped. A page that the request ends is finished once the
transport is done, after the entry of a failed call. Calls that are not to be recorded
pass through.
-/

set_option autoImplicit false

namespace ExchangeArchive

open ExchangeArchive.Archive ExchangeArchive.Body ExchangeArchive.Http
  ExchangeArchive.Pipeline ExchangeArchive.Recorder ExchangeArchive.Transport

/-- A recorder: what it says of itself, which requests it records, and where its records
go. -/
structure Recorder where
  version : Archive.Version
  includeAll : Bool
  pipeline : Pipeline Session

namespace Recorder

/-! ## Building -/

/-- What a recorder is built from. -/
structure Builder where
  version : Archive.Version := {}
  receiver : Option Receiver := none
  entryMiddleware : List (EntryMiddleware Session) := []
  pageMiddleware : List (PageMiddleware Session) := []
  includeAll : Bool := true

/-- Builds a recorder and starts its receiver. If that fails there is no recorder, though the
receiver has been put into the session. -/
def Builder.build (b : Builder) : StateM Session (Except Error Recorder) := fun s =>
  match b.receiver with
  | none => (.error .noReceiver, s)
  | some r =>
    match Session.start b.version { s with receiver := r } with
    | (.error e, s) => (.error e, s)
    | (.ok (), s) =>
      (.ok ⟨b.version, b.includeAll, Session.pipeline b.entryMiddleware b.pageMiddleware⟩, s)

/-! ## Calls -/

/-- Takes a request. A page that it starts is registered before anything else happens, so that a
request made meanwhile can end it; one of a request that is not recorded is not registered. -/
def begin (r : Recorder) (o : Outgoing) (s : Session) : Call × Session :=
  let call := Call.begin r.includeAll s.clock o
  match call.isRecorded, o.markers.start with
  | true, some start => (call, { s with pages := s.pages.start start })
  | _, _ => (call, s)

/-- Delivers the entry of a call. The entry is made now, from what has been observed by now. -/
def deliver (r : Recorder) (call : Call) (s : Session) : Except Error Unit × Session :=
  r.pipeline.sendEntry (call.report.toEntry s.now) s

/-- Ends the page that a call ends, if the call is recorded and if its markers name one. -/
def endPage (r : Recorder) (call : Call) (s : Session) : Session :=
  match call.isRecorded, call.endPage with
  | true, some id => s.finalizePage r.pipeline id
  | _, _ => s

/-- What running a call comes to. -/
structure Ran where
  readings : List Call.Reading
  result : Except Error ResponseHead
  call : Call
  session : Session

/-- Runs a call to its response, or to the failure of the transport. A response is handed on with
its body under observation, and its entry has to wait for that; the entry of a failure is delivered
here, and if that fails too its error is the one that is told. -/
def run (r : Recorder) (call : Call) (reply : Reply) (s : Session) : Ran :=
  let (readings, answer, clock, call) := call.perform s.clock reply
  let call := { call with isWaiting := false }
  let s := { s with clock := clock }
  if !call.isRecorded then
    match answer with
    | .error text => ⟨readings, .error (.transport text), call, s⟩
    | .ok (head, body) =>
      ⟨readings, .ok head, { call with responseBody := some (.passthrough body) }, s⟩
  else
    match answer with
    | .ok (head, body) =>
      let call := { call with
        tracker := call.tracker.responseHeaders s.now
        response := some head
        responseBody := some (.new body true) }
      ⟨readings, .ok head, call, r.endPage call s⟩
    | .error text =>
      let call := { call with
        error := some text
        tracker := call.tracker.responseRead s.now }
      -- The page is ended behind the entry, whether or not the entry could be delivered.
      let (delivered, s) := r.deliver call s
      let result := match delivered with
        | .error e => .error e
        | .ok () => .error (.transport text)
      ⟨readings, result, call, r.endPage call s⟩

/-! ## Response bodies -/

/-- Completes a call whose response body has ended, or was closed or dropped: notes the
time and delivers the entry. -/
def completeCall (r : Recorder) (call : Call) (s : Session) :
    Except Error Unit × Call × Session :=
  let call := { call with tracker := call.tracker.responseRead s.now }
  let (delivered, s) := r.deliver call s
  (delivered, call, s)

/-- Polls the response body of a call; nothing if the caller has none. At the poll that comes to the
end the entry is delivered, and an error of that takes the place of the end. -/
def pollBody (r : Recorder) (call : Call) (s : Session) :
    Option (Poll Error) × Call × Session :=
  match call.responseBody with
  | none => (none, call, s)
  | some body =>
    let p := body.poll
    let call := { call with responseBody := some p.body }
    let s := s.advance p.waited
    if p.due then
      match r.completeCall call s with
      | (.error e, call, s) => (some (.failed e), call, s)
      | (.ok (), call, s) => (some p.result, call, s)
    else (some p.result, call, s)

/-- Closes the response body of a call; nothing if the caller has none. Only the first time is there
an entry to deliver, and only unless the body was read to its end before. -/
def closeBody (r : Recorder) (call : Call) (s : Session) :
    Option (Except Error Unit) × Call × Session :=
  match call.responseBody with
  | none => (none, call, s)
  | some body =>
    match body.complete with
    | (body, false) => (some (.ok ()), { call with responseBody := some body }, s)
    | (body, true) =>
      let (delivered, call, s) := r.completeCall { call with responseBody := some body } s
      (some delivered, call, s)

/-- Drops the response body of a call, and says whether the caller had one. An error of the
delivery is lost. -/
def dropBody (r : Recorder) (call : Call) (s : Session) : Bool × Call × Session :=
  let (closed, call, s) := r.closeBody call s
  (closed.isSome, { call with responseBody := none }, s)

/-- Drops what the caller has of a call, and says whether there was anything. A call that
was never run is dropped without a trace. -/
def drop (r : Recorder) (call : Call) (s : Session) : Bool × Call × Session :=
  if call.isWaiting then (true, { call with isWaiting := false, custody := .dropped }, s)
  else r.dropBody call s

/-! ## Request bodies -/

/-- Polls the request body that a transport kept; nothing if it kept none. What is read of it after
the entry was delivered comes too late to be recorded. -/
def pollRequest (call : Call) (s : Session) : Option (Poll Error) × Call × Session :=
  match call.custody with
  | .held =>
    let p := call.requestBody.poll
    (some p.result, { call with requestBody := p.body }, s.advance p.waited)
  | _ => (none, call, s)

end Recorder

end ExchangeArchive
