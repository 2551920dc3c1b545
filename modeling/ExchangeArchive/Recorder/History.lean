import ExchangeArchive.Recorder.Recorder
/-
Histories: many calls of one recorder, their operations in any order.

An operation names a call by its number, calls being numbered in the order in which they
began. `step` does one operation on the session and the calls, and says what the one who
asked for it gets to see.
-/

set_option autoImplicit false

namespace ExchangeArchive.Recorder

open ExchangeArchive.Body ExchangeArchive.Http ExchangeArchive.Transport

/-- An operation on a recorder or one of its calls. -/
inductive Operation where
  | begin (o : Outgoing)
  | run (call : Nat) (reply : Reply)
  | poll (call : Nat)
  | close (call : Nat)
  | drop (call : Nat)
  | pollRequest (call : Nat)
  | flush
  | closeReceiver
  | advance (nanos : Nat)

/-- What the one who asked for an operation gets to see. -/
inductive Answer where
  | begun (call : Nat)
  | ran (readings : List Call.Reading) (result : Except Error ResponseHead)
  | polled (result : Poll Error)
  | closed (result : Except Error Unit)
  | dropped (was : Bool)
  | done (result : Except Error Unit)
  /-- There is nothing to do the operation on. -/
  | gone

/-- A session and its calls, oldest first. -/
structure State where
  session : Session
  calls : List Call := []

namespace State

/-- The state with another call under a number. -/
def store (st : State) (n : Nat) (call : Call) (s : Session) : State :=
  ⟨s, st.calls.set n call⟩

/-- Does something with a call, if there is one. -/
def withCall (st : State) (n : Nat) (act : Call → Session → Answer × Call × Session) :
    Answer × State :=
  match st.calls[n]? with
  | none => (.gone, st)
  | some call =>
    let (answer, call, s) := act call st.session
    (answer, st.store n call s)

end State

/-- The answer to a poll. -/
def Answer.ofPoll : Option (Poll Error) → Answer
  | some p => .polled p
  | none => .gone

/-- Does an operation. -/
def step (r : Recorder) (st : State) : Operation → Answer × State
  | .begin o =>
    let (call, s) := r.begin o st.session
    (.begun st.calls.length, ⟨s, st.calls ++ [call]⟩)
  | .run n reply => st.withCall n fun call s =>
    if call.isWaiting then
      let ran := r.run call reply s
      (.ran ran.readings ran.result, ran.call, ran.session)
    else (.gone, call, s)
  | .poll n => st.withCall n fun call s =>
    let (p, call, s) := r.pollBody call s
    (.ofPoll p, call, s)
  | .close n => st.withCall n fun call s =>
    match r.closeBody call s with
    | (some result, call, s) => (.closed result, call, s)
    | (none, call, s) => (.gone, call, s)
  | .drop n => st.withCall n fun call s =>
    let (was, call, s) := r.drop call s
    (.dropped was, call, s)
  | .pollRequest n => st.withCall n fun call s =>
    let (p, call, s) := pollRequest call s
    (.ofPoll p, call, s)
  | .flush =>
    let (result, s) := Session.flush st.session
    (.done result, { st with session := s })
  | .closeReceiver =>
    let (result, s) := Session.close st.session
    (.done result, { st with session := s })
  | .advance nanos => (.done (.ok ()), { st with session := st.session.advance nanos })

/-- Does operations one after the other. -/
def steps (r : Recorder) : State → List Operation → List Answer × State
  | st, [] => ([], st)
  | st, op :: rest =>
    let (answer, st) := step r st op
    let (more, st) := steps r st rest
    (answer :: more, st)

/-! ## Draining -/

/-- Does an operation again and again, up to the end of a body or an error. -/
def repeatPoll (r : Recorder) (op : Operation) : (fuel : Nat) → State →
    List (Poll Error) × State
  | 0, st => ([], st)
  | fuel + 1, st =>
    match step r st op with
    | (.polled p, st) =>
      if p.isLast then ([p], st)
      else
        let (more, st) := repeatPoll r op fuel st
        (p :: more, st)
    | (_, st) => ([], st)

/-- The response body of a call, if the caller has one. -/
def State.responseBody? (st : State) (n : Nat) : Option Observed :=
  st.calls[n]?.bind fun call => call.responseBody

/-- The request body of a call, if the transport kept it. -/
def State.requestBody? (st : State) (n : Nat) : Option Observed :=
  st.calls[n]?.bind fun call => if call.custody = .held then some call.requestBody else none

/-- Polls the response body of a call up to its end or the first error; nothing if the
caller has none. -/
def drain (r : Recorder) (st : State) (n : Nat) : Option (List (Poll Error) × State) :=
  (st.responseBody? n).map fun body => repeatPoll r (.poll n) body.length st

/-- Polls the request body that a transport kept up to its end or the first error; nothing
if it kept none. -/
def drainRequest (r : Recorder) (st : State) (n : Nat) :
    Option (List (Poll Error) × State) :=
  (st.requestBody? n).map fun body => repeatPoll r (.pollRequest n) body.length st

end ExchangeArchive.Recorder
