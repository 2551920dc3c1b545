import ExchangeArchive.Proofs.Trip.Spans
import ExchangeArchive.Recorder.History
import Mathlib.Data.List.Induction
/-
Runs of a recorder: what one operation does to one call.

`step` takes the call that an operation names out of the list, does something with it and
the session, and puts it back. `serve` is that something, so that what has to be said about
an operation can be said about one call and the session. The first section says what
running a call and polling or closing its response body come to, one equation for each way
that it can go. The second ties `step` to `serve`: the call that is named is served, all
others stay as they are, and a beginning adds one at the end. The last is about whole runs.

`trace` keeps each operation of a run together with the state that it finds.
-/

set_option autoImplicit false

namespace ExchangeArchive

open ExchangeArchive.Body ExchangeArchive.Http ExchangeArchive.Recorder
  ExchangeArchive.Transport

namespace Recorder

/-! ## What a transport leaves alone -/

namespace Call

/-- What nothing changes about a call once it has begun: which request it is, and how it is
recorded. So what an entry says of these can be read off the beginning of its call. -/
structure SameCall (a b : Call) : Prop where
  isRecorded : b.isRecorded = a.isRecorded
  request : b.request = a.request
  markers : b.markers = a.markers
  pageRef : b.pageRef = a.pageRef
  endPage : b.endPage = a.endPage
  traced : b.traced = a.traced
  started : b.tracker.started = a.tracker.started
  startedDateTime : b.tracker.startedDateTime = a.tracker.startedDateTime

theorem SameCall.refl (call : Call) : call.SameCall call :=
  ⟨rfl, rfl, rfl, rfl, rfl, rfl, rfl, rfl⟩

theorem SameCall.trans {a b c : Call} (hab : a.SameCall b) (hbc : b.SameCall c) :
    a.SameCall c :=
  ⟨hbc.isRecorded.trans hab.isRecorded, hbc.request.trans hab.request,
    hbc.markers.trans hab.markers, hbc.pageRef.trans hab.pageRef, hbc.endPage.trans hab.endPage,
    hbc.traced.trans hab.traced, hbc.started.trans hab.started,
    hbc.startedDateTime.trans hab.startedDateTime⟩

/-- What a transport leaves alone besides while it has a call: nobody waits less for it, and
there is no more of a response than before. -/
structure InTransport (a b : Call) : Prop extends SameCall a b where
  isWaiting : b.isWaiting = a.isWaiting
  response : b.response = a.response
  responseBody : b.responseBody = a.responseBody

theorem InTransport.refl (call : Call) : call.InTransport call := ⟨.refl call, rfl, rfl, rfl⟩

theorem InTransport.trans {a b c : Call} (hab : a.InTransport b) (hbc : b.InTransport c) :
    a.InTransport c :=
  ⟨hab.toSameCall.trans hbc.toSameCall, hbc.isWaiting.trans hab.isWaiting,
    hbc.response.trans hab.response, hbc.responseBody.trans hab.responseBody⟩

/-- An event is noted by the tracker or by the caller, and is nothing to the rest of the call. -/
theorem inTransport_see (call : Call) (now : Nat) (e : Trace.Event) :
    call.InTransport (call.see now e) := by
  have ht := call.tracker.started_note (now, .event e)
  rw [see, observer?]
  cases hr : call.isRecorded <;> cases hc : call.traced <;>
    exact ⟨⟨rfl, rfl, rfl, rfl, rfl, rfl, by first | rfl | exact ht.1,
      by first | rfl | exact ht.2⟩, rfl, rfl, rfl⟩

theorem inTransport_readTimes (n : Nat) (c : Time.Clock) (call : Call) :
    call.InTransport (readTimes n c call).2.2 := by
  induction n generalizing c call with
  | zero => exact .refl call
  | succ n ih =>
    rw [readTimes]
    refine InTransport.trans ?_ (ih (c.advance call.requestBody.poll.waited)
      { call with requestBody := call.requestBody.poll.body })
    exact ⟨⟨rfl, rfl, rfl, rfl, rfl, rfl, rfl, rfl⟩, rfl, rfl, rfl⟩

theorem inTransport_act (c : Time.Clock) (call : Call) (a : Action) :
    call.InTransport (act c call a).2.2.2 := by
  cases a with
  | wait nanos => exact .refl call
  | report e => exact inTransport_see call c.elapsed e
  | dropBody => exact ⟨⟨rfl, rfl, rfl, rfl, rfl, rfl, rfl, rfl⟩, rfl, rfl, rfl⟩
  | holdBody => exact ⟨⟨rfl, rfl, rfl, rfl, rfl, rfl, rfl, rfl⟩, rfl, rfl, rfl⟩
  | read n =>
    rw [act]
    split
    · exact inTransport_readTimes n c call
    · exact .refl call
  | readAll =>
    rw [act]
    split
    · exact ⟨⟨rfl, rfl, rfl, rfl, rfl, rfl, rfl, rfl⟩, rfl, rfl, rfl⟩
    · exact .refl call

theorem inTransport_actAll (c : Time.Clock) (call : Call) (actions : List Action) :
    call.InTransport (actAll c call actions).2.2.2 := by
  induction actions generalizing c call with
  | nil => exact .refl call
  | cons a rest ih =>
    have ha := inTransport_act c call a
    rw [actAll]
    rcases hact : act c call a with ⟨readings, outcome, c', call'⟩
    rw [hact] at ha
    cases outcome with
    | error text => exact ha
    | ok _ => exact ha.trans (ih c' call')

/-- Whatever a transport does with a call, it is the same call afterwards, and still waits: what
the answer brings is put in by `run`. -/
theorem inTransport_perform (c : Time.Clock) (call : Call) (reply : Reply) :
    call.InTransport (call.perform c reply).2.2.2 := by
  have h := inTransport_actAll c call reply.actions
  exact h.trans ⟨⟨rfl, rfl, rfl, rfl, rfl, rfl, rfl, rfl⟩, rfl, rfl, rfl⟩

end Call

/-! ## Running a call -/

variable {r : Recorder} {call : Call} {s : Session}

/-- The call that a transport leaves behind when it has failed, its waiting over. -/
def failedCall (call : Call) (text : String) (now : Nat) : Call :=
  { call with
    isWaiting := false
    error := some text
    tracker := call.tracker.responseRead now }

/-- The outcome of a call whose transport failed: an error of the delivery takes the place
of the transport's. -/
def failure (text : String) : Except Error Unit → Except Error ResponseHead
  | .error e => .error e
  | .ok () => .error (.transport text)

/-- The call that a transport leaves behind when it has answered: its response body is attended,
and the headers are noted at the time of the answer. -/
def answeredCall (call : Call) (head : ResponseHead) (body : Script) (now : Nat) : Call :=
  { call with
    isWaiting := false
    tracker := call.tracker.responseHeaders now
    response := some head
    responseBody := some (.new body true) }

/-- A transport's answer to a call that is not recorded passes through. No tracker and no session
has a part in it, but for the clock. -/
theorem run_of_unrecorded {reply : Reply} (h : call.isRecorded = false) :
    r.run call reply s =
      match call.perform s.clock reply with
      | (readings, .error text, clock, call') =>
        ⟨readings, .error (.transport text), { call' with isWaiting := false },
          { s with clock := clock }⟩
      | (readings, .ok (head, body), clock, call') =>
        ⟨readings, .ok head,
          { call' with isWaiting := false, responseBody := some (.passthrough body) },
          { s with clock := clock }⟩ := by
  rcases hp : call.perform s.clock reply with ⟨readings, answer, clock, call'⟩
  have hrec : call'.isRecorded = false := by
    rw [← h, ← (Call.inTransport_perform s.clock call reply).isRecorded, hp]
  cases answer with
  | error text => simp [run, hp, hrec]
  | ok answer => simp [run, hp, hrec]

/-- A recorded call that its transport answers: the response body is attended from now on,
and a page may end. -/
theorem run_of_answered {reply : Reply} {readings : List Call.Reading} {head : ResponseHead}
    {body : Script} {clock : Time.Clock} {call' : Call} (h : call.isRecorded = true)
    (hp : call.perform s.clock reply = (readings, .ok (head, body), clock, call')) :
    r.run call reply s =
      ⟨readings, .ok head, answeredCall call' head body clock.elapsed,
        r.endPage (answeredCall call' head body clock.elapsed) { s with clock := clock }⟩ := by
  have hrec : call'.isRecorded = true := by
    rw [← h, ← (Call.inTransport_perform s.clock call reply).isRecorded, hp]
  simp [run, hp, hrec, answeredCall, Session.now]

/-- A recorded call whose transport fails: the entry is delivered at once, an error of that
delivery takes the place of the transport's, and then a page may end. -/
theorem run_of_failed {reply : Reply} {readings : List Call.Reading} {text : String}
    {clock : Time.Clock} {call' : Call} (h : call.isRecorded = true)
    (hp : call.perform s.clock reply = (readings, .error text, clock, call')) :
    r.run call reply s =
      (fun d : Except Error Unit × Session =>
        (⟨readings, failure text d.1, failedCall call' text clock.elapsed,
          r.endPage (failedCall call' text clock.elapsed) d.2⟩ : Ran))
        (r.deliver (failedCall call' text clock.elapsed) { s with clock := clock }) := by
  have hrec : call'.isRecorded = true := by
    rw [← h, ← (Call.inTransport_perform s.clock call reply).isRecorded, hp]
  rw [run, hp]
  dsimp only
  rw [if_neg (by simp [hrec])]
  rfl

/-! ## Reading and closing a response body -/

/-- The call with another response body, and the end of its receiving noted. -/
def endedCall (call : Call) (body : Observed) (now : Nat) : Call :=
  { call with responseBody := some body, tracker := call.tracker.responseRead now }

/-- What a poll comes to that makes the completion due: an error of the delivery takes the
place of what the body gives. -/
def delivered (p : Poll Error) : Except Error Unit → Poll Error
  | .error e => .failed e
  | .ok () => p

/-- A poll that makes no completion due gives what the body gives, and takes the time that the
body takes. -/
theorem pollBody_of_not_due {b : Observed} (hb : call.responseBody = some b)
    (hdue : b.poll.due = false) :
    r.pollBody call s =
      (some b.poll.result, { call with responseBody := some b.poll.body },
        s.advance b.poll.waited) := by
  simp [pollBody, hb, hdue]

/-- A poll that makes the completion due delivers the entry, and an error of that takes the
place of what the body gives. -/
theorem pollBody_of_due {b : Observed} (hb : call.responseBody = some b)
    (hdue : b.poll.due = true) :
    r.pollBody call s =
      (fun d : Except Error Unit × Session =>
        (some (delivered b.poll.result d.1),
          endedCall call b.poll.body (s.advance b.poll.waited).now, d.2))
        (r.deliver (endedCall call b.poll.body (s.advance b.poll.waited).now)
          (s.advance b.poll.waited)) := by
  rw [pollBody, hb]
  dsimp only
  rw [if_pos hdue]
  dsimp only [completeCall, endedCall]
  rcases r.deliver _ _ with ⟨d, s'⟩
  cases d <;> rfl

/-- Closing a body whose completion is not due does nothing. -/
theorem closeBody_of_not_due {b : Observed} (hb : call.responseBody = some b)
    (hdue : b.complete.2 = false) :
    r.closeBody call s = (some (.ok ()), { call with responseBody := some b.complete.1 }, s) := by
  rcases hc : b.complete with ⟨b', due⟩
  rw [hc] at hdue
  cases hdue
  simp [closeBody, hb, hc]

/-- Closing a body whose completion is due delivers the entry, and answers with what becomes of
that. -/
theorem closeBody_of_due {b : Observed} (hb : call.responseBody = some b)
    (hdue : b.complete.2 = true) :
    r.closeBody call s =
      (fun d : Except Error Unit × Session =>
        (some d.1, endedCall call b.complete.1 s.now, d.2))
        (r.deliver (endedCall call b.complete.1 s.now) s) := by
  rcases hc : b.complete with ⟨b', due⟩
  rw [hc] at hdue
  cases hdue
  simp [closeBody, hb, hc, completeCall, endedCall]

/-- Without a response body there is nothing to close. -/
theorem closeBody_of_none (hb : call.responseBody = none) :
    r.closeBody call s = (none, call, s) := by
  simp [closeBody, hb]

/-- Reading a body leaves the call the same. -/
theorem sameCall_pollBody (r : Recorder) (call : Call) (s : Session) :
    call.SameCall (r.pollBody call s).2.1 := by
  cases hb : call.responseBody with
  | none => rw [pollBody, hb]; exact .refl call
  | some b =>
    cases hdue : b.poll.due with
    | false => rw [pollBody_of_not_due hb hdue]; exact ⟨rfl, rfl, rfl, rfl, rfl, rfl, rfl, rfl⟩
    | true => rw [pollBody_of_due hb hdue]; exact ⟨rfl, rfl, rfl, rfl, rfl, rfl, rfl, rfl⟩

/-- Closing a body leaves the call the same. -/
theorem sameCall_closeBody (r : Recorder) (call : Call) (s : Session) :
    call.SameCall (r.closeBody call s).2.1 := by
  cases hb : call.responseBody with
  | none => rw [closeBody_of_none hb]; exact .refl call
  | some b =>
    cases hdue : b.complete.2 with
    | false => rw [closeBody_of_not_due hb hdue]; exact ⟨rfl, rfl, rfl, rfl, rfl, rfl, rfl, rfl⟩
    | true => rw [closeBody_of_due hb hdue]; exact ⟨rfl, rfl, rfl, rfl, rfl, rfl, rfl, rfl⟩

/-! ## One operation -/

/-- The call that an operation names. There may be none under that number, and then nothing is
done. -/
def Operation.target? : Operation → Option Nat
  | .run n _ => some n
  | .poll n => some n
  | .close n => some n
  | .drop n => some n
  | .pollRequest n => some n
  | _ => none

/-- What an operation does with the call that it names, and with the session. It has no other
call in its hands, which is why calls under way do not mix. -/
def serve (r : Recorder) (op : Operation) (call : Call) (s : Session) : Answer × Call × Session :=
  match op with
  | .run _ reply =>
    if call.isWaiting then
      let ran := r.run call reply s
      (.ran ran.readings ran.result, ran.call, ran.session)
    else (.gone, call, s)
  | .poll _ =>
    let (p, call, s) := r.pollBody call s
    (.ofPoll p, call, s)
  | .close _ =>
    match r.closeBody call s with
    | (some result, call, s) => (.closed result, call, s)
    | (none, call, s) => (.gone, call, s)
  | .drop _ =>
    let (was, call, s) := r.drop call s
    (.dropped was, call, s)
  | .pollRequest _ =>
    let (p, call, s) := pollRequest call s
    (.ofPoll p, call, s)
  | _ => (.gone, call, s)

/-- The call that a close leaves, whatever it answers. -/
theorem serve_close_call (r : Recorder) (n : Nat) (call : Call) (s : Session) :
    (r.serve (.close n) call s).2.1 = (r.closeBody call s).2.1 := by
  rw [serve]
  rcases r.closeBody call s with ⟨result, call', s'⟩
  cases result <;> rfl

/-- Whatever is done with a call, it stays the same call. The cases are those of `serve`, and the
one that takes work is the run of the transport. -/
theorem sameCall_serve (r : Recorder) (op : Operation) (call : Call) (s : Session) :
    call.SameCall (r.serve op call s).2.1 := by
  cases op with
  | run n reply =>
    rw [serve]
    split
    · have hin := (Call.inTransport_perform s.clock call reply).toSameCall
      rcases hp : call.perform s.clock reply with ⟨readings, answer, clock, call'⟩
      rw [hp] at hin
      cases hrec : call.isRecorded with
      | false =>
        dsimp only
        rw [run_of_unrecorded hrec, hp]
        cases answer with
        | error text => exact hin.trans ⟨rfl, rfl, rfl, rfl, rfl, rfl, rfl, rfl⟩
        | ok answer => exact hin.trans ⟨rfl, rfl, rfl, rfl, rfl, rfl, rfl, rfl⟩
      | true =>
        dsimp only
        cases answer with
        | error text =>
          rw [run_of_failed hrec hp]
          exact hin.trans ⟨rfl, rfl, rfl, rfl, rfl, rfl, rfl, rfl⟩
        | ok answer =>
          have hstarted := call'.tracker.started_note (clock.elapsed, .responseHeaders)
          rw [run_of_answered hrec hp]
          exact hin.trans ⟨rfl, rfl, rfl, rfl, rfl, rfl, hstarted.1, hstarted.2⟩
    · exact .refl call
  | poll n =>
    rw [serve]
    exact sameCall_pollBody r call s
  | close n =>
    rw [serve_close_call]
    exact sameCall_closeBody r call s
  | drop n =>
    show call.SameCall (r.drop call s).2.1
    rw [drop]
    split
    · exact ⟨rfl, rfl, rfl, rfl, rfl, rfl, rfl, rfl⟩
    · exact (sameCall_closeBody r call s).trans ⟨rfl, rfl, rfl, rfl, rfl, rfl, rfl, rfl⟩
  | pollRequest n =>
    show call.SameCall (pollRequest call s).2.1
    rw [pollRequest]
    split <;> exact ⟨rfl, rfl, rfl, rfl, rfl, rfl, rfl, rfl⟩
  | _ => exact .refl call

/-- An operation that names a call serves that call. -/
theorem step_of_target {op : Operation} {n : Nat} (st : State) (h : op.target? = some n) :
    step r st op = st.withCall n (r.serve op) := by
  cases op <;> cases h <;> rfl

/-- The call that is named is served, and what that leaves is put back under its number. -/
theorem step_of_call {op : Operation} {n : Nat} {st : State} (h : op.target? = some n)
    (hcall : st.calls[n]? = some call) :
    step r st op =
      ((r.serve op call st.session).1,
        st.store n (r.serve op call st.session).2.1 (r.serve op call st.session).2.2) := by
  rw [step_of_target st h, State.withCall, hcall]

/-- Naming a call that is not there does nothing. -/
theorem step_of_no_call {op : Operation} {n : Nat} {st : State} (h : op.target? = some n)
    (hcall : st.calls[n]? = none) : step r st op = (.gone, st) := by
  rw [step_of_target st h, State.withCall, hcall]

/-- The calls after that are those before it, with the named one as it was served. -/
theorem step_calls_of_call {op : Operation} {n : Nat} {st : State} (h : op.target? = some n)
    (hcall : st.calls[n]? = some call) :
    (step r st op).2.calls = st.calls.set n (r.serve op call st.session).2.1 := by
  rw [step_of_call h hcall]
  rfl

/-- The requests that begin in a list of operations, in their order. -/
def begun (ops : List Operation) : List Outgoing :=
  ops.filterMap fun
    | .begin o => some o
    | _ => none

theorem begun_begin (o : Outgoing) : begun [.begin o] = [o] := rfl

theorem begun_append (before later : List Operation) :
    begun (before ++ later) = begun before ++ begun later :=
  List.filterMap_append

/-- An operation that names no call leaves all calls as they are, except that one that
begins comes last. -/
theorem step_calls_of_no_target {op : Operation} (st : State) (h : op.target? = none) :
    (step r st op).2.calls
      = st.calls ++ (begun [op]).map fun o => Call.begin r.includeAll st.session.clock o := by
  cases op with
  | begin o =>
    rw [step]
    have hcall : (r.begin o st.session).1 = Call.begin r.includeAll st.session.clock o := by
      rw [Recorder.begin]
      split <;> rfl
    simp [begun, hcall]
  | flush => exact (List.append_nil st.calls).symm
  | closeReceiver => exact (List.append_nil st.calls).symm
  | advance nanos => exact (List.append_nil st.calls).symm
  | _ => cases h

/-- Whatever is done, the calls that are there before stay under their numbers, and only
the one that is named changes. -/
theorem step_other {op : Operation} {n : Nat} {st : State} (h : op.target? ≠ some n)
    (hcall : st.calls[n]? = some call) : (step r st op).2.calls[n]? = some call := by
  have hn : n < st.calls.length := (List.getElem?_eq_some_iff.mp hcall).1
  cases ht : op.target? with
  | none =>
    rw [step_calls_of_no_target st ht, List.getElem?_append_left hn]
    exact hcall
  | some m =>
    have hmn : m ≠ n := fun heq => h (by rw [ht, heq])
    cases hm : st.calls[m]? with
    | none => rw [step_of_no_call ht hm]; exact hcall
    | some other =>
      rw [step_calls_of_call ht hm, List.getElem?_set_ne hmn]
      exact hcall

/-! ## Runs -/

/-- The state after operations. -/
def after (r : Recorder) (st : State) (ops : List Operation) : State := (steps r st ops).2

/-- The operations of a run, each with the state that it finds. What an operation hands over is
said of such a pair. -/
def trace (r : Recorder) : State → List Operation → List (State × Operation)
  | _, [] => []
  | st, op :: rest => (st, op) :: trace r (step r st op).2 rest

@[simp] theorem after_nil (st : State) : after r st [] = st := rfl

theorem after_concat (st : State) (ops : List Operation) (op : Operation) :
    after r st (ops ++ [op]) = (step r (after r st ops) op).2 := by
  induction ops generalizing st with
  | nil => rfl
  | cons a ops ih => exact ih (step r st a).2

theorem trace_concat (st : State) (ops : List Operation) (op : Operation) :
    trace r st (ops ++ [op]) = trace r st ops ++ [(after r st ops, op)] := by
  induction ops generalizing st with
  | nil => rfl
  | cons a ops ih => exact congrArg _ (ih (step r st a).2)

/-- A call that is put back with the flag that it had leaves what is recorded as it was. -/
theorem isRecorded_set {calls : List Call} {n : Nat} {call' : Call}
    (hcall : calls[n]? = some call) (hflag : call'.isRecorded = call.isRecorded) :
    (calls.set n call').map (·.isRecorded) = calls.map (·.isRecorded) := by
  obtain ⟨hn, rfl⟩ := List.getElem?_eq_some_iff.mp hcall
  have hn' : n < (calls.map (·.isRecorded)).length := by
    rw [List.length_map]
    exact hn
  have hbefore : (calls.map (·.isRecorded))[n] = calls[n].isRecorded := List.getElem_map ..
  rw [List.map_set, hflag, ← hbefore]
  exact List.set_getElem_self hn'

/-- One operation keeps what is recorded, and settles it for a call that begins. -/
theorem isRecorded_step (st : State) (op : Operation) :
    (step r st op).2.calls.map (·.isRecorded)
      = st.calls.map (·.isRecorded) ++ (begun [op]).map (Call.wants r.includeAll) := by
  cases ht : op.target? with
  | none =>
    rw [step_calls_of_no_target st ht, List.map_append, List.map_map]
    rfl
  | some n =>
    have hbegun : begun [op] = [] := by cases op <;> first | rfl | cases ht
    rw [hbegun, List.map_nil, List.append_nil]
    cases hn : st.calls[n]? with
    | none => rw [step_of_no_call ht hn]
    | some call =>
      rw [step_calls_of_call ht hn]
      exact isRecorded_set hn (sameCall_serve r op call st.session).isRecorded

/-- **What is recorded is settled when a call begins.** The calls of a run are those that
began in it, each recorded just if its request was to be. -/
theorem isRecorded_after (s : Session) (ops : List Operation) :
    (after r ⟨s, []⟩ ops).calls.map (·.isRecorded) = (begun ops).map (Call.wants r.includeAll) := by
  induction ops using List.reverseRecOn with
  | nil => rfl
  | append_singleton ops op ih =>
    rw [after_concat, isRecorded_step, ih, begun_append, List.map_append]

/-- The calls after a run are as many as began in it: none is ever taken out of the list. -/
theorem length_after (s : Session) (ops : List Operation) :
    (after r ⟨s, []⟩ ops).calls.length = (begun ops).length := by
  simpa using congrArg List.length (isRecorded_after (r := r) s ops)

/-- Something is true of a moment of a run that goes one operation further, if it is true of
an earlier moment or of the last one. -/
theorem exists_trace_concat {P : State × Operation → Prop} {s : Session} {ops : List Operation}
    {op : Operation} :
    (∃ m ∈ trace r ⟨s, []⟩ (ops ++ [op]), P m) ↔
      (∃ m ∈ trace r ⟨s, []⟩ ops, P m) ∨ P (after r ⟨s, []⟩ ops, op) := by
  rw [trace_concat]
  constructor
  · rintro ⟨m, hm, hp⟩
    rcases List.mem_append.mp hm with hm | hm
    · exact .inl ⟨m, hm, hp⟩
    · obtain rfl := List.mem_singleton.mp hm
      exact .inr hp
  · rintro (⟨m, hm, hp⟩ | hp)
    · exact ⟨m, List.mem_append_left _ hm, hp⟩
    · exact ⟨_, List.mem_append_right _ (List.mem_singleton_self _), hp⟩

/-- **Induction over the run for one call.** What is true of a call and of the operations so
far when it begins, and stays true whether the next operation serves the call or does not
name it, is true after any operations. -/
theorem call_induction {s : Session} {n : Nat} {motive : List Operation → Call → Prop}
    (begins : ∀ ops o c, (begun ops).length = n →
      motive (ops ++ [.begin o]) (Call.begin r.includeAll c o))
    (serves : ∀ ops op call, op.target? = some n →
      (after r ⟨s, []⟩ ops).calls[n]? = some call → motive ops call →
        motive (ops ++ [op]) (r.serve op call (after r ⟨s, []⟩ ops).session).2.1)
    (others : ∀ ops op call, op.target? ≠ some n →
      (after r ⟨s, []⟩ ops).calls[n]? = some call → motive ops call → motive (ops ++ [op]) call)
    {ops : List Operation} (hcall : (after r ⟨s, []⟩ ops).calls[n]? = some call) :
    motive ops call := by
  induction ops using List.reverseRecOn generalizing call with
  | nil => cases hcall
  | append_singleton ops op ih =>
    rw [after_concat] at hcall
    by_cases hold : n < (after r ⟨s, []⟩ ops).calls.length
    · -- A call that was there before.
      have hbefore := List.getElem?_eq_getElem hold
      by_cases ht : op.target? = some n
      · rw [step_calls_of_call ht hbefore, List.getElem?_set_self hold] at hcall
        obtain rfl := Option.some.inj hcall
        exact serves ops op _ ht hbefore (ih hbefore)
      · rw [step_other ht hbefore] at hcall
        obtain rfl := Option.some.inj hcall
        exact others ops op _ ht hbefore (ih hbefore)
    · -- A call that is not there yet begins with this very operation.
      have hlength : n < (step r (after r ⟨s, []⟩ ops) op).2.calls.length :=
        (List.getElem?_eq_some_iff.mp hcall).1
      cases ht : op.target? with
      | some m =>
        cases hm : (after r ⟨s, []⟩ ops).calls[m]? with
        | none => rw [step_of_no_call ht hm] at hlength; exact absurd hlength hold
        | some other =>
          rw [step_calls_of_call ht hm, List.length_set] at hlength
          exact absurd hlength hold
      | none =>
        -- One call at most begins, and it comes last.
        have hle : (after r ⟨s, []⟩ ops).calls.length ≤ n := Nat.le_of_not_lt hold
        rw [step_calls_of_no_target _ ht] at hcall hlength
        rw [List.getElem?_append_right hle, List.getElem?_map] at hcall
        obtain ⟨o, ho, rfl⟩ := Option.map_eq_some_iff.mp hcall
        cases op with
        | begin o' =>
          rw [begun_begin] at ho hlength
          rw [List.length_append, List.length_map, List.length_singleton] at hlength
          have hn : n = (after r ⟨s, []⟩ ops).calls.length := by omega
          rw [hn, Nat.sub_self] at ho
          obtain rfl : o' = o := Option.some.inj ho
          refine begins ops o' _ ?_
          rw [hn, length_after]
        | flush => cases ho
        | closeReceiver => cases ho
        | advance nanos => cases ho
        | _ => cases ht

end Recorder

end ExchangeArchive
