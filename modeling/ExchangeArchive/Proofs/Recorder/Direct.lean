import ExchangeArchive.Proofs.Body.Plain
import ExchangeArchive.Proofs.Recorder.Runs
/-
Calls without a recorder, and calls of a recorder that look like them.

A `Direct` call goes to its transport as its caller made it. The transport is the same and
does the same; only, nothing is timed, captured, begun or delivered, and so a direct call
knows of no session, no clock and no page.

A call of a recorder is `Alike` a direct one as long as its transport and its caller could
not tell the two apart. Every action of a transport keeps it so and reads the same on both
sides (`act_alike`), and so does whatever a caller asks for (`serve_alike`), except that the
answer can be replaced by the error of a delivery.
-/

set_option autoImplicit false

namespace ExchangeArchive

open ExchangeArchive.Body ExchangeArchive.Http ExchangeArchive.Recorder
  ExchangeArchive.Trace ExchangeArchive.Transport

namespace Recorder

/-! ## Direct calls -/

/-- A request on its way without a recorder. It has what its transport and its caller have to do
with, and nothing that would be there for an entry. -/
structure Direct where
  outgoing : Outgoing
  isWaiting : Bool := true
  requestBody : Plain
  custody : Custody := .transport
  /-- The events that the caller has seen. -/
  seen : List Event := []
  responseBody : Option Plain := none

namespace Direct

/-- Takes a request. -/
def begin (o : Outgoing) : Direct := { outgoing := o, requestBody := ⟨o.body, false⟩ }

/-- Reports an event to the caller. -/
def see (d : Direct) (e : Event) : Direct :=
  if d.outgoing.traced then { d with seen := d.seen ++ [e] } else d

/-- Does one action of a transport: what was read, and why the transport fails if it does. -/
def act (d : Direct) : Action → List Call.Reading × Except String Unit × Direct
  | .wait _ => ([], .ok (), d)
  | .report e => ([], .ok (), d.see e)
  | .dropBody =>
    ([], .ok (), { d with
      custody := if d.custody = .transport then .dropped else d.custody })
  | .holdBody =>
    ([], .ok (), { d with custody := if d.custody = .transport then .held else d.custody })
  | .read n =>
    match d.custody with
    | .transport =>
      ((d.requestBody.pollMany n).1.map fun p => .polled (some p), .ok (),
        { d with requestBody := (d.requestBody.pollMany n).2 })
    | _ => (List.replicate n (.polled none), .ok (), d)
  | .readAll =>
    match d.custody with
    | .transport =>
      let fuel := d.requestBody.script.cues.length + 1
      let outcome := match Call.drainError? (d.requestBody.drain fuel).1 with
        | some e => .error e.message
        | none => .ok ()
      ([.drained (some (d.requestBody.drain fuel).1)], outcome,
        { d with requestBody := (d.requestBody.drain fuel).2 })
    | _ => ([.drained none], .ok (), d)

/-- Does actions up to the first that makes the transport fail. -/
def actAll : Direct → List Action → List Call.Reading × Except String Unit × Direct
  | d, [] => ([], .ok (), d)
  | d, a :: rest =>
    match d.act a with
    | (readings, .error text, d) => (readings, .error text, d)
    | (readings, .ok (), d) =>
      let (more, outcome, d) := actAll d rest
      (readings ++ more, outcome, d)

/-- Lets a transport do what it does with the call. -/
def perform (d : Direct) (reply : Reply) :
    List Call.Reading × Except String (ResponseHead × Script) × Direct :=
  let (readings, outcome, d) := d.actAll reply.actions
  let answer := match outcome with
    | .error text => .error text
    | .ok () => reply.answer
  (readings, answer, { d with custody := if d.custody = .held then .held else .dropped })

/-- What is asked of a call: the answer, and the call after it. Nothing here can fail but the
transport and the bodies. -/
def serve (d : Direct) : Operation → Answer × Direct
  | .run _ reply =>
    if d.isWaiting then
      match d.perform reply with
      | (readings, .error text, d) =>
        (.ran readings (.error (.transport text)), { d with isWaiting := false })
      | (readings, .ok (head, body), d) =>
        (.ran readings (.ok head),
          { d with isWaiting := false, responseBody := some ⟨body, false⟩ })
    else (.gone, d)
  | .poll _ =>
    match d.responseBody with
    | none => (.gone, d)
    | some p => (.polled p.poll.1, { d with responseBody := some p.poll.2 })
  | .close _ => (if d.responseBody.isSome then .closed (.ok ()) else .gone, d)
  | .drop _ =>
    if d.isWaiting then (.dropped true, { d with isWaiting := false, custody := .dropped })
    else (.dropped d.responseBody.isSome, { d with responseBody := none })
  | .pollRequest _ =>
    match d.custody with
    | .held => (.polled d.requestBody.poll.1, { d with requestBody := d.requestBody.poll.2 })
    | _ => (.gone, d)
  | _ => (.gone, d)

/-- Does an operation on direct calls, numbered as those of a recorder. What is asked of the
recorder itself always goes well. -/
def step (ds : List Direct) (op : Operation) : Answer × List Direct :=
  match op, op.target? with
  | .begin o, _ => (.begun ds.length, ds ++ [begin o])
  | _, some n =>
    match ds[n]? with
    | none => (.gone, ds)
    | some d => ((d.serve op).1, ds.set n (d.serve op).2)
  | _, none => (.done (.ok ()), ds)

/-- The direct calls after operations. -/
def after (ds : List Direct) (ops : List Operation) : List Direct :=
  ops.foldl (fun ds op => (step ds op).2) ds

variable {op : Operation} {n : Nat} {d : Direct} {ds : List Direct}

/-- An operation that names no call leaves all direct calls as they are, except that one that
begins comes last. -/
theorem step_of_no_target (ds : List Direct) (h : op.target? = none) :
    (step ds op).2 = ds ++ (begun [op]).map begin := by
  cases op with
  | begin o => rfl
  | flush => exact (List.append_nil ds).symm
  | closeReceiver => exact (List.append_nil ds).symm
  | advance nanos => exact (List.append_nil ds).symm
  | _ => cases h

theorem step_of_no_call (h : op.target? = some n) (hd : ds[n]? = none) :
    step ds op = (.gone, ds) := by
  cases op <;> cases h <;> simp only [step, Operation.target?, hd]

/-- The direct call that is named is served, and put back under its number. -/
theorem step_of_call (h : op.target? = some n) (hd : ds[n]? = some d) :
    step ds op = ((d.serve op).1, ds.set n (d.serve op).2) := by
  cases op <;> cases h <;> simp only [step, Operation.target?, hd]

theorem after_concat (ds : List Direct) (ops : List Operation) (op : Operation) :
    after ds (ops ++ [op]) = (step (after ds ops) op).2 := by
  rw [after, List.foldl_append]
  rfl

end Direct

/-! ## Alike calls -/

/-- A call of a recorder that its transport and its caller cannot tell from a direct one. The bodies
mirror each other, which is to say that the same is still to come of them; that nobody awaits the
end of the request body is why reading it never delivers anything. -/
structure Alike (call : Call) (d : Direct) : Prop where
  request : call.request = d.outgoing.head
  markers : call.markers = d.outgoing.markers
  traced : call.traced = d.outgoing.traced
  isWaiting : call.isWaiting = d.isWaiting
  custody : call.custody = d.custody
  seen : call.seen = d.seen
  requestBody : call.requestBody.Mirrors d.requestBody
  requestAwaited : call.requestBody.awaited = false
  hasBody : call.responseBody.isSome = d.responseBody.isSome
  responseBody : ∀ b p, call.responseBody = some b → d.responseBody = some p → b.Mirrors p

variable {call : Call} {d : Direct}

/-- A call that begins is like one that begins without a recorder, recorded or not. -/
theorem alike_begin (includeAll : Bool) (c : Time.Clock) (o : Outgoing) :
    Alike (Call.begin includeAll c o) (Direct.begin o) := by
  have hbody : ∀ recorded, (Call.observedRequest recorded o.body).Mirrors ⟨o.body, false⟩ ∧
      (Call.observedRequest recorded o.body).awaited = false := by
    intro recorded
    rw [Call.observedRequest]
    split <;> exact ⟨⟨rfl, rfl⟩, rfl⟩
  exact ⟨rfl, rfl, rfl, rfl, rfl, rfl, (hbody _).1, (hbody _).2, rfl, fun b p hb => by cases hb⟩

/-- The observer of the caller sees the same, whatever else is timed. -/
theorem see_alike (h : Alike call d) (now : Nat) (e : Event) :
    Alike (call.see now e) (d.see e) := by
  rw [Call.see, Call.observer?, Direct.see, ← h.traced]
  cases hr : call.isRecorded <;> cases ht : call.traced
  · exact h
  · exact { h with seen := congrArg (· ++ [e]) h.seen }
  · exact { h with }
  · exact { h with seen := congrArg (· ++ [e]) h.seen }

/-! ## What a transport does -/

/-- Polling a request body again and again, and the clock going on meanwhile. -/
theorem readTimes_eq (n : Nat) (c : Time.Clock) (call : Call) :
    (Call.readTimes n c call).1
        = (call.requestBody.pollMany n).1.map (fun p => .polled (some p)) ∧
      (Call.readTimes n c call).2.2
        = { call with requestBody := (call.requestBody.pollMany n).2 } := by
  induction n generalizing c call with
  | zero => exact ⟨rfl, rfl⟩
  | succ n ih =>
    obtain ⟨hreadings, hcall⟩ := ih (c.advance call.requestBody.poll.waited)
      { call with requestBody := call.requestBody.poll.body }
    rw [Call.readTimes, Observed.pollMany]
    dsimp only
    rw [hreadings, hcall]
    exact ⟨rfl, rfl⟩

/-- Draining a body does not make anyone await its completion either. -/
theorem awaited_drain {o : Observed} (h : o.awaited = false) (fuel : Nat) :
    (o.drain fuel).2.1.awaited = false := by
  induction fuel generalizing o with
  | zero => exact h
  | succ fuel ih =>
    rw [Observed.drain]
    dsimp only
    split
    · exact Observed.awaited_poll h
    · exact ih (Observed.awaited_poll h)

/-- **What one action preserves.** A transport reads the same from alike calls, fails or
does not on both sides, and leaves them alike. -/
theorem act_alike (h : Alike call d) (c : Time.Clock) (a : Action) :
    (Call.act c call a).1 = (d.act a).1 ∧ (Call.act c call a).2.1 = (d.act a).2.1 ∧
      Alike (Call.act c call a).2.2.2 (d.act a).2.2 := by
  cases a with
  | wait nanos => exact ⟨rfl, rfl, h⟩
  | report e => exact ⟨rfl, rfl, see_alike h c.elapsed e⟩
  | dropBody =>
    refine ⟨rfl, rfl, { h with custody := ?_ }⟩
    show (if call.custody = .transport then _ else call.custody) = _
    rw [h.custody]
    rfl
  | holdBody =>
    refine ⟨rfl, rfl, { h with custody := ?_ }⟩
    show (if call.custody = .transport then _ else call.custody) = _
    rw [h.custody]
    rfl
  | read n =>
    -- Both read, or neither has a body to read: that depends on the custody alone.
    obtain ⟨hreadings, hcall⟩ := readTimes_eq n c call
    obtain ⟨hpolls, hmirrors⟩ := h.requestBody.pollMany n
    rw [Call.act, Direct.act, h.custody]
    cases hc : d.custody with
    | transport =>
      dsimp only
      rw [hreadings, hcall, hpolls]
      exact ⟨rfl, rfl, { h with
        custody := h.custody.trans hc
        requestBody := hmirrors
        requestAwaited := Observed.awaited_pollMany h.requestAwaited n }⟩
    | held => exact ⟨rfl, rfl, h⟩
    | dropped => exact ⟨rfl, rfl, h⟩
  | readAll =>
    -- The fuel is as much on both sides.
    have hlength : call.requestBody.length = d.requestBody.script.cues.length + 1 := by
      rw [Observed.length, h.requestBody.inner]
    obtain ⟨hpolls, hmirrors⟩ := h.requestBody.drain (d.requestBody.script.cues.length + 1)
    rw [Call.act, Direct.act, h.custody, hlength]
    cases hc : d.custody with
    | transport =>
      dsimp only
      rw [hpolls]
      exact ⟨rfl, rfl, { h with
        custody := rfl
        requestBody := hmirrors
        requestAwaited := awaited_drain h.requestAwaited _ }⟩
    | held => exact ⟨rfl, rfl, h⟩
    | dropped => exact ⟨rfl, rfl, h⟩

/-- **What all actions of a transport preserve.** -/
theorem actAll_alike (h : Alike call d) (c : Time.Clock) (actions : List Action) :
    (Call.actAll c call actions).1 = (d.actAll actions).1 ∧
      (Call.actAll c call actions).2.1 = (d.actAll actions).2.1 ∧
        Alike (Call.actAll c call actions).2.2.2 (d.actAll actions).2.2 := by
  induction actions generalizing c call d with
  | nil => exact ⟨rfl, rfl, h⟩
  | cons a rest ih =>
    obtain ⟨hreadings, houtcome, halike⟩ := act_alike h c a
    rw [Call.actAll, Direct.actAll]
    rcases hact : Call.act c call a with ⟨readings, outcome, c', call'⟩
    rcases hact' : d.act a with ⟨readings', outcome', d'⟩
    rw [hact, hact'] at hreadings houtcome halike
    obtain rfl : readings = readings' := hreadings
    obtain rfl : outcome = outcome' := houtcome
    -- A failure stops both, so the rest is done on both sides or on neither.
    cases outcome with
    | error text => exact ⟨rfl, rfl, halike⟩
    | ok _ =>
      obtain ⟨hmore, hall, hrest⟩ := ih (halike : Alike call' d') c'
      exact ⟨congrArg (readings ++ ·) hmore, hall, hrest⟩

/-- A transport does the same with alike calls, and gives the same answer. The clock is only on the
side of the recorder, and no transport goes by it. -/
theorem perform_alike (h : Alike call d) (c : Time.Clock) (reply : Reply) :
    (call.perform c reply).1 = (d.perform reply).1 ∧
      (call.perform c reply).2.1 = (d.perform reply).2.1 ∧
        Alike (call.perform c reply).2.2.2 (d.perform reply).2.2 := by
  obtain ⟨hreadings, houtcome, halike⟩ := actAll_alike h c reply.actions
  rw [Call.perform, Direct.perform]
  dsimp only
  rw [hreadings, houtcome, halike.custody]
  exact ⟨rfl, rfl, { halike with custody := rfl }⟩

end Recorder

end ExchangeArchive
