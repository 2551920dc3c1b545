import ExchangeArchive.Proofs.Recorder.Handover
/-
Moves: what happens to the calls of a recorder, in its smallest steps.

An operation runs the transport of a call from the beginning to its answer in one go. The
transports of several calls are under way at the same time, though, and between two things
that one of them does may stand anything that the others do or that is asked of a body. So
what an operation does in one go is taken apart here into turns of a call: one action of
its transport, the transport's answer, or what is asked of its bodies. `step_run` says that
running a transport is to take its turns one after the other.

Each move is made at a time that the clock shows, and `play` is given these times, so that a
move can be taken out of a run without shifting those after it. A run in which time passes
only as the moves themselves take it is one of these (`timed`).

A turn changes its call by the call and the time alone (`attend_call`), and whether it hands
over an entry, and which, is settled by the same two (`hands_turn_iff`). So the session is
only what the sink makes of it.
-/

set_option autoImplicit false

namespace ExchangeArchive

open ExchangeArchive.Archive ExchangeArchive.Body ExchangeArchive.Http
  ExchangeArchive.Pipeline ExchangeArchive.Recorder ExchangeArchive.Time
  ExchangeArchive.Transport

namespace Recorder

/-! ## Turns of a call -/

/-- The least that can happen to a call. Between two turns of a call any other call may have a
turn, so this is how far the transports and the callers can be taken apart. -/
inductive Turn where
  /-- Its transport does one thing. -/
  | act (action : Action)
  /-- Its transport is done with it. -/
  | settle (answer : Except String (ResponseHead × Script))
  | poll
  | close
  | drop
  | pollRequest

/-- What the one who takes a turn gets to see: the transport what its action gives, the caller of
a request the result, and whoever has a body the answer to what was asked of it. -/
inductive Sight where
  | acted (readings : List Call.Reading) (outcome : Except String Unit)
  | settled (result : Except Error ResponseHead)
  | answered (answer : Answer)

namespace Call

/-- A call that its transport has let go of: nobody waits for it any more, and the request
body is dropped unless it was kept. -/
def released (call : Call) : Call :=
  { call with
    isWaiting := false
    custody := if call.custody = .held then .held else .dropped }

/-- A call whose transport has answered. A failure is kept for the entry if the call is recorded;
a response is put under observation then, and handed on as it is if not. -/
def settled (c : Clock) (call : Call) (answer : Except String (ResponseHead × Script)) : Call :=
  match call.isRecorded, answer with
  | false, .error _ => call.released
  | false, .ok (_, body) => { call.released with responseBody := some (.passthrough body) }
  | true, .error text => failedCall call.released text c.elapsed
  | true, .ok (head, body) => answeredCall call.released head body c.elapsed

/-- A call whose response body has been polled. If that makes the completion due, the end of the
receiving is noted at the time after the wait. -/
def polled (c : Clock) (call : Call) : Call :=
  match call.responseBody with
  | none => call
  | some b =>
    if b.poll.due then endedCall call b.poll.body (c.advance b.poll.waited).elapsed
    else { call with responseBody := some b.poll.body }

/-- A call whose response body has been closed. -/
def closed (c : Clock) (call : Call) : Call :=
  match call.responseBody with
  | none => call
  | some b =>
    if b.complete.2 then endedCall call b.complete.1 c.elapsed
    else { call with responseBody := some b.complete.1 }

/-- The call after a turn, from the call and the time alone. That no other call, no pipeline and
no receiver has a part in it is `attend_call`. -/
def turned (c : Clock) (call : Call) : Turn → Call
  | .act a => (Call.act c call a).2.2.2
  | .settle answer => if call.isWaiting then call.settled c answer else call
  | .poll => call.polled c
  | .close => call.closed c
  | .drop =>
    if call.isWaiting then call.released else { call.closed c with responseBody := none }
  | .pollRequest =>
    if call.custody = .held then { call with requestBody := call.requestBody.poll.body } else call

/-- The entry of a call that is due at a turn, if one is: when the transport fails, or when the
response body comes to its end, is closed or is dropped while its completion is awaited. -/
def due? (c : Clock) (call : Call) : Turn → Option Entry
  | .settle (.error text) =>
    if call.isRecorded && call.isWaiting then
      some ((call.settled c (.error text)).report.toEntry c.elapsed)
    else none
  | .poll =>
    call.responseBody.bind fun b =>
      if b.poll.due then
        some ((call.polled c).report.toEntry (c.advance b.poll.waited).elapsed)
      else none
  | .close => closing
  | .drop => if call.isWaiting then none else closing
  | _ => none
where
  /-- The entry that is due when the response body is closed. -/
  closing : Option Entry :=
    call.responseBody.bind fun b =>
      if b.complete.2 then some ((call.closed c).report.toEntry c.elapsed) else none

end Call

/-- Takes the answer of a call's transport. -/
def settle (r : Recorder) (call : Call) (answer : Except String (ResponseHead × Script))
    (s : Session) : Except Error ResponseHead × Call × Session :=
  let call' := call.settled s.clock answer
  match call.isRecorded, answer with
  | false, .error text => (.error (.transport text), call', s)
  | false, .ok (head, _) => (.ok head, call', s)
  | true, .error text =>
    let (delivered, s) := r.deliver call' s
    (failure text delivered, call', r.endPage call' s)
  | true, .ok (head, _) => (.ok head, call', r.endPage call' s)

/-- What an operation comes to, as a sight, with what else it leaves. -/
def Sight.of {α : Type} (x : Answer × α) : Sight × α := (.answered x.1, x.2)

/-- What a turn does with the call that has the number, and with the session. Where a turn is
what an operation does already, it is that operation. -/
def attend (r : Recorder) (n : Nat) (call : Call) (s : Session) : Turn → Sight × Call × Session
  | .act a =>
    let (readings, outcome, clock, call) := Call.act s.clock call a
    (.acted readings outcome, call, { s with clock := clock })
  | .settle answer =>
    if call.isWaiting then
      let (result, call, s) := r.settle call answer s
      (.settled result, call, s)
    else (.answered .gone, call, s)
  | .poll => Sight.of (r.serve (.poll n) call s)
  | .close => Sight.of (r.serve (.close n) call s)
  | .drop =>
    if call.isWaiting then (.answered (.dropped true), call.released, s)
    else Sight.of (r.serve (.drop n) call s)
  | .pollRequest => Sight.of (r.serve (.pollRequest n) call s)

variable {r : Recorder} {call : Call} {s : Session} {n : Nat} {c : Clock} {t : Turn}

theorem pollBody_call : (r.pollBody call s).2.1 = call.polled s.clock := by
  cases hb : call.responseBody with
  | none => rw [pollBody, Call.polled, hb]
  | some b =>
    cases hdue : b.poll.due with
    | false => simp [pollBody_of_not_due hb hdue, Call.polled, hb, hdue]
    | true =>
      simp [pollBody_of_due hb hdue, Call.polled, hb, hdue, Session.now, Session.advance]

theorem closeBody_call : (r.closeBody call s).2.1 = call.closed s.clock := by
  cases hb : call.responseBody with
  | none => rw [closeBody_of_none hb, Call.closed, hb]
  | some b =>
    cases hdue : b.complete.2 with
    | false => simp [closeBody_of_not_due hb hdue, Call.closed, hb, hdue]
    | true => simp [closeBody_of_due hb hdue, Call.closed, hb, hdue, Session.now]

theorem settle_call (answer : Except String (ResponseHead × Script)) :
    (r.settle call answer s).2.1 = call.settled s.clock answer := by
  cases hrec : call.isRecorded <;> cases answer <;> simp [settle, hrec]

/-- **What a turn does to its call** is settled by the call and the time. Neither the pipeline nor
the rest of the session can be told from the call afterwards. -/
theorem attend_call : (r.attend n call s t).2.1 = call.turned s.clock t := by
  cases t with
  | act a => rfl
  | settle answer =>
    rw [attend, Call.turned]
    split
    · exact settle_call answer
    · rfl
  | poll =>
    show (r.serve (.poll n) call s).2.1 = _
    rw [serve]
    exact pollBody_call
  | close =>
    show (r.serve (.close n) call s).2.1 = _
    rw [serve_close_call]
    exact closeBody_call
  | drop =>
    rw [attend, Call.turned]
    by_cases hw : call.isWaiting = true
    · rw [if_pos hw, if_pos hw]
    · rw [if_neg hw, if_neg hw, Sight.of, serve, drop, if_neg hw, dropBody]
      show { (r.closeBody call s).2.1 with responseBody := none } = _
      rw [closeBody_call]
  | pollRequest =>
    show (r.serve (.pollRequest n) call s).2.1 = _
    rw [serve, pollRequest, Call.turned]
    cases call.custody <;> rfl

theorem sameCall_settled (call : Call) (c : Clock)
    (answer : Except String (ResponseHead × Script)) : call.SameCall (call.settled c answer) := by
  have hstarted := call.tracker.started_note (c.elapsed, .responseHeaders)
  rw [Call.settled.eq_def]
  split
  · exact ⟨rfl, rfl, rfl, rfl, rfl, rfl, rfl, rfl⟩
  · exact ⟨rfl, rfl, rfl, rfl, rfl, rfl, rfl, rfl⟩
  · exact ⟨rfl, rfl, rfl, rfl, rfl, rfl, rfl, rfl⟩
  · exact ⟨rfl, rfl, rfl, rfl, rfl, rfl, hstarted.1, hstarted.2⟩

/-- Whatever turn a call takes, it stays the same call: no turn makes another request of it, or
has it recorded otherwise. -/
theorem sameCall_turned (call : Call) (c : Clock) (t : Turn) :
    call.SameCall (call.turned c t) := by
  have hclosed : call.SameCall (call.closed c) := by
    rw [Call.closed]
    split
    · exact .refl call
    · split <;> exact ⟨rfl, rfl, rfl, rfl, rfl, rfl, rfl, rfl⟩
  cases t with
  | act a => exact (Call.inTransport_act c call a).toSameCall
  | settle answer =>
    rw [Call.turned]
    split
    · exact sameCall_settled call c answer
    · exact .refl call
  | poll =>
    rw [Call.turned, Call.polled]
    split
    · exact .refl call
    · split <;> exact ⟨rfl, rfl, rfl, rfl, rfl, rfl, rfl, rfl⟩
  | close => exact hclosed
  | drop =>
    rw [Call.turned]
    split
    · exact ⟨rfl, rfl, rfl, rfl, rfl, rfl, rfl, rfl⟩
    · exact hclosed.trans ⟨rfl, rfl, rfl, rfl, rfl, rfl, rfl, rfl⟩
  | pollRequest =>
    rw [Call.turned]
    split <;> exact ⟨rfl, rfl, rfl, rfl, rfl, rfl, rfl, rfl⟩

/-! ## What a turn asks -/

/-- A sink is asked with one entry only, and in one session. -/
theorem asksOnce_unique {α : Type} {f : EntrySink Session → α} {e e' : Entry} {s s' : Session}
    (h : AsksOnce f e s) (h' : AsksOnce f e' s') : e = e' ∧ s = s' := by
  obtain ⟨⟨settle, hsettle⟩, hdepends⟩ := h
  obtain ⟨⟨settle', hsettle'⟩, -⟩ := h'
  by_contra hne
  -- A sink could answer the one question as `a` does and the other as `b` does.
  refine hdepends fun a b => ?_
  classical
  let both : EntrySink Session := fun e₀ s₀ => if e₀ = e ∧ s₀ = s then a e₀ s₀ else b e₀ s₀
  have hboth : both e s = a e s := if_pos ⟨rfl, rfl⟩
  have hboth' : both e' s' = b e' s' :=
    if_neg fun heq => hne ⟨heq.1.symm, heq.2.symm⟩
  rw [hsettle a, ← hboth, ← hsettle both, hsettle' both, hboth', ← hsettle' b]

/-- The entry of what an operation reports. -/
def reported (x : Call × Session) : Entry := x.1.report.toEntry x.2.now

/-- The entry that is due at a close is the one that the operation reports, if it reports one. -/
theorem due?_closing :
    Call.due?.closing s.clock call = (dueAtClose s call).map reported := by
  cases hb : call.responseBody with
  | none => simp [Call.due?.closing, dueAtClose, hb]
  | some b =>
    cases hdue : b.complete.2 with
    | false => simp [Call.due?.closing, dueAtClose, hb, hdue]
    | true => simp [Call.due?.closing, dueAtClose, hb, hdue, Call.closed, reported, Session.now]

/-- The entry that is due at a poll is that of the operation. -/
theorem due?_poll : call.due? s.clock .poll = (dueAt s call (.poll n)).map reported := by
  cases hb : call.responseBody with
  | none => simp [Call.due?, dueAt, hb]
  | some b =>
    cases hdue : b.poll.due with
    | false => simp [Call.due?, dueAt, hb, hdue]
    | true =>
      simp [Call.due?, dueAt, hb, hdue, Call.polled, reported, Session.now, Session.advance]

/-- What is asked, if anything, is asked once with that entry: the two cases of `AsksNothing` and
`AsksOnce` in one, by the entry that is due. -/
def Asks {α : Type} (f : EntrySink Session → α) : Option Entry → Prop
  | none => AsksNothing f
  | some e => ∃ s', AsksOnce f e s'

/-- An operation on a body asks as a turn what it asks by itself. -/
theorem asks_of_serve (op : Operation) :
    Asks (fun sink => Sight.of ((r.withSink sink).serve op call s))
      ((dueAt s call op).map reported) := by
  have hof : Function.Injective (Sight.of (α := Call × Session)) := by
    rintro ⟨a, x⟩ ⟨b, y⟩ hab
    simpa [Sight.of] using hab
  cases hat : dueAt s call op with
  | none =>
    refine (serve_asksNothing r call s fun hdue => ?_).map Sight.of
    obtain ⟨call', s', h⟩ := isDue_iff.mp hdue
    rw [hat] at h
    cases h
  | some x => exact ⟨x.2, (serve_asksOnce r hat).map hof⟩

/-- The answer of a transport asks just if it is a failure of a recorded call. The page that ends
then goes to another sink, and so has no part in this. -/
theorem settle_asks (hw : call.isWaiting = true)
    (answer : Except String (ResponseHead × Script)) :
    Asks (fun sink => (r.withSink sink).settle call answer s)
      (call.due? s.clock (.settle answer)) := by
  have hdeliver : ∀ sink call' s', (r.withSink sink).deliver call' s'
      = sink (call'.report.toEntry s'.now) s' := fun _ _ _ => rfl
  cases hrec : call.isRecorded with
  | false =>
    cases answer with
    | ok answer => simp [Asks, AsksNothing, Call.due?, settle, hrec]
    | error text => simp [Asks, AsksNothing, Call.due?, settle, hrec]
  | true =>
    cases answer with
    | ok answer => simp [Asks, AsksNothing, Call.due?, settle, hrec, endPage_withSink]
    | error text =>
      rw [Call.due?, hrec, hw, Bool.and_self, if_pos rfl]
      -- The two answers are two errors of the delivery.
      refine ⟨s, asksOnce_of_settle
        (fun d => (failure text d.1, call.settled s.clock (.error text),
          r.endPage (call.settled s.clock (.error text)) d.2)) (fun sink => ?_)
        (x := (.error .closed, s)) (y := (.error .noReceiver, s)) (fun hsame => ?_)⟩
      · simp only [settle, hrec, hdeliver, endPage_withSink]
        rfl
      · simp [failure] at hsame

theorem Asks.map {α β : Type} {f : EntrySink Session → α} {due : Option Entry} (h : Asks f due)
    {g : α → β} (hg : Function.Injective g) : Asks (fun sink => g (f sink)) due := by
  cases due with
  | none => exact AsksNothing.map h g
  | some e =>
    obtain ⟨s', hasks⟩ := h
    exact ⟨s', hasks.map hg⟩

/-- **What a turn asks** is settled by the call and the time: nothing if no entry is due, and
otherwise once, with that entry. -/
theorem attend_asks :
    Asks (fun sink => (r.withSink sink).attend n call s t) (call.due? s.clock t) := by
  cases t with
  | act a => exact fun _ _ => rfl
  | settle answer =>
    simp only [attend]
    -- An answer that nobody waits for is not taken, and has nothing due.
    by_cases hw : call.isWaiting = true
    · simp only [if_pos hw]
      refine (settle_asks hw answer).map
        (g := fun x : Except Error ResponseHead × Call × Session => (Sight.settled x.1, x.2)) ?_
      rintro ⟨a, x⟩ ⟨b, y⟩ hab
      simpa using hab
    · simp only [if_neg hw]
      have hdue : call.due? s.clock (.settle answer) = none := by
        cases answer with
        | ok answer => rfl
        | error text => simp [Call.due?, hw]
      rw [hdue]
      exact fun _ _ => rfl
  | poll =>
    rw [due?_poll (n := n)]
    exact asks_of_serve (.poll n)
  | close =>
    show Asks _ (Call.due?.closing s.clock call)
    rw [due?_closing]
    exact asks_of_serve (.close n)
  | drop =>
    simp only [attend, Call.due?]
    by_cases hw : call.isWaiting = true
    · simp only [if_pos hw]
      exact fun _ _ => rfl
    · simp only [if_neg hw]
      rw [due?_closing]
      have hdrop : dueAtClose s call = dueAt s call (.drop n) := by simp [dueAt, hw]
      rw [hdrop]
      exact asks_of_serve (.drop n)
  | pollRequest => exact asks_of_serve (.pollRequest n)

/-! ## Moves -/

/-- The least that can happen to a recorder: a call begins or has a turn, the receiver is flushed
or closed, or time passes. -/
inductive Move where
  | begin (o : Outgoing)
  | turn (call : Nat) (t : Turn)
  | flush
  | closeReceiver
  | advance (nanos : Nat)

/-- Makes a move. A turn of a call that does not exist is seen to be of none, and does nothing. -/
def move (r : Recorder) (st : State) : Move → Sight × State
  | .turn n t =>
    match st.calls[n]? with
    | none => (.answered .gone, st)
    | some call =>
      let (sight, call, s) := r.attend n call st.session t
      (sight, st.store n call s)
  | .begin o => Sight.of (step r st (.begin o))
  | .flush => Sight.of (step r st .flush)
  | .closeReceiver => Sight.of (step r st .closeReceiver)
  | .advance nanos => Sight.of (step r st (.advance nanos))

variable {st : State}

theorem move_of_call (h : st.calls[n]? = some call) :
    r.move st (.turn n t) = ((r.attend n call st.session t).1,
      st.store n (r.attend n call st.session t).2.1 (r.attend n call st.session t).2.2) := by
  simp only [move, h]

theorem move_of_no_call (h : st.calls[n]? = none) :
    r.move st (.turn n t) = (.answered .gone, st) := by
  simp only [move, h]

/-- A turn changes the one call that it is of, and that as `Call.turned` says. -/
theorem calls_turn (h : st.calls[n]? = some call) :
    (r.move st (.turn n t)).2.calls = st.calls.set n (call.turned st.session.clock t) := by
  rw [move_of_call h]
  exact congrArg (st.calls.set n) attend_call

/-- A call that begins comes last, so those before it keep their numbers. -/
theorem calls_begin (st : State) (o : Outgoing) :
    (r.move st (.begin o)).2.calls
      = st.calls ++ [Call.begin r.includeAll st.session.clock o] :=
  step_calls_of_no_target st rfl

/-- No call is ever taken away. -/
theorem length_calls_le (st : State) (m : Move) :
    st.calls.length ≤ (r.move st m).2.calls.length := by
  cases m with
  | begin o =>
    rw [calls_begin, List.length_append]
    exact Nat.le_add_right ..
  | turn n t =>
    cases hcall : st.calls[n]? with
    | none =>
      exact Nat.le_of_eq (by rw [move_of_no_call hcall])
    | some call =>
      exact Nat.le_of_eq (by rw [calls_turn hcall, List.length_set])
  | _ => exact Nat.le_refl _

/-- A move in a state hands over an entry: it asks the sink for entries once, with that one. -/
def Hands (r : Recorder) (st : State) (m : Move) (e : Entry) : Prop :=
  ∃ s', AsksOnce (fun sink => (r.withSink sink).move st m) e s'

/-- **A turn hands over the entry that is due**, and no other. So what is handed over in a run can
be read off its calls and times, without looking at any pipeline. -/
theorem hands_turn_iff {e : Entry} :
    Hands r st (.turn n t) e ↔
      ∃ call, st.calls[n]? = some call ∧ call.due? st.session.clock t = some e := by
  cases hcall : st.calls[n]? with
  | none =>
    simp only [Hands, AsksOnce, AsksNothing, move_of_no_call hcall]
    simp
  | some call =>
    have hn : n < st.calls.length := (List.getElem?_eq_some_iff.mp hcall).1
    -- The call that is put back and the session can be told from the state.
    have hinjective : Function.Injective
        fun x : Sight × Call × Session => (x.1, st.store n x.2.1 x.2.2) := by
      intro x y hxy
      have hsight : x.1 = y.1 := congrArg (·.1) hxy
      have hsession : x.2.2 = y.2.2 := congrArg (·.2.session) hxy
      have hcalls : st.calls.set n x.2.1 = st.calls.set n y.2.1 := congrArg (·.2.calls) hxy
      have hget : some x.2.1 = some y.2.1 := by
        rw [← List.getElem?_set_self (a := x.2.1) hn, hcalls, List.getElem?_set_self hn]
      exact Prod.ext hsight (Prod.ext (Option.some.inj hget) hsession)
    have hasks : Asks (fun sink => (r.withSink sink).attend n call st.session t)
        (call.due? st.session.clock t) := attend_asks
    replace hasks := hasks.map hinjective
    simp only [Hands, move_of_call hcall, Option.some.injEq, exists_eq_left']
    cases hdue : call.due? st.session.clock t with
    | none =>
      rw [hdue] at hasks
      constructor
      · rintro ⟨s', -, hdepends⟩
        exact absurd hasks hdepends
      · intro h
        cases h
    | some e' =>
      rw [hdue] at hasks
      obtain ⟨s', hasks⟩ := hasks
      constructor
      · rintro ⟨s'', hasks'⟩
        rw [(asksOnce_unique hasks hasks').1]
      · intro h
        obtain rfl := Option.some.inj h
        exact ⟨s', hasks⟩

theorem hands_turn_iff_of_call {e : Entry} (h : st.calls[n]? = some call) :
    Hands r st (.turn n t) e ↔ call.due? st.session.clock t = some e := by
  rw [hands_turn_iff, h]
  simp only [Option.some.injEq, exists_eq_left']

/-- Only a turn hands over an entry. -/
theorem Hands.turn {m : Move} {e : Entry} (h : Hands r st m e) : ∃ n t, m = .turn n t := by
  obtain ⟨s', -, hdepends⟩ := h
  cases m with
  | turn n t => exact ⟨n, t, rfl⟩
  | _ => exact absurd (fun _ _ => rfl) hdepends

/-! ## Runs of moves -/

/-- The state with the clock showing a time, everything else being as it was. -/
def State.at (st : State) (c : Clock) : State :=
  { st with session := { st.session with clock := c } }

/-- Makes moves one after the other, each at its time: what is seen, and the state after it. -/
def play (r : Recorder) : State → List (Clock × Move) → List Sight × State
  | st, [] => ([], st)
  | st, (c, m) :: rest =>
    let (sight, st) := r.move (st.at c) m
    let (more, st) := play r st rest
    (sight :: more, st)

/-- The state after moves. What was seen of them on the way is in `play`. -/
def played (r : Recorder) (st : State) (moves : List (Clock × Move)) : State :=
  (play r st moves).2

/-- The moves of a run, each with the state that it finds, the clock being set to the time of the
move already. -/
def moments (r : Recorder) : State → List (Clock × Move) → List (State × Move)
  | _, [] => []
  | st, (c, m) :: rest => (st.at c, m) :: moments r (r.move (st.at c) m).2 rest

theorem played_concat (st : State) (moves : List (Clock × Move)) (c : Clock) (m : Move) :
    played r st (moves ++ [(c, m)]) = (r.move ((played r st moves).at c) m).2 := by
  induction moves generalizing st with
  | nil => rfl
  | cons a moves ih => exact ih (r.move (st.at a.1) a.2).2

theorem moments_concat (st : State) (moves : List (Clock × Move)) (c : Clock) (m : Move) :
    moments r st (moves ++ [(c, m)]) = moments r st moves ++ [((played r st moves).at c, m)] := by
  induction moves generalizing st with
  | nil => rfl
  | cons a moves ih => exact congrArg _ (ih (r.move (st.at a.1) a.2).2)

/-- Moves with the times at which they are made if time passes only as they take it. -/
def timed (r : Recorder) : State → List Move → List (Clock × Move)
  | _, [] => []
  | st, m :: rest => (st.session.clock, m) :: timed r (r.move st m).2 rest

/-! ## Running a transport in one go -/

/-- What a transport does and then answers: its turns up to the first that makes it fail. -/
def turns (c : Clock) (call : Call) (answer : Except String (ResponseHead × Script)) :
    List Action → List Turn
  | [] => [.settle answer]
  | a :: rest =>
    match Call.act c call a with
    | (_, .error text, _, _) => [.act a, .settle (.error text)]
    | (_, .ok (), c, call) => .act a :: turns c call answer rest

/-- To run a transport is to let it act and then to take its answer, which is the first failure of
an action if there is one. The cases are those of `run`, and each is a computation. -/
theorem run_eq_settle {readings : List Call.Reading} {outcome : Except String Unit}
    {call' : Call} (reply : Reply)
    (h : Call.actAll s.clock call reply.actions = (readings, outcome, c, call')) :
    ((r.run call reply s).result, (r.run call reply s).call, (r.run call reply s).session) =
      r.settle call' (outcome.bind fun _ => reply.answer) { s with clock := c } := by
  have hrec : call'.isRecorded = call.isRecorded := by
    have hin := Call.inTransport_actAll s.clock call reply.actions
    rw [h] at hin
    exact hin.isRecorded
  have hperform : call.perform s.clock reply = (readings, outcome.bind fun _ => reply.answer, c,
      { call' with custody := if call'.custody = .held then .held else .dropped }) := by
    rw [Call.perform, h]
    cases outcome <;> rfl
  generalize outcome.bind (fun _ => reply.answer) = answer at hperform ⊢
  cases hon : call.isRecorded with
  | false =>
    rw [run_of_unrecorded hon, hperform]
    cases answer <;> simp [settle, Call.settled, hrec, hon, Call.released]
  | true =>
    cases answer with
    | ok answer =>
      rw [run_of_answered hon hperform]
      simp [settle, Call.settled, hrec, hon, Call.released, answeredCall]
    | error text =>
      rw [run_of_failed hon hperform]
      simp [settle, Call.settled, hrec, hon, Call.released, failedCall]

/-- An action leaves the call of its number as it was acted on. -/
theorem move_act {a : Action} {readings : List Call.Reading} {outcome : Except String Unit}
    {call' : Call} (hcall : st.calls[n]? = some call)
    (hact : Call.act st.session.clock call a = (readings, outcome, c, call')) :
    r.move st (.turn n (.act a))
      = (.acted readings outcome, st.store n call' { st.session with clock := c }) := by
  rw [move_of_call hcall, attend, hact]

/-- What is stored under a number can be stored over. -/
theorem State.store_store (st : State) (n : Nat) (first last : Call) (s s' : Session) :
    (st.store n first s).store n last s' = st.store n last s' := by
  simp [State.store]

/-- The turns of a transport leave its call settled, and the last of them shows the result. The
induction is on the actions, from any state that has the call. -/
theorem play_turns (answer : Except String (ResponseHead × Script)) {actions : List Action}
    {readings : List Call.Reading} {outcome : Except String Unit} {call' : Call}
    (hcall : st.calls[n]? = some call) (hw : call.isWaiting = true)
    (hall : Call.actAll st.session.clock call actions = (readings, outcome, c, call')) :
    ∃ sights, play r st (timed r st ((turns st.session.clock call answer actions).map (.turn n))) =
      (fun x => (sights ++ [.settled x.1], st.store n x.2.1 x.2.2))
        (r.settle call' (outcome.bind fun _ => answer) { st.session with clock := c }) := by
  induction actions generalizing st call readings outcome c call' with
  | nil =>
    cases hall
    refine ⟨[], ?_⟩
    have hmove : r.move st (.turn n (.settle answer)) = _ := move_of_call hcall
    rw [attend, if_pos hw] at hmove
    show ([(r.move st (.turn n (.settle answer))).1], (r.move st (.turn n (.settle answer))).2) = _
    rw [hmove]
    rfl
  | cons a rest ih =>
    have hn : n < st.calls.length := (List.getElem?_eq_some_iff.mp hcall).1
    have hin := Call.inTransport_act st.session.clock call a
    rw [Call.actAll] at hall
    rw [turns]
    rcases hact : Call.act st.session.clock call a with ⟨first, result, c₁, call₁⟩
    rw [hact] at hall hin
    have hw₁ : call₁.isWaiting = true := hin.isWaiting.trans hw
    have hcall₁ : (st.store n call₁ { st.session with clock := c₁ }).calls[n]? = some call₁ :=
      List.getElem?_set_self hn
    have hfirst := move_act (r := r) hcall hact
    cases result with
    | error text =>
      -- The transport fails here: the call is settled next, and the rest is never done.
      cases hall
      refine ⟨[.acted readings (.error text)], ?_⟩
      show ([(r.move st (.turn n (.act a))).1,
        (r.move (r.move st (.turn n (.act a))).2 (.turn n (.settle (.error text)))).1],
        (r.move (r.move st (.turn n (.act a))).2 (.turn n (.settle (.error text)))).2) = _
      rw [hfirst, move_of_call hcall₁, attend, if_pos hw₁, State.store_store]
      rfl
    | ok _ =>
      dsimp only at hall ⊢
      rcases hmore : Call.actAll c₁ call₁ rest with ⟨more, outcome', c₂, call₂⟩
      rw [hmore] at hall
      cases hall
      obtain ⟨sights, hsights⟩ := ih hcall₁ hw₁ hmore
      refine ⟨.acted first (.ok ()) :: sights, ?_⟩
      show (fun y : List Sight × State => ((r.move st (.turn n (.act a))).1 :: y.1, y.2))
        (play r (r.move st (.turn n (.act a))).2 (timed r (r.move st (.turn n (.act a))).2
          ((turns c₁ call₁ answer rest).map (.turn n)))) = _
      rw [hfirst]
      refine (congrArg (fun y : List Sight × State => (Sight.acted first (.ok ()) :: y.1, y.2))
        hsights).trans ?_
      simp only [State.store_store]
      rfl

/-- **Running a transport in one go** comes to the same as its turns one after the other, of
which the last shows the result. -/
theorem step_run (reply : Reply) (hcall : st.calls[n]? = some call)
    (hw : call.isWaiting = true) :
    ∃ sights readings result,
      play r st (timed r st
        ((turns st.session.clock call reply.answer reply.actions).map (.turn n)))
        = (sights ++ [.settled result], (step r st (.run n reply)).2)
      ∧ (step r st (.run n reply)).1 = .ran readings result := by
  rcases hall : Call.actAll st.session.clock call reply.actions with ⟨readings, outcome, c, call'⟩
  obtain ⟨sights, hsights⟩ := play_turns (r := r) reply.answer hcall hw hall
  refine ⟨sights, (r.run call reply st.session).readings, (r.run call reply st.session).result,
    ?_, ?_⟩
  · rw [hsights, ← run_eq_settle (r := r) reply hall, step_of_call rfl hcall, serve, if_pos hw]
  · rw [step_of_call rfl hcall, serve, if_pos hw]

end Recorder

end ExchangeArchive
