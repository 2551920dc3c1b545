import ExchangeArchive.Proofs.Recorder.Observation
/-
**When an entry is delivered, and what may still be under way then.**

An entry is due when the response body of its call is over, or the transport has failed.
Nobody waits for the request body: a transport may answer while it goes on reading, and the
caller may be through with the response before the transport is through with the request.
What an entry says of the request body is then what was read of it so far.

`LetGo` is what holds of a call whose transport has answered: the request body is with the
transport only if that has kept it. `Over` is the case in which it is read to its end or
dropped, and from then on no turn of any kind reads more of it (`Over.turned`), so that what
an entry says of it is final.
-/

set_option autoImplicit false

namespace ExchangeArchive

open ExchangeArchive.Archive ExchangeArchive.Body ExchangeArchive.Http
  ExchangeArchive.Recorder ExchangeArchive.Time ExchangeArchive.Transport ExchangeArchive.Trip

namespace Body.Observed

variable {o : Observed}

/-- A body whose completion was due is complete after it, so that it is not due a second time. -/
theorem isComplete_complete (h : o.complete.2 = true) : o.complete.1.isComplete = true := by
  rw [complete] at h ⊢
  split at h
  · cases h
  · next c hc =>
    split at h
    · cases h
    · next hnot =>
      rw [if_neg hnot]
      rfl

theorem isComplete_of_due (h : o.poll.due = true) : o.poll.body.isComplete = true := by
  by_cases hdone : o.done = true
  · rw [poll_of_done hdone] at h
    cases h
  · have hdone : o.done = false := by simpa using hdone
    rcases hp : o.inner.poll with ⟨waited, p, inner⟩
    by_cases hend : p.isEnded = true
    · obtain rfl : p = .ended := Poll.eq_ended hend
      rw [poll_of_ended hdone hp] at h ⊢
      exact isComplete_complete h
    · rw [poll_of_going hdone hp (by simpa using hend)] at h
      cases h

end Body.Observed

namespace Recorder

/-! ## When a call is over -/

namespace Call

/-- The request body has been read to its end, or dropped. Nothing records when this happens: the
only completion that is waited for is that of the response. -/
def RequestOver (call : Call) : Prop := call.requestBody.done = true ∨ call.custody = .dropped

/-- There is no response, and never will be, or there is one and its body has been read to
its end, closed or dropped. -/
def ResponseOver (call : Call) : Prop :=
  call.error.isSome = true ∨ call.response.isSome = true
    ∧ ∀ b, call.responseBody = some b → b.isComplete = true

/-- The nanoseconds that pass while a turn is taken. A transport that acts may take time as well,
but no entry is due at that. -/
def delay (call : Call) : Turn → Nat
  | .poll => (call.responseBody.map fun b => b.poll.waited).getD 0
  | _ => 0

end Call

/-- The times at which calls begin in a run, in the order of the calls. -/
def beginnings (moves : List (Clock × Move)) : List Clock :=
  moves.filterMap fun
    | (c, .begin _) => some c
    | _ => none

variable {r : Recorder} {call : Call} {s : Session} {n : Nat} {c : Clock} {t : Turn}
  {o : Outgoing} {turns : List (Turn × Sight)} {e : Entry} {moves : List (Clock × Move)}

/-- A call that has ended with an awaited body has its response, and that is over, since the body
that it is left with is complete. -/
theorem Kept.responseOver_ended (h : Kept o turns call) {b b' : Observed}
    (hb : call.responseBody = some b) (hawaited : b.awaited = true)
    (hcomplete : b'.isComplete = true) (elapsed : Nat) :
    (endedCall call b' elapsed).isWaiting = false
      ∧ (endedCall call b' elapsed).ResponseOver := by
  obtain ⟨-, -, -, head, body, -, hhead⟩ := h.answered b hb hawaited
  refine ⟨h.isWaiting_of_body hb, .inr ⟨?_, ?_⟩⟩
  · rw [endedCall, hhead]
    rfl
  · intro b'' hb''
    obtain rfl : b' = b'' := Option.some.inj hb''
    exact hcomplete

/-- At a close, or a drop, at which an entry is due the response is over. Neither takes any time,
so the entry has the time of the turn. -/
theorem Kept.over_of_closing (h : Kept o turns call)
    (hdue : Call.due?.closing c call = some e) :
    (call.closed c).isWaiting = false ∧ (call.closed c).ResponseOver
      ∧ e.time = millis (c.elapsed - call.tracker.started) := by
  obtain ⟨b, hb, hdue⟩ := Option.bind_eq_some_iff.mp hdue
  split at hdue
  · next hcomplete =>
    obtain rfl := Option.some.inj hdue
    have hclosed : call.closed c = endedCall call b.complete.1 c.elapsed := by
      simp [Call.closed, hb, hcomplete]
    obtain ⟨hwaiting, hover⟩ := h.responseOver_ended hb
      (Observed.awaited_complete hcomplete).1 (Observed.isComplete_complete hcomplete) c.elapsed
    rw [hclosed]
    exact ⟨hwaiting, hover, rfl⟩
  · cases hdue

/-- At the turn at which an entry is due the response is over, and its time is that from
the beginning of the call to the end of the turn. -/
theorem Kept.over_of_due (h : Kept o turns call) (hdue : call.due? c t = some e) :
    (call.turned c t).isWaiting = false ∧ (call.turned c t).ResponseOver
      ∧ e.time = millis ((c.advance (call.delay t)).elapsed - call.tracker.started) := by
  cases t with
  | settle answer =>
    cases answer with
    | ok answer => cases hdue
    | error text =>
      rw [Call.due?] at hdue
      split at hdue
      · next hrec =>
        rw [Bool.and_eq_true] at hrec
        obtain rfl := Option.some.inj hdue
        have hsettled : call.settled c (.error text)
            = failedCall call.released text c.elapsed := by
          simp [Call.settled, hrec.1]
        rw [Call.turned, if_pos hrec.2, hsettled]
        exact ⟨rfl, .inl rfl, rfl⟩
      · cases hdue
  | poll =>
    obtain ⟨b, hb, hdue⟩ := Option.bind_eq_some_iff.mp hdue
    split at hdue
    · next hcomplete =>
      obtain rfl := Option.some.inj hdue
      have hpolled : call.polled c
          = endedCall call b.poll.body (c.advance b.poll.waited).elapsed := by
        simp [Call.polled, hb, hcomplete]
      have hdelay : call.delay .poll = b.poll.waited := by rw [Call.delay, hb]; rfl
      obtain ⟨hwaiting, hover⟩ := h.responseOver_ended hb
        (Observed.awaited_of_due hcomplete).1 (Observed.isComplete_of_due hcomplete)
        (c.advance b.poll.waited).elapsed
      rw [Call.turned, hpolled, hdelay]
      exact ⟨hwaiting, hover, rfl⟩
    · cases hdue
  | close => exact h.over_of_closing hdue
  | drop =>
    rw [Call.due?] at hdue
    split at hdue
    · cases hdue
    · next hw =>
      obtain ⟨hwaiting, hover, htime⟩ := h.over_of_closing hdue
      rw [Call.turned, if_neg hw]
      -- There is no body any more that could be other than complete.
      refine ⟨hwaiting, hover.imp_right fun hanswered => ⟨hanswered.1, ?_⟩, htime⟩
      intro b hb
      cases hb
  | act a => cases hdue
  | pollRequest => cases hdue

/-! ## The request body after the answer -/

/-- Once its transport has answered, the request body of a call is no longer there for it
unless it was kept. -/
def LetGo (call : Call) : Prop := call.isWaiting = false → call.custody ≠ .transport

/-- The request body is over, and not with a transport that has yet to answer. The first is what
`Over.turned` needs beside the second: a transport could still drop or hand over what it has. -/
structure Over (call : Call) : Prop where
  letGo : call.custody ≠ .transport
  requestOver : call.RequestOver

theorem released_custody (call : Call) : call.released.custody ≠ .transport := by
  rw [Call.released]
  dsimp only
  split
  · intro h
    cases h
  · intro h
    cases h

/-- The answer of the transport lets go of the request body. -/
theorem settled_keeps (call : Call) (c : Clock)
    (answer : Except String (ResponseHead × Script)) :
    (call.settled c answer).custody = call.released.custody
      ∧ (call.settled c answer).requestBody = call.requestBody := by
  rw [Call.settled.eq_def]
  split <;> exact ⟨rfl, rfl⟩

/-- What is asked of the response body leaves the request body alone, and who has it. -/
theorem polled_keeps (call : Call) (c : Clock) :
    (call.polled c).custody = call.custody ∧ (call.polled c).requestBody = call.requestBody
      ∧ (call.polled c).isWaiting = call.isWaiting := by
  rw [Call.polled]
  split
  · exact ⟨rfl, rfl, rfl⟩
  · split <;> exact ⟨rfl, rfl, rfl⟩

theorem closed_keeps (call : Call) (c : Clock) :
    (call.closed c).custody = call.custody ∧ (call.closed c).requestBody = call.requestBody
      ∧ (call.closed c).isWaiting = call.isWaiting := by
  rw [Call.closed]
  split
  · exact ⟨rfl, rfl, rfl⟩
  · split <;> exact ⟨rfl, rfl, rfl⟩

/-- A transport that has no request body any more gets nothing of it, whatever it tries, and cannot
change who has it. -/
theorem act_keeps (h : call.custody ≠ .transport) (c : Clock) (a : Action) :
    (Call.act c call a).2.2.2.custody = call.custody
      ∧ (Call.act c call a).2.2.2.requestBody = call.requestBody
      ∧ (Call.act c call a).1.flatMap Call.Reading.octets = [] := by
  cases a with
  | wait nanos => exact ⟨rfl, rfl, rfl⟩
  | report event =>
    have hsee : (call.see c.elapsed event).custody = call.custody
        ∧ (call.see c.elapsed event).requestBody = call.requestBody := by
      rw [Call.see, Call.observer?]
      cases call.isRecorded <;> cases call.traced <;> exact ⟨rfl, rfl⟩
    exact ⟨hsee.1, hsee.2, rfl⟩
  | dropBody => exact ⟨if_neg h, rfl, rfl⟩
  | holdBody => exact ⟨if_neg h, rfl, rfl⟩
  | read k =>
    have hnone : (List.replicate k (Call.Reading.polled none)).flatMap Call.Reading.octets
        = [] := by
      rw [List.flatMap_eq_nil_iff]
      intro x hx
      rw [List.eq_of_mem_replicate hx]
      rfl
    rw [Call.act]
    cases hc : call.custody with
    | transport => exact absurd hc h
    | held => exact ⟨hc, rfl, hnone⟩
    | dropped => exact ⟨hc, rfl, hnone⟩
  | readAll =>
    rw [Call.act]
    cases hc : call.custody with
    | transport => exact absurd hc h
    | held => exact ⟨hc, rfl, rfl⟩
    | dropped => exact ⟨hc, rfl, rfl⟩

/-- **Whatever turn a call takes**, its transport has let go of it once it has answered. Only the
answer and a drop end the waiting, and both release the request body. -/
theorem LetGo.turned (h : LetGo call) (c : Clock) (t : Turn) : LetGo (call.turned c t) := by
  cases t with
  | act a =>
    intro hw
    have hw : call.isWaiting = false := (Call.inTransport_act c call a).isWaiting.symm.trans hw
    show (Call.act c call a).2.2.2.custody ≠ .transport
    rw [(act_keeps (h hw) c a).1]
    exact h hw
  | settle answer =>
    rw [Call.turned]
    split
    · intro _
      rw [(settled_keeps call c answer).1]
      exact released_custody call
    · exact h
  | poll =>
    intro hw
    obtain ⟨hcustody, -, hwaiting⟩ := polled_keeps call c
    rw [Call.turned, hcustody]
    exact h (hwaiting.symm.trans hw)
  | close =>
    intro hw
    obtain ⟨hcustody, -, hwaiting⟩ := closed_keeps call c
    rw [Call.turned, hcustody]
    exact h (hwaiting.symm.trans hw)
  | drop =>
    rw [Call.turned]
    split
    · exact fun _ => released_custody call
    · next hnot =>
      intro _
      show (call.closed c).custody ≠ .transport
      rw [(closed_keeps call c).1]
      exact h (by simpa using hnot)
  | pollRequest =>
    rw [Call.turned]
    split
    · exact h
    · exact h

/-- Where neither the request body nor its custody changes, it stays over. -/
theorem Over.of_same (h : Over call) {call' : Call} (hcustody : call'.custody = call.custody)
    (hbody : call'.requestBody = call.requestBody) : Over call' :=
  ⟨by rw [hcustody]; exact h.letGo, by
    rw [Call.RequestOver, hcustody, hbody]
    exact h.requestOver⟩

theorem Over.released (h : Over call) : Over call.released := by
  refine ⟨released_custody call, h.requestOver.imp_right fun hdropped => ?_⟩
  rw [Call.released, hdropped]
  rfl

/-- **Whatever turn a call takes** when its request body is over, nothing more of it is
read, and it stays over. This is why an entry that was delivered after that is final. -/
theorem Over.turned (h : Over call) (t : Turn) :
    Over (call.turned s.clock t) ∧ Turn.sent (t, (r.attend n call s t).1) = [] := by
  cases t with
  | act a =>
    obtain ⟨hcustody, hbody, hoctets⟩ := act_keeps h.letGo s.clock a
    exact ⟨h.of_same hcustody hbody, hoctets⟩
  | settle answer =>
    refine ⟨?_, rfl⟩
    obtain ⟨hcustody, hbody⟩ := settled_keeps call s.clock answer
    rw [Call.turned]
    split
    · exact h.released.of_same hcustody hbody
    · exact h
  | poll =>
    obtain ⟨hcustody, hbody, -⟩ := polled_keeps call s.clock
    exact ⟨h.of_same hcustody hbody, rfl⟩
  | close =>
    obtain ⟨hcustody, hbody, -⟩ := closed_keeps call s.clock
    exact ⟨h.of_same hcustody hbody, rfl⟩
  | drop =>
    refine ⟨?_, rfl⟩
    obtain ⟨hcustody, hbody, -⟩ := closed_keeps call s.clock
    rw [Call.turned]
    split
    · exact h.released
    · exact h.of_same hcustody hbody
  | pollRequest =>
    have hsight : (r.attend n call s .pollRequest).1
        = .answered (.ofPoll (pollRequest call s).1) := rfl
    rw [hsight, Call.turned, pollRequest]
    cases hc : call.custody with
    | held =>
      -- What the transport has kept has been read to its end, and gives nothing but that.
      have hdone : call.requestBody.done = true := by
        refine h.requestOver.resolve_right fun hdropped => ?_
        rw [hc] at hdropped
        cases hdropped
      rw [if_pos rfl, Observed.poll_of_done hdone]
      exact ⟨h.of_same hc.symm rfl, rfl⟩
    | transport => exact absurd hc h.letGo
    | dropped => exact ⟨h, rfl⟩

/-! ## Runs -/

theorem ofBeginnings_clock : OfBeginnings fun
    | (c, .begin _) => some c
    | _ => none := by
  intro c m
  cases m <;> simp

/-- What a call has of its beginning and of its transport's letting go. Both hold of any turn
without the other; they are carried through a run together. -/
structure Timely (c₀ : Clock) (call : Call) : Prop where
  started : call.tracker.started = c₀.elapsed
  letGo : LetGo call

theorem Timely.turned {c₀ : Clock} (h : Timely c₀ call) (c : Clock) (t : Turn) :
    Timely c₀ (call.turned c t) :=
  ⟨(sameCall_turned call c t).started.trans h.started, h.letGo.turned c t⟩

/-- **What a run preserves.** Every call knows when it began, which is the time of the move that
begins it, and its transport has let go of it once it has answered. -/
theorem timely_played (hcall : (played r ⟨s, []⟩ moves).calls[n]? = some call) :
    ∃ c₀, (beginnings moves)[n]? = some c₀ ∧ Timely c₀ call := by
  obtain ⟨st, o, rest, hown, htimely⟩ : ∃ st o rest,
      movesOf r ⟨s, []⟩ moves n = (st, .begin o) :: rest ∧ Timely st.session.clock call := by
    refine movesOf_induction (motive := fun own call => ∃ st o rest, own = (st, .begin o) :: rest
      ∧ Timely st.session.clock call) ?_ ?_ hcall
    · intro st o
      exact ⟨st, o, [], rfl, rfl, fun hw => by cases hw⟩
    · rintro st t _ call - ⟨st₀, o, rest, rfl, htimely⟩
      exact ⟨st₀, o, rest ++ [(st, .turn n t)], rfl, htimely.turned st.session.clock t⟩
  exact ⟨st.session.clock, ofBeginnings_clock.of_movesOf hown, htimely⟩

/-- **Once the request body of a call is over, no run reads more of it.** The induction is on what
is done later; the turns of other calls and the other moves do not concern the call. -/
theorem Over.sent_later (h : Over call)
    (hcall : (played r ⟨s, []⟩ moves).calls[n]? = some call) (later : List (Clock × Move)) :
    ∃ call', (played r ⟨s, []⟩ (moves ++ later)).calls[n]? = some call' ∧ Over call'
      ∧ sent (turnsOf r ⟨s, []⟩ (moves ++ later) n) = sent (turnsOf r ⟨s, []⟩ moves n) := by
  induction later using List.reverseRecOn with
  | nil =>
    rw [List.append_nil]
    exact ⟨call, hcall, h, rfl⟩
  | append_singleton later m ih =>
    obtain ⟨c, m⟩ := m
    obtain ⟨call', hcall', hover, hsent⟩ := ih
    rw [← List.append_assoc, played_concat]
    cases hm : concerns n ((played r ⟨s, []⟩ (moves ++ later)).at c, m) with
    | false =>
      refine ⟨call', ?_, hover, ?_⟩
      · rw [call_of_not_concerns hm]
        exact hcall'
      · rw [turnsOf, movesOf_concat, hm, if_neg Bool.false_ne_true, List.append_nil]
        exact hsent
    | true =>
      cases m with
      | begin o =>
        -- The call is there already.
        have hbegins := concerns_begin_iff.mp hm
        have hn : (played r ⟨s, []⟩ (moves ++ later)).calls.length = n := hbegins
        have hlt := (List.getElem?_eq_some_iff.mp hcall').1
        omega
      | turn k t =>
        obtain ⟨rfl, hn⟩ := concerns_turn_iff.mp hm
        have hat : ((played r ⟨s, []⟩ (moves ++ later)).at c).calls[k]? = some call' := hcall'
        obtain ⟨hover', hquiet⟩ := hover.turned (r := r) (n := k)
          (s := ((played r ⟨s, []⟩ (moves ++ later)).at c).session) t
        refine ⟨_, ?_, hover', ?_⟩
        · rw [calls_turn hat]
          exact List.getElem?_set_self hn
        · rw [turnsOf_turn hat, sent_concat, hquiet, List.append_nil]
          exact hsent
      | _ => cases hm

/-! ## The result -/

/-- Of a body that had ended before it was sent there is nothing to be recorded. -/
theorem SaysRequest.of_ended {record : Request} {octets : List UInt8}
    (h : SaysRequest record o octets) (hended : o.body.isEndStream = true)
    (others : List UInt8) : SaysRequest record o others := by
  have hnone : record.postData.isSome = false := by rw [h.postData_isSome, hended]; rfl
  refine ⟨h.method, h.url, h.httpVersion, h.headers, h.cookies, h.postData_isSome, ?_, ?_⟩
  · intro hnot
    rw [hended] at hnot
    cases hnot
  · intro data hdata
    rw [hdata] at hnone
    cases hnone

/-- **An entry is delivered when its response is over.** Whatever has happened to the calls
of a recorder, an entry that is handed over is that of a call at one of its turns, and after
that turn the response of the call is over. Its request body has been read to its end or
dropped, or the transport has kept it beyond its answer. The time of the entry is that from
the beginning of the call to the end of the turn. What the entry says of the request body is
what has been sent of it up to then, and if the body is over, or there was none, that is
final: it is also what has been sent of it after any further moves. -/
theorem delivered_when_response_is_over (r : Recorder) (s : Session)
    (moves : List (Clock × Move)) (c : Clock) (m : Move) (e : Entry)
    (h : Hands r ((played r ⟨s, []⟩ moves).at c) m e) :
    ∃ n t o c₀ call call', m = .turn n t ∧ (requests moves)[n]? = some o
      ∧ (beginnings moves)[n]? = some c₀
      ∧ (played r ⟨s, []⟩ moves).calls[n]? = some call
      ∧ (played r ⟨s, []⟩ (moves ++ [(c, m)])).calls[n]? = some call'
      ∧ call'.ResponseOver
      ∧ (call'.RequestOver ∨ call'.custody = .held)
      ∧ e.time = millis ((c.advance (call.delay t)).elapsed - c₀.elapsed)
      ∧ SaysRequest e.request o (sent (turnsOf r ⟨s, []⟩ (moves ++ [(c, m)]) n))
      ∧ (call'.RequestOver ∨ o.body.isEndStream = true → ∀ later,
          SaysRequest e.request o (sent (turnsOf r ⟨s, []⟩ (moves ++ (c, m) :: later) n))) := by
  obtain ⟨n, t, rfl⟩ := h.turn
  obtain ⟨call, hcall, hdue⟩ := hands_turn_iff.mp h
  obtain ⟨o, ho, hkept⟩ := kept_played hcall
  obtain ⟨c₀, hc₀, htimely⟩ := timely_played hcall
  have hn := (List.getElem?_eq_some_iff.mp hcall).1
  have hcall' : (played r ⟨s, []⟩ (moves ++ [(c, .turn n t)])).calls[n]?
      = some (call.turned c t) := by
    rw [played_concat, calls_turn hcall]
    exact List.getElem?_set_self hn
  obtain ⟨hwaiting, hover, htime⟩ := hkept.over_of_due hdue
  have hletGo := (htimely.turned c t).letGo hwaiting
  obtain ⟨hrequest, -⟩ := hkept.says (r := r) (n := n) hdue
  rw [← turnsOf_turn hcall] at hrequest
  refine ⟨n, t, o, c₀, call, call.turned c t, rfl, ho, hc₀, hcall, hcall', hover, ?_, ?_,
    hrequest, ?_⟩
  · cases hcustody : (call.turned c t).custody with
    | transport => exact absurd hcustody hletGo
    | held => exact .inr rfl
    | dropped => exact .inl (.inr hcustody)
  · rw [htime, htimely.started]
    rfl
  · rintro (hrequestOver | hended) later
    · have hlater := Over.sent_later ⟨hletGo, hrequestOver⟩ hcall' later
      obtain ⟨-, -, -, hsent⟩ := hlater
      rw [List.append_cons, hsent]
      exact hrequest
    · exact hrequest.of_ended hended _

/-- A transport drains a request body of three octets and answers, and the caller polls the
end of an empty response body: the entry is final. -/
theorem delivered_when_response_is_over_drained :
    let r : Recorder := ⟨{}, true, Session.pipeline [] []⟩
    let s : Session := { clock := { started := 0 } }
    let c := s.clock
    let o : Outgoing := ⟨⟨"POST", ⟨none, none, "/", none⟩, .http11, .empty⟩,
      ⟨[.answer (.data [104, 105]), .answer (.data [33])], none, true⟩, {}, false⟩
    let moves : List (Clock × Move) := [(c, .begin o), (c, .turn 0 (.act .readAll)),
      (c, .turn 0 (.settle (.ok (⟨200, .http11, .empty, []⟩, ⟨[], none, true⟩))))]
    ∃ e, Hands r ((played r ⟨s, []⟩ moves).at c) (.turn 0 .poll) e ∧ e.request.bodySize = 3
      ∧ ∀ later, SaysRequest e.request o
        (sent (turnsOf r ⟨s, []⟩ (moves ++ (c, .turn 0 .poll) :: later) 0)) := by
  intro r s c o moves
  have hsent : sent (turnsOf r ⟨s, []⟩ (moves ++ [(c, .turn 0 .poll)]) 0) = [104, 105, 33] := by
    decide +kernel
  have hands : ∃ e, Hands r ((played r ⟨s, []⟩ moves).at c) (.turn 0 .poll) e :=
    ⟨_, hands_turn_iff.mpr ⟨_, rfl, rfl⟩⟩
  obtain ⟨e, hands⟩ := hands
  obtain ⟨n, t, o', c₀, call, call', hm, ho, -, -, hcall', -, -, -, hrequest, hfinal⟩ :=
    delivered_when_response_is_over r s moves c (.turn 0 .poll) e hands
  obtain ⟨rfl, rfl⟩ : 0 = n ∧ Turn.poll = t := by simpa using hm
  obtain rfl : o = o' := Option.some.inj ho
  have hover : call'.RequestOver := by
    obtain rfl := Option.some.inj hcall'
    exact .inr rfl
  rw [hsent] at hrequest
  exact ⟨e, hands, hrequest.bodySize rfl, hfinal (.inl hover)⟩

/-- A transport reads two octets of three, keeps the request body and answers. The caller
polls the end of the response body, and the entry is delivered. It says of the request body
what was read by then, and it was delivered while that was not over: a millisecond later the
transport reads the third octet. -/
theorem delivered_before_request_is_over :
    let r : Recorder := ⟨{}, true, Session.pipeline [] []⟩
    let s : Session := { clock := { started := 0 } }
    let c := s.clock
    let o : Outgoing := ⟨⟨"POST", ⟨none, none, "/", none⟩, .http11, .empty⟩,
      ⟨[.answer (.data [104, 105]), .answer (.data [33])], none, true⟩, {}, false⟩
    let moves : List (Clock × Move) := [(c, .begin o), (c, .turn 0 (.act (.read 1))),
      (c, .turn 0 (.act .holdBody)),
      (c, .turn 0 (.settle (.ok (⟨200, .http11, .empty, []⟩, ⟨[], none, true⟩))))]
    ∃ e call', Hands r ((played r ⟨s, []⟩ moves).at c) (.turn 0 .poll) e
      ∧ (played r ⟨s, []⟩ (moves ++ [(c, .turn 0 .poll)])).calls[0]? = some call'
      ∧ call'.requestBody.capture.isSome = true ∧ ¬ call'.RequestOver
      ∧ e.request.bodySize = 2
      ∧ sent (turnsOf r ⟨s, []⟩ (moves ++ [(c, .turn 0 .poll),
          (c.advance 1000000, .turn 0 .pollRequest)]) 0) = [104, 105, 33] := by
  intro r s c o moves
  refine ⟨_, _, hands_turn_iff.mpr ⟨_, rfl, rfl⟩, rfl, rfl, ?_, rfl, by decide +kernel⟩
  rintro (hdone | hdropped)
  · cases hdone
  · cases hdropped

end Recorder

end ExchangeArchive
