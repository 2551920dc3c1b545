import ExchangeArchive.Proofs.Page.Lifecycle
import ExchangeArchive.Proofs.Recorder.Observation
/-
What calls do to what they share.

Besides the clock, all that a move does to the session is a list of deeds: a page is started,
an entry is delivered, a page is ended, the receiver is flushed or closed. Which deeds these
are does not depend on the pipeline, and the session after a run is what the pipeline makes of
the deeds of all its moves, one after the other (`played_session`). So it is the deeds that say
when a page is started and ended, whatever becomes of the page on its way.

`Does` says which deeds a recorded call has done, by the answer of its transport. The
induction is over the moves of a run; what carries it is that a call which still awaits the end
of its response body has delivered nothing yet.

What the end of a page comes to is not left to the deed: `Concludes` says of the move which takes
the answer of a transport that a registered page leaves the registry and is sent once, by
`EndsPage`, which looks at the registry and at the sink for pages and at nothing else.
-/

set_option autoImplicit false

namespace ExchangeArchive

open ExchangeArchive.Archive ExchangeArchive.Body ExchangeArchive.Http ExchangeArchive.Page
  ExchangeArchive.Pipeline ExchangeArchive.Recorder ExchangeArchive.Time
  ExchangeArchive.Transport ExchangeArchive.Trip

namespace Recorder

/-! ## Deeds -/

/-- Something done to what all calls of a recorder share. That these five are enough for all
that a move does is `move_session`. -/
inductive Deed where
  | startPage (start : Start)
  | deliver (e : Entry)
  | endPage (id : String)
  | flush
  | closeReceiver

/-- The session after a deed. -/
def Deed.perform (r : Recorder) (s : Session) : Deed → Session
  | .startPage start => { s with pages := s.pages.start start }
  | .deliver e => (r.pipeline.sendEntry e s).2
  | .endPage id => s.finalizePage r.pipeline id
  | .flush => (Session.flush s).2
  | .closeReceiver => (Session.close s).2

/-- The session after deeds, done one after the other. -/
def performAll (r : Recorder) (s : Session) (deeds : List Deed) : Session :=
  deeds.foldl (Deed.perform r) s

/-- A request may start a page. -/
def Outgoing.starts (o : Outgoing) : List Deed := o.markers.start.toList.map .startPage

/-- A request may end a page. -/
def Outgoing.ends (o : Outgoing) : List Deed := o.markers.endPage.toList.map .endPage

namespace Call

/-- A call may end a page. -/
def ends (call : Call) : List Deed := call.endPage.toList.map .endPage

/-- The deeds of a call at a turn: the entry that is due is delivered, and once the transport
has answered the page ends. -/
def deeds (c : Clock) (call : Call) (t : Turn) : List Deed :=
  (call.due? c t).toList.map .deliver ++
    match t with
    | .settle _ => if call.isRecorded && call.isWaiting then call.ends else []
    | _ => []

/-- What the clock shows after a turn. -/
def reached (c : Clock) (call : Call) : Turn → Clock
  | .act a => (Call.act c call a).2.2.1
  | .poll =>
    match call.responseBody with
    | some b => c.advance b.poll.waited
    | none => c
  | .pollRequest =>
    if call.custody = .held then c.advance call.requestBody.poll.waited else c
  | _ => c

end Call

/-- The deeds of a move, in the state that it finds. The beginning of a call that is left out
does nothing here, and neither does a turn of a call that does not exist. -/
def deedsAt (r : Recorder) : State × Move → List Deed
  | (_, .begin o) => if Call.wants r.includeAll o then o.starts else []
  | (st, .turn n t) =>
    match st.calls[n]? with
    | some call => call.deeds st.session.clock t
    | none => []
  | (_, .flush) => [.flush]
  | (_, .closeReceiver) => [.closeReceiver]
  | (_, .advance _) => []

/-- What the clock shows after a move. Time goes on at the turns that wait for a body, at what
the transport says about itself, and where a move says so. -/
def reachedAt : State × Move → Clock
  | (st, .turn n t) =>
    match st.calls[n]? with
    | some call => call.reached st.session.clock t
    | none => st.session.clock
  | (st, .advance nanos) => st.session.clock.advance nanos
  | (st, _) => st.session.clock

/-- The session after a move of which nothing is known but its deeds and its time. The clock is
set before the deeds are done, for the deliveries that a turn makes come after its wait. -/
def replay (r : Recorder) (s : Session) (m : State × Move) : Session :=
  r.performAll { s with clock := reachedAt m } (deedsAt r m)

/-- The deeds of a call in a run. -/
def deedsOf (r : Recorder) (st : State) (moves : List (Clock × Move)) (n : Nat) : List Deed :=
  (movesOf r st moves n).flatMap (deedsAt r)

variable {r : Recorder} {call : Call} {s : Session} {st : State} {n : Nat} {c : Clock}
  {t : Turn} {m : Move} {o : Outgoing} {e : Entry} {moves : List (Clock × Move)}

/-! ## Deeds are all that is done -/

theorem endPage_eq (hrec : call.isRecorded = true) :
    r.endPage call s = r.performAll s call.ends := by
  unfold endPage Call.ends
  rw [hrec]
  cases call.endPage <;> rfl

theorem settle_session (hw : call.isWaiting = true)
    (answer : Except String (ResponseHead × Script)) :
    (r.settle call answer s).2.2 = r.performAll s (call.deeds s.clock (.settle answer)) := by
  have hsame := sameCall_settled call s.clock answer
  unfold settle Call.deeds
  -- What is not recorded has no deeds; of what is, the two answers differ in the delivery only.
  cases hrec : call.isRecorded with
  | false => cases answer <;> simp [Call.due?, hrec, performAll]
  | true =>
    have hends : ∀ s', r.endPage (call.settled s.clock answer) s' = r.performAll s' call.ends := by
      intro s'
      rw [endPage_eq (hsame.isRecorded.trans hrec), Call.ends, hsame.endPage]
      rfl
    cases answer with
    | ok answer => simpa [Call.due?, hw] using hends s
    | error text =>
      simp only [Call.due?, hrec, hw, Bool.and_self, if_true, hends]
      rfl

theorem pollBody_session :
    (r.pollBody call s).2.2
      = r.performAll { s with clock := call.reached s.clock .poll } (call.deeds s.clock .poll) := by
  unfold Call.deeds Call.reached
  cases hb : call.responseBody with
  | none => simp [pollBody, hb, Call.due?, performAll]
  | some b =>
    cases hdue : b.poll.due with
    | false => simp [pollBody_of_not_due hb hdue, Call.due?, hb, hdue, performAll, Session.advance]
    | true =>
      simp only [pollBody_of_due hb hdue, Call.due?, Call.polled, hb, hdue, Option.bind_some,
        if_true]
      rfl

theorem closeBody_session :
    (r.closeBody call s).2.2
      = r.performAll s ((Call.due?.closing s.clock call).toList.map .deliver) := by
  unfold Call.due?.closing
  cases hb : call.responseBody with
  | none => simp [closeBody_of_none hb, performAll]
  | some b =>
    cases hdue : b.complete.2 with
    | false => simp [closeBody_of_not_due hb hdue, hdue, performAll]
    | true =>
      simp only [closeBody_of_due hb hdue, Call.closed, hb, hdue, Option.bind_some, if_true]
      rfl

/-- **What a turn does to the session** is its deeds, at the time that it takes. The calls have
a state of their own besides that, which no deed depends on. -/
theorem attend_session :
    (r.attend n call s t).2.2
      = r.performAll { s with clock := call.reached s.clock t } (call.deeds s.clock t) := by
  cases t with
  | act a => rfl
  | settle answer =>
    by_cases hw : call.isWaiting = true
    · rw [attend, if_pos hw]
      exact settle_session hw answer
    · rw [attend, if_neg hw]
      cases answer <;> simp [Call.deeds, Call.due?, hw, performAll, Call.reached]
  | poll => exact pollBody_session
  | close =>
    have hserve : (r.serve (.close n) call s).2.2 = (r.closeBody call s).2.2 := by
      unfold serve
      rcases r.closeBody call s with ⟨_ | result, call', s'⟩ <;> rfl
    exact (hserve.trans closeBody_session).trans (by simp [Call.deeds, Call.due?, Call.reached])
  | drop =>
    -- A call that is given up before the answer ends no page: it has not come to that.
    by_cases hw : call.isWaiting = true
    · rw [attend, if_pos hw]
      simp [Call.deeds, Call.due?, hw, performAll, Call.reached]
    · rw [attend, if_neg hw, Sight.of, serve, drop, if_neg hw]
      exact closeBody_session.trans (by simp [Call.deeds, Call.due?, hw, Call.reached])
  | pollRequest =>
    show (pollRequest call s).2.2 = _
    unfold pollRequest Call.reached
    cases call.custody <;> rfl

/-- **What a move does to the session** is its deeds, at the time that it takes. This is the
step of `played_session`. -/
theorem move_session (r : Recorder) (st : State) (m : Move) :
    (r.move st m).2.session = r.replay st.session (st, m) := by
  unfold replay
  cases m with
  | begin o =>
    show (r.begin o st.session).2 = _
    simp only [Recorder.begin, Call.begin, deedsAt, Outgoing.starts, reachedAt]
    cases Call.wants r.includeAll o <;> cases o.markers.start <;> rfl
  | turn n t =>
    cases hcall : st.calls[n]? with
    | none => simp [move_of_no_call hcall, deedsAt, reachedAt, hcall, performAll]
    | some call =>
      rw [move_of_call hcall]
      simp only [deedsAt, reachedAt, hcall]
      exact attend_session
  | flush => rfl
  | closeReceiver => rfl
  | advance nanos => rfl

/-- **The session after a run** is what the deeds of its moves make of the one before it. -/
theorem played_session (r : Recorder) (st : State) (moves : List (Clock × Move)) :
    (played r st moves).session = (moments r st moves).foldl (replay r) st.session := by
  induction moves using List.reverseRecOn with
  | nil => rfl
  | append_singleton moves m ih =>
    obtain ⟨c, m⟩ := m
    rw [played_concat, moments_concat, List.foldl_append, ← ih]
    -- The clock that a move finds has no part in what it leaves, which has its own.
    exact move_session r ((played r st moves).at c) m

/-! ## What a call has done -/

/-- What a recorded call has done by the answer of its transport. Before that it may have
started a page. A failure is delivered, and then the page ends; otherwise the page ends, and
the entry is delivered later, if at all. -/
def Does (o : Outgoing) (deeds : List Deed) :
    Option (Except String (ResponseHead × Script)) → Prop
  | none => deeds = o.starts
  | some (.error text) => ∃ e, deeds = o.starts ++ .deliver e :: o.ends
      ∧ e.pageref = o.markers.pageRef ∧ e.response.error = some text
  | some (.ok _) => deeds = o.starts ++ o.ends
      ∨ ∃ e, deeds = o.starts ++ o.ends ++ [.deliver e] ∧ e.pageref = o.markers.pageRef

/-- Someone waits for the end of the response body of a call. As long as this is so the entry
has not been delivered, which is what `Done` carries through a run. -/
def Call.Awaits (call : Call) : Prop := ∃ b, call.responseBody = some b ∧ b.awaited = true

/-- A turn that takes the answer of a transport. -/
def Call.Settles (call : Call) (t : Turn) : Prop :=
  call.isWaiting = true ∧ ∃ answer, t = .settle answer

theorem awaits_polled (h : (call.polled c).Awaits) :
    call.Awaits ∧ call.due? c .poll = none := by
  obtain ⟨b', hb', hawaited⟩ := h
  unfold Call.polled at hb'
  split at hb'
  · next hb =>
    rw [hb] at hb'
    cases hb'
  · next b hb =>
    split at hb'
    · next hdue =>
      obtain rfl := Option.some.inj hb'
      rw [(Observed.awaited_of_due hdue).2] at hawaited
      cases hawaited
    · next hdue =>
      obtain rfl := Option.some.inj hb'
      refine ⟨⟨b, hb, ?_⟩, by simp [Call.due?, hb, hdue]⟩
      by_contra hoff
      rw [Observed.awaited_poll (by simpa using hoff)] at hawaited
      cases hawaited

theorem awaits_closed (h : (call.closed c).Awaits) :
    call.Awaits ∧ call.due? c .close = none := by
  obtain ⟨b', hb', hawaited⟩ := h
  unfold Call.closed at hb'
  split at hb'
  · next hb =>
    rw [hb] at hb'
    cases hb'
  · next b hb =>
    split at hb'
    · next hdue =>
      obtain rfl := Option.some.inj hb'
      rw [(Observed.awaited_complete hdue).2] at hawaited
      cases hawaited
    · next hdue =>
      obtain rfl := Option.some.inj hb'
      exact ⟨⟨b, hb, Observed.awaited_of_complete hawaited⟩,
        by simp [Call.due?, Call.due?.closing, hb, hdue]⟩

/-- A call that is still awaited after a turn was so before, and the turn delivers nothing. -/
theorem awaits_turned (ht : ¬call.Settles t) (h : (call.turned c t).Awaits) :
    call.Awaits ∧ call.due? c t = none := by
  cases t with
  | act a =>
    obtain ⟨b, hb, hawaited⟩ := h
    exact ⟨⟨b, (Call.inTransport_act c call a).responseBody.symm.trans hb, hawaited⟩, rfl⟩
  | settle answer =>
    have hw : ¬call.isWaiting = true := fun hw => ht ⟨hw, answer, rfl⟩
    rw [Call.turned, if_neg hw] at h
    refine ⟨h, ?_⟩
    cases answer <;> simp [Call.due?, hw]
  | poll => exact awaits_polled h
  | close => exact awaits_closed h
  | drop =>
    rw [Call.turned] at h
    split at h
    · next hw => exact ⟨h, by rw [Call.due?, if_pos hw]⟩
    · obtain ⟨b, hb, -⟩ := h
      cases hb
  | pollRequest =>
    refine ⟨?_, rfl⟩
    rw [Call.turned] at h
    split at h <;> exact h

/-- What is delivered when no transport answers is the entry of a call that was awaited. -/
theorem awaits_of_due (ht : ¬call.Settles t) (hdue : call.due? c t = some e) : call.Awaits := by
  rcases due?_cases hdue with ⟨text, rfl, -, hw, -⟩ | ⟨b, -, hb, hawaited, -⟩
  · exact absurd ⟨hw, _, rfl⟩ ht
  · exact ⟨b, hb, hawaited⟩

/-- The page of an entry is the one that its call was asked to be part of, registered or not. -/
theorem pageref_of_due (hdue : call.due? c t = some e) : e.pageref = call.pageRef := by
  obtain ⟨-, t', now, -, rfl⟩ := due?_reported hdue
  exact (sameCall_turned call c t').pageRef

/-- A failed call has its entry delivered at once, and the entry tells the failure. -/
theorem failure_due (hrec : call.isRecorded = true) (hw : call.isWaiting = true) (c : Clock)
    (text : String) :
    ∃ e, call.due? c (.settle (.error text)) = some e ∧ e.pageref = call.pageRef
      ∧ e.response.error = some text := by
  obtain ⟨e, hdue⟩ : ∃ e, call.due? c (.settle (.error text)) = some e := by
    simp [Call.due?, hrec, hw]
  refine ⟨e, hdue, pageref_of_due hdue, ?_⟩
  rcases due?_cases hdue with ⟨text', ht, -, -, -, hresponse⟩ | ⟨b, b', -, -, -, ht, -⟩
  · cases ht
    rw [hresponse]
    cases call.response <;> rfl
  · rcases ht with ⟨ht, -⟩ | ht | ht <;> cases ht

/-- What a recorded call has done, and what it has of that. The field `awaits` is what makes an
induction of it: a call that is awaited has all of its deeds but the delivery behind it, so
that a delivery is always the last deed and there is one at most. -/
structure Done (o : Outgoing) (turns : List (Turn × Sight)) (deeds : List Deed) (call : Call) :
    Prop where
  isRecorded : call.isRecorded = true
  pageRef : call.pageRef = o.markers.pageRef
  endPage : call.endPage = o.markers.endPage
  does : Does o deeds (answer? turns)
  awaits : call.Awaits → deeds = o.starts ++ o.ends

variable {turns : List (Turn × Sight)} {deeds : List Deed}

theorem Done.ends_eq (h : Done o turns deeds call) : call.ends = o.ends := by
  rw [Call.ends, h.endPage]
  rfl

/-- The answer of a transport: a failure is delivered and the page ends, or the page ends. -/
theorem Done.settled (h : Done o turns deeds call) (hkept : Kept o turns call)
    (hw : call.isWaiting = true) (answer : Except String (ResponseHead × Script)) :
    Done o (turns ++ [(.settle answer, (r.attend n call s (.settle answer)).1)])
      (deeds ++ call.deeds s.clock (.settle answer)) (call.turned s.clock (.settle answer)) := by
  have hsame := sameCall_turned call s.clock (.settle answer)
  obtain ⟨hnone, -, -, hbody, -⟩ := hkept.waiting hw
  have hsettled : answer? (turns ++ [(.settle answer, (r.attend n call s (.settle answer)).1)])
      = some answer := by
    rw [answer?_concat, hnone, attend, if_pos hw]
    rfl
  have hstarts : deeds = o.starts := by
    have hdoes := h.does
    rw [hnone] at hdoes
    exact hdoes
  have hends := h.ends_eq
  refine ⟨hsame.isRecorded.trans h.isRecorded, hsame.pageRef.trans h.pageRef,
    hsame.endPage.trans h.endPage, ?_, ?_⟩
  · rw [hsettled, hstarts]
    cases answer with
    | ok answer =>
      left
      simp [Call.deeds, Call.due?, h.isRecorded, hw, hends]
    | error text =>
      obtain ⟨e, hdue, hpage, herror⟩ := failure_due h.isRecorded hw s.clock text
      refine ⟨e, ?_, hpage.trans h.pageRef, herror⟩
      simp [Call.deeds, hdue, h.isRecorded, hw, hends]
  · intro hawaits
    cases answer with
    | ok answer => simp [hstarts, Call.deeds, Call.due?, h.isRecorded, hw, hends]
    | error text =>
      -- A failed call has no response body.
      obtain ⟨b, hb, -⟩ := hawaits
      rw [Call.turned, if_pos hw, Call.settled.eq_def, h.isRecorded] at hb
      have hfailed : call.responseBody = some b := hb
      rw [hbody] at hfailed
      cases hfailed

/-- Any other turn delivers the entry, if the call is awaited, or does nothing. -/
theorem Done.quiet (h : Done o turns deeds call) (hkept : Kept o turns call)
    (ht : ¬call.Settles t) :
    Done o (turns ++ [(t, (r.attend n call s t).1)]) (deeds ++ call.deeds s.clock t)
      (call.turned s.clock t) := by
  have hsame := sameCall_turned call s.clock t
  have hanswer : answer? (turns ++ [(t, (r.attend n call s t).1)]) = answer? turns := by
    have hquiet : Turn.answer? (t, (r.attend n call s t).1) = none := by
      cases t with
      | settle answer => rw [attend, if_neg fun hw => ht ⟨hw, answer, rfl⟩]; rfl
      | _ => rfl
    rw [answer?_concat, hquiet, Option.or_none]
  have hdeeds : call.deeds s.clock t = (call.due? s.clock t).toList.map .deliver := by
    cases t with
    | settle answer =>
      have hw : call.isWaiting = false := eq_false_of_ne_true fun hw => ht ⟨hw, answer, rfl⟩
      simp [Call.deeds, hw]
    | _ => simp [Call.deeds]
  refine ⟨hsame.isRecorded.trans h.isRecorded, hsame.pageRef.trans h.pageRef,
    hsame.endPage.trans h.endPage, ?_, ?_⟩
  · rw [hanswer, hdeeds]
    cases hdue : call.due? s.clock t with
    | none => simpa using h.does
    | some e =>
      -- The call was awaited, so that until now it has done everything but deliver its entry.
      obtain ⟨b, hb, hawaited⟩ : call.Awaits := awaits_of_due ht hdue
      obtain ⟨-, -, -, head, body, hok, -⟩ := hkept.answered b hb hawaited
      rw [hok, h.awaits ⟨b, hb, hawaited⟩]
      exact .inr ⟨e, rfl, (pageref_of_due hdue).trans h.pageRef⟩
  · intro hawaits
    obtain ⟨hbefore, hdue⟩ := awaits_turned ht hawaits
    rw [hdeeds, hdue, h.awaits hbefore]
    simp

/-- **What a turn preserves.** The answer of the transport is a case of its own, because only
there the call ends its page. -/
theorem Done.turned (h : Done o turns deeds call) (hkept : Kept o turns call) (t : Turn) :
    Done o (turns ++ [(t, (r.attend n call s t).1)]) (deeds ++ call.deeds s.clock t)
      (call.turned s.clock t) := by
  by_cases ht : call.Settles t
  · obtain ⟨hw, answer, rfl⟩ := ht
    exact h.settled hkept hw answer
  · exact h.quiet hkept ht

/-! ## Runs -/

theorem done_begin (c : Clock) (o : Outgoing) (hrec : Call.wants r.includeAll o = true) :
    Done o [] o.starts (Call.begin r.includeAll c o) := by
  refine ⟨hrec, rfl, rfl, rfl, fun hawaits => ?_⟩
  obtain ⟨b, hb, -⟩ := hawaits
  cases hb

/-- **What a run preserves.** The moves of a call are its beginning and then its turns, and if
it is recorded its deeds are what it has done. -/
theorem done_movesOf (hcall : (played r ⟨s, []⟩ moves).calls[n]? = some call) :
    ∃ st o rest, movesOf r ⟨s, []⟩ moves n = (st, .begin o) :: rest
      ∧ (∀ m ∈ rest, ∃ t, m.2 = .turn n t)
      ∧ Kept o (turnsOf r ⟨s, []⟩ moves n) call
      ∧ (Call.wants r.includeAll o = true →
        Done o (turnsOf r ⟨s, []⟩ moves n) (deedsOf r ⟨s, []⟩ moves n) call) := by
  refine movesOf_induction (motive := fun own call => ∃ st o rest, own = (st, .begin o) :: rest
    ∧ (∀ m ∈ rest, ∃ t, m.2 = .turn n t) ∧ Kept o (own.filterMap (seenAt r)) call
    ∧ (Call.wants r.includeAll o = true →
      Done o (own.filterMap (seenAt r)) (own.flatMap (deedsAt r)) call)) ?_ ?_ hcall
  · intro st o
    refine ⟨st, o, [], rfl, by simp, kept_begin r.includeAll st.session.clock o, fun hrec => ?_⟩
    have hdeeds : [(st, Move.begin o)].flatMap (deedsAt r) = o.starts := by
      simp [deedsAt, hrec]
    rw [hdeeds]
    exact done_begin st.session.clock o hrec
  · rintro st t _ call hcall ⟨st₀, o, rest, rfl, hturns, hkept, hdone⟩
    have hseen : seenAt r (st, .turn n t) = some (t, (r.attend n call st.session t).1) := by
      rw [seenAt, move_of_call hcall]
    have hdeeds : deedsAt r (st, .turn n t) = call.deeds st.session.clock t := by
      simp only [deedsAt, hcall]
    rw [List.filterMap_append, List.filterMap_cons_some hseen, List.flatMap_append,
      List.flatMap_singleton, hdeeds]
    refine ⟨st₀, o, rest ++ [(st, .turn n t)], rfl, ?_, hkept.turned t, fun hrec =>
      (hdone hrec).turned hkept t⟩
    intro m hm
    rcases List.mem_append.mp hm with hm | hm
    · exact hturns m hm
    · rw [List.mem_singleton.mp hm]
      exact ⟨t, rfl⟩

/-! ## Results -/

/-- The recorder with another sink for its pages, by which what a call returns is compared
with what it returns when pages go somewhere else, or nowhere. -/
def withPageSink (r : Recorder) (sink : PageSink Session) : Recorder :=
  { r with pipeline := { r.pipeline with sendPage := sink } }

/-- What a recorded call returns when its transport answers: the response, with the body under
observation; or the error of delivering the entry, and if that goes well the transport's. -/
def Returns (r : Recorder) (st : State) (n : Nat) : Except String (ResponseHead × Script) → Prop
  | .ok (head, body) =>
    (r.move st (.turn n (.settle (.ok (head, body))))).1 = .settled (.ok head)
      ∧ (r.move st (.turn n (.settle (.ok (head, body))))).2.responseBody? n
        = some (.new body true)
  | .error text => ∃ e,
    (deedsAt r (st, .turn n (.settle (.error text)))).head? = some (.deliver e)
      ∧ (r.move st (.turn n (.settle (.error text)))).1
        = .settled (failure text (r.pipeline.sendEntry e st.session).1)

theorem returns_settle (hcall : st.calls[n]? = some call) (hrec : call.isRecorded = true)
    (hw : call.isWaiting = true) (answer : Except String (ResponseHead × Script)) :
    Returns r st n answer := by
  have hn : n < st.calls.length := (List.getElem?_eq_some_iff.mp hcall).1
  cases answer with
  | ok answer =>
    obtain ⟨head, body⟩ := answer
    have hbody : (call.turned st.session.clock (.settle (.ok (head, body)))).responseBody
        = some (.new body true) := by
      rw [Call.turned, if_pos hw, Call.settled.eq_def, hrec]
      rfl
    refine ⟨?_, ?_⟩
    · rw [move_of_call hcall, attend, if_pos hw]
      simp [settle, hrec]
    · rw [State.responseBody?, calls_turn hcall, List.getElem?_set_self hn]
      exact hbody
  | error text =>
    refine ⟨(call.settled st.session.clock (.error text)).report.toEntry st.session.clock.elapsed,
      ?_, ?_⟩
    · simp [deedsAt, hcall, Call.deeds, Call.due?, hrec, hw]
    · rw [move_of_call hcall, attend, if_pos hw]
      simp only [settle, hrec]
      rfl

/-- The session in which the page of a call ends: the one that the answer of the transport finds,
or for a failed call what the pipeline has made of that one when it was sent the entry. -/
def Handed (r : Recorder) (o : Outgoing) (s : Session) :
    Except String (ResponseHead × Script) → Session → Prop
  | .ok _, found => found = s
  | .error text, found => ∃ e : Entry, e.pageref = o.markers.pageRef
      ∧ e.response.error = some text ∧ found = (r.pipeline.sendEntry e s).2

/-- What the answer of a transport leaves to the calls that share the session. If the request ends
a page, then that is what has become of the session in which it ended, and a pipeline that leaves
the registry alone leaves nothing of the page in it. Otherwise it is that session as it was. -/
structure Concludes (r : Recorder) (o : Outgoing) (st : State) (n : Nat)
    (answer : Except String (ResponseHead × Script)) (found : Session) : Prop where
  handed : Handed r o st.session answer found
  ends : ∀ id, o.markers.endPage = some id →
    EndsPage r.pipeline id found (r.move st (.turn n (.settle answer))).2.session
  gone : ∀ id, o.markers.endPage = some id → LeavesRegistry r.pipeline →
    (r.move st (.turn n (.settle answer))).2.session.pages.find? id = none
  stays : o.markers.endPage = none →
    (r.move st (.turn n (.settle answer))).2.session = found

/-- The deeds at the answer of a transport are the delivery of a failure and the end of the page,
so what is between the two is the session in which the page ends. -/
theorem session_settle (hcall : st.calls[n]? = some call) (hrec : call.isRecorded = true)
    (hw : call.isWaiting = true) (answer : Except String (ResponseHead × Script)) :
    (r.move st (.turn n (.settle answer))).2.session
      = r.performAll (r.performAll st.session
          ((call.due? st.session.clock (.settle answer)).toList.map .deliver)) call.ends := by
  have hdeeds : deedsAt r (st, .turn n (.settle answer))
      = (call.due? st.session.clock (.settle answer)).toList.map .deliver ++ call.ends := by
    simp [deedsAt, hcall, Call.deeds, hrec, hw]
  have hclock : reachedAt (st, .turn n (.settle answer)) = st.session.clock := by
    simp [reachedAt, hcall, Call.reached]
  rw [move_session, replay, hdeeds, hclock, performAll, List.foldl_append]
  rfl

/-- Whoever answers, the page that the request ends is ended in the session that is there after
the delivery, and what comes out is the session that the answer leaves. -/
theorem concludes_settle (hcall : st.calls[n]? = some call) (h : Done o turns deeds call)
    (hw : call.isWaiting = true) (answer : Except String (ResponseHead × Script)) :
    ∃ found, Concludes r o st n answer found := by
  have hsession := session_settle (r := r) hcall h.isRecorded hw answer
  rw [h.ends_eq, Outgoing.ends] at hsession
  have hends : ∀ id, o.markers.endPage = some id → EndsPage r.pipeline id
      (r.performAll st.session
        ((call.due? st.session.clock (.settle answer)).toList.map .deliver))
      (r.move st (.turn n (.settle answer))).2.session := by
    intro id hid
    rw [hsession, hid]
    exact endsPage_finalizePage r.pipeline id _
  refine ⟨_, ?_, hends, fun id hid hp => (hends id hid).find?_eq_none hp, ?_⟩
  · cases answer with
    | ok answer => simp [Handed, Call.due?, performAll]
    | error text =>
      obtain ⟨e, hdue, hpage, herror⟩ := failure_due h.isRecorded hw st.session.clock text
      rw [hdue]
      exact ⟨e, hpage.trans h.pageRef, herror, rfl⟩
  · intro hid
    rw [hsession, hid]
    rfl

/-- No sink for pages has a part in what is seen of a move. -/
theorem sight_withPageSink (r : Recorder) (sink : PageSink Session) (st : State) (m : Move) :
    ((r.withPageSink sink).move st m).1 = (r.move st m).1 := by
  cases m with
  | turn n t =>
    cases hcall : st.calls[n]? with
    | none => rw [move_of_no_call hcall, move_of_no_call hcall]
    | some call =>
      rw [move_of_call hcall, move_of_call hcall]
      cases t with
      | settle answer =>
        have hresult : ((r.withPageSink sink).settle call answer st.session).1
            = (r.settle call answer st.session).1 := by
          unfold settle
          cases call.isRecorded <;> cases answer <;> rfl
        by_cases hw : call.isWaiting = true
        · rw [attend, attend, if_pos hw, if_pos hw]
          exact congrArg Sight.settled hresult
        · rw [attend, attend, if_neg hw, if_neg hw]
      | _ => rfl
  | _ => rfl

theorem get?_start (pages : Registry) (start : Start) :
    (pages.start start).get? start.id = some (Registry.pageOf start) := by
  simp [Registry.get?, Registry.find?, Registry.start]

/-- **What a recorded call does about pages.** Let any moves have been made, of any number of
calls through any pipeline. The session is what the pipeline has made of their deeds, and to end
a page is to take it out of the registry and to send it once, if it is there. The first move of a
recorded call is its beginning, which registers the page that its request starts; all of its
transport comes after that. Once the transport has answered, and not before, the page that the
request ends is ended, once: after the delivery of the entry if the transport has failed, and
before it if not. Whatever the registry has, the entry is of the page that the request names.

If the transport answers now, the call returns its response, or the error of the delivery or else
the transport's, whatever sink the pages have. In each of these cases the page that the request
ends is taken out of the registry of the session that the call finds, after it has handed over
its entry if it fails, and is sent once; and no other page is ended. -/
theorem call_ends_page_once (r : Recorder) (s : Session) (moves : List (Clock × Move)) (n : Nat)
    (o : Outgoing) (ho : (requests moves)[n]? = some o)
    (hrec : Call.wants r.includeAll o = true) :
    (played r ⟨s, []⟩ moves).session = (moments r ⟨s, []⟩ moves).foldl (replay r) s
      ∧ (∀ found id, EndsPage r.pipeline id found (Deed.perform r found (.endPage id)))
      ∧ (∃ st rest, movesOf r ⟨s, []⟩ moves n = (st, .begin o) :: rest
          ∧ (∀ m ∈ rest, ∃ t, m.2 = .turn n t)
          ∧ deedsAt r (st, .begin o) = o.starts
          ∧ ∀ start, o.markers.start = some start →
            (r.move st (.begin o)).2.session.pages.get? start.id = some (Registry.pageOf start))
      ∧ Does o (deedsOf r ⟨s, []⟩ moves n) (answer? (turnsOf r ⟨s, []⟩ moves n))
      ∧ ∀ c call, (played r ⟨s, []⟩ moves).calls[n]? = some call → call.isWaiting = true →
          ∀ answer, Returns r ((played r ⟨s, []⟩ moves).at c) n answer
            ∧ (∀ sink, ((r.withPageSink sink).move ((played r ⟨s, []⟩ moves).at c)
                (.turn n (.settle answer))).1
              = (r.move ((played r ⟨s, []⟩ moves).at c) (.turn n (.settle answer))).1)
            ∧ ∃ found, Concludes r o ((played r ⟨s, []⟩ moves).at c) n answer found := by
  have hn : n < (played r ⟨s, []⟩ moves).calls.length := by
    rw [← length_requests]
    exact (List.getElem?_eq_some_iff.mp ho).1
  obtain ⟨st, o', rest, hown, hturns, -, hdone⟩ := done_movesOf (List.getElem?_eq_getElem hn)
  obtain rfl : o = o' := Option.some.inj (ho.symm.trans (requests_of_movesOf hown))
  have hdone := hdone hrec
  have hstarts : deedsAt r (st, .begin o) = o.starts := by
    simp [deedsAt, hrec]
  refine ⟨played_session r ⟨s, []⟩ moves, fun found id => endsPage_finalizePage r.pipeline id found,
    ⟨st, rest, hown, hturns, hstarts, ?_⟩, hdone.does, ?_⟩
  · intro start hstart
    rw [move_session, replay, hstarts, Outgoing.starts, hstart]
    exact get?_start _ start
  · intro c call hcall hw answer
    obtain rfl := Option.some.inj ((List.getElem?_eq_getElem hn).symm.trans hcall)
    have hat : ((played r ⟨s, []⟩ moves).at c).calls[n]? = some _ := hcall
    exact ⟨returns_settle hat hdone.isRecorded hw answer,
      fun sink => sight_withPageSink r sink _ _, concludes_settle hat hdone hw answer⟩

/-- The request starts a page and ends it, and is part of another that is not there; the
transport fails after a while. The receiver has the entry and, once, the page, which is no longer
in the registry. -/
theorem call_ends_page_once_failed :
    let r : Recorder := ⟨{}, true, Session.pipeline [] []⟩
    let s : Session := { clock := { started := 0 } }
    let c := s.clock
    let start : Start := .new c "first" "" ""
    let o : Outgoing := ⟨⟨"GET", ⟨none, none, "/", none⟩, .http11, .empty⟩, ⟨[], none, true⟩,
      { start := some start, pageRef := some "second", endPage := some "first" }, false⟩
    let moves : List (Clock × Move) := [(c, .begin o),
      (c.advance 5, .turn 0 (.settle (.error "refused")))]
    let page : Archive.Page :=
      { Registry.pageOf start with pageTimings := { onLoad := millis 5 } }
    (requests moves)[0]? = some o ∧ Call.wants r.includeAll o = true
      ∧ LeavesRegistry r.pipeline
      ∧ (∃ e, deedsOf r ⟨s, []⟩ moves 0 = [.startPage start, .deliver e, .endPage "first"]
        ∧ e.pageref = some "second" ∧ e.response.error = some "refused")
      ∧ (played r ⟨s, []⟩ moves).session.pages.find? "first" = none
      ∧ ∃ e, (played r ⟨s, []⟩ moves).session.receiver
        = .memory { entries := [e], pages := [page] } := by
  intro r s c start o moves page
  have hp : LeavesRegistry r.pipeline := leavesRegistry_of_steps [] []
  obtain ⟨found, hconcludes⟩ := ((call_ends_page_once r s [(c, .begin o)] 0 o rfl rfl).2.2.2.2
    (c.advance 5) _ rfl rfl (.error "refused")).2.2
  exact ⟨rfl, rfl, hp, (call_ends_page_once r s moves 0 o rfl rfl).2.2.2.1,
    hconcludes.gone "first" rfl hp, _, rfl⟩

end Recorder

end ExchangeArchive
