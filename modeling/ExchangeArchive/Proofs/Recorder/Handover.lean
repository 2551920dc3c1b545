import ExchangeArchive.Proofs.Body.Completion
import ExchangeArchive.Proofs.Recorder.Runs
/-
**Each recorded call hands its entry over exactly once.**

A pipeline may do anything with an entry: change the session, drop it, fail. So that an
entry was handed over cannot be read off the session afterwards, and it is said of the
operation as a function of the sink instead. An operation that hands over nothing comes to
the same whatever the sink is (`AsksNothing`). One that hands over an entry in a session
comes to something that is made of the sink's answer to just that question, and that does
depend on the answer (`AsksOnce`). An operation that asked twice, or asked something else,
is neither.

When an operation asks is settled by the flags of the response body, which is
`Attended`; the theorem speaks of the history alone. `Told` is the invariant between the
two: the completion of a recorded call is awaited just as long as none of the operations
so far has ended the call. The induction is over the run, one case for each operation.

The recorders of one layer share their session, their pipeline and their calls, and differ
only in the transport, which is a script that comes with each call; so what is said of the
runs of a recorder is said of all of them together.
-/

set_option autoImplicit false

namespace ExchangeArchive

open ExchangeArchive.Archive ExchangeArchive.Body ExchangeArchive.Http
  ExchangeArchive.Pipeline ExchangeArchive.Recorder ExchangeArchive.Transport

namespace Recorder

/-! ## Asking the sink -/

/-- The recorder with another sink for its entries. -/
def withSink (r : Recorder) (sink : EntrySink Session) : Recorder :=
  { r with pipeline := { r.pipeline with sendEntry := sink } }

section Asking

variable {α β : Type} {f : EntrySink Session → α} {e : Entry} {s : Session}

/-- The sink is not asked: every sink gives the same, so also one that would fail or that would
change the session beyond recognition. -/
def AsksNothing (f : EntrySink Session → α) : Prop := ∀ a b, f a = f b

/-- The sink is asked once, with an entry in a session: what comes of it is made of the
answer to that, and the answer matters. Without the second half this would be true of whatever
asks nothing. -/
def AsksOnce (f : EntrySink Session → α) (e : Entry) (s : Session) : Prop :=
  (∃ settle : Except Error Unit × Session → α, ∀ sink, f sink = settle (sink e s)) ∧
    ¬AsksNothing f

theorem AsksNothing.map (h : AsksNothing f) (g : α → β) : AsksNothing fun sink => g (f sink) :=
  fun a b => congrArg g (h a b)

theorem AsksOnce.map (h : AsksOnce f e s) {g : α → β} (hg : Function.Injective g) :
    AsksOnce (fun sink => g (f sink)) e s := by
  obtain ⟨⟨settle, hsettle⟩, hdepends⟩ := h
  exact ⟨⟨fun d => g (settle d), fun sink => congrArg g (hsettle sink)⟩,
    fun hsame => hdepends fun a b => hg (hsame a b)⟩

/-- To ask once it is enough that two answers lead to different outcomes: sinks that give these
and nothing else tell the two apart. -/
theorem asksOnce_of_settle (settle : Except Error Unit × Session → α)
    (h : ∀ sink, f sink = settle (sink e s)) {x y : Except Error Unit × Session}
    (hxy : settle x ≠ settle y) : AsksOnce f e s := by
  refine ⟨⟨settle, h⟩, fun hsame => hxy ?_⟩
  rw [← h fun _ _ => x, ← h fun _ _ => y]
  exact hsame _ _

end Asking

/-! ## What each operation asks -/

/-- An operation ends a call: its transport fails, or its response body gives its end, is
closed or is dropped. This is said without the flags of an attended body, and of calls that are
not recorded as well. -/
def EndsCall (s : Session) (call : Call) : Operation → Prop
  | .run _ reply => call.isWaiting = true ∧ ∃ text, (call.perform s.clock reply).2.1 = .error text
  | .poll _ => ∃ b, call.responseBody = some b ∧ b.poll.result.isEnded = true
  | .close _ => ∃ b, call.responseBody = some b
  | .drop _ => call.isWaiting = false ∧ ∃ b, call.responseBody = some b
  | _ => False

/-- The flags of a call make its entry due at an operation. This is how the recorder decides; that
it comes to the same as `EndsCall`, once, is `Told.isDue_iff`. -/
def IsDue (s : Session) (call : Call) : Operation → Prop
  | .run _ reply =>
    call.isRecorded = true ∧ call.isWaiting = true ∧
      ∃ text, (call.perform s.clock reply).2.1 = .error text
  | .poll _ => ∃ b, call.responseBody = some b ∧ b.poll.due = true
  | .close _ => ∃ b, call.responseBody = some b ∧ b.complete.2 = true
  | .drop _ => call.isWaiting = false ∧ ∃ b, call.responseBody = some b ∧ b.complete.2 = true
  | _ => False

variable (r : Recorder) (call : Call) (s : Session)

theorem endPage_withSink (sink : EntrySink Session) :
    (r.withSink sink).endPage call s = r.endPage call s := by
  rw [endPage, endPage]
  split <;> rfl

/-- Closing a body asks the sink just if a completion is due. -/
theorem closeBody_asksNothing (h : ∀ b, call.responseBody = some b → b.complete.2 = false) :
    AsksNothing fun sink => (r.withSink sink).closeBody call s := by
  intro a b
  cases hb : call.responseBody with
  | none => simp only [closeBody_of_none hb]
  | some body => simp only [closeBody_of_not_due hb (h body hb)]

/-- Where nothing is due, the sink is not asked, whatever else the operation does. The end of a
page goes to a sink as well, but to the one for pages. -/
theorem serve_asksNothing {op : Operation} (h : ¬IsDue s call op) :
    AsksNothing fun sink => (r.withSink sink).serve op call s := by
  cases op with
  | run n reply =>
    intro a b
    simp only [serve]
    by_cases hw : call.isWaiting = true
    · rw [if_pos hw, if_pos hw]
      cases hrec : call.isRecorded with
      | false => simp only [run_of_unrecorded hrec]
      | true =>
        rcases hp : call.perform s.clock reply with ⟨readings, answer, clock, call'⟩
        cases answer with
        | error text => exact absurd ⟨hrec, hw, text, by rw [hp]⟩ h
        | ok answer => simp only [run_of_answered hrec hp, endPage_withSink]
    · rw [if_neg hw, if_neg hw]
  | poll n =>
    intro a b
    cases hb : call.responseBody with
    | none => simp only [serve, pollBody, hb]
    | some body =>
      have hdue : body.poll.due = false := eq_false_of_ne_true fun hd => h ⟨body, hb, hd⟩
      simp only [serve, pollBody_of_not_due hb hdue]
  | close n =>
    have hclose := closeBody_asksNothing r call s fun body hb =>
      eq_false_of_ne_true fun hd => h ⟨body, hb, hd⟩
    intro a b
    have hab : (r.withSink a).closeBody call s = (r.withSink b).closeBody call s := hclose a b
    simp only [serve]
    rw [hab]
  | drop n =>
    intro a b
    simp only [serve, drop]
    by_cases hw : call.isWaiting = true
    · rw [if_pos hw, if_pos hw]
    · have hw' : call.isWaiting = false := by simpa using hw
      have hclose := closeBody_asksNothing r call s fun body hb =>
        eq_false_of_ne_true fun hd => h ⟨hw', body, hb, hd⟩
      have hab : (r.withSink a).closeBody call s = (r.withSink b).closeBody call s := hclose a b
      rw [if_neg hw, if_neg hw, dropBody, dropBody, hab]
  | _ => exact fun a b => rfl

/-- The call as it is reported when its response body is closed, and the session in which it
is, if its entry is due then. -/
def dueAtClose (s : Session) (call : Call) : Option (Call × Session) :=
  call.responseBody.bind fun b =>
    if b.complete.2 then some (endedCall call b.complete.1 s.now, s) else none

/-- The call as it is reported at an operation, and the session in which it is, if its entry
is due then. -/
def dueAt (s : Session) (call : Call) : Operation → Option (Call × Session)
  | .run _ reply =>
    match call.perform s.clock reply with
    | (_, .error text, clock, call') =>
      if call.isRecorded && call.isWaiting then
        some (failedCall call' text clock.elapsed, { s with clock := clock })
      else none
    | (_, .ok _, _, _) => none
  | .poll _ =>
    call.responseBody.bind fun b =>
      if b.poll.due then
        some (endedCall call b.poll.body (s.advance b.poll.waited).now, s.advance b.poll.waited)
      else none
  | .close _ => dueAtClose s call
  | .drop _ => if call.isWaiting then none else dueAtClose s call
  | _ => none

variable {call s} {call' : Call} {s' : Session} {op : Operation}

theorem dueAtClose_eq_some_iff :
    dueAtClose s call = some (call', s') ↔
      ∃ b, call.responseBody = some b ∧ b.complete.2 = true ∧
        endedCall call b.complete.1 s.now = call' ∧ s = s' := by
  simp only [dueAtClose, Option.bind_eq_some_iff, Option.ite_none_right_eq_some,
    Option.some.injEq, Prod.mk.injEq]

/-- What a transport that fails reports: the call as the failure leaves it, at that time. -/
theorem dueAt_run_eq_some_iff {n : Nat} {reply : Reply} :
    dueAt s call (.run n reply) = some (call', s') ↔
      call.isRecorded = true ∧ call.isWaiting = true ∧ ∃ readings text clock before,
        call.perform s.clock reply = (readings, .error text, clock, before) ∧
          failedCall before text clock.elapsed = call' ∧ { s with clock := clock } = s' := by
  rw [dueAt]
  rcases call.perform s.clock reply with ⟨readings, answer, clock, before⟩
  cases answer with
  | ok answer => simp
  | error text => simp [and_assoc]

theorem dueAt_poll_eq_some_iff {n : Nat} :
    dueAt s call (.poll n) = some (call', s') ↔
      ∃ b, call.responseBody = some b ∧ b.poll.due = true ∧
        endedCall call b.poll.body (s.advance b.poll.waited).now = call' ∧
          s.advance b.poll.waited = s' := by
  simp only [dueAt, Option.bind_eq_some_iff, Option.ite_none_right_eq_some,
    Option.some.injEq, Prod.mk.injEq]

theorem dueAt_drop_eq_some_iff {n : Nat} :
    dueAt s call (.drop n) = some (call', s') ↔
      call.isWaiting = false ∧ dueAtClose s call = some (call', s') := by
  simp [dueAt]

/-- The flags say whether an entry is due, and `dueAt` which. The proof goes through the kinds of
operations, each with the equation for it above. -/
theorem isDue_iff : IsDue s call op ↔ ∃ call' s', dueAt s call op = some (call', s') := by
  cases op with
  | run n reply =>
    simp only [dueAt_run_eq_some_iff]
    constructor
    · rintro ⟨hrec, hw, text, hfails⟩
      rcases hp : call.perform s.clock reply with ⟨readings, answer, clock, before⟩
      rw [hp] at hfails
      obtain rfl : answer = .error text := hfails
      exact ⟨_, _, hrec, hw, readings, text, clock, before, rfl, rfl, rfl⟩
    · rintro ⟨call', s', hrec, hw, readings, text, clock, before, hp, -⟩
      exact ⟨hrec, hw, text, by rw [hp]⟩
  | poll n =>
    simp only [dueAt_poll_eq_some_iff]
    constructor
    · rintro ⟨b, hb, hdue⟩
      exact ⟨_, _, b, hb, hdue, rfl, rfl⟩
    · rintro ⟨call', s', b, hb, hdue, -⟩
      exact ⟨b, hb, hdue⟩
  | close n =>
    simp only [dueAt, dueAtClose_eq_some_iff]
    constructor
    · rintro ⟨b, hb, hdue⟩
      exact ⟨_, _, b, hb, hdue, rfl, rfl⟩
    · rintro ⟨call', s', b, hb, hdue, -⟩
      exact ⟨b, hb, hdue⟩
  | drop n =>
    simp only [dueAt_drop_eq_some_iff, dueAtClose_eq_some_iff]
    constructor
    · rintro ⟨hw, b, hb, hdue⟩
      exact ⟨_, _, hw, b, hb, hdue, rfl, rfl⟩
    · rintro ⟨call', s', hw, b, hb, hdue, -⟩
      exact ⟨hw, b, hb, hdue⟩
  | _ => simp [IsDue, dueAt]

/-- What is reported is the same call, with the response that it has: the entry is not of another
request, and not of an answer that came later. -/
theorem sameCall_of_dueAt (h : dueAt s call op = some (call', s')) :
    call.SameCall call' ∧ call'.response = call.response := by
  have hclose : dueAtClose s call = some (call', s') →
      call.SameCall call' ∧ call'.response = call.response := by
    intro h
    obtain ⟨b, -, -, rfl, -⟩ := dueAtClose_eq_some_iff.mp h
    exact ⟨⟨rfl, rfl, rfl, rfl, rfl, rfl, rfl, rfl⟩, rfl⟩
  cases op with
  | run n reply =>
    obtain ⟨-, -, readings, text, clock, before, hp, rfl, -⟩ := dueAt_run_eq_some_iff.mp h
    have hin := Call.inTransport_perform s.clock call reply
    rw [hp] at hin
    exact ⟨hin.toSameCall.trans ⟨rfl, rfl, rfl, rfl, rfl, rfl, rfl, rfl⟩, hin.response⟩
  | poll n =>
    obtain ⟨b, -, -, rfl, -⟩ := dueAt_poll_eq_some_iff.mp h
    exact ⟨⟨rfl, rfl, rfl, rfl, rfl, rfl, rfl, rfl⟩, rfl⟩
  | close n => exact hclose h
  | drop n => exact hclose (dueAt_drop_eq_some_iff.mp h).2
  | _ => cases h

/-- Where an entry is due, the sink is asked once, with that entry. Two different errors lead
to different outcomes; a drop hides the error, but not the session that the sink leaves. -/
theorem serve_asksOnce (h : dueAt s call op = some (call', s')) :
    AsksOnce (fun sink => (r.withSink sink).serve op call s) (call'.report.toEntry s'.now) s' := by
  cases op with
  | run n reply =>
    obtain ⟨hrec, hw, readings, text, clock, before, hp, rfl, rfl⟩ := dueAt_run_eq_some_iff.mp h
    -- The two answers are two errors of the delivery.
    refine asksOnce_of_settle
      (fun d => (.ran readings (failure text d.1), failedCall before text clock.elapsed,
        r.endPage (failedCall before text clock.elapsed) d.2)) (fun sink => ?_)
      (x := (.error .closed, s)) (y := (.error .noReceiver, s)) (fun hsame => ?_)
    · simp only [serve, if_pos hw, run_of_failed hrec hp, endPage_withSink]
      rfl
    · simp [failure] at hsame
  | poll n =>
    obtain ⟨body, hb, hdue, rfl, rfl⟩ := dueAt_poll_eq_some_iff.mp h
    refine asksOnce_of_settle
      (fun d => (.polled (delivered body.poll.result d.1),
        endedCall call body.poll.body (s.advance body.poll.waited).now, d.2)) (fun sink => ?_)
      (x := (.error .closed, s)) (y := (.error .noReceiver, s)) (fun hsame => ?_)
    · simp only [serve, pollBody_of_due hb hdue]
      rfl
    · simp [delivered] at hsame
  | close n =>
    obtain ⟨body, hb, hdue, rfl, rfl⟩ := dueAtClose_eq_some_iff.mp h
    refine asksOnce_of_settle
      (fun d => (.closed d.1, endedCall call body.complete.1 s.now, d.2)) (fun sink => ?_)
      (x := (.error .closed, s)) (y := (.error .noReceiver, s)) (fun hsame => ?_)
    · simp only [serve, closeBody_of_due hb hdue]
      rfl
    · simp at hsame
  | drop n =>
    obtain ⟨hw, hclose⟩ := dueAt_drop_eq_some_iff.mp h
    obtain ⟨body, hb, hdue, rfl, rfl⟩ := dueAtClose_eq_some_iff.mp hclose
    have hw' : ¬call.isWaiting = true := by simp [hw]
    -- The answer is the same whatever the sink does, but the session that it leaves is not.
    refine asksOnce_of_settle
      (fun d => (.dropped true, { endedCall call body.complete.1 s.now with responseBody := none },
        d.2)) (fun sink => ?_)
      (x := (.ok (), s)) (y := (.ok (), s.advance 1)) (fun hsame => ?_)
    · simp only [serve, drop, if_neg hw', dropBody, closeBody_of_due hb hdue]
      rfl
    · have hnow : s.clock.elapsed = s.clock.elapsed + 1 := by
        simpa [Session.advance, Time.Clock.advance] using congrArg (·.2.2.clock.elapsed) hsame
      omega
  | _ => cases h

/-! ## The invariant of a call -/

/-- What the flags of a call tell of whether an operation has ended it. A call is awaited, and
then nothing has; or it has a response body, whose completion has been used up just if something
has ended the call; or it has neither, and nothing can be due any more. -/
structure Told (call : Call) (ended : Prop) : Prop where
  waiting : call.isWaiting = true → call.responseBody = none ∧ ¬ended
  attended : call.isRecorded = true →
    ∀ b, call.responseBody = some b → b.Attended ∧ (b.isComplete = true ↔ ended)
  unobserved : call.isRecorded = false →
    ∀ b, call.responseBody = some b → b.capture = none ∧ b.awaited = false

variable {r} {ended : Prop}

/-- A call that has only just begun has not been ended, if nothing before could name it. -/
theorem told_begin (includeAll : Bool) (c : Time.Clock) (o : Outgoing) (h : ¬ended) :
    Told (Call.begin includeAll c o) ended :=
  ⟨fun _ => ⟨rfl, h⟩, (fun _ b hb => by cases hb), fun _ b hb => by cases hb⟩

theorem Told.congr {ended' : Prop} (h : Told call ended) (hiff : ended ↔ ended') :
    Told call ended' := by
  rw [← propext hiff]
  exact h

/-- A body that is there leaves nobody waiting: it comes in with the answer, which is waited for. -/
theorem Told.isWaiting_of_body (h : Told call ended) {b : Observed}
    (hb : call.responseBody = some b) : call.isWaiting = false := by
  apply eq_false_of_ne_true
  intro hw
  rw [(h.waiting hw).1] at hb
  cases hb

/-- A poll makes the completion due if it gives the end of a recorded call's body, and
nothing ended the call before. -/
theorem Told.poll_due (h : Told call ended) {b : Observed} (hb : call.responseBody = some b) :
    b.poll.due = true ↔ call.isRecorded = true ∧ b.poll.result.isEnded = true ∧ ¬ended := by
  cases hrec : call.isRecorded with
  | true =>
    obtain ⟨hattended, hended⟩ := h.attended hrec b hb
    rw [hattended.poll.2.2, ← hended]
    simp [and_comm]
  | false =>
    rw [(Observed.poll_of_unobserved (h.unobserved hrec b hb).1).2]
    simp

/-- Closing makes it due if nothing ended the recorded call before. To drop the body comes to the
same, since it is closed first. -/
theorem Told.complete_due (h : Told call ended) {b : Observed}
    (hb : call.responseBody = some b) :
    b.complete.2 = true ↔ call.isRecorded = true ∧ ¬ended := by
  cases hrec : call.isRecorded with
  | true =>
    obtain ⟨hattended, hended⟩ := h.attended hrec b hb
    rw [hattended.complete.2.2, ← hended]
    simp
  | false =>
    rw [Observed.complete_of_unobserved (h.unobserved hrec b hb).1]
    simp

/-- **The entry of a call is due when the call is recorded and an operation ends it that is
the first to do so.** -/
theorem Told.isDue_iff (h : Told call ended) (op : Operation) :
    IsDue s call op ↔ call.isRecorded = true ∧ EndsCall s call op ∧ ¬ended := by
  cases op with
  | run n reply =>
    constructor
    · rintro ⟨hrec, hw, hfails⟩
      exact ⟨hrec, ⟨hw, hfails⟩, (h.waiting hw).2⟩
    · rintro ⟨hrec, ⟨hw, hfails⟩, -⟩
      exact ⟨hrec, hw, hfails⟩
  | poll n =>
    constructor
    · rintro ⟨b, hb, hdue⟩
      obtain ⟨hrec, hend, hfirst⟩ := (h.poll_due hb).mp hdue
      exact ⟨hrec, ⟨b, hb, hend⟩, hfirst⟩
    · rintro ⟨hrec, ⟨b, hb, hend⟩, hfirst⟩
      exact ⟨b, hb, (h.poll_due hb).mpr ⟨hrec, hend, hfirst⟩⟩
  | close n =>
    constructor
    · rintro ⟨b, hb, hdue⟩
      obtain ⟨hrec, hfirst⟩ := (h.complete_due hb).mp hdue
      exact ⟨hrec, ⟨b, hb⟩, hfirst⟩
    · rintro ⟨hrec, ⟨b, hb⟩, hfirst⟩
      exact ⟨b, hb, (h.complete_due hb).mpr ⟨hrec, hfirst⟩⟩
  | drop n =>
    constructor
    · rintro ⟨hw, b, hb, hdue⟩
      obtain ⟨hrec, hfirst⟩ := (h.complete_due hb).mp hdue
      exact ⟨hrec, ⟨hw, b, hb⟩, hfirst⟩
    · rintro ⟨hrec, ⟨hw, b, hb⟩, hfirst⟩
      exact ⟨hw, b, hb, (h.complete_due hb).mpr ⟨hrec, hfirst⟩⟩
  | _ => exact ⟨fun hd => hd.elim, fun hd => hd.2.1.elim⟩

/-- A call whose body has been polled or closed, or has come in, as long as its flags say
whether it has been ended. -/
theorem told_of_body {call' : Call} {b : Observed} (hw : call'.isWaiting = false)
    (hb : call'.responseBody = some b)
    (hon : call'.isRecorded = true → b.Attended ∧ (b.isComplete = true ↔ ended))
    (hoff : call'.isRecorded = false → b.capture = none ∧ b.awaited = false) :
    Told call' ended := by
  refine ⟨fun hw' => ?_, fun hrec b' hb' => ?_, fun hrec b' hb' => ?_⟩
  · rw [hw] at hw'
    cases hw'
  · obtain rfl : b = b' := Option.some.inj (hb.symm.trans hb')
    exact hon hrec
  · obtain rfl : b = b' := Option.some.inj (hb.symm.trans hb')
    exact hoff hrec

/-- A call without a body, for which nobody waits, has nothing to tell. This is a call that has
failed, or whose body was dropped, and whether it was ended makes no difference any more. -/
theorem told_of_none {call' : Call} (hw : call'.isWaiting = false)
    (hb : call'.responseBody = none) : Told call' ended := by
  refine ⟨fun hw' => ?_, fun _ b hb' => ?_, fun _ b hb' => ?_⟩
  · rw [hw] at hw'
    cases hw'
  · rw [hb] at hb'
    cases hb'
  · rw [hb] at hb'
    cases hb'

/-- The body that a poll leaves, whether it delivers or not, and with what result. -/
theorem pollBody_body {b : Observed} (hb : call.responseBody = some b) :
    (r.pollBody call s).2.1.responseBody = some b.poll.body ∧
      (r.pollBody call s).2.1.isWaiting = call.isWaiting := by
  cases hdue : b.poll.due with
  | false => rw [pollBody_of_not_due hb hdue]; exact ⟨rfl, rfl⟩
  | true => rw [pollBody_of_due hb hdue]; exact ⟨rfl, rfl⟩

/-- The body that a close leaves, whether it delivers or not. -/
theorem closeBody_body {b : Observed} (hb : call.responseBody = some b) :
    (r.closeBody call s).2.1.responseBody = some b.complete.1 ∧
      (r.closeBody call s).2.1.isWaiting = call.isWaiting := by
  cases hdue : b.complete.2 with
  | false => rw [closeBody_of_not_due hb hdue]; exact ⟨rfl, rfl⟩
  | true => rw [closeBody_of_due hb hdue]; exact ⟨rfl, rfl⟩

/-- Neither a poll nor a close changes who waits. -/
theorem isWaiting_pollBody (r : Recorder) (call : Call) (s : Session) :
    (r.pollBody call s).2.1.isWaiting = call.isWaiting := by
  cases hb : call.responseBody with
  | none => rw [pollBody, hb]
  | some b => exact (pollBody_body hb).2

theorem isWaiting_closeBody (r : Recorder) (call : Call) (s : Session) :
    (r.closeBody call s).2.1.isWaiting = call.isWaiting := by
  cases hb : call.responseBody with
  | none => rw [closeBody_of_none hb]
  | some b => exact (closeBody_body hb).2

/-- A poll of the request body leaves the response body alone, and who waits. -/
theorem pollRequest_body (call : Call) (s : Session) :
    (pollRequest call s).2.1.responseBody = call.responseBody ∧
      (pollRequest call s).2.1.isWaiting = call.isWaiting := by
  rw [pollRequest]
  split <;> exact ⟨rfl, rfl⟩

/-- **What the run of a transport preserves.** A failure ends the call and leaves it without a body;
an answer ends nothing, and the body that comes with it has its completion before it. -/
theorem told_run (h : Told call ended) (reply : Reply) (hw : call.isWaiting = true) :
    Told (r.run call reply s).call
      (ended ∨ ∃ text, (call.perform s.clock reply).2.1 = .error text) := by
  obtain ⟨hnone, hfirst⟩ := h.waiting hw
  have hin := Call.inTransport_perform s.clock call reply
  rcases hp : call.perform s.clock reply with ⟨readings, answer, clock, call'⟩
  rw [hp] at hin
  have hnone' : call'.responseBody = none := hin.responseBody.trans hnone
  cases answer with
  | error text =>
    cases hrec : call.isRecorded with
    | false => rw [run_of_unrecorded hrec, hp]; exact told_of_none rfl hnone'
    | true => rw [run_of_failed hrec hp]; exact told_of_none rfl hnone'
  | ok answer =>
    obtain ⟨head, body⟩ := answer
    cases hrec : call.isRecorded with
    | false =>
      have hrec' : call'.isRecorded = false := hin.isRecorded.trans hrec
      rw [run_of_unrecorded hrec, hp]
      refine told_of_body (b := .passthrough body) rfl rfl (fun hon => ?_) fun _ => ⟨rfl, rfl⟩
      rw [hrec'] at hon
      cases hon
    | true =>
      have hrec' : call'.isRecorded = true := hin.isRecorded.trans hrec
      rw [run_of_answered hrec hp]
      refine told_of_body (b := .new body true) rfl rfl (fun _ => ⟨Observed.attended_new body, ?_⟩)
        fun hoff => ?_
      · -- The capture has only begun, and nothing has ended the call.
        simp [Observed.isComplete_new, hfirst]
      · rw [show (answeredCall call' head body clock.elapsed).isRecorded = true from hrec'] at hoff
        cases hoff

/-- **What one operation preserves.** Whatever a call is asked to do, its flags tell
afterwards whether that or anything before has ended it. -/
theorem told_serve (h : Told call ended) (op : Operation) :
    Told (r.serve op call s).2.1 (ended ∨ EndsCall s call op) := by
  have hsame := sameCall_serve r op call s
  cases op with
  | run n reply =>
    by_cases hw : call.isWaiting = true
    · have hiff : (ended ∨ ∃ text, (call.perform s.clock reply).2.1 = .error text) ↔
          (ended ∨ EndsCall s call (.run n reply)) := by simp [EndsCall, hw]
      rw [serve, if_pos hw]
      exact (told_run h reply hw).congr hiff
    · rw [serve, if_neg hw]
      exact h.congr (by simp [EndsCall, hw])
  | poll n =>
    rw [serve] at hsame ⊢
    cases hb : call.responseBody with
    | none =>
      rw [pollBody, hb]
      exact h.congr (by simp [EndsCall, hb])
    | some b =>
      obtain ⟨hbody, hw⟩ := pollBody_body (r := r) (s := s) hb
      refine told_of_body (hw.trans (h.isWaiting_of_body hb)) hbody (fun hrec => ?_) fun hrec => ?_
      -- The capture is complete after the poll if it was before, or if the poll gives the end.
      · obtain ⟨hattended, hended⟩ := h.attended (hsame.isRecorded.symm.trans hrec) b hb
        obtain ⟨hattended', hcomplete, -⟩ := hattended.poll
        refine ⟨hattended', ?_⟩
        rw [hcomplete, Bool.or_eq_true, hended]
        simp [EndsCall, hb]
      · obtain ⟨hcap, hawaited⟩ := h.unobserved (hsame.isRecorded.symm.trans hrec) b hb
        exact ⟨(Observed.poll_of_unobserved hcap).1, Observed.awaited_poll hawaited⟩
  | close n =>
    rw [serve_close_call] at hsame ⊢
    cases hb : call.responseBody with
    | none =>
      rw [closeBody_of_none hb]
      exact h.congr (by simp [EndsCall, hb])
    | some b =>
      obtain ⟨hbody, hw⟩ := closeBody_body (r := r) (s := s) hb
      refine told_of_body (hw.trans (h.isWaiting_of_body hb)) hbody (fun hrec => ?_) fun hrec => ?_
      -- A close ends the call whatever the body has left to give.
      · obtain ⟨hattended, -⟩ := h.attended (hsame.isRecorded.symm.trans hrec) b hb
        obtain ⟨hattended', hcomplete, -⟩ := hattended.complete
        exact ⟨hattended', by simp [hcomplete, EndsCall, hb]⟩
      · have hoff := h.unobserved (hsame.isRecorded.symm.trans hrec) b hb
        rw [Observed.complete_of_unobserved hoff.1]
        exact hoff
  | drop n =>
    -- A call that is given up has no body yet, and one that is dropped has none any more.
    by_cases hw : call.isWaiting = true
    · have hnone := (h.waiting hw).1
      have hcall : (r.serve (.drop n) call s).2.1
          = { call with isWaiting := false, custody := .dropped } := by
        rw [serve, drop, if_pos hw]
      rw [hcall]
      exact told_of_none rfl hnone
    · have hcall : (r.serve (.drop n) call s).2.1
          = { (r.closeBody call s).2.1 with responseBody := none } := by
        rw [serve, drop, if_neg hw, dropBody]
      have hw' : (r.closeBody call s).2.1.isWaiting = false := by
        rw [isWaiting_closeBody]
        simpa using hw
      rw [hcall]
      exact told_of_none hw' rfl
  | pollRequest n =>
    have hcall := pollRequest_body call s
    rw [serve] at hsame ⊢
    suffices htold : Told (pollRequest call s).2.1 ended from htold.congr (by simp [EndsCall])
    refine ⟨?_, ?_, ?_⟩
    · rw [hcall.1, hcall.2]
      exact h.waiting
    · rw [hcall.1, hsame.isRecorded]
      exact h.attended
    · rw [hcall.1, hsame.isRecorded]
      exact h.unobserved
  | _ => exact h.congr (by simp [EndsCall])

/-! ## Operations and their calls -/

/-- An operation in a state ends the call with that number. -/
def Ends (st : State) (op : Operation) (n : Nat) : Prop :=
  op.target? = some n ∧ ∃ call, st.calls[n]? = some call ∧ EndsCall st.session call op

/-- An operation in a state hands over nothing: the whole step, with its answer, all calls and the
session, is the same for every sink. -/
def HandsNothing (r : Recorder) (st : State) (op : Operation) : Prop :=
  AsksNothing fun sink => step (r.withSink sink) st op

/-- An operation in a state hands over one entry, and it is that of the call with that
number: of the same request, and with the response that the call has. -/
def HandsOver (r : Recorder) (st : State) (op : Operation) (n : Nat) : Prop :=
  op.target? = some n ∧ ∃ call call' s', st.calls[n]? = some call ∧ call.SameCall call' ∧
    call'.response = call.response ∧
      AsksOnce (fun sink => step (r.withSink sink) st op) (call'.report.toEntry s'.now) s'

/-- The call with that number is one that was to be recorded when it began. -/
def IsIncluded (r : Recorder) (ops : List Operation) (n : Nat) : Prop :=
  ∃ o, (begun ops)[n]? = some o ∧ Call.wants r.includeAll o = true

variable {st : State} {op : Operation} {n : Nat}

theorem ends_iff (h : op.target? = some n) (hcall : st.calls[n]? = some call) :
    Ends st op n ↔ EndsCall st.session call op := by
  constructor
  · rintro ⟨-, other, hother, hends⟩
    obtain rfl : call = other := Option.some.inj (hcall.symm.trans hother)
    exact hends
  · intro hends
    exact ⟨h, call, hcall, hends⟩

/-- An entry that is due is handed over. `serve_asksOnce` says so of the call; what is left is that
nothing of that is lost when the call is put back among the others. -/
theorem handsOver_of_isDue (h : op.target? = some n) (hcall : st.calls[n]? = some call)
    (hdue : IsDue st.session call op) : HandsOver r st op n := by
  obtain ⟨call', s', hat⟩ := isDue_iff.mp hdue
  obtain ⟨hsame, hresponse⟩ := sameCall_of_dueAt hat
  have hasks := serve_asksOnce r hat
  have hn : n < st.calls.length := (List.getElem?_eq_some_iff.mp hcall).1
  refine ⟨h, call, call', s', hcall, hsame, hresponse, ?_⟩
  have hstep : (fun sink => step (r.withSink sink) st op) = fun sink =>
      (fun x : Answer × Call × Session => (x.1, st.store n x.2.1 x.2.2))
        ((r.withSink sink).serve op call st.session) :=
    funext fun sink => step_of_call h hcall
  -- The call that is put back and the session can be told from the state.
  have hinjective : Function.Injective
      fun x : Answer × Call × Session => (x.1, st.store n x.2.1 x.2.2) := by
    intro x y hxy
    have hanswer : x.1 = y.1 := congrArg (·.1) hxy
    have hsession : x.2.2 = y.2.2 := congrArg (·.2.session) hxy
    have hcalls : st.calls.set n x.2.1 = st.calls.set n y.2.1 := congrArg (·.2.calls) hxy
    have hget : some x.2.1 = some y.2.1 := by
      rw [← List.getElem?_set_self (a := x.2.1) hn, hcalls, List.getElem?_set_self hn]
    exact Prod.ext hanswer (Prod.ext (Option.some.inj hget) hsession)
  rw [hstep]
  exact hasks.map hinjective

/-- Where no entry is due, nothing is handed over: not by an operation that names no call either. -/
theorem handsNothing_of_not_isDue
    (h : ∀ n call, op.target? = some n → st.calls[n]? = some call → ¬IsDue st.session call op) :
    HandsNothing r st op := by
  intro a b
  cases ht : op.target? with
  | none => cases op <;> first | rfl | cases ht
  | some n =>
    cases hcall : st.calls[n]? with
    | none => simp only [step_of_no_call ht hcall]
    | some call =>
      have hserve : (r.withSink a).serve op call st.session
          = (r.withSink b).serve op call st.session :=
        serve_asksNothing r call st.session (h n call ht hcall) a b
      simp only [step_of_call ht hcall, hserve]

/-- What is handed over was due, for otherwise the sink would not have been asked, and asking once
is more than that. -/
theorem HandsOver.isDue (h : HandsOver r st op n) :
    op.target? = some n ∧ ∃ call, st.calls[n]? = some call ∧ IsDue st.session call op := by
  obtain ⟨ht, call, call', s', hcall, -, -, -, hdepends⟩ := h
  refine ⟨ht, call, hcall, ?_⟩
  by_contra hnot
  refine hdepends (handsNothing_of_not_isDue fun m other hm hother => ?_)
  obtain rfl : n = m := Option.some.inj (ht.symm.trans hm)
  obtain rfl : call = other := Option.some.inj (hcall.symm.trans hother)
  exact hnot

/-! ## Whole runs -/

/-- Some operation of a run has ended the call with that number. -/
def Ended (r : Recorder) (s : Session) (ops : List Operation) (n : Nat) : Prop :=
  ∃ m ∈ trace r ⟨s, []⟩ ops, Ends m.1 m.2 n

variable {ops : List Operation}

theorem ended_concat :
    Ended r s (ops ++ [op]) n ↔ Ended r s ops n ∨ Ends (after r ⟨s, []⟩ ops) op n :=
  exists_trace_concat

/-- What is ended has begun, so a call that only begins now has not been ended before. -/
theorem Ended.lt (h : Ended r s ops n) : n < (begun ops).length := by
  induction ops using List.reverseRecOn with
  | nil =>
    obtain ⟨m, hm, -⟩ := h
    cases hm
  | append_singleton ops op ih =>
    rw [begun_append, List.length_append]
    rcases ended_concat.mp h with h | ⟨-, call, hcall, -⟩
    · exact Nat.lt_add_right _ (ih h)
    · have hn := (List.getElem?_eq_some_iff.mp hcall).1
      rw [length_after] at hn
      omega

/-- **What a run preserves.** The flags of each call tell whether the run has ended it. The
operations that name another call change neither the flags of this one nor whether it ended. -/
theorem told_after (hcall : (after r ⟨s, []⟩ ops).calls[n]? = some call) :
    Told call (Ended r s ops n) := by
  refine call_induction (motive := fun ops call => Told call (Ended r s ops n))
    (fun ops o c hn => ?_) (fun ops op call ht hcall htold => ?_)
    (fun ops op call ht _ htold => ?_) hcall
  · -- Nothing before could name the call.
    refine told_begin r.includeAll c o fun h => ?_
    rcases ended_concat.mp h with h | ⟨ht, -⟩
    · have hlt := h.lt
      omega
    · cases ht
  · refine (told_serve htold op).congr ?_
    rw [ended_concat, ends_iff ht hcall]
  · refine htold.congr ?_
    rw [ended_concat]
    exact ⟨.inl, fun h => h.resolve_right fun hends => ht hends.1⟩

/-- A call is recorded just if it was included when it began, whatever has happened to it since. -/
theorem isIncluded_iff (hcall : (after r ⟨s, []⟩ ops).calls[n]? = some call) :
    IsIncluded r ops n ↔ call.isRecorded = true := by
  have hflag : ((begun ops).map (Call.wants r.includeAll))[n]? = some call.isRecorded := by
    rw [← isRecorded_after s ops, List.getElem?_map, hcall]
    rfl
  rw [List.getElem?_map, Option.map_eq_some_iff] at hflag
  obtain ⟨o, ho, hwants⟩ := hflag
  constructor
  · rintro ⟨o', ho', hincluded⟩
    obtain rfl : o = o' := Option.some.inj (ho.symm.trans ho')
    rw [← hwants]
    exact hincluded
  · intro hrec
    exact ⟨o, ho, hwants.trans hrec⟩

/-- **An entry is handed over by the first operation that ends its call**, and by no other. -/
theorem handsOver_iff :
    HandsOver r (after r ⟨s, []⟩ ops) op n ↔
      IsIncluded r ops n ∧ Ends (after r ⟨s, []⟩ ops) op n ∧ ¬Ended r s ops n := by
  constructor
  · intro h
    obtain ⟨ht, call, hcall, hdue⟩ := h.isDue
    obtain ⟨hrec, hends, hfirst⟩ := ((told_after hcall).isDue_iff op).mp hdue
    exact ⟨(isIncluded_iff hcall).mpr hrec, (ends_iff ht hcall).mpr hends, hfirst⟩
  · rintro ⟨hincluded, ⟨ht, call, hcall, hends⟩, hfirst⟩
    have hrec := (isIncluded_iff hcall).mp hincluded
    exact handsOver_of_isDue ht hcall (((told_after hcall).isDue_iff op).mpr ⟨hrec, hends, hfirst⟩)

/-- Each operation hands over one entry or none, in any state, also one that no run leads to. -/
theorem handsNothing_or_handsOver (r : Recorder) (st : State) (op : Operation) :
    HandsNothing r st op ∨ ∃ n, HandsOver r st op n := by
  by_cases h : ∃ n call, op.target? = some n ∧ st.calls[n]? = some call ∧ IsDue st.session call op
  · obtain ⟨n, call, ht, hcall, hdue⟩ := h
    exact .inr ⟨n, handsOver_of_isDue ht hcall hdue⟩
  · refine .inl (handsNothing_of_not_isDue fun n call ht hcall hdue => h ?_)
    exact ⟨n, call, ht, hcall, hdue⟩

theorem isIncluded_append {later : List Operation} (h : n < (begun ops).length) :
    IsIncluded r (ops ++ later) n ↔ IsIncluded r ops n := by
  rw [IsIncluded, IsIncluded, begun_append, List.getElem?_append_left h]

/-- What was handed over in a run was included and was ended in it, so a call that nothing has ended
yet has no entry anywhere. -/
theorem ended_of_handsOver {m : State × Operation} (hm : m ∈ trace r ⟨s, []⟩ ops)
    (h : HandsOver r m.1 m.2 n) : IsIncluded r ops n ∧ Ended r s ops n := by
  induction ops using List.reverseRecOn with
  | nil => cases hm
  | append_singleton ops op ih =>
    have hall : IsIncluded r ops n ∧ Ended r s (ops ++ [op]) n := by
      rw [trace_concat] at hm
      rcases List.mem_append.mp hm with hm | hm
      · obtain ⟨hincluded, hended⟩ := ih hm
        exact ⟨hincluded, ended_concat.mpr (.inl hended)⟩
      · obtain rfl := List.mem_singleton.mp hm
        obtain ⟨hincluded, hends, -⟩ := handsOver_iff.mp h
        exact ⟨hincluded, ended_concat.mpr (.inr hends)⟩
    obtain ⟨⟨o, ho, hwants⟩, hended⟩ := hall
    have hn : n < (begun ops).length := (List.getElem?_eq_some_iff.mp ho).1
    exact ⟨(isIncluded_append hn).mpr ⟨o, ho, hwants⟩, hended⟩

/-- In a run that ends an included call there is exactly one operation that hands over its
entry. -/
theorem handsOver_once (hincluded : IsIncluded r ops n) (hended : Ended r s ops n) :
    ∃ earlier m later, trace r ⟨s, []⟩ ops = earlier ++ m :: later ∧ HandsOver r m.1 m.2 n ∧
      ∀ other ∈ earlier ++ later, ¬HandsOver r other.1 other.2 n := by
  induction ops using List.reverseRecOn with
  | nil =>
    obtain ⟨m, hm, -⟩ := hended
    cases hm
  | append_singleton ops op ih =>
    rw [trace_concat]
    by_cases hbefore : Ended r s ops n
    · -- It was handed over before, and this operation is not the first to end the call.
      obtain ⟨earlier, m, later, htrace, hm, hothers⟩ :=
        ih ((isIncluded_append hbefore.lt).mp hincluded) hbefore
      refine ⟨earlier, m, later ++ [(after r ⟨s, []⟩ ops, op)], by rw [htrace]; simp, hm, ?_⟩
      intro other hother
      rw [← List.append_assoc] at hother
      rcases List.mem_append.mp hother with hother | hother
      · exact hothers other hother
      · obtain rfl := List.mem_singleton.mp hother
        exact fun h => (handsOver_iff.mp h).2.2 hbefore
    · -- This operation is the first.
      have hends := (ended_concat.mp hended).resolve_left hbefore
      have hn : n < (begun ops).length := by
        obtain ⟨-, call, hcall, -⟩ := hends
        rw [← length_after (r := r) s]
        exact (List.getElem?_eq_some_iff.mp hcall).1
      refine ⟨trace r ⟨s, []⟩ ops, (after r ⟨s, []⟩ ops, op), [], rfl,
        handsOver_iff.mpr ⟨(isIncluded_append hn).mp hincluded, hends, hbefore⟩, ?_⟩
      intro other hother h
      rw [List.append_nil] at hother
      exact hbefore (ended_of_handsOver hother h).2

/-- **Each recorded call hands its entry over exactly once.** Let any operations have been
done, and one more follow. The one more hands over nothing at all, or the entry of one call;
it hands over the entry of a call just if that call was to be recorded, and it is the first
operation to end it: its transport fails, or its response body gives its end, is closed or
is dropped. So of the operations that have been done exactly one has handed over the entry
of each call that is recorded and ended, and no other. -/
theorem handsOver_exactly_once (r : Recorder) (s : Session) (ops : List Operation)
    (op : Operation) :
    (HandsNothing r (after r ⟨s, []⟩ ops) op ∨ ∃ n, HandsOver r (after r ⟨s, []⟩ ops) op n) ∧
      (∀ n, HandsOver r (after r ⟨s, []⟩ ops) op n ↔
        IsIncluded r ops n ∧ Ends (after r ⟨s, []⟩ ops) op n ∧ ¬Ended r s ops n) ∧
      (∀ n, IsIncluded r ops n → Ended r s ops n →
        ∃ earlier m later, trace r ⟨s, []⟩ ops = earlier ++ m :: later ∧
          HandsOver r m.1 m.2 n ∧ ∀ other ∈ earlier ++ later, ¬HandsOver r other.1 other.2 n) ∧
      ∀ n, (∃ m ∈ trace r ⟨s, []⟩ ops, HandsOver r m.1 m.2 n) →
        IsIncluded r ops n ∧ Ended r s ops n := by
  refine ⟨handsNothing_or_handsOver r _ op, fun n => handsOver_iff,
    fun n => handsOver_once, fun n => ?_⟩
  rintro ⟨m, hm, h⟩
  exact ended_of_handsOver hm h

end Recorder

end ExchangeArchive
