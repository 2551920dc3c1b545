import ExchangeArchive.Proofs.Recorder.Direct
import ExchangeArchive.Proofs.Recorder.Handover
/-
**Recording is transparent.**

The operations of a run are done twice, with a recorder and without one, and the two runs
are compared step by step. `Alike` is the invariant between them: whatever is asked of alike
calls, they are alike afterwards (`serve_alike`), and the answers are the same unless the
operation hands over an entry (`serve_answer_of_not_due`). If it does, the answer can be told
from the one without a recorder and from what the delivery came to, and `Instead` is the list of
the places in which an error of the delivery can appear.

What a transport receives is read off the calls that still wait for it: these are as they
began (`waiting_after`).
-/

set_option autoImplicit false

namespace ExchangeArchive

open ExchangeArchive.Body ExchangeArchive.Http ExchangeArchive.Recorder
  ExchangeArchive.Transport

namespace Recorder

/-! ## Where the error of a delivery appears -/

/-- The answers that the error of a delivery can stand in for, and what it makes of them: the
end of a body, the failure of a transport, a close. Who drops a body never hears of it. -/
inductive Instead (e : Error) : Answer → Answer → Prop where
  | ended : Instead e (.polled .ended) (.polled (.failed e))
  | failure (readings : List Call.Reading) (text : String) :
    Instead e (.ran readings (.error (.transport text))) (.ran readings (.error e))
  | closed : Instead e (.closed (.ok ())) (.closed (.error e))
  | dropped : Instead e (.dropped true) (.dropped true)

/-- What becomes of an answer, by what a delivery came to: after one that goes well it is the same,
and otherwise the error has taken the place of what stood there. -/
def Answer.Becomes (without : Answer) (delivery : Except Error Unit) (answer : Answer) : Prop :=
  match delivery with
  | .ok () => answer = without
  | .error e => Instead e without answer

/-- An answer that is made of what a delivery came to, given what it is made of in either case. -/
theorem Answer.becomes_of {without : Answer} {f : Except Error Unit → Answer}
    (hok : f (.ok ()) = without) (herror : ∀ e, Instead e without (f (.error e)))
    (delivery : Except Error Unit) : without.Becomes delivery (f delivery) := by
  cases delivery with
  | ok _ => exact hok
  | error e => exact herror e

variable {r : Recorder} {call : Call} {d : Direct} {s : Session}

/-! ## One operation on alike calls -/

/-- One body on each side, and the one mirrors the other. -/
theorem mirrors_of_some {b b' : Observed} {p p' : Plain} (h : b.Mirrors p)
    (hb : some b = some b') (hp : some p = some p') : b'.Mirrors p' := by
  obtain rfl := Option.some.inj hb
  obtain rfl := Option.some.inj hp
  exact h

/-- A call whose transport has been run is like the direct one whose transport has. Recorded or
not, it has a body just if that has one, and no more of it has been read. -/
theorem run_alike (h : Alike call d) (reply : Reply) (n : Nat) (hw : call.isWaiting = true) :
    Alike (r.run call reply s).call (d.serve (.run n reply)).2 := by
  obtain ⟨-, hanswer, halike⟩ := perform_alike h s.clock reply
  rcases hp : call.perform s.clock reply with ⟨readings, answer, clock, call'⟩
  rcases hp' : d.perform reply with ⟨readings', answer', d'⟩
  rw [hp, hp'] at hanswer halike
  obtain rfl : answer = answer' := hanswer
  have halike : Alike call' d' := halike
  rw [Direct.serve, if_pos (h.isWaiting.symm.trans hw), hp']
  cases answer with
  | error text =>
    cases hrec : call.isRecorded with
    | false => rw [run_of_unrecorded hrec, hp]; exact { halike with isWaiting := rfl }
    | true => rw [run_of_failed hrec hp]; exact { halike with isWaiting := rfl }
  | ok answer =>
    -- Observed or not, the body that comes has the script of the transport's.
    obtain ⟨head, body⟩ := answer
    cases hrec : call.isRecorded with
    | false =>
      rw [run_of_unrecorded hrec, hp]
      exact { halike with
        isWaiting := rfl
        hasBody := rfl
        responseBody := fun b p hb hp => mirrors_of_some (b := .passthrough body) ⟨rfl, rfl⟩ hb hp }
    | true =>
      rw [run_of_answered hrec hp]
      exact { halike with
        isWaiting := rfl
        hasBody := rfl
        responseBody := fun b p hb hp => mirrors_of_some (b := .new body true) ⟨rfl, rfl⟩ hb hp }

/-- A body on the side of the recorder comes with one on the other, which it mirrors. -/
theorem Alike.body (h : Alike call d) {b : Observed} (hb : call.responseBody = some b) :
    ∃ p, d.responseBody = some p ∧ b.Mirrors p := by
  have hsome : d.responseBody.isSome = true := by rw [← h.hasBody, hb]; rfl
  obtain ⟨p, hp⟩ := Option.isSome_iff_exists.mp hsome
  exact ⟨p, hp, h.responseBody b p hb hp⟩

/-- Without a body on one side there is none on the other. -/
theorem Alike.noBody (h : Alike call d) (hb : call.responseBody = none) :
    d.responseBody = none := by
  rw [← Option.not_isSome_iff_eq_none, ← h.hasBody, hb]
  exact Bool.false_ne_true

/-- A poll of the response body leaves calls alike, whether or not it delivers an entry. -/
theorem poll_alike (h : Alike call d) (n : Nat) :
    Alike (r.pollBody call s).2.1 (d.serve (.poll n)).2 := by
  cases hb : call.responseBody with
  | none =>
    rw [pollBody, hb, Direct.serve, h.noBody hb]
    exact h
  | some b =>
    obtain ⟨p, hp, hmirrors⟩ := h.body hb
    have hpolled := hmirrors.poll.2
    rw [Direct.serve, hp]
    cases hdue : b.poll.due with
    | false =>
      rw [pollBody_of_not_due hb hdue]
      exact { h with hasBody := rfl, responseBody := fun b p => mirrors_of_some hpolled }
    | true =>
      rw [pollBody_of_due hb hdue]
      exact { h with hasBody := rfl, responseBody := fun b p => mirrors_of_some hpolled }

/-- Closing the response body leaves a call like the direct one, for which closing is
nothing. -/
theorem close_alike (h : Alike call d) : Alike (r.closeBody call s).2.1 d := by
  cases hb : call.responseBody with
  | none =>
    rw [closeBody_of_none hb]
    exact h
  | some b =>
    obtain ⟨p, hp, hmirrors⟩ := h.body hb
    have hclosed : ∀ b' p', some b.complete.1 = some b' → d.responseBody = some p' →
        b'.Mirrors p' := fun b' p' hb' hp' =>
      mirrors_of_some hmirrors.complete hb' (hp.symm.trans hp')
    have hsome : (some b.complete.1).isSome = d.responseBody.isSome := by rw [hp]; rfl
    cases hdue : b.complete.2 with
    | false =>
      rw [closeBody_of_not_due hb hdue]
      exact { h with hasBody := hsome, responseBody := hclosed }
    | true =>
      rw [closeBody_of_due hb hdue]
      exact { h with hasBody := hsome, responseBody := hclosed }

/-- A poll of a request body that the transport kept leaves calls alike, and gives the same. -/
theorem pollRequest_alike (h : Alike call d) (n : Nat) :
    Answer.ofPoll (pollRequest call s).1 = (d.serve (.pollRequest n)).1 ∧
      Alike (pollRequest call s).2.1 (d.serve (.pollRequest n)).2 := by
  obtain ⟨hresult, hmirrors⟩ := h.requestBody.poll
  rw [pollRequest, Direct.serve, h.custody]
  cases hc : d.custody with
  | held =>
    dsimp only
    rw [hresult]
    exact ⟨rfl, { h with
      custody := rfl
      requestBody := hmirrors
      requestAwaited := Observed.awaited_poll h.requestAwaited }⟩
  | transport => exact ⟨rfl, h⟩
  | dropped => exact ⟨rfl, h⟩

/-- **What one operation preserves.** Whatever is asked of alike calls, they stay alike. What the
answers are does not come into it, which is why a failed delivery does not end the comparison. -/
theorem serve_alike (h : Alike call d) (op : Operation) :
    Alike (r.serve op call s).2.1 (d.serve op).2 := by
  cases op with
  | run n reply =>
    by_cases hw : call.isWaiting = true
    · rw [serve, if_pos hw]
      exact run_alike h reply n hw
    · rw [serve, if_neg hw, Direct.serve, if_neg (by rw [← h.isWaiting]; exact hw)]
      exact h
  | poll n =>
    rw [serve]
    exact poll_alike h n
  | close n =>
    rw [serve_close_call]
    exact close_alike h
  | drop n =>
    rw [serve, drop, Direct.serve, ← h.isWaiting]
    by_cases hw : call.isWaiting = true
    · rw [if_pos hw, if_pos hw]
      exact { h with isWaiting := rfl, custody := rfl }
    · have hclose := close_alike (r := r) (s := s) h
      rw [if_neg hw, if_neg hw]
      exact { hclose with
        isWaiting := hclose.isWaiting.trans h.isWaiting.symm
        hasBody := rfl
        responseBody := fun b p hb => by cases hb }
  | pollRequest n =>
    rw [serve]
    exact (pollRequest_alike h n).2
  | _ => exact h

/-! ## The answers -/

/-- An operation at which no entry is due is answered as it is without a recorder. The hypothesis
is used where the recorder would deliver: each such case has a flag that is off. -/
theorem serve_answer_of_not_due (h : Alike call d) {op : Operation} (hdue : ¬IsDue s call op) :
    (r.serve op call s).1 = (d.serve op).1 := by
  cases op with
  | run n reply =>
    by_cases hw : call.isWaiting = true
    · obtain ⟨hreadings, hanswer, -⟩ := perform_alike h s.clock reply
      rw [serve, if_pos hw, Direct.serve, if_pos (h.isWaiting.symm.trans hw)]
      rcases hp : call.perform s.clock reply with ⟨readings, answer, clock, call'⟩
      rcases hp' : d.perform reply with ⟨readings', answer', d'⟩
      rw [hp, hp'] at hreadings hanswer
      obtain rfl : readings = readings' := hreadings
      obtain rfl : answer = answer' := hanswer
      cases hrec : call.isRecorded with
      | false =>
        rw [run_of_unrecorded hrec, hp]
        cases answer <;> rfl
      | true =>
        cases answer with
        -- The entry of a recorded failure would be due, and the answer could be another then.
        | error text => exact absurd ⟨hrec, hw, text, by rw [hp]⟩ hdue
        | ok answer => rw [run_of_answered hrec hp]
    · rw [serve, if_neg hw, Direct.serve, if_neg (by rw [← h.isWaiting]; exact hw)]
  | poll n =>
    rw [serve, Direct.serve]
    cases hb : call.responseBody with
    | none =>
      rw [pollBody, hb, h.noBody hb]
      rfl
    | some b =>
      obtain ⟨p, hp, hmirrors⟩ := h.body hb
      have hnot : b.poll.due = false := eq_false_of_ne_true fun hd => hdue ⟨b, hb, hd⟩
      rw [pollBody_of_not_due hb hnot, hp]
      exact congrArg Answer.polled hmirrors.poll.1
  | close n =>
    rw [serve, Direct.serve]
    cases hb : call.responseBody with
    | none =>
      rw [closeBody_of_none hb, h.noBody hb]
      rfl
    | some b =>
      obtain ⟨p, hp, -⟩ := h.body hb
      have hnot : b.complete.2 = false := eq_false_of_ne_true fun hd => hdue ⟨b, hb, hd⟩
      rw [closeBody_of_not_due hb hnot, hp]
      rfl
  | drop n =>
    rw [serve, drop, Direct.serve, ← h.isWaiting]
    by_cases hw : call.isWaiting = true
    · rw [if_pos hw, if_pos hw]
    · rw [if_neg hw, if_neg hw, dropBody, ← h.hasBody]
      cases hb : call.responseBody with
      | none =>
        rw [closeBody_of_none hb]
        rfl
      | some b =>
        have hnot : b.complete.2 = false :=
          eq_false_of_ne_true fun hd => hdue ⟨by simpa using hw, b, hb, hd⟩
        rw [closeBody_of_not_due hb hnot]
        rfl
  | pollRequest n =>
    rw [serve]
    exact (pollRequest_alike h n).1
  | _ => rfl

/-- An operation at which an entry is due is answered as it is without a recorder, unless the
delivery of the entry fails. -/
theorem serve_answer_of_due (h : Alike call d) {op : Operation} (hdue : IsDue s call op) :
    ∃ call' s', call.SameCall call' ∧
      (d.serve op).1.Becomes (r.deliver call' s').1 (r.serve op call s).1 := by
  cases op with
  | run n reply =>
    obtain ⟨hrec, hw, text, hfails⟩ := hdue
    obtain ⟨hreadings, hanswer, -⟩ := perform_alike h s.clock reply
    have hin := Call.inTransport_perform s.clock call reply
    rw [serve, if_pos hw, Direct.serve, if_pos (h.isWaiting.symm.trans hw)]
    rcases hp : call.perform s.clock reply with ⟨readings, answer, clock, call'⟩
    rcases hp' : d.perform reply with ⟨readings', answer', d'⟩
    rw [hp, hp'] at hreadings hanswer
    rw [hp] at hfails hin
    obtain rfl : readings = readings' := hreadings
    obtain rfl : answer = answer' := hanswer
    -- The entry is delivered after the transport has failed, with the error in it.
    obtain rfl : answer = .error text := hfails
    refine ⟨failedCall call' text clock.elapsed, { s with clock := clock },
      hin.toSameCall.trans ⟨rfl, rfl, rfl, rfl, rfl, rfl, rfl, rfl⟩, ?_⟩
    rw [run_of_failed hrec hp]
    exact Answer.becomes_of (f := fun x => .ran readings (failure text x)) rfl
      (fun e => .failure readings text) _
  | poll n =>
    obtain ⟨b, hb, hdue⟩ := hdue
    obtain ⟨p, hp, hmirrors⟩ := h.body hb
    have hended : p.poll.1 = .ended := hmirrors.poll.1.symm.trans (Observed.result_of_due hdue)
    refine ⟨endedCall call b.poll.body (s.advance b.poll.waited).now,
      s.advance b.poll.waited, ⟨rfl, rfl, rfl, rfl, rfl, rfl, rfl, rfl⟩, ?_⟩
    rw [serve, Direct.serve, pollBody_of_due hb hdue, hp, Observed.result_of_due hdue]
    dsimp only
    rw [hended]
    exact Answer.becomes_of (f := fun x => .polled (delivered .ended x)) rfl (fun e => .ended) _
  | close n =>
    obtain ⟨b, hb, hdue⟩ := hdue
    obtain ⟨p, hp, -⟩ := h.body hb
    refine ⟨endedCall call b.complete.1 s.now, s, ⟨rfl, rfl, rfl, rfl, rfl, rfl, rfl, rfl⟩, ?_⟩
    rw [serve, Direct.serve, closeBody_of_due hb hdue, hp]
    exact Answer.becomes_of (f := fun x => .closed x) rfl (fun e => .closed) _
  | drop n =>
    obtain ⟨hw, b, hb, hdue⟩ := hdue
    have hw' : ¬call.isWaiting = true := by simp [hw]
    obtain ⟨p, hp, -⟩ := h.body hb
    refine ⟨endedCall call b.complete.1 s.now, s, ⟨rfl, rfl, rfl, rfl, rfl, rfl, rfl, rfl⟩, ?_⟩
    rw [serve, drop, if_neg hw', dropBody, closeBody_of_due hb hdue, Direct.serve,
      ← h.isWaiting, if_neg hw', hp]
    -- The error is lost: the answer is the same, whatever the delivery came to.
    exact Answer.becomes_of (f := fun _ => .dropped true) rfl (fun e => .dropped) _
  | _ => exact hdue.elim

/-! ## Runs side by side -/

/-- Calls that are alike under each number, and of which there are as many on both sides. -/
structure AllAlike (calls : List Call) (ds : List Direct) : Prop where
  length : calls.length = ds.length
  alike : ∀ (n : Nat) (call : Call) (d : Direct),
    calls[n]? = some call → ds[n]? = some d → Alike call d

variable {st : State} {ds : List Direct} {ops : List Operation} {op : Operation} {n : Nat}

/-- There is a direct call under each number of a call, and none under any other. -/
theorem AllAlike.present (h : AllAlike st.calls ds) (hcall : st.calls[n]? = some call) :
    ∃ d, ds[n]? = some d ∧ Alike call d := by
  have hn : n < ds.length := by
    rw [← h.length]
    exact (List.getElem?_eq_some_iff.mp hcall).1
  have hd := List.getElem?_eq_getElem hn
  exact ⟨ds[n], hd, h.alike n call _ hcall hd⟩

theorem AllAlike.absent (h : AllAlike st.calls ds) (hcall : st.calls[n]? = none) :
    ds[n]? = none := by
  have hn := List.getElem?_eq_none_iff.mp hcall
  rw [List.getElem?_eq_none_iff, ← h.length]
  exact hn

/-- Calls that begin together are added together, and get the same number. -/
theorem AllAlike.append {calls : List Call} (h : AllAlike calls ds) (c : Time.Clock)
    (includeAll : Bool) (os : List Outgoing) :
    AllAlike (calls ++ os.map (Call.begin includeAll c)) (ds ++ os.map Direct.begin) := by
  refine ⟨by simp [h.length], fun n call d hcall hd => ?_⟩
  by_cases hn : n < calls.length
  · rw [List.getElem?_append_left hn] at hcall
    rw [List.getElem?_append_left (by rw [← h.length]; exact hn)] at hd
    exact h.alike n call d hcall hd
  · have hn : calls.length ≤ n := by omega
    rw [List.getElem?_append_right hn, List.getElem?_map] at hcall
    rw [List.getElem?_append_right (by rw [← h.length]; exact hn), List.getElem?_map,
      ← h.length] at hd
    obtain ⟨o, ho, rfl⟩ := Option.map_eq_some_iff.mp hcall
    rw [ho] at hd
    obtain rfl := Option.some.inj hd
    exact alike_begin includeAll c o

/-- Calls that are put back together stay alike. -/
theorem AllAlike.set {calls : List Call} (h : AllAlike calls ds) (halike : Alike call d)
    (m : Nat) : AllAlike (calls.set m call) (ds.set m d) := by
  refine ⟨by simp [h.length], fun n call' d' hcall hd => ?_⟩
  by_cases hmn : m = n
  · subst hmn
    have hm : m < calls.length := by
      have hlt := (List.getElem?_eq_some_iff.mp hcall).1
      rwa [List.length_set] at hlt
    rw [List.getElem?_set_self hm] at hcall
    rw [List.getElem?_set_self (by rw [← h.length]; exact hm)] at hd
    obtain rfl := Option.some.inj hcall
    obtain rfl := Option.some.inj hd
    exact halike
  · rw [List.getElem?_set_ne hmn] at hcall hd
    exact h.alike n call' d' hcall hd

/-- One operation, done on both sides, leaves all calls alike. It changes the call that it names, if
there is one, and adds those that begin. -/
theorem step_alike (h : AllAlike st.calls ds) (op : Operation) :
    AllAlike (step r st op).2.calls (Direct.step ds op).2 := by
  cases ht : op.target? with
  | none =>
    rw [step_calls_of_no_target st ht, Direct.step_of_no_target ds ht]
    exact h.append st.session.clock r.includeAll (begun [op])
  | some n =>
    cases hcall : st.calls[n]? with
    | none =>
      rw [step_of_no_call ht hcall, Direct.step_of_no_call ht (h.absent hcall)]
      exact h
    | some call =>
      obtain ⟨d, hd, halike⟩ := h.present hcall
      rw [step_calls_of_call ht hcall, Direct.step_of_call ht hd]
      exact h.set (serve_alike halike op) n

/-- **What a run preserves.** The calls of a recorder are alike the direct ones after any
operations. -/
theorem alike_after (r : Recorder) (s : Session) (ops : List Operation) :
    AllAlike (after r ⟨s, []⟩ ops).calls (Direct.after [] ops) := by
  induction ops using List.reverseRecOn with
  | nil => exact ⟨rfl, fun n call d hcall => by cases hcall⟩
  | append_singleton ops op ih =>
    rw [after_concat, Direct.after_concat]
    exact step_alike ih op

/-! ## What a transport receives -/

/-- What a transport receives of a request is what its caller sent: the head, the markers, and
a body that passes on the caller's and says of its end what that says. Only the observer is
another if the call is recorded: it times the call, and then tells the caller. -/
structure Forwards (includeAll : Bool) (o : Outgoing) (now : Nat) (got : Call.Received) :
    Prop where
  head : got.head = o.head
  markers : got.markers = o.markers
  recorded : Call.wants includeAll o = true →
    got.observer
      = some (if o.traced then (Call.timing now).chain Call.caller else Call.timing now)
  unrecorded : Call.wants includeAll o = false →
    got.observer = if o.traced then some Call.caller else none
  body : got.body.Passes o.body
  isEndStream : ∀ k, (o.body.pollMany k).1.any Poll.isEnded = false →
    (got.body.pollMany k).2.isEndStream = (o.body.pollMany k).2.isEndStream

/-- A call that has only begun is forwarded as its caller made it. By `waiting_after` there is no
other that a transport could still take. -/
theorem forwards_begin (includeAll : Bool) (c : Time.Clock) (o : Outgoing) (now : Nat) :
    Forwards includeAll o now ((Call.begin includeAll c o).received now) := by
  have halike := alike_begin includeAll c o
  refine ⟨halike.request, halike.markers, fun hrec => ?_, fun hrec => ?_,
    halike.requestBody.passes,
    fun k hgoing => halike.requestBody.isEndStream_pollMany halike.requestAwaited hgoing⟩
  · have hflag : (Call.begin includeAll c o).isRecorded = true := hrec
    have htraced : (Call.begin includeAll c o).traced = o.traced := rfl
    rw [Call.received, Call.observer?, hflag, htraced]
    cases o.traced <;> rfl
  · have hflag : (Call.begin includeAll c o).isRecorded = false := hrec
    have htraced : (Call.begin includeAll c o).traced = o.traced := rfl
    rw [Call.received, Call.observer?, hflag, htraced]
    cases o.traced <;> rfl

/-- Once its transport has been run, a call waits no more, whatever the answer was. -/
theorem isWaiting_run (r : Recorder) (call : Call) (reply : Reply) (s : Session) :
    (r.run call reply s).call.isWaiting = false := by
  rcases hp : call.perform s.clock reply with ⟨readings, answer, clock, call'⟩
  cases hrec : call.isRecorded with
  | false =>
    rw [run_of_unrecorded hrec, hp]
    cases answer <;> rfl
  | true =>
    cases answer with
    | error text => rw [run_of_failed hrec hp]; rfl
    | ok answer => rw [run_of_answered hrec hp]; rfl

/-- What is asked of a call that waits either leaves it as it is or ends the waiting, as long
as it is as it began. -/
theorem serve_begin {includeAll : Bool} {c : Time.Clock} {o : Outgoing} (op : Operation)
    (hw : (r.serve op (Call.begin includeAll c o) s).2.1.isWaiting = true) :
    (r.serve op (Call.begin includeAll c o) s).2.1 = Call.begin includeAll c o := by
  cases op with
  | run n reply =>
    have hbegin : (Call.begin includeAll c o).isWaiting = true := rfl
    rw [serve, if_pos hbegin] at hw
    dsimp only at hw
    rw [isWaiting_run] at hw
    cases hw
  | drop n => cases hw
  | _ => rfl

/-- A call that nobody waits for is never waited for again. -/
theorem isWaiting_serve (h : call.isWaiting = false) (op : Operation) :
    (r.serve op call s).2.1.isWaiting = false := by
  have hnot : ¬call.isWaiting = true := by simp [h]
  cases op with
  | run n reply => rw [serve, if_neg hnot]; exact h
  | poll n => exact (isWaiting_pollBody r call s).trans h
  | close n =>
    rw [serve_close_call, isWaiting_closeBody]
    exact h
  | drop n =>
    rw [serve, drop, if_neg hnot]
    exact (isWaiting_closeBody r call s).trans h
  | pollRequest n => exact (pollRequest_body call s).2.trans h
  | _ => exact h

/-- A call that its transport still has to take is as it began. Whatever else was asked of it has
left no trace. -/
theorem waiting_after (hcall : (after r ⟨s, []⟩ ops).calls[n]? = some call)
    (hw : call.isWaiting = true) :
    ∃ o c, (begun ops)[n]? = some o ∧ call = Call.begin r.includeAll c o := by
  refine call_induction (motive := fun ops call => call.isWaiting = true →
      ∃ o c, (begun ops)[n]? = some o ∧ call = Call.begin r.includeAll c o)
    (fun ops o c hn _ => ?_) (fun ops op call ht hcall ih hw => ?_)
    (fun ops op call _ hcall ih hw => ?_) hcall hw
  · refine ⟨o, c, ?_, rfl⟩
    rw [begun_append, begun_begin, ← hn]
    exact List.getElem?_concat_length
  · -- Who is waited for now was waited for before.
    have hbefore : call.isWaiting = true := by
      by_contra hnot
      have hafter : (r.serve op call (after r ⟨s, []⟩ ops).session).2.1.isWaiting = false :=
        isWaiting_serve (by simpa using hnot) op
      rw [hafter] at hw
      cases hw
    obtain ⟨o, c, ho, rfl⟩ := ih hbefore
    refine ⟨o, c, ?_, serve_begin op hw⟩
    rw [begun_append, List.getElem?_append_left (List.getElem?_eq_some_iff.mp ho).1]
    exact ho
  · obtain ⟨o, c, ho, hbegun⟩ := ih hw
    refine ⟨o, c, ?_, hbegun⟩
    rw [begun_append, List.getElem?_append_left (List.getElem?_eq_some_iff.mp ho).1]
    exact ho

/-! ## After the end of a body -/

/-- A call is over for its caller: its transport has been run, and what the caller still has
of the response body has ended. -/
def IsOver (call : Call) : Prop :=
  call.isWaiting = false ∧ ∀ b, call.responseBody = some b → b.done = true

/-- What is over stays over. A body that has ended is done, and neither a poll nor a close makes it
anything else. -/
theorem IsOver.serve (h : IsOver call) (op : Operation) : IsOver (r.serve op call s).2.1 := by
  refine ⟨isWaiting_serve h.1 op, ?_⟩
  have hnot : ¬call.isWaiting = true := by simp [h.1]
  -- A close and a drop both close the body, if there is still one.
  have hclose : ∀ b, (r.closeBody call s).2.1.responseBody = some b → b.done = true := by
    cases hb : call.responseBody with
    | none =>
      rw [closeBody_of_none hb]
      exact h.2
    | some b =>
      rw [(closeBody_body hb).1]
      rintro - ⟨rfl⟩
      have hitself : b.Mirrors ⟨b.inner, b.done⟩ := ⟨rfl, rfl⟩
      exact hitself.complete.done.trans (h.2 b hb)
  cases op with
  | run n reply => rw [Recorder.serve, if_neg hnot]; exact h.2
  | poll n =>
    rw [Recorder.serve]
    cases hb : call.responseBody with
    | none =>
      rw [pollBody, hb]
      exact h.2
    | some b =>
      dsimp only
      rw [(pollBody_body hb).1, Observed.poll_of_done (h.2 b hb)]
      rintro - ⟨rfl⟩
      exact h.2 b hb
  | close n =>
    rw [serve_close_call]
    exact hclose
  | drop n =>
    rw [Recorder.serve, drop, if_neg hnot]
    intro b hb
    cases hb
  | pollRequest n =>
    rw [Recorder.serve]
    dsimp only
    rw [(pollRequest_body call s).1]
    exact h.2
  | _ => exact h.2

/-- Some poll of a run has given the end of the response body of the call with that number. -/
def ReadOut (r : Recorder) (s : Session) (ops : List Operation) (n : Nat) : Prop :=
  ∃ m ∈ trace r ⟨s, []⟩ ops, m.2 = .poll n ∧ Ends m.1 m.2 n

/-- A call whose body has been read to its end is over. It does not matter whether the end was shown
to the caller or an error stood for it. -/
theorem isOver_after (hcall : (after r ⟨s, []⟩ ops).calls[n]? = some call)
    (hread : ReadOut r s ops n) : IsOver call := by
  refine call_induction (motive := fun ops call => ReadOut r s ops n → IsOver call)
    (fun ops o c hn hread => ?_) (fun ops op call ht hcall ih hread => ?_)
    (fun ops op call ht _ ih hread => ?_) hcall hread
  · -- Nothing before could read a body of the call.
    obtain ⟨m, hm, -, hends⟩ := hread
    rcases ended_concat.mp ⟨m, hm, hends⟩ with h | ⟨ht, -⟩
    · have hlt := h.lt
      omega
    · cases ht
  · rcases exists_trace_concat.mp hread with h | ⟨hpoll, hends⟩
    · exact (ih h).serve op
    · obtain rfl : op = .poll n := hpoll
      obtain ⟨b, hb, hend⟩ := (ends_iff rfl hcall).mp hends
      refine ⟨isWaiting_serve ((told_after hcall).isWaiting_of_body hb) _, ?_⟩
      rw [serve]
      dsimp only
      rw [(pollBody_body hb).1]
      rintro - ⟨rfl⟩
      exact Observed.done_of_ended hend
  · rcases exists_trace_concat.mp hread with h | ⟨-, hends⟩
    · exact ih h
    · exact absurd hends.1 ht

/-- What is over gives nothing but ends, and no entry is due at that. -/
theorem poll_of_isOver (hcall : st.calls[n]? = some call) (h : IsOver call) {b : Observed}
    (hb : call.responseBody = some b) : (step r st (.poll n)).1 = .polled .ended := by
  have hpoll := Observed.poll_of_done (h.2 b hb)
  have hnot : b.poll.due = false := by rw [hpoll]
  rw [step_of_call rfl hcall, serve, pollBody_of_not_due hb hnot, hpoll]
  rfl

/-! ## What a caller receives -/

/-- A call that its transport answers: the caller gets the head as it came, and a body that
passes on the transport's. -/
theorem response_of_run {reply : Reply} {readings : List Call.Reading} {head : ResponseHead}
    (h : (step r st (.run n reply)).1 = .ran readings (.ok head)) :
    ∃ body b, reply.answer = .ok (head, body) ∧
      (step r st (.run n reply)).2.responseBody? n = some b ∧ b.Passes body := by
  cases hcall : st.calls[n]? with
  | none =>
    rw [step_of_no_call rfl hcall] at h
    cases h
  | some call =>
    have hn : n < st.calls.length := (List.getElem?_eq_some_iff.mp hcall).1
    have hbody : (step r st (.run n reply)).2.responseBody? n
        = (r.serve (.run n reply) call st.session).2.1.responseBody := by
      rw [State.responseBody?, step_calls_of_call rfl hcall, List.getElem?_set_self hn]
      rfl
    rw [step_of_call rfl hcall] at h
    rw [hbody]
    by_cases hw : call.isWaiting = true
    · rw [serve, if_pos hw] at h ⊢
      rcases hp : call.perform st.session.clock reply with ⟨readings', answer, clock, call'⟩
      -- A transport that did not fail on the way answers as it meant to.
      have hanswer : ∀ x, answer = .ok x → reply.answer = .ok x := by
        intro x hx
        have hperform : (call.perform st.session.clock reply).2.1 = .ok x := by rw [hp, hx]
        rw [Call.perform] at hperform
        dsimp only at hperform
        split at hperform
        · cases hperform
        · exact hperform
      cases hrec : call.isRecorded with
      | false =>
        rw [run_of_unrecorded hrec, hp] at h ⊢
        cases answer with
        | error text => cases h
        | ok answer =>
          cases h
          exact ⟨answer.2, .passthrough answer.2, hanswer _ rfl, rfl,
            Observed.Mirrors.passes ⟨rfl, rfl⟩⟩
      | true =>
        cases answer with
        | error text =>
          rw [run_of_failed hrec hp] at h
          dsimp only at h
          cases hd : (r.deliver (failedCall call' text clock.elapsed)
              { st.session with clock := clock }).1 <;> rw [hd] at h <;> cases h
        | ok answer =>
          rw [run_of_answered hrec hp] at h ⊢
          cases h
          exact ⟨answer.2, .new answer.2 true, hanswer _ rfl, rfl,
            Observed.Mirrors.passes ⟨rfl, rfl⟩⟩
    · rw [serve, if_neg hw] at h
      cases h

/-- An operation that hands over nothing is answered as it is without a recorder. If it names no
call that is there, it is answered so on both sides. -/
theorem step_answer_of_not_handsOver (hall : AllAlike st.calls ds) (h : op.target? = some n)
    (hnot : ¬HandsOver r st op n) : (step r st op).1 = (Direct.step ds op).1 := by
  cases hcall : st.calls[n]? with
  | none => rw [step_of_no_call h hcall, Direct.step_of_no_call h (hall.absent hcall)]
  | some call =>
    obtain ⟨d, hd, halike⟩ := hall.present hcall
    rw [step_of_call h hcall, Direct.step_of_call h hd]
    exact serve_answer_of_not_due halike fun hdue => hnot (handsOver_of_isDue h hcall hdue)

/-- One that hands over an entry is answered as it is without a recorder, unless the delivery
of the entry fails. -/
theorem step_answer_of_handsOver (hall : AllAlike st.calls ds) (h : HandsOver r st op n) :
    ∃ call call' s', st.calls[n]? = some call ∧ call.SameCall call' ∧
      (Direct.step ds op).1.Becomes (r.deliver call' s').1 (step r st op).1 := by
  obtain ⟨ht, call, hcall, hdue⟩ := h.isDue
  obtain ⟨d, hd, halike⟩ := hall.present hcall
  obtain ⟨call', s', hsame, hbecomes⟩ := serve_answer_of_due (r := r) halike hdue
  rw [step_of_call ht hcall, Direct.step_of_call ht hd]
  exact ⟨call, call', s', hcall, hsame, hbecomes⟩

/-- The response body of a recorded call does not say that it has ended until something ends
the call; any other says what the transport's body says. -/
theorem isEndStream_after (hcall : (after r ⟨s, []⟩ ops).calls[n]? = some call)
    {b : Observed} (hb : call.responseBody = some b) {p : Plain} (hmirrors : b.Mirrors p) :
    (IsIncluded r ops n ∧ ¬Ended r s ops n → b.isEndStream = false) ∧
      (¬(IsIncluded r ops n ∧ ¬Ended r s ops n) → b.isEndStream = p.isEndStream) := by
  have htold := told_after hcall
  rw [isIncluded_iff hcall]
  constructor
  · -- Nothing has ended the call, so the capture is not complete.
    rintro ⟨hrec, hfirst⟩
    obtain ⟨hattended, hended⟩ := htold.attended hrec b hb
    have hcomplete : b.isComplete = false := eq_false_of_ne_true fun hc => hfirst (hended.mp hc)
    have hdone : b.done = false := by
      apply eq_false_of_ne_true
      intro hd
      rw [hattended.ended hd] at hcomplete
      cases hcomplete
    rw [Observed.isEndStream, hattended.awaited, hcomplete, hdone]
    rfl
  · intro hnot
    refine hmirrors.isEndStream ?_
    cases hrec : call.isRecorded with
    | false => exact (htold.unobserved hrec b hb).2
    | true =>
      obtain ⟨hattended, hended⟩ := htold.attended hrec b hb
      have hover : Ended r s ops n := by
        by_contra hfirst
        exact hnot ⟨hrec, hfirst⟩
      rw [hattended.awaited, hended.mpr hover]
      rfl

/-! ## Transparency -/

/-- A recorder is transparent in a run. The fields go by what a transport and a caller can see of
it: the request, the response, the answers while nothing goes wrong, the one answer in which a
failed delivery shows, and what a body says of itself. -/
structure Transparent (r : Recorder) (s : Session) (ops : List Operation) : Prop where
  /-- What a transport receives is what a caller of the run has sent. -/
  request : ∀ (n : Nat) (call : Call), (after r ⟨s, []⟩ ops).calls[n]? = some call →
    call.isWaiting = true →
      ∃ o, (begun ops)[n]? = some o ∧ ∀ now, Forwards r.includeAll o now (call.received now)
  /-- The head of a response reaches the caller as the transport gave it, with a body that
  passes on the transport's. -/
  response : ∀ n reply readings head,
    (step r (after r ⟨s, []⟩ ops) (.run n reply)).1 = .ran readings (.ok head) →
      ∃ body b, reply.answer = .ok (head, body) ∧
        (step r (after r ⟨s, []⟩ ops) (.run n reply)).2.responseBody? n = some b ∧
          b.Passes body
  /-- What is asked of a call is answered as it is without a recorder, to the transport's
  reading of the request body as to the caller, if no entry is handed over. -/
  same : ∀ op n, op.target? = some n → ¬HandsOver r (after r ⟨s, []⟩ ops) op n →
    (step r (after r ⟨s, []⟩ ops) op).1 = (Direct.step (Direct.after [] ops) op).1
  /-- If one is, the answer is still the same unless the delivery fails, and then the error
  stands for the end of the body, or for the failure of the transport. -/
  delivery : ∀ op n, HandsOver r (after r ⟨s, []⟩ ops) op n →
    ∃ call call' s', (after r ⟨s, []⟩ ops).calls[n]? = some call ∧ call.SameCall call' ∧
      (Direct.step (Direct.after [] ops) op).1.Becomes (r.deliver call' s').1
        (step r (after r ⟨s, []⟩ ops) op).1
  /-- After the poll at which the body has ended, whether or not an error stood for the end,
  there are nothing but ends. -/
  ended : ∀ n b, ReadOut r s ops n → (after r ⟨s, []⟩ ops).responseBody? n = some b →
    (step r (after r ⟨s, []⟩ ops) (.poll n)).1 = .polled .ended
  /-- A response body has the size hint of the one that the caller would have without a
  recorder; it says the same of its end, or that it has not ended as long as the completion
  of a recorded call is pending. -/
  body : ∀ n b, (after r ⟨s, []⟩ ops).responseBody? n = some b →
    ∃ d p, (Direct.after [] ops)[n]? = some d ∧ d.responseBody = some p ∧
      b.sizeHint = p.script.sizeHint ∧
        (IsIncluded r ops n ∧ ¬Ended r s ops n → b.isEndStream = false) ∧
          (¬(IsIncluded r ops n ∧ ¬Ended r s ops n) → b.isEndStream = p.isEndStream)

/-- A response body that the caller has belongs to a call. -/
theorem responseBody?_eq_some {b : Observed} (h : st.responseBody? n = some b) :
    ∃ call, st.calls[n]? = some call ∧ call.responseBody = some b :=
  Option.bind_eq_some_iff.mp h

/-- **Recording is transparent**, whatever its callers ask for, and whatever the transports
do. -/
theorem recorder_transparent (r : Recorder) (s : Session) (ops : List Operation) :
    Transparent r s ops where
  request n call hcall hw := by
    obtain ⟨o, c, ho, rfl⟩ := waiting_after hcall hw
    exact ⟨o, ho, forwards_begin r.includeAll c o⟩
  response n reply readings head h := response_of_run h
  same op n ht hnot := step_answer_of_not_handsOver (alike_after r s ops) ht hnot
  delivery op n h := step_answer_of_handsOver (alike_after r s ops) h
  ended n b hread hb := by
    obtain ⟨call, hcall, hbody⟩ := responseBody?_eq_some hb
    exact poll_of_isOver hcall (isOver_after hcall hread) hbody
  body n b hb := by
    obtain ⟨call, hcall, hbody⟩ := responseBody?_eq_some hb
    obtain ⟨d, hd, halike⟩ := (alike_after r s ops).present hcall
    obtain ⟨p, hp, hmirrors⟩ := halike.body hbody
    exact ⟨d, p, hd, hp, hmirrors.sizeHint, isEndStream_after hcall hbody hmirrors⟩

-- A receiver that takes nothing: its error comes once, where the end would be.
example (r : Recorder) (head : RequestHead) (answer : ResponseHead) (c : Time.Clock)
    (hsink : r.pipeline.sendEntry = fun _ s => (.error .closed, s)) :
    (steps { r with includeAll := true } ⟨{ clock := c }, []⟩
      [.begin { head := head, body := ⟨[], none, true⟩ },
        .run 0 ⟨[], .ok (answer, ⟨[.answer (.data [1])], none, true⟩)⟩,
        .poll 0, .poll 0, .poll 0]).1
      = [.begun 0, .ran [] (.ok answer), .polled (.data [1]), .polled (.failed .closed),
        .polled .ended] := by
  obtain ⟨version, includeAll, sink, pages⟩ := r
  obtain rfl : sink = _ := hsink
  rfl

end Recorder

end ExchangeArchive
