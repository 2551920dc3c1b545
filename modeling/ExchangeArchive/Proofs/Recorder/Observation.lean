import ExchangeArchive.Proofs.Body.Captured
import ExchangeArchive.Proofs.Recorder.Independence
import Mathlib.Data.List.Forall2
/-
**An entry says what was observed.**

What there was to observe of a call is read off the run: the request as the caller gave it,
the data that the transport got from reading the request body, the answer of the transport,
and the data that the caller got from polling the response body. An entry is compared with
that, and not with the captures that it is made of.

`Kept` says what a call has of it at any time. `Kept.turned` is the step lemma: what a
turn shows is what it adds to the captures. A call whose response body is not attended to
any more has nothing to keep of it, since no entry of it is due again. `due?_cases` then
says what an entry that is due is made of, and only ever one of two kinds of call has one: a
call whose transport has just failed, or one with a response body that is still attended to.
-/

set_option autoImplicit false

namespace ExchangeArchive

open ExchangeArchive.Archive ExchangeArchive.Body ExchangeArchive.Http
  ExchangeArchive.Recorder ExchangeArchive.Text ExchangeArchive.Time ExchangeArchive.Transport
  ExchangeArchive.Trip

namespace Recorder

/-! ## What can be seen of a call -/

/-- The data that a transport gets from a reading. A body that it has no more in its hands gives
it none, and neither does a trailer or a failure. -/
def Call.Reading.octets : Call.Reading → List UInt8
  | .polled (some p) => p.octets
  | .drained (some polls) => octetsOf polls
  | _ => []

/-- The data in a sight. -/
def Sight.octets : Sight → List UInt8
  | .acted readings _ => readings.flatMap Call.Reading.octets
  | .answered (.polled p) => p.octets
  | _ => []

/-- The requests that begin in a run, in the order of their calls. -/
def requests (moves : List (Clock × Move)) : List Outgoing :=
  moves.filterMap fun
    | (_, .begin o) => some o
    | _ => none

/-- The turn that a move takes in the state that it finds, with what is seen of it. -/
def seenAt (r : Recorder) : State × Move → Option (Turn × Sight)
  | (st, .turn n t) => some (t, (r.move st (.turn n t)).1)
  | _ => none

/-- The turns of a call in a run, each with what was seen of it. Everything that an entry is
compared with below is read off these. -/
def turnsOf (r : Recorder) (st : State) (moves : List (Clock × Move)) (n : Nat) :
    List (Turn × Sight) :=
  (movesOf r st moves n).filterMap (seenAt r)

/-- The data of the request body that a turn gives to the transport, while it has the call or
after it, if it has kept the body. -/
def Turn.sent : Turn × Sight → List UInt8
  | (.act _, sight) | (.pollRequest, sight) => sight.octets
  | _ => []

/-- The data of the response body that a turn gives to the caller. -/
def Turn.pulled : Turn × Sight → List UInt8
  | (.poll, sight) => sight.octets
  | _ => []

/-- The answer of the transport, if that is what a turn takes. -/
def Turn.answer? : Turn × Sight → Option (Except String (ResponseHead × Script))
  | (.settle answer, .settled _) => some answer
  | _ => none

/-- The data that the transport has got from the request body. -/
def sent (turns : List (Turn × Sight)) : List UInt8 := turns.flatMap Turn.sent

/-- The data that the caller has got from the response body. -/
def pulled (turns : List (Turn × Sight)) : List UInt8 := turns.flatMap Turn.pulled

/-- The first answer of the transport. There is only one, for nobody waits for another. -/
def answer? (turns : List (Turn × Sight)) : Option (Except String (ResponseHead × Script)) :=
  turns.findSome? Turn.answer?

/-! ## What an entry says -/

/-- Records say what fields a head has: one record for each field, in the order of the fields, with
the name of its field, with the text that the octets of its value stand for, whether or not they
are well-formed, and with nothing else. -/
def SaysFields (records : List NamedValue) (fields : List (String × List UInt8)) : Prop :=
  List.Forall₂ (fun record field => record.name = field.1
    ∧ record.value = String.ofList (Utf8.decodeLossy field.2) ∧ record.comment = none)
    records fields

/-- The record of a request says what the caller passed, and what of its body was sent. A body
that had ended before is not recorded at all, which is why its size is left open then. -/
structure SaysRequest (record : Request) (o : Outgoing) (sent : List UInt8) : Prop where
  method : record.method = o.head.method
  url : record.url = o.head.uri.toText
  httpVersion : record.httpVersion = o.head.version.name
  headers : SaysFields record.headers o.head.headers.fields
  cookies : record.cookies = requestCookies o.head.headers
  postData_isSome : record.postData.isSome = !o.body.isEndStream
  bodySize : o.body.isEndStream = false → record.bodySize = sent.length
  text : ∀ data, record.postData = some data → data.text = encodeBody sent

/-- The record of a response says what the transport returned, and what of the body the
caller pulled: not what the body would have had to give. -/
structure SaysResponse (record : Response) (head : ResponseHead) (pulled : List UInt8) :
    Prop where
  status : record.status = head.status
  httpVersion : record.httpVersion = head.version.name
  headers : SaysFields record.headers head.headers.fields
  cookies : record.cookies = responseCookies head.headers
  size : record.content.size = pulled.length
  bodySize : record.bodySize = pulled.length
  text : record.content.text = some (encodeBody pulled)
  error : record.error = none

/-- The record of a response says that there was none, and why. The status and the sizes are those
that stand for what there is not. -/
structure SaysFailure (record : Response) (text : String) : Prop where
  status : record.status = 0
  headersSize : record.headersSize = -1
  bodySize : record.bodySize = -1
  noText : record.content.text = none
  error : record.error = some text

/-- The record of a response says what came of the request. -/
def SaysAnswer (record : Response) (pulled : List UInt8) :
    Except String (ResponseHead × Script) → Prop
  | .ok (head, _) => SaysResponse record head pulled
  | .error text => SaysFailure record text

variable {r : Recorder} {call : Call} {s : Session} {st : State} {n : Nat} {c : Clock}
  {t : Turn} {o : Outgoing} {turns : List (Turn × Sight)} {e : Entry}
  {moves : List (Clock × Move)}

/-- The records of header fields say what the fields are. -/
theorem saysFields (h : Headers) : SaysFields (headerRecords h) h.fields := by
  rw [SaysFields, headerRecords, List.forall₂_map_left_iff, List.forall₂_same]
  exact fun field _ => ⟨rfl, rfl, rfl⟩

/-- A record of a request is made of the octets captured of its body. -/
theorem saysRequest {body : Option Capture} {octets : List UInt8}
    (hbody : body.map (·.octets) = if o.body.isEndStream then none else some octets) :
    SaysRequest (requestRecord o.head body) o octets := by
  cases hended : o.body.isEndStream with
  | true =>
    obtain rfl : body = none := by simpa [hended] using hbody
    exact ⟨rfl, rfl, rfl, saysFields _, rfl, by simp [requestRecord, hended], by simp [hended],
      by simp [requestRecord]⟩
  | false =>
    obtain ⟨c, rfl, rfl⟩ : ∃ c, body = some c ∧ c.octets = octets := by
      simpa [hended] using hbody
    refine ⟨rfl, rfl, rfl, saysFields _, rfl, by simp [requestRecord, hended], fun _ => rfl, ?_⟩
    rintro data hdata
    obtain rfl := Option.some.inj hdata
    rfl

/-- A record of a response is made of the octets captured of its body. -/
theorem saysResponse {head : ResponseHead} {body : Option Capture} {octets : List UInt8}
    (hbody : body.map (·.octets) = some octets) :
    SaysResponse (responseRecord (some head) body none) head octets := by
  obtain ⟨c, rfl, rfl⟩ : ∃ c, body = some c ∧ c.octets = octets := by simpa using hbody
  exact ⟨rfl, rfl, saysFields _, rfl, rfl, rfl, rfl, rfl⟩

theorem saysFailure (body : Option Capture) (text : String) :
    SaysFailure (responseRecord none body (some text)) text :=
  ⟨rfl, rfl, rfl, rfl, rfl⟩

/-! ## What a call keeps -/

/-- What a call has of what there was to observe. The field `answered` is only of a body that is
still attended to: a capture that has been given up lags behind, and no entry is made of it. -/
structure Kept (o : Outgoing) (turns : List (Turn × Sight)) (call : Call) : Prop where
  request : call.request = o.head
  sent : call.isRecorded = true →
    call.requestBody.captured = if o.body.isEndStream then none else some (sent turns)
  waiting : call.isWaiting = true → answer? turns = none ∧ pulled turns = [] ∧
    call.response = none ∧ call.responseBody = none ∧ call.error = none
  answered : ∀ b, call.responseBody = some b → b.awaited = true →
    call.isRecorded = true ∧ call.error = none ∧ b.captured = some (pulled turns) ∧
      ∃ head body, answer? turns = some (.ok (head, body)) ∧ call.response = some head

theorem sent_concat (turns : List (Turn × Sight)) (x : Turn × Sight) :
    sent (turns ++ [x]) = sent turns ++ Turn.sent x := by
  simp [sent]

theorem pulled_concat (turns : List (Turn × Sight)) (x : Turn × Sight) :
    pulled (turns ++ [x]) = pulled turns ++ Turn.pulled x := by
  simp [pulled]

theorem answer?_concat (turns : List (Turn × Sight)) (x : Turn × Sight) :
    answer? (turns ++ [x]) = (answer? turns).or (Turn.answer? x) := by
  cases h : Turn.answer? x <;> simp [answer?, List.findSome?_append, h]

/-- A call that begins keeps what the caller passed. -/
theorem kept_begin (includeAll : Bool) (c : Clock) (o : Outgoing) :
    Kept o [] (Call.begin includeAll c o) where
  request := rfl
  sent := by
    intro hrec
    have hwants : Call.wants includeAll o = true := hrec
    show (Call.observedRequest (Call.wants includeAll o) o.body).captured = _
    rw [Call.observedRequest, hwants]
    cases o.body.isEndStream <;> rfl
  waiting := fun _ => ⟨rfl, rfl, rfl, rfl, rfl⟩
  answered := fun b hb => by cases hb

/-- The readings of a transport give it what they add to the capture, one after the other. -/
theorem captured_readTimes (k : Nat) (c : Clock) (call : Call) :
    (Call.readTimes k c call).2.2.requestBody.captured = call.requestBody.captured.map
      (· ++ (Call.readTimes k c call).1.flatMap Call.Reading.octets) := by
  induction k generalizing c call with
  | zero => simp [Call.readTimes]
  | succ k ih =>
    refine (ih (c.advance call.requestBody.poll.waited)
      { call with requestBody := call.requestBody.poll.body }).trans ?_
    rw [Observed.captured_poll, Option.map_map]
    simp [Call.readTimes, Call.Reading.octets, Function.comp_def, List.append_assoc]

/-- An action gives the transport what it adds to the capture. Only the two that read do, and they
only as long as the transport has the body. -/
theorem captured_act (c : Clock) (call : Call) (a : Action) :
    (Call.act c call a).2.2.2.requestBody.captured = call.requestBody.captured.map
      (· ++ (Call.act c call a).1.flatMap Call.Reading.octets) := by
  have hnothing : call.requestBody.captured = call.requestBody.captured.map (· ++ []) := by simp
  cases a with
  | read k =>
    rw [Call.act]
    cases call.custody with
    | transport => exact captured_readTimes k c call
    | _ =>
      -- Without the body every reading comes back empty.
      have hnone :
          (List.replicate k (Call.Reading.polled none)).flatMap Call.Reading.octets = [] := by
        rw [List.flatMap_eq_nil_iff]
        intro x hx
        rw [List.eq_of_mem_replicate hx]
        rfl
      dsimp only
      rw [hnone]
      exact hnothing
  | readAll =>
    rw [Call.act]
    cases call.custody with
    | transport =>
      refine (Observed.captured_drain _ _).trans ?_
      simp [Call.Reading.octets]
    | _ => simp [Call.Reading.octets]
  | report e =>
    refine Eq.trans (congrArg Observed.captured ?_) hnothing
    show (call.see c.elapsed e).requestBody = _
    rw [Call.see, Call.observer?]
    cases call.isRecorded <;> cases call.traced <;> rfl
  | _ => exact hnothing

theorem error_readTimes (k : Nat) (c : Clock) (call : Call) :
    (Call.readTimes k c call).2.2.error = call.error := by
  induction k generalizing c call with
  | zero => rfl
  | succ k ih => exact ih _ _

/-- A transport that acts has not failed yet. -/
theorem error_act (c : Clock) (call : Call) (a : Action) :
    (Call.act c call a).2.2.2.error = call.error := by
  cases a with
  | read k =>
    rw [Call.act]
    cases call.custody with
    | transport => exact error_readTimes k c call
    | _ => rfl
  | readAll =>
    rw [Call.act]
    cases call.custody <;> rfl
  | report e =>
    show (call.see c.elapsed e).error = _
    rw [Call.see, Call.observer?]
    cases call.isRecorded <;> cases call.traced <;> rfl
  | _ => rfl

/-- A turn that shows nothing adds nothing to what there was to observe. The call is to be the same
here; what else such a turn does is said by `Kept.leave` and `Kept.closed`. -/
theorem Kept.quiet {x : Turn × Sight} (h : Kept o turns call) (hsent : Turn.sent x = [])
    (hpulled : Turn.pulled x = []) (hanswer : Turn.answer? x = none) :
    Kept o (turns ++ [x]) call := by
  have hs : Recorder.sent (turns ++ [x]) = Recorder.sent turns := by
    rw [sent_concat, hsent, List.append_nil]
  have hp : pulled (turns ++ [x]) = pulled turns := by
    rw [pulled_concat, hpulled, List.append_nil]
  have ha : answer? (turns ++ [x]) = answer? turns := by
    rw [answer?_concat, hanswer, Option.or_none]
  exact ⟨h.request, by rw [hs]; exact h.sent, by rw [ha, hp]; exact h.waiting,
    by rw [ha, hp]; exact h.answered⟩

/-- More of the request body is sent, and nothing else happens. -/
theorem Kept.send {x : Turn × Sight} {call' : Call} (h : Kept o turns call)
    (hin : call.InTransport call') (herror : call'.error = call.error)
    (hpulled : Turn.pulled x = []) (hanswer : Turn.answer? x = none)
    (hsent : call'.requestBody.captured
      = call.requestBody.captured.map (· ++ Turn.sent x)) :
    Kept o (turns ++ [x]) call' := by
  have hp : pulled (turns ++ [x]) = pulled turns := by
    rw [pulled_concat, hpulled, List.append_nil]
  have ha : answer? (turns ++ [x]) = answer? turns := by
    rw [answer?_concat, hanswer, Option.or_none]
  refine ⟨hin.request.trans h.request, fun hrec => ?_, fun hw => ?_, fun b hb haw => ?_⟩
  · rw [hin.isRecorded] at hrec
    rw [hsent, h.sent hrec, sent_concat]
    cases o.body.isEndStream <;> rfl
  · rw [hin.isWaiting] at hw
    rw [ha, hp, hin.response, hin.responseBody, herror]
    exact h.waiting hw
  · rw [hin.responseBody] at hb
    rw [ha, hp, hin.isRecorded, hin.response, herror]
    exact h.answered b hb haw

/-- A call whose response body is not attended to has nothing more to keep of it. So nothing is
claimed of the capture from then on, and it need not be followed any further. -/
theorem Kept.leave {call' : Call} (h : Kept o turns call) (hsame : call.SameCall call')
    (hbody : call'.requestBody = call.requestBody) (hw : call'.isWaiting = false)
    (hleft : ∀ b, call'.responseBody = some b → b.awaited = false) : Kept o turns call' where
  request := hsame.request.trans h.request
  sent := by
    rw [hbody, hsame.isRecorded]
    exact h.sent
  waiting := by simp [hw]
  answered b hb haw := by simp [hleft b hb] at haw

/-- **What the answer of the transport preserves.** A failure is kept, and a response is kept with a
body of which nothing has been pulled yet. The cases are those of `Call.settled`. -/
theorem Kept.settled (h : Kept o turns call) (hw : call.isWaiting = true) (c : Clock)
    (answer : Except String (ResponseHead × Script)) (result : Except Error ResponseHead) :
    Kept o (turns ++ [(.settle answer, .settled result)]) (call.settled c answer) := by
  obtain ⟨hanswer, hpulled, hresponse, hbody, herror⟩ := h.waiting hw
  have hs : Recorder.sent (turns ++ [(.settle answer, .settled result)])
      = Recorder.sent turns := by
    rw [sent_concat]
    exact List.append_nil _
  have hp : pulled (turns ++ [(.settle answer, .settled result)]) = [] := by
    rw [pulled_concat, hpulled]
    rfl
  have ha : answer? (turns ++ [(.settle answer, .settled result)]) = some answer := by
    rw [answer?_concat, hanswer]
    rfl
  have hrequest : (call.settled c answer).request = o.head :=
    (sameCall_settled call c answer).request.trans h.request
  rw [Call.settled.eq_def] at hrequest ⊢
  split at hrequest
  · refine ⟨hrequest, by rw [hs]; exact h.sent, by simp [Call.released], fun b hb haw => ?_⟩
    rw [Call.released, hbody] at hb
    cases hb
  · refine ⟨hrequest, by rw [hs]; exact h.sent, by simp [Call.released], fun b hb haw => ?_⟩
    obtain rfl := Option.some.inj hb
    cases haw
  · refine ⟨hrequest, by rw [hs]; exact h.sent, by simp [failedCall], fun b hb haw => ?_⟩
    rw [failedCall, Call.released, hbody] at hb
    cases hb
  · next hrec =>
    refine ⟨hrequest, by rw [hs]; exact h.sent, by simp [answeredCall], fun b hb haw => ?_⟩
    obtain rfl := Option.some.inj hb
    rw [ha, hp]
    exact ⟨hrec, herror, rfl, _, _, rfl, rfl⟩

/-- A call with a response body is not waiting. -/
theorem Kept.isWaiting_of_body (h : Kept o turns call) {b : Observed}
    (hb : call.responseBody = some b) : call.isWaiting = false := by
  refine eq_false_of_ne_true fun hw => ?_
  rw [(h.waiting hw).2.2.2.1] at hb
  cases hb

/-- **What a poll of the response body preserves.** A poll that leaves the completion awaited adds
to the capture what it gives to the caller; the one that uses it up ends what there is to keep. -/
theorem Kept.polled (h : Kept o turns call) :
    Kept o (turns ++ [(.poll, (r.attend n call s .poll).1)]) (call.polled s.clock) := by
  show Kept o (turns ++ [(.poll, .answered (.ofPoll (r.pollBody call s).1))]) _
  cases hb : call.responseBody with
  | none =>
    have hnone : (r.pollBody call s).1 = none := by rw [pollBody, hb]
    rw [hnone, Call.polled, hb]
    exact h.quiet rfl rfl rfl
  | some b =>
    cases hdue : b.poll.due with
    | true =>
      -- The poll ends the body: whatever it is answered with, no data comes with it.
      have hnext : call.polled s.clock
          = endedCall call b.poll.body (s.clock.advance b.poll.waited).elapsed := by
        simp [Call.polled, hb, hdue]
      rw [hnext, pollBody_of_due hb hdue, Observed.result_of_due hdue]
      have hleft : Kept o turns (endedCall call b.poll.body
          (s.clock.advance b.poll.waited).elapsed) := by
        refine h.leave ⟨rfl, rfl, rfl, rfl, rfl, rfl, rfl, rfl⟩ rfl (h.isWaiting_of_body hb) ?_
        intro b' hb'
        obtain rfl := Option.some.inj hb'
        exact (Observed.awaited_of_due hdue).2
      refine hleft.quiet rfl ?_ rfl
      dsimp only
      cases (r.deliver _ _).1 <;> rfl
    | false =>
      have hnext : call.polled s.clock = { call with responseBody := some b.poll.body } := by
        simp [Call.polled, hb, hdue]
      rw [hnext, pollBody_of_not_due hb hdue]
      have hs : Recorder.sent (turns ++ [(.poll, .answered (.polled b.poll.result))])
          = Recorder.sent turns := by
        rw [sent_concat]
        exact List.append_nil _
      have ha : answer? (turns ++ [(.poll, .answered (.polled b.poll.result))])
          = answer? turns := by
        rw [answer?_concat]
        exact Option.or_none
      have hw := h.isWaiting_of_body hb
      refine ⟨h.request, ?_, fun hw' => ?_, fun b' hb' haw => ?_⟩
      · rw [Answer.ofPoll, hs]
        exact h.sent
      · rw [show call.isWaiting = true from hw'] at hw
        cases hw
      · obtain rfl := Option.some.inj hb'
        have hawaited : b.awaited = true := by
          by_contra hoff
          rw [Observed.awaited_poll (by simpa using hoff)] at haw
          cases haw
        obtain ⟨hrec, herror, hcaptured, hanswer⟩ := h.answered b hb hawaited
        rw [Answer.ofPoll, ha, pulled_concat, Observed.captured_poll, hcaptured]
        exact ⟨hrec, herror, rfl, hanswer⟩

/-- A close of the response body shows no data. If the completion was awaited it is used up, and
otherwise the body is as it was. -/
theorem Kept.closed (h : Kept o turns call) (c : Clock) : Kept o turns (call.closed c) := by
  rw [Call.closed]
  split
  · exact h
  · next b hb =>
    split
    · next hdue =>
      refine h.leave ⟨rfl, rfl, rfl, rfl, rfl, rfl, rfl, rfl⟩ rfl (h.isWaiting_of_body hb) ?_
      intro b' hb'
      obtain rfl := Option.some.inj hb'
      exact (Observed.awaited_complete hdue).2
    · refine ⟨h.request, h.sent, fun hw => ?_, fun b' hb' haw => ?_⟩
      · have hw' := h.isWaiting_of_body hb
        rw [show call.isWaiting = true from hw] at hw'
        cases hw'
      · obtain rfl := Option.some.inj hb'
        rw [Observed.captured_complete]
        exact h.answered b hb (Observed.awaited_of_complete haw)

/-- **What a turn preserves.** What it shows is what it adds to the captures of its call. The turns
that act and poll the request body add to one capture, and a poll of the response to the other. -/
theorem Kept.turned (h : Kept o turns call) (t : Turn) :
    Kept o (turns ++ [(t, (r.attend n call s t).1)]) (call.turned s.clock t) := by
  cases t with
  | act a =>
    refine h.send (Call.inTransport_act s.clock call a) (error_act s.clock call a) rfl rfl ?_
    exact captured_act s.clock call a
  | settle answer =>
    by_cases hw : call.isWaiting = true
    · rw [attend, if_pos hw, Call.turned, if_pos hw]
      exact h.settled hw s.clock answer _
    · rw [attend, if_neg hw, Call.turned, if_neg hw]
      exact h.quiet rfl rfl rfl
  | poll => exact h.polled
  | close => exact (h.closed s.clock).quiet rfl rfl rfl
  | drop =>
    refine Kept.quiet ?_ rfl rfl rfl
    rw [Call.turned]
    by_cases hw : call.isWaiting = true
    · rw [if_pos hw]
      refine h.leave ⟨rfl, rfl, rfl, rfl, rfl, rfl, rfl, rfl⟩ rfl rfl fun b hb => ?_
      have hnone : call.responseBody = none := (h.waiting hw).2.2.2.1
      rw [Call.released, hnone] at hb
      cases hb
    · rw [if_neg hw]
      have hclosed := h.closed s.clock
      have hsame : (call.closed s.clock).isWaiting = false := by
        rw [Call.closed]
        split
        · simpa using hw
        · split <;> simpa [endedCall] using hw
      refine hclosed.leave ⟨rfl, rfl, rfl, rfl, rfl, rfl, rfl, rfl⟩ rfl hsame fun b hb => ?_
      cases hb
  | pollRequest =>
    by_cases hheld : call.custody = .held
    · have hsight : (r.attend n call s .pollRequest).1
          = .answered (.polled call.requestBody.poll.result) := by
        show Sight.answered (.ofPoll (pollRequest call s).1) = _
        rw [pollRequest, hheld]
        rfl
      rw [hsight, Call.turned, if_pos hheld]
      refine h.send ⟨⟨rfl, rfl, rfl, rfl, rfl, rfl, rfl, rfl⟩, rfl, rfl, rfl⟩ rfl rfl rfl ?_
      exact Observed.captured_poll _
    · have hsight : (r.attend n call s .pollRequest).1 = .answered .gone := by
        show Sight.answered (.ofPoll (pollRequest call s).1) = _
        rw [pollRequest]
        cases hc : call.custody with
        | held => exact absurd hc hheld
        | _ => rfl
      rw [hsight, Call.turned, if_neg hheld]
      exact h.quiet rfl rfl rfl

/-! ## Runs -/

/-- What is taken of the beginnings of calls, and of no other move, one for each: the requests, or
the times at which the calls begin. -/
def OfBeginnings {α : Type} (f : Clock × Move → Option α) : Prop :=
  ∀ c m, (f (c, m)).isSome = true ↔ ∃ o, m = .begin o

section Beginnings

variable {α : Type} {f : Clock × Move → Option α}

theorem OfBeginnings.length_filterMap (hf : OfBeginnings f) (s : Session)
    (moves : List (Clock × Move)) :
    (moves.filterMap f).length = (played r ⟨s, []⟩ moves).calls.length := by
  induction moves using List.reverseRecOn with
  | nil => rfl
  | append_singleton moves m ih =>
    obtain ⟨c, m⟩ := m
    rw [List.filterMap_append, List.length_append, played_concat, ih]
    have hother : (∀ o, m ≠ .begin o) → f (c, m) = none := fun hne => by
      rw [← Option.not_isSome_iff_eq_none]
      exact fun hsome => (hf c m).mp hsome |>.elim hne
    cases m with
    | begin o =>
      obtain ⟨a, ha⟩ := Option.isSome_iff_exists.mp ((hf c (.begin o)).mpr ⟨o, rfl⟩)
      rw [calls_begin, List.length_append, List.filterMap_cons_some ha]
      rfl
    | turn n t =>
      rw [List.filterMap_cons_none (hother (by simp))]
      cases hcall : ((played r ⟨s, []⟩ moves).at c).calls[n]? with
      | none =>
        rw [move_of_no_call hcall]
        rfl
      | some call =>
        rw [calls_turn hcall, List.length_set]
        rfl
    | _ =>
      rw [List.filterMap_cons_none (hother (by simp))]
      rfl

/-- What is taken of the beginning of a call has the number of the call. -/
theorem OfBeginnings.of_movesOf (hf : OfBeginnings f) {rest : List (State × Move)}
    (hown : movesOf r ⟨s, []⟩ moves n = (st, .begin o) :: rest) :
    (moves.filterMap f)[n]? = f (st.session.clock, .begin o) := by
  induction moves using List.reverseRecOn generalizing rest with
  | nil => cases hown
  | append_singleton moves m ih =>
    obtain ⟨c, m⟩ := m
    obtain ⟨a, ha⟩ := Option.isSome_iff_exists.mp ((hf st.session.clock (.begin o)).mpr ⟨o, rfl⟩)
    -- What was taken before has not lost its number.
    have hlater : ∀ rest, movesOf r ⟨s, []⟩ moves n = (st, .begin o) :: rest →
        ((moves ++ [(c, m)]).filterMap f)[n]? = f (st.session.clock, .begin o) := by
      intro rest hown
      have hn := ih hown
      rw [ha] at hn ⊢
      rw [List.filterMap_append, List.getElem?_append_left (List.getElem?_eq_some_iff.mp hn).1, hn]
    rw [movesOf_concat] at hown
    cases hm : concerns n ((played r ⟨s, []⟩ moves).at c, m) with
    | false =>
      rw [hm, if_neg Bool.false_ne_true, List.append_nil] at hown
      exact hlater rest hown
    | true =>
      rw [hm, if_pos rfl] at hown
      cases hbefore : movesOf r ⟨s, []⟩ moves n with
      | cons first own =>
        rw [hbefore, List.cons_append] at hown
        obtain ⟨rfl, -⟩ := List.cons.inj hown
        exact hlater own hbefore
      | nil =>
        rw [hbefore, List.nil_append] at hown
        obtain ⟨hfirst, -⟩ := List.cons.inj hown
        obtain ⟨rfl, rfl⟩ := Prod.mk.inj hfirst
        have hbegins := concerns_begin_iff.mp hm
        have hn : (played r ⟨s, []⟩ moves).calls.length = n := hbegins
        have ha' : f (c, .begin o) = some a := ha
        rw [ha, List.filterMap_append, List.filterMap_cons_some ha', List.filterMap_nil, ← hn,
          ← hf.length_filterMap (r := r) s moves]
        exact List.getElem?_concat_length

end Beginnings

theorem ofBeginnings_request : OfBeginnings fun
    | (_, .begin o) => some o
    | _ => none := by
  intro c m
  cases m <;> simp

/-- Calls are numbered as their requests begin. -/
theorem length_requests (s : Session) (moves : List (Clock × Move)) :
    (requests moves).length = (played r ⟨s, []⟩ moves).calls.length :=
  ofBeginnings_request.length_filterMap s moves

/-- A call begins with the request of its number. -/
theorem requests_of_movesOf {rest : List (State × Move)}
    (hown : movesOf r ⟨s, []⟩ moves n = (st, .begin o) :: rest) :
    (requests moves)[n]? = some o :=
  ofBeginnings_request.of_movesOf hown

/-- A turn of a call comes last among its turns. -/
theorem turnsOf_turn (hcall : ((played r ⟨s, []⟩ moves).at c).calls[n]? = some call) :
    turnsOf r ⟨s, []⟩ (moves ++ [(c, .turn n t)]) n = turnsOf r ⟨s, []⟩ moves n ++
      [(t, (r.attend n call ((played r ⟨s, []⟩ moves).at c).session t).1)] := by
  have hn := (List.getElem?_eq_some_iff.mp hcall).1
  rw [turnsOf, movesOf_concat, if_pos (concerns_turn_iff.mpr ⟨rfl, hn⟩), List.filterMap_append,
    List.filterMap_cons_some (b := (t, _)) (by rw [seenAt, move_of_call hcall])]
  rfl

/-- What the moves of a call have shown, from its beginning on: it has kept that, and the request
that it keeps is the one it began with. -/
theorem kept_movesOf (hcall : (played r ⟨s, []⟩ moves).calls[n]? = some call) :
    ∃ st o rest, movesOf r ⟨s, []⟩ moves n = (st, .begin o) :: rest
      ∧ Kept o (turnsOf r ⟨s, []⟩ moves n) call := by
  refine movesOf_induction (motive := fun own call => ∃ st o rest, own = (st, .begin o) :: rest
    ∧ Kept o (own.filterMap (seenAt r)) call) ?_ ?_ hcall
  · intro st o
    exact ⟨st, o, [], rfl, kept_begin r.includeAll st.session.clock o⟩
  · rintro st t _ call hcall ⟨st₀, o, rest, rfl, hkept⟩
    refine ⟨st₀, o, rest ++ [(st, .turn n t)], rfl, ?_⟩
    have hseen : seenAt r (st, .turn n t) = some (t, (r.attend n call st.session t).1) := by
      rw [seenAt, move_of_call hcall]
    rw [List.filterMap_append, List.filterMap_cons_some hseen]
    exact hkept.turned t

/-- **What a run preserves.** Every call has kept what there was to observe of it. -/
theorem kept_played (hcall : (played r ⟨s, []⟩ moves).calls[n]? = some call) :
    ∃ o, (requests moves)[n]? = some o ∧ Kept o (turnsOf r ⟨s, []⟩ moves n) call := by
  obtain ⟨st, o, rest, hown, hkept⟩ := kept_movesOf hcall
  exact ⟨o, requests_of_movesOf hown, hkept⟩

/-! ## The entry that is due -/

/-- An entry that is due is the report of the call after a turn that reports no event: the turn
itself, or a close where that is a drop. -/
theorem due?_reported (h : call.due? c t = some e) :
    t.event? = none
      ∧ ∃ t' now, t'.event? = none ∧ e = (call.turned c t').report.toEntry now := by
  have hclosing : Call.due?.closing c call = some e →
      ∃ t' now, t'.event? = none ∧ e = (call.turned c t').report.toEntry now := by
    intro h
    obtain ⟨b, -, h⟩ := Option.bind_eq_some_iff.mp h
    split at h
    · exact ⟨.close, c.elapsed, rfl, (Option.some.inj h).symm⟩
    · cases h
  cases t with
  | settle answer =>
    refine ⟨rfl, .settle answer, c.elapsed, rfl, ?_⟩
    cases answer with
    | ok answer => cases h
    | error text =>
      rw [Call.due?] at h
      split at h
      · next hdue =>
        rw [Bool.and_eq_true] at hdue
        rw [Call.turned, if_pos hdue.2]
        exact (Option.some.inj h).symm
      · cases h
  | poll =>
    obtain ⟨b, -, h⟩ := Option.bind_eq_some_iff.mp h
    split at h
    · exact ⟨rfl, .poll, _, rfl, (Option.some.inj h).symm⟩
    · cases h
  | close => exact ⟨rfl, hclosing h⟩
  | drop =>
    rw [Call.due?] at h
    split at h
    · cases h
    · exact ⟨rfl, hclosing h⟩
  | act a => cases h
  | pollRequest => cases h

/-- An entry that is due is that of a call whose transport has failed just now, or of one
whose response body was attended to up to now. -/
theorem due?_cases (h : call.due? c t = some e) :
    (∃ text, t = .settle (.error text) ∧ call.isRecorded = true ∧ call.isWaiting = true ∧
      e.request = requestRecord call.request call.requestBody.capture ∧
      e.response = responseRecord call.response (call.responseBody.bind (·.capture))
        (some text)) ∨
    ∃ b b' : Observed, call.responseBody = some b ∧ b.awaited = true ∧
      b'.captured = b.captured ∧ (t = .poll ∧ b.poll.due = true ∨ t = .close ∨ t = .drop) ∧
      e.request = requestRecord call.request call.requestBody.capture ∧
      e.response = responseRecord call.response b'.capture call.error := by
  -- A close and a drop come to the same.
  have hclosing : Call.due?.closing c call = some e → ∃ b b' : Observed,
      call.responseBody = some b ∧ b.awaited = true ∧ b'.captured = b.captured ∧
      e.request = requestRecord call.request call.requestBody.capture ∧
      e.response = responseRecord call.response b'.capture call.error := by
    intro h
    obtain ⟨b, hb, h⟩ := Option.bind_eq_some_iff.mp h
    split at h
    · next hdue =>
      obtain rfl := Option.some.inj h
      refine ⟨b, b.complete.1, hb, (Observed.awaited_complete hdue).1,
        Observed.captured_complete b, ?_⟩
      simp [Call.closed, hb, hdue, endedCall, Call.report, Report.toEntry]
    · cases h
  cases t with
  | settle answer =>
    cases answer with
    | ok answer => cases h
    | error text =>
      rw [Call.due?] at h
      split at h
      · next hdue =>
        rw [Bool.and_eq_true] at hdue
        obtain rfl := Option.some.inj h
        refine .inl ⟨text, rfl, hdue.1, hdue.2, ?_⟩
        simp [Call.settled, hdue.1, failedCall, Call.released, Call.report, Report.toEntry]
      · cases h
  | poll =>
    obtain ⟨b, hb, h⟩ := Option.bind_eq_some_iff.mp h
    split at h
    · next hdue =>
      obtain rfl := Option.some.inj h
      refine .inr ⟨b, b.poll.body, hb, (Observed.awaited_of_due hdue).1, ?_,
        .inl ⟨rfl, hdue⟩, ?_⟩
      · rw [Observed.captured_poll, Observed.result_of_due hdue]
        simp [Poll.octets]
      · simp [Call.polled, hb, hdue, endedCall, Call.report, Report.toEntry]
    · cases h
  | close =>
    obtain ⟨b, b', hb, hawaited, hcaptured, hentry⟩ := hclosing h
    exact .inr ⟨b, b', hb, hawaited, hcaptured, .inr (.inl rfl), hentry⟩
  | drop =>
    rw [Call.due?] at h
    split at h
    · cases h
    · obtain ⟨b, b', hb, hawaited, hcaptured, hentry⟩ := hclosing h
      exact .inr ⟨b, b', hb, hawaited, hcaptured, .inr (.inr rfl), hentry⟩
  | act a => cases h
  | pollRequest => cases h

/-- Only a recorded call has an entry. A failure is due if it is recorded, and a body is attended
to for a recorded call only. -/
theorem Kept.isRecorded_of_due (h : Kept o turns call) (hdue : call.due? c t = some e) :
    call.isRecorded = true := by
  rcases due?_cases hdue with ⟨-, -, hrec, -⟩ | ⟨b, -, hb, hawaited, -⟩
  · exact hrec
  · exact (h.answered b hb hawaited).1

/-- An entry that is due to a call that has kept what there was to observe says just that. -/
theorem Kept.says (h : Kept o turns call) (hdue : call.due? s.clock t = some e) :
    SaysRequest e.request o (Recorder.sent (turns ++ [(t, (r.attend n call s t).1)])) ∧
      ∃ answer, answer? (turns ++ [(t, (r.attend n call s t).1)]) = some answer ∧
        SaysAnswer e.response (pulled (turns ++ [(t, (r.attend n call s t).1)])) answer := by
  rcases due?_cases hdue with ⟨text, rfl, hrec, hw, hrequest, hresponse⟩ |
    ⟨b, b', hb, hawaited, hcaptured, ht, hrequest, hresponse⟩
  · -- The transport fails: there is no response, and the request body is as it was before.
    obtain ⟨hanswer, -, hnone, -, -⟩ := h.waiting hw
    rw [attend, if_pos hw, hrequest, hresponse, hnone, h.request, sent_concat, answer?_concat,
      hanswer]
    refine ⟨saysRequest ?_, _, rfl, saysFailure _ text⟩
    have hquiet : ∀ sight, Turn.sent (.settle (.error text), sight) = [] := fun _ => rfl
    rw [hquiet, List.append_nil]
    exact h.sent hrec
  · obtain ⟨hrec, herror, hpulled, head, body, hanswer, hhead⟩ := h.answered b hb hawaited
    have hquiet : Turn.sent (t, (r.attend n call s t).1) = [] ∧
        Turn.pulled (t, (r.attend n call s t).1) = [] := by
      rcases ht with ⟨rfl, hend⟩ | rfl | rfl
      · refine ⟨rfl, ?_⟩
        -- The end of a body has no data, and neither has the error that may replace it.
        show Sight.octets (.answered (.ofPoll (r.pollBody call s).1)) = []
        rw [pollBody_of_due hb hend, Observed.result_of_due hend]
        dsimp only
        cases (r.deliver _ _).1 <;> rfl
      · exact ⟨rfl, rfl⟩
      · exact ⟨rfl, rfl⟩
    rw [hrequest, hresponse, hhead, herror, h.request, sent_concat, answer?_concat,
      pulled_concat, hquiet.1, hquiet.2, hanswer, List.append_nil, List.append_nil]
    exact ⟨saysRequest (h.sent hrec), .ok (head, body), rfl,
      saysResponse (hcaptured.trans hpulled)⟩

/-- **An entry says what was observed.** Whatever has happened to the calls of a recorder, an
entry that is handed over is that of a call at one of its turns. Its request is the one that
the caller passed, with the data that the transport has got from its body up to then, if the
body had not ended before. Its response is what the transport returned, with the data that
the caller has got from its body up to then; or it says that there is none, and why. -/
theorem entry_says_observed (r : Recorder) (s : Session) (moves : List (Clock × Move))
    (c : Clock) (m : Move) (e : Entry) (h : Hands r ((played r ⟨s, []⟩ moves).at c) m e) :
    ∃ n t o answer, m = .turn n t ∧ (requests moves)[n]? = some o ∧
      SaysRequest e.request o (sent (turnsOf r ⟨s, []⟩ (moves ++ [(c, m)]) n)) ∧
      answer? (turnsOf r ⟨s, []⟩ (moves ++ [(c, m)]) n) = some answer ∧
      SaysAnswer e.response (pulled (turnsOf r ⟨s, []⟩ (moves ++ [(c, m)]) n)) answer := by
  obtain ⟨n, t, rfl⟩ := h.turn
  obtain ⟨call, hcall, hdue⟩ := hands_turn_iff.mp h
  obtain ⟨o, ho, hkept⟩ := kept_played hcall
  obtain ⟨hrequest, answer, hanswer, hresponse⟩ := hkept.says (r := r) (n := n) hdue
  refine ⟨n, t, o, answer, rfl, ho, ?_⟩
  rw [turnsOf_turn hcall]
  exact ⟨hrequest, hanswer, hresponse⟩

/-- A request with a header whose value is not all well-formed. The transport reads the first two
octets of its body and answers; the caller reads three octets of the response body and closes
it. -/
theorem entry_says_observed_read_in_part :
    let r : Recorder := ⟨{}, true, Session.pipeline [] []⟩
    let s : Session := { clock := { started := 0 } }
    let c := s.clock
    let headers : Headers := ⟨[("x-note", [104, 255, 105])]⟩
    let o : Outgoing := ⟨⟨"POST", ⟨none, none, "/", none⟩, .http11, headers⟩,
      ⟨[.answer (.data [104, 105]), .answer (.data [33])], none, true⟩, {}, false⟩
    let answer : Except String (ResponseHead × Script) := .ok (⟨200, .http11, .empty, []⟩,
      ⟨[.answer (.data [97]), .answer (.data [98, 99]), .answer (.data [100])], none, true⟩)
    let moves : List (Clock × Move) := [(c, .begin o), (c, .turn 0 (.act (.read 1))),
      (c, .turn 0 (.settle answer)), (c, .turn 0 .poll), (c, .turn 0 .poll)]
    ∃ e, Hands r ((played r ⟨s, []⟩ moves).at c) (.turn 0 .close) e
      ∧ e.request.headers = [{ name := "x-note", value := "h\uFFFDi" }]
      ∧ e.request.bodySize = 2 ∧ (e.request.postData.map (·.text)) = some "hi"
      ∧ e.response.bodySize = 3 ∧ e.response.content.text = some "abc" := by
  intro r s c headers o answer moves
  have hsent : sent (turnsOf r ⟨s, []⟩ (moves ++ [(c, .turn 0 .close)]) 0) = [104, 105] := by
    decide +kernel
  have hpulled : pulled (turnsOf r ⟨s, []⟩ (moves ++ [(c, .turn 0 .close)]) 0) = [97, 98, 99] := by
    decide +kernel
  have hsettled : answer? (turnsOf r ⟨s, []⟩ (moves ++ [(c, .turn 0 .close)]) 0) = some answer :=
    rfl
  have hands : ∃ e, Hands r ((played r ⟨s, []⟩ moves).at c) (.turn 0 .close) e :=
    ⟨_, hands_turn_iff.mpr ⟨_, rfl, rfl⟩⟩
  obtain ⟨e, hands⟩ := hands
  obtain ⟨n, t, o', answer', hm, ho, hrequest, hanswer, hresponse⟩ :=
    entry_says_observed r s moves c (.turn 0 .close) e hands
  obtain ⟨rfl, rfl⟩ : 0 = n ∧ Turn.close = t := by simpa using hm
  obtain rfl : o = o' := Option.some.inj ho
  obtain rfl : answer = answer' := Option.some.inj (hsettled.symm.trans hanswer)
  rw [hsent] at hrequest
  rw [hpulled] at hresponse
  obtain ⟨data, hdata⟩ := Option.isSome_iff_exists.mp hrequest.postData_isSome
  refine ⟨e, hands, ?_, hrequest.bodySize rfl, ?_, hresponse.bodySize, ?_⟩
  · obtain ⟨⟨name, value, comment⟩, _, hfield, hrest, hheaders⟩ :=
      List.forall₂_cons_right_iff.mp hrequest.headers
    obtain ⟨rfl, rfl, rfl⟩ := hfield
    rw [hheaders, List.forall₂_nil_right_iff.mp hrest]
    have hvalue : String.ofList (Utf8.decodeLossy [104, 255, 105]) = "h\uFFFDi" := by
      decide +kernel
    rw [hvalue]
  · rw [hdata]
    exact congrArg some ((hrequest.text data hdata).trans (by decide +kernel))
  · exact hresponse.text.trans (by decide +kernel)

end Recorder

end ExchangeArchive
