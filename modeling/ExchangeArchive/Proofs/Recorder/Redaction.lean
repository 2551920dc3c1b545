import ExchangeArchive.Proofs.Recorder.Moves
import Mathlib.Data.List.Forall2
/-
**What redaction hides of a header.**

Two runs are compared that are alike in everything but the values of the headers of one
name: move by move the same things happen at the same times, and the values that differ
are of the same lengths. The calls of the two runs then differ in their heads only
(`Call.LikeBut`), and a turn keeps it so, since nothing that a call does goes by a header. The
entries that are due differ in the values of the header, and in the fields that are derived
from it.

Redaction replaces the values, and leaves the derived fields as they are. For a header that
no field is derived from the redacted entries are therefore equal, and the receiver cannot
tell the two runs apart. For Cookie, Set-Cookie, Content-Type and Location the derived field
goes through.

Middleware that sees the entries before the redaction could pass the values on by another
way, so it has to be `Discreet`; what comes after the redaction may do what it likes.
-/

set_option autoImplicit false

namespace ExchangeArchive

open ExchangeArchive.Archive ExchangeArchive.Body ExchangeArchive.Http
  ExchangeArchive.Pipeline ExchangeArchive.Recorder ExchangeArchive.Text ExchangeArchive.Time
  ExchangeArchive.Transport ExchangeArchive.Trip

/-! ## Heads that differ in the values of a header -/

namespace Http

/-- Header fields that differ at most in the values of the name `h`, letter case aside; these
are of the same lengths. The lengths matter because an entry says how much room the headers
take, which no redaction changes. -/
def Headers.LikeBut (h : String) (a b : Headers) : Prop :=
  List.Forall₂ (fun f g => f.1 = g.1 ∧ f.2.length = g.2.length ∧
    (sameIgnoringCase f.1.toList h.toList = false → f.2 = g.2)) a.fields b.fields

structure RequestHead.LikeBut (h : String) (a b : RequestHead) : Prop where
  method : a.method = b.method
  uri : a.uri = b.uri
  version : a.version = b.version
  headers : a.headers.LikeBut h b.headers

structure ResponseHead.LikeBut (h : String) (a b : ResponseHead) : Prop where
  status : a.status = b.status
  version : a.version = b.version
  extensions : a.extensions = b.extensions
  headers : a.headers.LikeBut h b.headers

variable {h name : String} {a b : Headers}

/-- The values of another name are the same, also of one that is spelt like `h` but for a letter
or more. -/
theorem Headers.LikeBut.values_eq (hab : a.LikeBut h b)
    (hname : sameIgnoringCase name.toList h.toList = false) : a.values name = b.values name := by
  obtain ⟨fs⟩ := a
  obtain ⟨gs⟩ := b
  rw [Headers.LikeBut] at hab
  rw [Headers.values, Headers.values]
  dsimp only at hab ⊢
  induction hab with
  | nil => rfl
  | @cons f g fs gs hfg _ ih =>
    obtain ⟨hname', -, hvalue⟩ := hfg
    rw [List.filter_cons, List.filter_cons, ← hname']
    by_cases hf : f.1 = name
    · rw [if_pos (by simpa using hf), if_pos (by simpa using hf), List.map_cons, List.map_cons,
        ih, hvalue (by rw [hf]; exact hname)]
    · rw [if_neg (by simpa using hf), if_neg (by simpa using hf), ih]

/-- The fields take as much room, which is what the lengths of the values are needed for. -/
theorem Headers.LikeBut.blockSize_eq (hab : a.LikeBut h b) : a.blockSize = b.blockSize := by
  obtain ⟨fs⟩ := a
  obtain ⟨gs⟩ := b
  rw [Headers.LikeBut] at hab
  rw [Headers.blockSize, Headers.blockSize]
  dsimp only at hab ⊢
  generalize 2 = size
  induction hab generalizing size with
  | nil => rfl
  | cons hfg _ ih =>
    rw [List.foldl_cons, List.foldl_cons, hfg.1, hfg.2.1]
    exact ih _

end Http

/-! ## Entries that differ in the values of a header -/

namespace Pipeline

/-- Whether the name `n` is the one that is redacted. -/
def hides (h n : String) : Bool := sameIgnoringCase n.toList h.toList

/-- The headers that fields of an entry are derived from: the cookies of either message, the
types of their bodies, and where a response redirects to. -/
def derivedNames : List String := ["cookie", "set-cookie", "content-type", "location"]

/-- The entry without the fields that are derived from the header `h`. The cases are those of
`derivedNames`; for any other header the entry stays as it is. -/
def hideDerived (h : String) (e : Entry) : Entry :=
  { e with
    request := { e.request with
      cookies := if hides h "cookie" then [] else e.request.cookies
      postData := e.request.postData.map fun data =>
        { data with mimeType := if hides h "content-type" then "" else data.mimeType } }
    response := { e.response with
      cookies := if hides h "set-cookie" then [] else e.response.cookies
      content := { e.response.content with
        mimeType := if hides h "content-type" then "" else e.response.content.mimeType }
      redirectURL := if hides h "location" then "" else e.response.redirectURL } }

/-- Entries that differ at most in fields derived from the header `h`. -/
def SameButDerived (h : String) (a b : Entry) : Prop := hideDerived h a = hideDerived h b

/-- Entries that differ at most in the values of the header `h` and in fields derived from
it. -/
def LikeBut (h : String) (a b : Entry) : Prop :=
  SameButDerived h (redactEntry h "" a) (redactEntry h "" b)

variable {h v : String} {a b : Entry}

/-- No field is derived from most headers, and for those to be the same but for derived fields
is to be the same. -/
theorem sameButDerived_iff_eq (hh : ∀ n ∈ derivedNames, hides h n = false) :
    SameButDerived h a b ↔ a = b := by
  have hsame : ∀ e, hideDerived h e = e := by
    intro e
    have hcookie : hides h "cookie" = false := hh _ (by simp [derivedNames])
    have hset : hides h "set-cookie" = false := hh _ (by simp [derivedNames])
    have htype : hides h "content-type" = false := hh _ (by simp [derivedNames])
    have hlocation : hides h "location" = false := hh _ (by simp [derivedNames])
    simp [hideDerived, hcookie, hset, htype, hlocation]
  rw [SameButDerived, hsame, hsame]

/-- Redaction of a header is about its value only. -/
theorem redactValue_eq (h v : String) (x : NamedValue) :
    redactValue h v x = { x with value := if isNamed h x then v else x.value } := by
  rw [redactValue]
  split <;> rfl

theorem isNamed_value (h w : String) (x : NamedValue) :
    isNamed h { x with value := w } = isNamed h x := rfl

/-- The value that is replaced last counts: a redaction leaves nothing of the one before it. -/
theorem redactValue_redactValue (h v w : String) (x : NamedValue) :
    redactValue h v (redactValue h w x) = redactValue h v x := by
  simp only [redactValue_eq, isNamed_value]
  by_cases hx : isNamed h x = true <;> simp [hx]

/-- To replace a value before another redaction makes no difference after it, whether or not the
other one is about the same header. This is what makes `discreet_redactHeader` true. -/
theorem redactValue_between (h v h' v' : String) (x : NamedValue) :
    redactValue h v (redactValue h' v' (redactValue h v x))
      = redactValue h v (redactValue h' v' x) := by
  simp only [redactValue_eq, isNamed_value]
  by_cases hx : isNamed h x = true <;> simp [hx]

/-- The entry with other headers of its request and of its response. -/
def withHeaders (e : Entry) (request response : List NamedValue) : Entry :=
  { e with
    request := { e.request with headers := request }
    response := { e.response with headers := response } }

/-- The value that is replaced last counts in a whole entry. -/
theorem redactEntry_redactEntry (h v w : String) (e : Entry) :
    redactEntry h v (redactEntry h w e) = redactEntry h v e := by
  have hvalues : ∀ xs : List NamedValue,
      (xs.map (redactValue h w)).map (redactValue h v) = xs.map (redactValue h v) := by
    intro xs
    simp only [List.map_map, Function.comp_def, redactValue_redactValue]
  exact congrArg₂ (withHeaders e) (hvalues e.request.headers) (hvalues e.response.headers)

theorem redactEntry_between (h v h' v' : String) (e : Entry) :
    redactEntry h v (redactEntry h' v' (redactEntry h v e))
      = redactEntry h v (redactEntry h' v' e) := by
  have hvalues : ∀ xs : List NamedValue,
      (((xs.map (redactValue h v)).map (redactValue h' v')).map (redactValue h v)) =
        ((xs.map (redactValue h' v')).map (redactValue h v)) := by
    intro xs
    simp only [List.map_map, Function.comp_def, redactValue_between]
  exact congrArg₂ (withHeaders e) (hvalues e.request.headers) (hvalues e.response.headers)

/-- Redaction and the fields derived from a header are about different parts of an entry, so the
one cannot undo or stand in for the other. -/
theorem hideDerived_redactEntry (h h' v : String) (e : Entry) :
    hideDerived h (redactEntry h' v e) = redactEntry h' v (hideDerived h e) := rfl

/-- **What redaction hides of an entry**: the values of the header, but no derived field. -/
theorem LikeBut.redacted (hab : LikeBut h a b) (v : String) :
    SameButDerived h (redactEntry h v a) (redactEntry h v b) := by
  rw [SameButDerived, ← redactEntry_redactEntry h v "" a, ← redactEntry_redactEntry h v "" b,
    hideDerived_redactEntry, hideDerived_redactEntry h h v]
  exact congrArg (redactEntry h v) hab

end Pipeline

namespace Trip

variable {h : String}

/-- The header records differ in the values that redaction replaces. -/
theorem headerRecords_likeBut {a b : Headers} (hab : a.LikeBut h b) :
    (headerRecords a).map (redactValue h "") = (headerRecords b).map (redactValue h "") := by
  obtain ⟨fs⟩ := a
  obtain ⟨gs⟩ := b
  rw [Headers.LikeBut] at hab
  rw [headerRecords, headerRecords]
  dsimp only at hab ⊢
  induction hab with
  | nil => rfl
  | @cons f g fs gs hfg _ ih =>
    obtain ⟨f₁, f₂⟩ := f
    obtain ⟨g₁, g₂⟩ := g
    obtain ⟨rfl, -, hvalue⟩ := hfg
    simp only [List.map_cons, ih, List.cons.injEq, and_true]
    cases hf : sameIgnoringCase f₁.toList h.toList with
    | true => simp [redactValue, isNamed, hf]
    | false =>
      have hsame : f₂ = g₂ := hvalue hf
      rw [hsame]

/-- The text of a header is the same, or hidden: it is hidden just if it is that of the header
whose values may differ. The two lemmas after this one say so of cookies. -/
theorem headerText_likeBut {a b : Headers} (hab : a.LikeBut h b) (name : String) :
    (if hides h name then "" else headerText a name)
      = if hides h name then "" else headerText b name := by
  cases hname : hides h name with
  | true => rfl
  | false => simp [headerText, Headers.get?, hab.values_eq hname]

/-- The cookies of a request are the same, or hidden. -/
theorem requestCookies_likeBut {a b : Headers} (hab : a.LikeBut h b) :
    (if hides h "cookie" then [] else requestCookies a)
      = if hides h "cookie" then [] else requestCookies b := by
  cases hname : hides h "cookie" with
  | true => rfl
  | false => simp [requestCookies, headerTexts, hab.values_eq hname]

/-- The cookies of a response are the same, or hidden. -/
theorem responseCookies_likeBut {a b : Headers} (hab : a.LikeBut h b) :
    (if hides h "set-cookie" then [] else responseCookies a)
      = if hides h "set-cookie" then [] else responseCookies b := by
  cases hname : hides h "set-cookie" with
  | true => rfl
  | false => simp [responseCookies, headerTexts, hab.values_eq hname]

/-- **Reports that differ in the values of a header** make entries that do, and that differ in
the fields derived from it. -/
theorem toEntry_likeBut {q : RequestHead} {p : Option ResponseHead} (rep : Report) (now : Nat)
    (hq : rep.request.LikeBut h q) (hp : Option.Rel (ResponseHead.LikeBut h) rep.response p) :
    LikeBut h (rep.toEntry now) ({ rep with request := q, response := p }.toEntry now) := by
  obtain ⟨tracker, pageRef, request, requestBody, response, responseBody, error⟩ := rep
  obtain ⟨method, uri, version, headers⟩ := request
  obtain ⟨method', uri', version', headers'⟩ := q
  obtain ⟨rfl, rfl, rfl, hheaders⟩ := hq
  rw [LikeBut, SameButDerived]
  -- Field by field the two entries agree: what is not hidden is of a name other than `h`.
  simp only [Report.toEntry, redactEntry, hideDerived, requestRecord, Option.map_map,
    Function.comp_def, headerRecords_likeBut hheaders, headerText_likeBut hheaders,
    requestCookies_likeBut hheaders, hheaders.blockSize_eq]
  cases hp with
  | none => rfl
  | some hp =>
    obtain ⟨hstatus, hversion, -, hheaders⟩ := hp
    simp only [responseRecord, headerRecords_likeBut hheaders, headerText_likeBut hheaders,
      responseCookies_likeBut hheaders, hheaders.blockSize_eq, hstatus, hversion]

end Trip

/-! ## Runs that differ in the values of a header -/

namespace Recorder

variable {r : Recorder} {h v : String} {call call' : Call} {s : Session} {n : Nat} {c : Clock}
  {t t' : Turn} {m m' : Move} {st st' : State}

/-- Answers of a transport that differ in the values of the header `h`. -/
inductive AnswerLikeBut (h : String) :
    Except String (ResponseHead × Script) → Except String (ResponseHead × Script) → Prop where
  | failed (text : String) : AnswerLikeBut h (.error text) (.error text)
  | answered {a b : ResponseHead} (hab : a.LikeBut h b) (body : Script) :
    AnswerLikeBut h (.ok (a, body)) (.ok (b, body))

/-- Turns that differ in the values of the header `h`. -/
inductive Turn.LikeBut (h : String) : Turn → Turn → Prop where
  | act (action : Action) : LikeBut h (.act action) (.act action)
  | settle {a b : Except String (ResponseHead × Script)} (hab : AnswerLikeBut h a b) :
    LikeBut h (.settle a) (.settle b)
  | poll : LikeBut h .poll .poll
  | close : LikeBut h .close .close
  | drop : LikeBut h .drop .drop
  | pollRequest : LikeBut h .pollRequest .pollRequest

/-- Moves that differ in the values of the header `h`. -/
inductive Move.LikeBut (h : String) : Move → Move → Prop where
  | begin (o : Outgoing) {head : RequestHead} (hhead : o.head.LikeBut h head) :
    LikeBut h (.begin o) (.begin { o with head := head })
  | turn (n : Nat) {t t' : Turn} (ht : t.LikeBut h t') : LikeBut h (.turn n t) (.turn n t')
  | flush : LikeBut h .flush .flush
  | closeReceiver : LikeBut h .closeReceiver .closeReceiver
  | advance (nanos : Nat) : LikeBut h (.advance nanos) (.advance nanos)

/-- Runs that differ in the values of the header `h`: move by move, at the same times. The
callers, the transports and the bodies do the same in both, and none of them goes by the header. -/
def MovesLikeBut (h : String) (moves moves' : List (Clock × Move)) : Prop :=
  List.Forall₂ (fun a b => a.1 = b.1 ∧ a.2.LikeBut h b.2) moves moves'

namespace Call

/-- The call with other heads. -/
def withHeads (call : Call) (request : RequestHead) (response : Option ResponseHead) : Call :=
  { call with request := request, response := response }

/-- Calls that differ in the values of the header `h`. It says so by replacing the heads in one
of the two, so that whatever does not look at the heads is the same by definition. -/
def LikeBut (h : String) (a b : Call) : Prop :=
  ∃ q p, b = a.withHeads q p ∧ a.request.LikeBut h q ∧
    Option.Rel (ResponseHead.LikeBut h) a.response p

theorem readTimes_withHeads (k : Nat) (c : Clock) (call : Call) (q : RequestHead)
    (p : Option ResponseHead) :
    readTimes k c (call.withHeads q p) =
      ((readTimes k c call).1, (readTimes k c call).2.1,
        (readTimes k c call).2.2.withHeads q p) := by
  induction k generalizing c call with
  | zero => rfl
  | succ k ih =>
    have hmore := ih (c.advance call.requestBody.poll.waited)
      { call with requestBody := call.requestBody.poll.body }
    simp only [readTimes]
    exact congrArg (fun x : List Reading × Clock × Call =>
      (Reading.polled (some call.requestBody.poll.result) :: x.1, x.2.1, x.2.2)) hmore

theorem see_withHeads (call : Call) (now : Nat) (e : Trace.Event) (q : RequestHead)
    (p : Option ResponseHead) :
    (call.withHeads q p).see now e = (call.see now e).withHeads q p := by
  have hobserver : (call.withHeads q p).observer? now = call.observer? now := rfl
  rw [see, see, hobserver, observer?]
  cases call.isRecorded <;> cases call.traced <;> rfl

/-- A transport that acts does not go by the heads: what it reports and how much it reads of the
request body is given by the action. -/
theorem act_withHeads (c : Clock) (call : Call) (a : Action) (q : RequestHead)
    (p : Option ResponseHead) :
    act c (call.withHeads q p) a =
      ((act c call a).1, (act c call a).2.1, (act c call a).2.2.1,
        (act c call a).2.2.2.withHeads q p) := by
  cases a with
  | report e =>
    simp only [act, see_withHeads]
  | read k =>
    have hcustody : (call.withHeads q p).custody = call.custody := rfl
    simp only [act, hcustody]
    cases call.custody with
    | transport => simp only [readTimes_withHeads]
    | _ => rfl
  | readAll =>
    have hcustody : (call.withHeads q p).custody = call.custody := rfl
    simp only [act, hcustody]
    cases call.custody <;> rfl
  | _ => rfl

theorem polled_withHeads (call : Call) (c : Clock) (q : RequestHead)
    (p : Option ResponseHead) :
    (call.withHeads q p).polled c = (call.polled c).withHeads q p := by
  have hbody : (call.withHeads q p).responseBody = call.responseBody := rfl
  rw [polled, polled, hbody]
  cases call.responseBody with
  | none => rfl
  | some b =>
    dsimp only
    split <;> rfl

theorem closed_withHeads (call : Call) (c : Clock) (q : RequestHead)
    (p : Option ResponseHead) :
    (call.withHeads q p).closed c = (call.closed c).withHeads q p := by
  have hbody : (call.withHeads q p).responseBody = call.responseBody := rfl
  rw [closed, closed, hbody]
  cases call.responseBody with
  | none => rfl
  | some b =>
    dsimp only
    split <;> rfl

/-- A poll leaves the heads alone. -/
theorem heads_polled (call : Call) (c : Clock) :
    (call.polled c).request = call.request ∧ (call.polled c).response = call.response := by
  rw [polled]
  split
  · exact ⟨rfl, rfl⟩
  · split <;> exact ⟨rfl, rfl⟩

/-- A close leaves the heads alone. -/
theorem heads_closed (call : Call) (c : Clock) :
    (call.closed c).request = call.request ∧ (call.closed c).response = call.response := by
  rw [closed]
  split
  · exact ⟨rfl, rfl⟩
  · split <;> exact ⟨rfl, rfl⟩

/-- The heads say nothing of how far a call has come. Every case below that depends on whether
the call is recorded, awaited or has a body is the same in both runs by this. -/
theorem LikeBut.course (hcall : call.LikeBut h call') :
    call'.isRecorded = call.isRecorded ∧ call'.isWaiting = call.isWaiting ∧
      call'.custody = call.custody ∧ call'.requestBody = call.requestBody ∧
      call'.responseBody = call.responseBody := by
  obtain ⟨q, p, rfl, -, -⟩ := hcall
  exact ⟨rfl, rfl, rfl, rfl, rfl⟩

/-- Answers that differ in a header leave calls that do. -/
theorem LikeBut.settled (hcall : call.LikeBut h call')
    {a b : Except String (ResponseHead × Script)} (hab : AnswerLikeBut h a b) (c : Clock) :
    (call.settled c a).LikeBut h (call'.settled c b) := by
  obtain ⟨q, p, rfl, hq, hp⟩ := hcall
  have hrec : (call.withHeads q p).isRecorded = call.isRecorded := rfl
  cases hab with
  | failed text =>
    cases hon : call.isRecorded with
    | false =>
      simp only [Call.settled, hrec, hon]
      exact ⟨q, p, rfl, hq, hp⟩
    | true =>
      simp only [Call.settled, hrec, hon]
      exact ⟨q, p, rfl, hq, hp⟩
  | @answered a b hab body =>
    cases hon : call.isRecorded with
    | false =>
      simp only [Call.settled, hrec, hon]
      exact ⟨q, p, rfl, hq, hp⟩
    | true =>
      simp only [Call.settled, hrec, hon]
      exact ⟨q, some b, rfl, hq, .some hab⟩

/-- **What a turn preserves**: calls that differ in a header still do after it. Only the answer
of a transport brings in another head; the other turns leave both heads where they are. -/
theorem LikeBut.turned (hcall : call.LikeBut h call') (ht : t.LikeBut h t') (c : Clock) :
    (call.turned c t).LikeBut h (call'.turned c t') := by
  cases ht with
  | settle hab =>
    obtain ⟨-, hw, -, -, -⟩ := hcall.course
    rw [Call.turned, Call.turned, hw]
    split
    · exact hcall.settled hab c
    · exact hcall
  | act a =>
    obtain ⟨q, p, rfl, hq, hp⟩ := hcall
    have hin := inTransport_act c call a
    refine ⟨q, p, ?_, ?_, ?_⟩
    · rw [Call.turned, act_withHeads, Call.turned]
    · rw [Call.turned, hin.request]
      exact hq
    · rw [Call.turned, hin.response]
      exact hp
  | poll =>
    obtain ⟨q, p, rfl, hq, hp⟩ := hcall
    exact ⟨q, p, polled_withHeads call c q p,
      by rw [Call.turned, (heads_polled call c).1]; exact hq,
      by rw [Call.turned, (heads_polled call c).2]; exact hp⟩
  | close =>
    obtain ⟨q, p, rfl, hq, hp⟩ := hcall
    exact ⟨q, p, closed_withHeads call c q p,
      by rw [Call.turned, (heads_closed call c).1]; exact hq,
      by rw [Call.turned, (heads_closed call c).2]; exact hp⟩
  | drop =>
    obtain ⟨q, p, rfl, hq, hp⟩ := hcall
    have hw : (call.withHeads q p).isWaiting = call.isWaiting := rfl
    rw [Call.turned, Call.turned, hw]
    split
    · exact ⟨q, p, rfl, hq, hp⟩
    · rw [closed_withHeads]
      exact ⟨q, p, rfl, by rw [(heads_closed call c).1]; exact hq,
        by rw [(heads_closed call c).2]; exact hp⟩
  | pollRequest =>
    obtain ⟨q, p, rfl, hq, hp⟩ := hcall
    have hcustody : (call.withHeads q p).custody = call.custody := rfl
    rw [Call.turned, Call.turned, hcustody]
    split <;> exact ⟨q, p, rfl, hq, hp⟩

/-- Calls that differ in a header are reported by entries that do, and that differ besides in
what is derived from it. -/
theorem LikeBut.reported (hcall : call.LikeBut h call') (now : Nat) :
    Pipeline.LikeBut h (call.report.toEntry now) (call'.report.toEntry now) := by
  obtain ⟨q, p, rfl, hq, hp⟩ := hcall
  exact toEntry_likeBut call.report now hq hp

/-- Entries are due at the same turns, and those that are due differ in the header and in what
is derived from it, because the calls do so after the turn. -/
theorem LikeBut.due? (hcall : call.LikeBut h call') (ht : t.LikeBut h t') (c : Clock) :
    Option.Rel (Pipeline.LikeBut h) (call.due? c t) (call'.due? c t') := by
  obtain ⟨hrec, hw, -, -, hbody⟩ := hcall.course
  -- A body that is dropped is closed first, so that both come to this.
  have hclosing : Option.Rel (Pipeline.LikeBut h) (due?.closing c call)
      (due?.closing c call') := by
    have hclosed := (hcall.turned .close c).reported c.elapsed
    rw [due?.closing, due?.closing, hbody]
    cases call.responseBody with
    | none => exact .none
    | some b =>
      simp only [Option.bind_some]
      split
      · exact .some hclosed
      · exact .none
  cases ht with
  | act a => exact .none
  | pollRequest => exact .none
  | close => exact hclosing
  | drop =>
    rw [Call.due?, Call.due?, hw]
    split
    · exact .none
    · exact hclosing
  | settle hab =>
    cases hab with
    | answered hab body => exact .none
    | failed text =>
      have hsettled := (hcall.settled (.failed text) c).reported c.elapsed
      rw [Call.due?, Call.due?, hrec, hw]
      split
      · exact .some hsettled
      · exact .none
  | poll =>
    have hpolled := hcall.turned .poll c
    rw [Call.due?, Call.due?, hbody]
    cases call.responseBody with
    | none => exact .none
    | some b =>
      simp only [Option.bind_some]
      split
      · exact .some (hpolled.reported _)
      · exact .none

end Call

/-! ## What becomes of the session -/

/-- What a sink does goes neither by the values of the header `h` nor by fields derived from
it. The pipeline as a whole is such a sink if it redacts the header in time
(`blind_redactHeader`). -/
def Blind (h : String) (sink : EntrySink Session) : Prop :=
  ∀ a b, Pipeline.LikeBut h a b → sink a = sink b

theorem deliver_likeBut (hblind : Blind h r.pipeline.sendEntry) (hcall : call.LikeBut h call')
    (s : Session) : r.deliver call' s = r.deliver call s := by
  rw [deliver, deliver, hblind _ _ (hcall.reported s.now)]

theorem endPage_likeBut (hcall : call.LikeBut h call') (s : Session) :
    r.endPage call' s = r.endPage call s := by
  obtain ⟨q, p, rfl, -, -⟩ := hcall
  rfl

theorem endedCall_likeBut (hcall : call.LikeBut h call') (b : Observed) (now : Nat) :
    (endedCall call b now).LikeBut h (endedCall call' b now) := by
  obtain ⟨q, p, rfl, hq, hp⟩ := hcall
  exact ⟨q, p, rfl, hq, hp⟩

/-- A response body that is closed leaves the same session in both runs. -/
theorem session_closeBody (hblind : Blind h r.pipeline.sendEntry)
    (hcall : call.LikeBut h call') (s : Session) :
    (r.closeBody call' s).2.2 = (r.closeBody call s).2.2 := by
  obtain ⟨-, -, -, -, hbody⟩ := hcall.course
  cases hb : call.responseBody with
  | none => rw [closeBody_of_none hb, closeBody_of_none (hbody.trans hb)]
  | some b =>
    cases hdue : b.complete.2 with
    | false => rw [closeBody_of_not_due hb hdue, closeBody_of_not_due (hbody.trans hb) hdue]
    | true =>
      rw [closeBody_of_due hb hdue, closeBody_of_due (hbody.trans hb) hdue,
        deliver_likeBut hblind (endedCall_likeBut hcall _ _)]

/-- **What a turn does to the session** is the same in both runs. It goes by the cases of the
turn; wherever an entry is delivered, the sink cannot tell the two apart. -/
theorem session_attend (hblind : Blind h r.pipeline.sendEntry) (hcall : call.LikeBut h call')
    (ht : t.LikeBut h t') (n : Nat) (s : Session) :
    (r.attend n call' s t').2.2 = (r.attend n call s t).2.2 := by
  obtain ⟨hrec, hw, hcustody, hrequest, hbody⟩ := hcall.course
  cases ht with
  | act a =>
    obtain ⟨q, p, rfl, -, -⟩ := hcall
    rw [attend, Call.act_withHeads]
    rfl
  | settle hab =>
    rw [attend, attend, hw]
    split
    · have hsettled := hcall.settled hab s.clock
      cases hab with
      | failed text =>
        cases hon : call.isRecorded with
        | false => simp only [settle, hrec, hon]
        | true =>
          simp only [settle, hrec, hon]
          rw [deliver_likeBut hblind hsettled, endPage_likeBut hsettled]
      | answered hab body =>
        cases hon : call.isRecorded with
        | false => simp only [settle, hrec, hon]
        | true =>
          simp only [settle, hrec, hon]
          exact endPage_likeBut hsettled s
    · rfl
  | poll =>
    show (r.pollBody call' s).2.2 = (r.pollBody call s).2.2
    cases hb : call.responseBody with
    | none => rw [pollBody, pollBody, hbody, hb]
    | some b =>
      cases hdue : b.poll.due with
      | false => rw [pollBody_of_not_due hb hdue, pollBody_of_not_due (hbody.trans hb) hdue]
      | true =>
        rw [pollBody_of_due hb hdue, pollBody_of_due (hbody.trans hb) hdue,
          deliver_likeBut hblind (endedCall_likeBut hcall _ _)]
  | close =>
    -- Whatever the caller is told of the close, the session is the one that the body leaves.
    have hserve : ∀ call : Call, (r.attend n call s .close).2.2 = (r.closeBody call s).2.2 := by
      intro call
      show (r.serve (.close n) call s).2.2 = _
      rw [serve]
      rcases r.closeBody call s with ⟨_ | result, call, s'⟩ <;> rfl
    rw [hserve, hserve]
    exact session_closeBody hblind hcall s
  | drop =>
    rw [attend, attend, hw]
    split
    · rfl
    · next hw' =>
      rw [Sight.of, Sight.of, serve, serve, drop, drop, hw, if_neg hw', if_neg hw']
      exact session_closeBody hblind hcall s
  | pollRequest =>
    show (pollRequest call' s).2.2 = (pollRequest call s).2.2
    rw [pollRequest, pollRequest, hcustody, hrequest]
    cases call.custody <;> rfl

/-! ## Moves and runs -/

/-- The calls of two runs that differ in the values of the header `h`, one by one. This is the
invariant of both inductions below. -/
def CallsLikeBut (h : String) (calls calls' : List Call) : Prop :=
  List.Forall₂ (Call.LikeBut h) calls calls'

/-- Either run has the call with a number, or neither has. -/
theorem CallsLikeBut.at_number {calls calls' : List Call} (hcalls : CallsLikeBut h calls calls')
    (n : Nat) : (calls[n]? = none ∧ calls'[n]? = none) ∨
      ∃ call call', calls[n]? = some call ∧ calls'[n]? = some call' ∧ call.LikeBut h call' := by
  induction hcalls generalizing n with
  | nil => exact .inl ⟨rfl, rfl⟩
  | cons hcall _ ih =>
    cases n with
    | zero => exact .inr ⟨_, _, rfl, rfl, hcall⟩
    | succ n => exact ih n

theorem CallsLikeBut.set {calls calls' : List Call} (hcalls : CallsLikeBut h calls calls')
    (hcall : call.LikeBut h call') (n : Nat) :
    CallsLikeBut h (calls.set n call) (calls'.set n call') := by
  induction hcalls generalizing n with
  | nil => exact .nil
  | cons hfirst hrest ih =>
    cases n with
    | zero => exact .cons hcall hrest
    | succ n => exact .cons hfirst (ih n)

/-- A call that begins with a request that differs in a header. -/
theorem begin_likeBut (includeAll : Bool) (c : Clock) (o : Outgoing) {head : RequestHead}
    (hhead : o.head.LikeBut h head) :
    (Call.begin includeAll c o).LikeBut h (Call.begin includeAll c { o with head := head }) :=
  ⟨head, none, rfl, hhead, .none⟩

/-- **What a move preserves** of calls that differ in a header. -/
theorem calls_move (hcalls : CallsLikeBut h st.calls st'.calls) (hm : m.LikeBut h m')
    (c : Clock) :
    CallsLikeBut h (r.move (st.at c) m).2.calls (r.move (st'.at c) m').2.calls := by
  cases hm with
  | «begin» o hhead =>
    rw [calls_begin, calls_begin]
    exact List.rel_append hcalls (.cons (begin_likeBut r.includeAll c o hhead) .nil)
  | turn n ht =>
    rcases hcalls.at_number n with ⟨hnone, hnone'⟩ | ⟨call, call', hcall, hcall', hlike⟩
    · have hat : (st.at c).calls[n]? = none := hnone
      have hat' : (st'.at c).calls[n]? = none := hnone'
      rw [move_of_no_call hat, move_of_no_call hat']
      exact hcalls
    · have hat : (st.at c).calls[n]? = some call := hcall
      have hat' : (st'.at c).calls[n]? = some call' := hcall'
      rw [calls_turn hat, calls_turn hat']
      exact hcalls.set (hlike.turned ht c) n
  | flush => exact hcalls
  | closeReceiver => exact hcalls
  | advance nanos => exact hcalls

/-- **What a move preserves** of the session, if the sink is blind. That the calls differ in a
header is enough for this, and it does not matter how they have come to do so. -/
theorem session_move (hblind : Blind h r.pipeline.sendEntry)
    (hcalls : CallsLikeBut h st.calls st'.calls) (hsession : st.session = st'.session)
    (hm : m.LikeBut h m') (c : Clock) :
    (r.move (st.at c) m).2.session = (r.move (st'.at c) m').2.session := by
  have hat : (st.at c).session = (st'.at c).session := by
    rw [State.at, State.at, hsession]
  cases hm with
  | turn n ht =>
    rcases hcalls.at_number n with ⟨hnone, hnone'⟩ | ⟨call, call', hcall, hcall', hlike⟩
    · have hgone : (st.at c).calls[n]? = none := hnone
      have hgone' : (st'.at c).calls[n]? = none := hnone'
      rw [move_of_no_call hgone, move_of_no_call hgone']
      exact hat
    · have hthere : (st.at c).calls[n]? = some call := hcall
      have hthere' : (st'.at c).calls[n]? = some call' := hcall'
      rw [move_of_call hthere, move_of_call hthere', ← hat]
      exact (session_attend hblind hlike ht n (st.at c).session).symm
  | «begin» o hhead =>
    show (r.begin o (st.at c).session).2 = (r.begin { o with head := _ } (st'.at c).session).2
    rw [hat]
    simp only [Recorder.begin, Call.begin, Call.wants]
    split <;> rfl
  | flush =>
    show (Session.flush (st.at c).session).2 = (Session.flush (st'.at c).session).2
    rw [hat]
  | closeReceiver =>
    show (Session.close (st.at c).session).2 = (Session.close (st'.at c).session).2
    rw [hat]
  | advance nanos =>
    show (st.at c).session.advance nanos = (st'.at c).session.advance nanos
    rw [hat]

/-- Two moves hand over no entry, or each hands over one, and with the value `v` for the
header these are the same but for fields derived from it. -/
def HandsLikeBut (r : Recorder) (h v : String) (a b : State × Move) : Prop :=
  ∃ x x' : Option Entry, (∀ e, Hands r a.1 a.2 e ↔ x = some e) ∧
    (∀ e, Hands r b.1 b.2 e ↔ x' = some e) ∧
    Option.Rel (fun e e' => SameButDerived h (redactEntry h v e) (redactEntry h v e')) x x'

/-- Moves that differ in a header hand over entries that do. What is handed over is what is due
to the call of the move, and no other move hands over anything. -/
theorem hands_move (hcalls : CallsLikeBut h st.calls st'.calls) (hm : m.LikeBut h m')
    (v : String) (c : Clock) : HandsLikeBut r h v (st.at c, m) (st'.at c, m') := by
  cases hm with
  | @turn n t t' ht =>
    -- Whether the number is of a call at all is the same in both runs.
    rcases hcalls.at_number n with ⟨hnone, hnone'⟩ | ⟨call, call', hcall, hcall', hlike⟩
    · refine ⟨none, none, fun e => ?_, fun e => ?_, .none⟩
      · simp [hands_turn_iff, show (st.at c).calls[n]? = none from hnone]
      · simp [hands_turn_iff, show (st'.at c).calls[n]? = none from hnone']
    · refine ⟨call.due? c t, call'.due? c t', fun e => hands_turn_iff_of_call hcall,
        fun e => hands_turn_iff_of_call hcall', ?_⟩
      have hdue := hlike.due? ht c
      generalize call.due? c t = x at hdue ⊢
      generalize call'.due? c t' = x' at hdue ⊢
      cases hdue with
      | some hlike => exact .some (hlike.redacted v)
      | none => exact .none
  | _ =>
    refine ⟨none, none, fun e => ⟨fun he => ?_, nofun⟩, fun e => ⟨fun he => ?_, nofun⟩, .none⟩
    · obtain ⟨n, t, ht⟩ := he.turn
      cases ht
    · obtain ⟨n, t, ht⟩ := he.turn
      cases ht

/-- **What a run preserves**: the same is handed over all along. The induction is on the
moves of both runs, from any states whose calls differ in the header. -/
theorem moments_likeBut {moves moves' : List (Clock × Move)} (hmoves : MovesLikeBut h moves moves')
    (v : String) (hcalls : CallsLikeBut h st.calls st'.calls) :
    List.Forall₂ (HandsLikeBut r h v) (moments r st moves) (moments r st' moves') := by
  induction hmoves generalizing st st' with
  | nil => exact .nil
  | @cons a b _ _ hab _ ih =>
    obtain ⟨c, m⟩ := a
    obtain ⟨c', m'⟩ := b
    obtain ⟨rfl, hm⟩ := hab
    exact .cons (hands_move hcalls hm v c) (ih (calls_move hcalls hm c))

/-- **What a run preserves** of the session, if the sink is blind. The calls are carried along
since the session after a move depends on those that the move finds. -/
theorem session_played {moves moves' : List (Clock × Move)} (hmoves : MovesLikeBut h moves moves')
    (hblind : Blind h r.pipeline.sendEntry) (hcalls : CallsLikeBut h st.calls st'.calls)
    (hsession : st.session = st'.session) :
    (played r st moves).session = (played r st' moves').session := by
  induction hmoves generalizing st st' with
  | nil => exact hsession
  | @cons a b _ _ hab _ ih =>
    obtain ⟨c, m⟩ := a
    obtain ⟨c', m'⟩ := b
    obtain ⟨rfl, hm⟩ := hab
    exact ih (calls_move hcalls hm c) (session_move hblind hcalls hsession hm c)

/-! ## Pipelines -/

/-- Middleware that passes nothing on of the header `h` or of fields derived from it, unless
what comes after it asks for that. -/
def Discreet (h : String) (middleware : EntryMiddleware Session) : Prop :=
  ∀ next, Blind h next → Blind h (middleware next)

/-- A change that keeps entries alike. -/
theorem discreet_change {f : Entry → Entry}
    (hf : ∀ a b, Pipeline.LikeBut h a b → Pipeline.LikeBut h (f a) (f b)) :
    Discreet h (Step.change f).toEntryMiddleware :=
  fun _ hnext a b hab => hnext (f a) (f b) (hf a b hab)

theorem discreet_reject (message : String) :
    Discreet h (Step.reject message).toEntryMiddleware := fun _ _ _ _ _ => rfl

theorem discreet_drop : Discreet h Step.drop.toEntryMiddleware := fun _ _ _ _ _ => rfl

theorem discreet_twice : Discreet h Step.twice.toEntryMiddleware := by
  intro next hnext a b hab
  simp only [Step.toEntryMiddleware, hnext a b hab]

theorem discreet_noting {middleware : EntryMiddleware Session} (hm : Discreet h middleware)
    (note : Session → Session) : Discreet h (noting note middleware) := by
  intro next hnext a b hab
  simp only [noting, hm next hnext a b hab]

/-- Discreet middleware before a blind sink makes a blind sink. The induction is on the
middleware, from the sink outward. -/
theorem blind_compose {sink : EntrySink Session} {middleware : List (EntryMiddleware Session)}
    (hall : ∀ m ∈ middleware, Discreet h m) (hsink : Blind h sink) :
    Blind h (compose middleware sink) := by
  induction middleware with
  | nil => exact hsink
  | cons m rest ih =>
    exact hall m List.mem_cons_self _ (ih fun m hm => hall m (List.mem_cons_of_mem _ hm))

/-- Redaction makes a blind sink of one that does not go by the derived fields. -/
theorem blind_redactHeader {next : EntrySink Session}
    (hnext : ∀ a b, SameButDerived h a b → next a = next b) (v : String) :
    Blind h ((redactHeader h v).toEntryMiddleware next) :=
  fun _ _ hab => hnext _ _ (hab.redacted v)

/-- Redaction of whatever header is discreet: also that of `h` itself, and with another value. -/
theorem discreet_redactHeader (h' v' : String) :
    Discreet h (redactHeader h' v').toEntryMiddleware := by
  refine discreet_change fun a b hab => ?_
  -- The other redaction is moved out of the hiding of `h`, where the entries are equal.
  rw [Pipeline.LikeBut, SameButDerived, ← redactEntry_between, ← redactEntry_between h "" h' v' b]
  simp only [hideDerived_redactEntry h h', hideDerived_redactEntry h h ""]
  exact congrArg (fun e => redactEntry h "" (redactEntry h' v' e)) hab

/-! ## Redaction -/

/-- A recorder whose pipeline redacts the header `h`, with middleware before that and after. -/
def redacting (version : Archive.Version) (includeAll : Bool)
    (pages : List (PageMiddleware Session)) (pre : List (EntryMiddleware Session))
    (h value : String) (post : List (EntryMiddleware Session)) : Recorder :=
  ⟨version, includeAll,
    Session.pipeline (pre ++ (redactHeader h value).toEntryMiddleware :: post) pages⟩

/-- A request with one header, answered with the same and without a body, and the response
closed. -/
def exchange (name : String) (value : List UInt8) : List (Clock × Move) :=
  [(⟨0, 0⟩, .begin ⟨⟨"GET", ⟨none, none, "/", none⟩, .http11, ⟨[(name, value)]⟩⟩,
      ⟨[], none, true⟩, {}, false⟩),
    (⟨0, 0⟩, .turn 0 (.settle (.ok (⟨200, .http11, ⟨[(name, value)]⟩, []⟩, ⟨[], none, true⟩)))),
    (⟨0, 0⟩, .turn 0 .close)]

theorem exchange_likeBut {name : String} {value value' : List UInt8}
    (hname : sameIgnoringCase name.toList h.toList = true)
    (hlength : value.length = value'.length) :
    MovesLikeBut h (exchange name value) (exchange name value') := by
  have hheaders : Headers.LikeBut h ⟨[(name, value)]⟩ ⟨[(name, value')]⟩ :=
    .cons ⟨rfl, hlength, fun hother => by rw [hname] at hother; cases hother⟩ .nil
  have hresponse : ResponseHead.LikeBut h ⟨200, .http11, ⟨[(name, value)]⟩, []⟩
      ⟨200, .http11, ⟨[(name, value')]⟩, []⟩ := ⟨rfl, rfl, rfl, hheaders⟩
  exact .cons ⟨rfl, .begin _ ⟨rfl, rfl, rfl, hheaders⟩⟩
    (.cons ⟨rfl, .turn 0 (.settle (.answered hresponse _))⟩
      (.cons ⟨rfl, .turn 0 .close⟩ .nil))

/-- The entries that a receiver in memory has after a run, by which two runs can be told apart. -/
def received (r : Recorder) (moves : List (Clock × Move)) : List Entry :=
  match (played r ⟨{ clock := ⟨0, 0⟩ }, []⟩ moves).session.receiver with
  | .memory m => m.entries
  | _ => []

/-- Redaction does not reach everything that comes from a header. What is derived from Cookie,
Set-Cookie, Content-Type or Location stays when that header is redacted; and middleware that
comes before the redaction may have copied the value of any header. -/
theorem redaction_leaves_derived :
    let copying : EntryMiddleware Session := (Step.change fun e =>
      { e with comment := e.request.headers.head?.map (·.value) }).toEntryMiddleware
    let token := redacting {} true [] [copying] "x-token" "X" []
    (∀ name ∈ derivedNames,
        MovesLikeBut name (exchange name [97, 61, 49]) (exchange name [97, 61, 50]) ∧
        received (redacting {} true [] [] name "X" []) (exchange name [97, 61, 49])
          ≠ received (redacting {} true [] [] name "X" []) (exchange name [97, 61, 50])) ∧
      MovesLikeBut "x-token" (exchange "x-token" [49]) (exchange "x-token" [50]) ∧
        received token (exchange "x-token" [49]) ≠ received token (exchange "x-token" [50]) := by
  intro copying token
  refine ⟨fun name hname => ⟨exchange_likeBut (by simp [sameIgnoringCase]) rfl, fun heq => ?_⟩,
    exchange_likeBut (by decide +kernel) rfl, fun heq => ?_⟩
  · -- For each of the four headers some derived field tells the two runs apart.
    have hderived := congrArg (fun es => es.flatMap fun e => e.request.cookies.map (·.value) ++
      e.response.cookies.map (·.value) ++ [e.response.content.mimeType, e.response.redirectURL])
      heq
    clear heq
    revert name
    decide +kernel
  · have hcomments := congrArg (fun es => es.map (·.comment)) heq
    revert hcomments
    decide +kernel

/-- **What redaction hides.** Let two runs be alike in everything but the values of the headers
named `h`, these being of the same lengths. Then at every move both hand over no entry, or
each hands over one, and these are the same when they are redacted, except for the fields that
are derived from `h`. So if the middleware before the redaction passes nothing of them on, and
no field is derived from `h`, the receiver ends as the same; and it does for any header if what
comes after the redaction does not go by the derived fields. -/
theorem redaction_hides (version : Archive.Version) (includeAll : Bool)
    (pages : List (PageMiddleware Session)) (pre post : List (EntryMiddleware Session))
    (h v : String) (s : Session) (moves moves' : List (Clock × Move))
    (hpre : ∀ m ∈ pre, Discreet h m) (hmoves : MovesLikeBut h moves moves') :
    let r := redacting version includeAll pages pre h v post
    List.Forall₂ (HandsLikeBut r h v) (moments r ⟨s, []⟩ moves) (moments r ⟨s, []⟩ moves') ∧
      ((∀ n ∈ derivedNames, hides h n = false) →
        (played r ⟨s, []⟩ moves).session = (played r ⟨s, []⟩ moves').session) ∧
      ((∀ a b, SameButDerived h a b →
          compose post Session.receiveEntry a = compose post Session.receiveEntry b) →
        (played r ⟨s, []⟩ moves).session = (played r ⟨s, []⟩ moves').session) := by
  intro r
  have hsession : (∀ a b, SameButDerived h a b →
      compose post Session.receiveEntry a = compose post Session.receiveEntry b) →
      (played r ⟨s, []⟩ moves).session = (played r ⟨s, []⟩ moves').session := by
    intro hpost
    refine session_played hmoves ?_ .nil rfl
    show Blind h (compose _ Session.receiveEntry)
    rw [compose_append]
    exact blind_compose hpre (blind_redactHeader hpost v)
  refine ⟨moments_likeBut hmoves v .nil, fun hnone => hsession fun a b hab => ?_, hsession⟩
  rw [(sameButDerived_iff_eq hnone).mp hab]

/-- Two requests with other credentials, which are redacted, as is another header before. Every
entry is handed on twice, and the sessions are still the same. -/
theorem redaction_hides_authorization :
    let pre := [(redactHeader "x-key" "-").toEntryMiddleware, Step.twice.toEntryMiddleware]
    let r := redacting {} true [] pre "Authorization" "X" []
    (played r ⟨{ clock := ⟨0, 0⟩ }, []⟩ (exchange "authorization" [49])).session
      = (played r ⟨{ clock := ⟨0, 0⟩ }, []⟩ (exchange "authorization" [50])).session := by
  intro pre r
  have hpre : ∀ m ∈ pre, Discreet "Authorization" m := by
    intro m hm
    obtain rfl | rfl : m = (redactHeader "x-key" "-").toEntryMiddleware ∨
        m = Step.twice.toEntryMiddleware := by simpa [pre] using hm
    · exact discreet_redactHeader "x-key" "-"
    · exact discreet_twice
  exact (redaction_hides {} true [] pre [] "Authorization" "X" { clock := ⟨0, 0⟩ }
    (exchange "authorization" [49]) (exchange "authorization" [50]) hpre
    (exchange_likeBut (by decide +kernel) rfl)).2.1 (by decide +kernel)

end Recorder

end ExchangeArchive
