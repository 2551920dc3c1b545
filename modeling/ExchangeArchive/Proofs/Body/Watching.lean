import ExchangeArchive.Body.Watch
import ExchangeArchive.Proofs.Body.Captured
import ExchangeArchive.Proofs.Body.Plain
import Mathlib.Data.List.Induction
/-
**Whoever waits for a body is told once, when the body is over.**

When a body is over is said without the flags of the observed body: the operations contain
a close or the drop, or the inner body, polled as often as they poll, gives an end. What was
heard by then is read off the inner body in the same way.

`undergo` is what an operation does to the observed body and whether it makes the completion
due; `Attended.undergo` says that it does so exactly if it ends the body and nothing has
before. `Watched` is what holds after any operations, and `Watched.concat` is the step
lemma. From the operation at which the completion was due on, nothing is told any more
(`told_after`), and from the end of the inner body on it is left alone (`inner_after`).
-/

set_option autoImplicit false

namespace ExchangeArchive.Body

/-! ## One more poll -/

theorem any_upToEnd {ε : Type} (polls : List (Poll ε)) :
    (upToEnd polls).any Poll.isEnded = polls.any Poll.isEnded := by
  induction polls with
  | nil => rfl
  | cons p rest ih =>
    rw [upToEnd]
    split
    · next h => simp [h]
    · rw [List.any_cons, List.any_cons, ih]

namespace Plain

/-- One poll more is a poll of the body that the others leave. -/
theorem pollMany_succ (p : Plain) (k : Nat) :
    p.pollMany (k + 1)
      = ((p.pollMany k).1 ++ [(p.pollMany k).2.poll.1], (p.pollMany k).2.poll.2) := by
  induction k generalizing p with
  | zero => rfl
  | succ k ih =>
    rw [pollMany]
    dsimp only
    rw [ih p.poll.2]
    rfl

/-- A body has ended when a poll of it gave the end. -/
theorem ended_poll (p : Plain) : p.poll.2.ended = p.poll.1.isEnded := by
  by_cases h : p.ended = true
  · rw [poll_of_ended h, h]
    rfl
  · rw [poll_of_going (by simpa using h), Poll.isEnded_mapError]

/-- The data of the polls are those that the script gave up to its first end: the ends that
follow bring none. -/
theorem octetsOf_pollMany (script : Script) (k : Nat) :
    octetsOf (pollMany k ⟨script, false⟩).1 = octetsOf (upToEnd (script.pollMany k).1) := by
  have hends : ∀ n, octetsOf (List.replicate n (Poll.ended : Poll Error)) = [] := by
    intro n
    induction n with
    | zero => rfl
    | succ n ih => exact ih
  rw [(pollMany_eq rfl k).1, octetsOf, List.flatMap_append, List.flatMap_map]
  simp only [Poll.octets_mapError]
  exact (congrArg (_ ++ ·) (hends _)).trans (List.append_nil _)

end Plain

/-! ## What an operation does to the body -/

namespace Observed

variable {o : Observed}

/-- The body after an operation, and whether its completion is due. -/
def undergo (o : Observed) : Watch.Operation → Observed × Bool
  | .poll => (o.poll.body, o.poll.due)
  | .close => o.complete
  | .drop => o.complete
  | .isEndStream => (o, false)
  | .sizeHint => (o, false)

/-- Whether an operation ends the body, be it for the first time or again. -/
def isEndedBy (o : Observed) : Watch.Operation → Bool
  | .poll => o.poll.result.isEnded
  | .close => true
  | .drop => true
  | .isEndStream => false
  | .sizeHint => false

/-- **An operation makes the completion due exactly if it ends the body and nothing has
before**, and the capture is complete from then on. -/
theorem Attended.undergo (h : o.Attended) (op : Watch.Operation) :
    (o.undergo op).1.Attended
      ∧ (o.undergo op).1.isComplete = (o.isComplete || o.isEndedBy op)
      ∧ (o.undergo op).2 = (!o.isComplete && o.isEndedBy op) := by
  have hclosed : o.complete.1.Attended ∧ o.complete.1.isComplete = (o.isComplete || true)
      ∧ o.complete.2 = (!o.isComplete && true) := by
    obtain ⟨hattended, hcomplete, hdue⟩ := h.complete
    exact ⟨hattended, by rw [hcomplete, Bool.or_true], by rw [hdue, Bool.and_true]⟩
  cases op with
  | poll => exact h.poll
  | close => exact hclosed
  | drop => exact hclosed
  | isEndStream => exact ⟨h, (Bool.or_false _).symm, (Bool.and_false _).symm⟩
  | sizeHint => exact ⟨h, (Bool.or_false _).symm, (Bool.and_false _).symm⟩

/-- Operations go with one another on an observed body and on a plain one, of which only a
poll is an operation, and capture what that poll gives. -/
theorem Mirrors.undergo {p : Plain} (h : o.Mirrors p) {octets : List UInt8}
    (hcaptured : o.captured = some octets) (op : Watch.Operation) :
    (o.undergo op).1.Mirrors (if op = .poll then p.poll.2 else p)
      ∧ (o.undergo op).1.captured
        = some (octets ++ if op = .poll then p.poll.1.octets else []) := by
  have hclosed : o.complete.1.Mirrors p ∧ o.complete.1.captured = some (octets ++ []) :=
    ⟨h.complete, by rw [captured_complete, hcaptured, List.append_nil]⟩
  cases op with
  | poll =>
    obtain ⟨hresult, hnext⟩ := h.poll
    refine ⟨hnext, ?_⟩
    refine (captured_poll o).trans ?_
    rw [hcaptured, hresult]
    rfl
  | close => exact hclosed
  | drop => exact hclosed
  | isEndStream => exact ⟨h, by rw [if_neg (by decide), List.append_nil]; exact hcaptured⟩
  | sizeHint => exact ⟨h, by rw [if_neg (by decide), List.append_nil]; exact hcaptured⟩

/-- After the end of the inner body no operation touches it, a close and the drop included. -/
theorem inner_undergo (h : o.done = true) (op : Watch.Operation) :
    (o.undergo op).1.inner = o.inner ∧ (o.undergo op).1.done = true := by
  have hself : o.Mirrors ⟨o.inner, true⟩ := ⟨rfl, h⟩
  have hclosed : o.complete.1.inner = o.inner ∧ o.complete.1.done = true :=
    ⟨hself.complete.inner, hself.complete.done⟩
  cases op with
  | poll =>
    rw [undergo, poll_of_done h]
    exact ⟨rfl, h⟩
  | close => exact hclosed
  | drop => exact hclosed
  | isEndStream => exact ⟨rfl, h⟩
  | sizeHint => exact ⟨rfl, h⟩

end Observed

namespace Watch

/-! ## Operations one after the other -/

/-- A body with someone who waits for its completion, at its beginning. -/
def fresh (inner : Script) (outcome : Except Error Unit) : Watch :=
  { body := .new inner true, outcome }

/-- The body after operations. -/
def after (w : Watch) (ops : List Operation) : Watch := (w.steps ops).2

theorem after_cons (w : Watch) (op : Operation) (ops : List Operation) :
    w.after (op :: ops) = (w.step op).2.after ops := rfl

theorem after_append (w : Watch) (ops more : List Operation) :
    w.after (ops ++ more) = (w.after ops).after more := by
  induction ops generalizing w with
  | nil => rfl
  | cons op ops ih => exact ih _

/-- What an operation gives on a body that has been dropped. -/
def Operation.gone : Operation → Answer
  | .drop => .dropped
  | _ => .gone

/-- What an operation gives on any other body. -/
def answer (w : Watch) : Operation → Answer
  | .poll => .polled (match w.body.poll.due, w.outcome with
    | true, .error e => .failed e
    | _, _ => w.body.poll.result)
  | .close => .closed (if w.body.complete.2 then w.outcome else .ok ())
  | .drop => .dropped
  | .isEndStream => .ended w.body.isEndStream
  | .sizeHint => .hint w.body.sizeHint

/-- A body that has been dropped stays as it is. -/
theorem step_of_dropped {w : Watch} (h : w.dropped = true) (op : Operation) :
    w.step op = (op.gone, w) := by
  cases op <;> exact if_pos h

/-- Any other body undergoes the operation, and whoever waits is told if that is due. The drop is
one of the operations: the body is there for it, and gone after it. -/
theorem step_of_present {w : Watch} (h : w.dropped = false) (op : Operation) :
    w.step op = (w.answer op, { w.tell (w.body.undergo op).1 (w.body.undergo op).2 with
      dropped := decide (op = .drop) }) := by
  have hnot : ¬ w.dropped = true := by simp [h]
  -- Nothing but the drop drops the body.
  have htell : ∀ body due, w.tell body due = { w.tell body due with dropped := false } := by
    intro body due
    cases due <;> simp [tell, h]
  cases op with
  | poll => exact (if_neg hnot).trans (congrArg (Prod.mk _) (htell _ _))
  | close => exact (if_neg hnot).trans (congrArg (Prod.mk _) (htell _ _))
  | drop => exact if_neg hnot
  | isEndStream => exact (if_neg hnot).trans (congrArg (Prod.mk _) (htell w.body false))
  | sizeHint => exact (if_neg hnot).trans (congrArg (Prod.mk _) (htell w.body false))

theorem tell_body (w : Watch) (body : Observed) (due : Bool) : (w.tell body due).body = body := by
  cases due <;> rfl

/-! ## When a body is over -/

/-- What the inner body gives to the polls among operations, up to its first end. -/
def heard (inner : Script) (ops : List Operation) : List (Poll String) :=
  upToEnd (inner.pollMany (ops.count .poll)).1

/-- Operations that a body is over after: one of them is a close or the drop, or the inner
body ends at one of the polls. -/
def Completed (inner : Script) (ops : List Operation) : Prop :=
  .close ∈ ops ∨ .drop ∈ ops ∨ (heard inner ops).any Poll.isEnded = true

/-- An operation after which a body is over that was not over before. -/
def Triggers (inner : Script) (before : List Operation) (op : Operation) : Prop :=
  ¬ Completed inner before ∧ Completed inner (before ++ [op])

/-- What the operation gives at which the completion is due, if this is the completion's
outcome. -/
def Operation.returning (outcome : Except Error Unit) : Operation → Answer
  | .poll => .polled (match outcome with
    | .ok () => .ended
    | .error e => .failed e)
  | .close => .closed outcome
  | _ => .dropped

/-- The inner body, without an observer, after the polls among operations. -/
def bare (inner : Script) (ops : List Operation) : Plain :=
  (Plain.pollMany (ops.count .poll) ⟨inner, false⟩).2

theorem bare_concat (inner : Script) (ops : List Operation) (op : Operation) :
    bare inner (ops ++ [op])
      = if op = .poll then (bare inner ops).poll.2 else bare inner ops := by
  rw [bare, List.count_append, List.count_singleton]
  by_cases h : op = .poll
  · rw [if_pos h, if_pos (by simp [h]), Plain.pollMany_succ]
    rfl
  · rw [if_neg h, if_neg (by simpa using h)]
    rfl

theorem octetsOf_heard_concat (inner : Script) (ops : List Operation) (op : Operation) :
    octetsOf (heard inner (ops ++ [op]))
      = octetsOf (heard inner ops)
        ++ if op = .poll then (bare inner ops).poll.1.octets else [] := by
  rw [heard, heard, ← Plain.octetsOf_pollMany, ← Plain.octetsOf_pollMany, List.count_append,
    List.count_singleton]
  by_cases h : op = .poll
  · rw [if_pos h, if_pos (by simp [h]), Plain.pollMany_succ]
    simp [octetsOf, bare]
  · rw [if_neg h, if_neg (by simpa using h), List.append_nil]
    rfl

/-- The inner body has ended when an end was heard, since nothing is heard of it after that. -/
theorem any_heard (inner : Script) (ops : List Operation) :
    (heard inner ops).any Poll.isEnded = (bare inner ops).ended := by
  rw [heard, any_upToEnd, bare]
  exact (Plain.pollMany_eq (p := ⟨inner, false⟩) rfl _).2.2.symm

theorem Completed.concat {inner : Script} {ops : List Operation} (h : Completed inner ops)
    (op : Operation) : Completed inner (ops ++ [op]) := by
  rcases h with hclose | hdrop | hheard
  · exact .inl (List.mem_append_left _ hclose)
  · exact .inr (.inl (List.mem_append_left _ hdrop))
  · refine .inr (.inr ?_)
    rw [any_heard] at hheard ⊢
    rw [bare_concat]
    split
    · rw [Plain.poll_of_ended hheard]
      exact hheard
    · exact hheard

/-- One operation more completes a body that was not complete if it ends it. For a poll that is to
say that the inner body ends here, which the observed body shows. -/
theorem completed_concat {inner : Script} {ops : List Operation} {o : Observed}
    (h : o.Mirrors (bare inner ops)) (op : Operation) :
    Completed inner (ops ++ [op]) ↔ Completed inner ops ∨ o.isEndedBy op = true := by
  constructor
  · rintro (hclose | hdrop | hheard)
    · rcases List.mem_append.mp hclose with hbefore | hnow
      · exact .inl (.inl hbefore)
      · obtain rfl := List.mem_singleton.mp hnow
        exact .inr rfl
    · rcases List.mem_append.mp hdrop with hbefore | hnow
      · exact .inl (.inr (.inl hbefore))
      · obtain rfl := List.mem_singleton.mp hnow
        exact .inr rfl
    · rw [any_heard, bare_concat] at hheard
      split at hheard
      · next hop =>
        subst hop
        rw [Plain.ended_poll, ← h.poll.1] at hheard
        exact .inr hheard
      · rw [← any_heard] at hheard
        exact .inl (.inr (.inr hheard))
  · rintro (hbefore | hends)
    · exact hbefore.concat op
    · cases op with
      | poll =>
        refine .inr (.inr ?_)
        rw [any_heard, bare_concat, if_pos rfl, Plain.ended_poll, ← h.poll.1]
        exact hends
      | close => exact .inl (by simp)
      | drop => exact .inr (.inl (by simp))
      | isEndStream => cases hends
      | sizeHint => cases hends

/-! ## What holds after any operations -/

/-- What holds of a body after operations. The capture and the inner body are followed up to the
drop only: after it there is no body that could be compared with anything. -/
structure Watched (inner : Script) (ops : List Operation) (w : Watch) : Prop where
  attended : w.body.Attended
  complete : w.body.isComplete = true ↔ Completed inner ops
  /-- Telling goes with the completion of the capture. -/
  told : w.told.length = w.body.isComplete.toNat
  dropped : w.dropped = true ↔ .drop ∈ ops
  mirrors : .drop ∉ ops → w.body.Mirrors (bare inner ops)
  captured : .drop ∉ ops → w.body.captured = some (octetsOf (heard inner ops))

variable {inner : Script} {ops : List Operation} {w : Watch}

theorem Watched.present (h : Watched inner ops w) (hpresent : .drop ∉ ops) :
    w.dropped = false := by
  rw [← Bool.not_eq_true, h.dropped]
  exact hpresent

theorem Watched.not_mem (h : Watched inner ops w) (hpresent : w.dropped = false) :
    .drop ∉ ops := by
  rw [← h.dropped, hpresent]
  exact Bool.false_ne_true

theorem watched_fresh (inner : Script) (outcome : Except Error Unit) :
    Watched inner [] (fresh inner outcome) where
  attended := Observed.attended_new inner
  complete := by simp [fresh, Observed.isComplete_new, Completed, heard, Script.pollMany, upToEnd]
  told := rfl
  dropped := by simp [fresh]
  mirrors := fun _ => ⟨rfl, rfl⟩
  captured := fun _ => rfl

theorem length_told_tell (w : Watch) (body : Observed) (due : Bool) :
    (w.tell body due).told.length = w.told.length + due.toNat := by
  cases due <;> simp [tell]

/-- **One operation.** After the drop nothing changes any more; before it the operation is
what the body undergoes. -/
theorem Watched.concat (h : Watched inner ops w) (op : Operation) :
    Watched inner (ops ++ [op]) (w.step op).2 := by
  by_cases hgone : .drop ∈ ops
  · have hover : Completed inner ops := .inr (.inl hgone)
    have hdrop : .drop ∈ ops ++ [op] := List.mem_append_left _ hgone
    rw [step_of_dropped (h.dropped.mpr hgone)]
    exact ⟨h.attended, iff_of_true (h.complete.mpr hover) (hover.concat op), h.told,
      iff_of_true (h.dropped.mpr hgone) hdrop, fun hnot => absurd hdrop hnot,
      fun hnot => absurd hdrop hnot⟩
  · obtain ⟨hattended, hcomplete, hdue⟩ := h.attended.undergo op
    obtain ⟨hmirrors, hcaptured⟩ := (h.mirrors hgone).undergo (h.captured hgone) op
    rw [step_of_present (h.present hgone)]
    refine ⟨?_, ?_, ?_, ?_, ?_, ?_⟩ <;> dsimp only <;> try rw [tell_body]
    · exact hattended
    · rw [hcomplete, Bool.or_eq_true, h.complete, completed_concat (h.mirrors hgone)]
    · -- Something is told if the operation is the first to end the body.
      rw [length_told_tell, h.told, hcomplete, hdue]
      cases w.body.isComplete <;> cases w.body.isEndedBy op <;> rfl
    · simp [hgone, eq_comm]
    · intro _
      rw [bare_concat]
      exact hmirrors
    · intro _
      rw [octetsOf_heard_concat]
      exact hcaptured

/-- **What a run preserves.** It holds after any operations on a body from its beginning. The
induction is on the operations from the last. -/
theorem watched_after (inner : Script) (outcome : Except Error Unit) (ops : List Operation) :
    Watched inner ops ((fresh inner outcome).after ops) := by
  induction ops using List.reverseRecOn with
  | nil => exact watched_fresh inner outcome
  | append_singleton ops op ih =>
    rw [after_append]
    exact ih.concat op

/-- Something was told exactly if the body is over, and then it was told once. -/
theorem Watched.told_ne_nil (h : Watched inner ops w) :
    w.told ≠ [] ↔ Completed inner ops := by
  rw [← List.length_pos_iff, h.told, ← h.complete]
  cases w.body.isComplete <;> simp

/-- The completion is due at an operation exactly if that is the one that completes the body: the
flags on the left, the operations and the inner body on the right. -/
theorem Watched.due_iff (h : Watched inner ops w) (hpresent : .drop ∉ ops) (op : Operation) :
    (w.body.undergo op).2 = true ↔ Triggers inner ops op := by
  rw [(h.attended.undergo op).2.2, Bool.and_eq_true, Bool.not_eq_true', ← Bool.not_eq_true,
    h.complete, Triggers, completed_concat (h.mirrors hpresent)]
  constructor
  · rintro ⟨hnot, hends⟩
    exact ⟨hnot, .inr hends⟩
  · rintro ⟨hnot, hover | hends⟩
    · exact absurd hover hnot
    · exact ⟨hnot, hends⟩

/-! ## From the completion on -/

/-- When the capture is complete nothing more is told, whatever is done with the body. -/
theorem told_after (hattended : w.body.Attended) (hcomplete : w.body.isComplete = true)
    (ops : List Operation) : (w.after ops).told = w.told := by
  induction ops generalizing w with
  | nil => rfl
  | cons op ops ih =>
    rw [after_cons]
    by_cases hdropped : w.dropped = true
    · rw [step_of_dropped hdropped]
      exact ih hattended hcomplete
    · obtain ⟨hnext, hstays, hdue⟩ := hattended.undergo op
      rw [hcomplete] at hstays hdue
      rw [step_of_present (by simpa using hdropped)]
      refine (ih ?_ ?_).trans ?_ <;> dsimp only
      · rwa [tell_body]
      · rwa [tell_body]
      · rw [hdue]
        rfl

/-- **What is told** at the operation at which the completion is due is all that was heard
before it, and stays all that is told. -/
theorem Watched.told_of_triggers (h : Watched inner ops w) {op : Operation}
    (htriggers : Triggers inner ops op) (later : List Operation) :
    (w.after (op :: later)).told = [octetsOf (heard inner ops)] := by
  have hpresent : .drop ∉ ops := fun hdrop => htriggers.1 (.inr (.inl hdrop))
  have hnext := h.concat op
  have hnone : w.told = [] := Classical.not_not.mp fun hsome =>
    htriggers.1 (h.told_ne_nil.mp hsome)
  have hdue := (h.due_iff hpresent op).mpr htriggers
  rw [after_cons, told_after hnext.attended (hnext.complete.mpr htriggers.2),
    step_of_present (h.present hpresent), hdue]
  -- What is told is what the body has captured after the operation.
  have hcaptured := ((h.mirrors hpresent).undergo (h.captured hpresent) op).2
  have hsame : (if op = .poll then (bare inner ops).poll.1.octets else []) = [] := by
    split
    · next hop =>
      -- A poll at which the completion is due gives the end, and no data with it.
      subst hop
      rw [← (h.mirrors hpresent).poll.1, Observed.result_of_due hdue]
      rfl
    · rfl
  rw [hsame, List.append_nil] at hcaptured
  obtain ⟨c, hc, hoctets⟩ := Option.map_eq_some_iff.mp hcaptured
  simp [tell, hnone, capture, hc, hoctets]

/-- Once its inner body has ended, or it was dropped, no operation gets at the inner body of a body
any more. -/
theorem inner_after (h : w.dropped = true ∨ w.body.done = true) (ops : List Operation) :
    (w.after ops).body.inner = w.body.inner := by
  induction ops generalizing w with
  | nil => rfl
  | cons op ops ih =>
    rw [after_cons]
    by_cases hdropped : w.dropped = true
    · rw [step_of_dropped hdropped]
      exact ih h
    · obtain ⟨hinner, hdone⟩ := Observed.inner_undergo (h.resolve_left hdropped) op
      rw [step_of_present (by simpa using hdropped)]
      refine (ih (.inr ?_)).trans ?_ <;> dsimp only
      · rwa [tell_body]
      · rwa [tell_body]

/-! ## Whose answer the outcome is -/

/-- The same body with another outcome of its completion. -/
def withOutcome (w : Watch) (outcome : Except Error Unit) : Watch := { w with outcome }

/-- The same body with another inner body in its place. -/
def withInner (w : Watch) (inner : Script) : Watch :=
  { w with body := { w.body with inner } }

theorem step_withOutcome (w : Watch) (outcome : Except Error Unit) (op : Operation) :
    ((w.withOutcome outcome).step op).2 = (w.step op).2.withOutcome outcome := by
  by_cases h : w.dropped = true
  · rw [step_of_dropped h, step_of_dropped (w := w.withOutcome outcome) h]
  · have hpresent : w.dropped = false := by simpa using h
    rw [step_of_present hpresent, step_of_present (w := w.withOutcome outcome) hpresent]
    change Watch.mk _ _ _ _ = Watch.mk _ _ _ _
    rw [withOutcome]
    dsimp only
    cases (w.body.undergo op).2 <;> rfl

theorem after_withOutcome (w : Watch) (outcome : Except Error Unit) (ops : List Operation) :
    (w.withOutcome outcome).after ops = (w.after ops).withOutcome outcome := by
  induction ops generalizing w with
  | nil => rfl
  | cons op ops ih =>
    rw [after_cons, after_cons, step_withOutcome]
    exact ih _

/-- The operation at which the completion is due gives its outcome: a poll the error in place of the
end, and a close the outcome itself. -/
theorem answer_of_due {op : Operation} (hdue : (w.body.undergo op).2 = true) :
    w.answer op = op.returning w.outcome := by
  cases op with
  | poll =>
    have hdue : w.body.poll.due = true := hdue
    rw [answer, hdue, Observed.result_of_due hdue]
    cases w.outcome <;> rfl
  | close => exact congrArg Answer.closed (if_pos hdue)
  | drop => rfl
  | isEndStream => cases hdue
  | sizeHint => cases hdue

/-- No other operation gives anything of the outcome, before the completion or after it. -/
theorem answer_of_not_due {op : Operation} (hdue : (w.body.undergo op).2 = false)
    (outcome : Except Error Unit) : (w.withOutcome outcome).answer op = w.answer op := by
  cases op with
  | poll =>
    have hdue : w.body.poll.due = false := hdue
    rw [answer, answer, withOutcome, hdue]
  | close =>
    have hdue : w.body.complete.2 = false := hdue
    rw [answer, answer, withOutcome, hdue]
    rfl
  | drop => rfl
  | isEndStream => rfl
  | sizeHint => rfl

/-- While the completion is awaited the body does not say that it has ended, so one that says so
is over and has told of it. -/
theorem Watched.over_of_isEndStream (h : Watched inner ops w)
    (hsaid : (w.step .isEndStream).1 = .ended true) : Completed inner ops := by
  rw [← h.complete]
  by_contra hnot
  have hnot : w.body.isComplete = false := by simpa using hnot
  have hpresent : w.dropped = false := by
    rw [← Bool.not_eq_true]
    intro hdropped
    rw [step_of_dropped hdropped] at hsaid
    cases hsaid
  rw [step_of_present hpresent] at hsaid
  have hends : w.body.isEndStream = true := Answer.ended.inj hsaid
  rw [Observed.isEndStream, h.attended.awaited, hnot] at hends
  -- It is awaited, so that only its having ended could make it say so.
  have hdone : w.body.done = true := by simpa using hends
  rw [h.attended.ended hdone] at hnot
  cases hnot

/-! ## The result -/

/-- **The completion runs once, at the operation that ends the body.** Whatever the inner
body does, and whatever operations are done on an observed body with someone who waits:

* who waits is told at most once, and has been told exactly if one of the operations is a
  close or the drop or the inner body has ended at one of the polls; just then the capture
  is complete;
* a body that says it has ended has told of it;
* the operation at which that happens gives the outcome (a drop has nothing to give it
  with), and all that was heard before it is what is told, for good; the answer of every
  other operation is the same whatever the outcome;
* once the inner body has ended it is never polled again, so that any other body could stand
  in its place and would be left as it is. -/
theorem completion_runs_once (inner : Script) (outcome : Except Error Unit)
    (ops : List Operation) :
    let w := (fresh inner outcome).after ops
    w.told.length ≤ 1
      ∧ (w.told ≠ [] ↔ Completed inner ops)
      ∧ (w.capture.complete = true ↔ w.told ≠ [])
      ∧ ((w.step .isEndStream).1 = .ended true → w.told ≠ [])
      ∧ (∀ before op later, ops = before ++ op :: later →
          (Triggers inner before op →
            (((fresh inner outcome).after before).step op).1 = op.returning outcome
              ∧ w.told = [octetsOf (heard inner before)])
          ∧ (¬ Triggers inner before op → ∀ other,
            (((fresh inner other).after before).step op).1
              = (((fresh inner outcome).after before).step op).1))
      ∧ ((heard inner ops).any Poll.isEnded = true →
          ∀ other later, ((w.withInner other).after later).body.inner = other) := by
  intro w
  have hw : Watched inner ops w := watched_after inner outcome ops
  refine ⟨?_, hw.told_ne_nil, ?_, ?_, ?_, ?_⟩
  · rw [hw.told]
    exact Bool.toNat_le _
  · rw [hw.told_ne_nil, ← hw.complete]
    obtain ⟨c, hc⟩ := Option.isSome_iff_exists.mp hw.attended.captured
    simp [capture, Observed.isComplete, hc]
  · intro hsaid
    exact hw.told_ne_nil.mpr (hw.over_of_isEndStream hsaid)
  · rintro before op later rfl
    have hbefore : Watched inner before ((fresh inner outcome).after before) :=
      watched_after inner outcome before
    have houtcome : ((fresh inner outcome).after before).outcome = outcome :=
      congrArg Watch.outcome (after_withOutcome (fresh inner outcome) outcome before)
    constructor
    · intro htriggers
      have hpresent : .drop ∉ before := fun hdrop => htriggers.1 (.inr (.inl hdrop))
      have hdue := (hbefore.due_iff hpresent op).mpr htriggers
      refine ⟨?_, ?_⟩
      · rw [step_of_present (hbefore.present hpresent), answer_of_due hdue, houtcome]
      · change ((fresh inner outcome).after (before ++ op :: later)).told = _
        rw [after_append]
        exact hbefore.told_of_triggers htriggers later
    · intro hquiet other
      have hother : (fresh inner other).after before
          = ((fresh inner outcome).after before).withOutcome other :=
        after_withOutcome (fresh inner outcome) other before
      rw [hother]
      by_cases hdropped : ((fresh inner outcome).after before).dropped = true
      · rw [step_of_dropped hdropped, step_of_dropped (by exact hdropped)]
      · have hpresent := Bool.eq_false_iff.mpr hdropped
        rw [step_of_present hpresent, step_of_present (by exact hpresent)]
        apply answer_of_not_due
        rw [← Bool.not_eq_true, hbefore.due_iff (hbefore.not_mem hpresent)]
        exact hquiet
  · intro hheard other later
    refine inner_after (w := w.withInner other) ?_ later
    by_cases hdrop : .drop ∈ ops
    · exact .inl (hw.dropped.mpr hdrop)
    · refine .inr ?_
      rw [any_heard, ← (hw.mirrors hdrop).done] at hheard
      exact hheard

end Watch

end ExchangeArchive.Body
