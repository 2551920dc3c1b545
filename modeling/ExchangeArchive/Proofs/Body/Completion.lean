import ExchangeArchive.Body.Observed
/-
When the completion of an observed body is due.

Three flags say how an observed body stands: whether its capture is complete, whether
someone waits for the completion, and whether the inner body has ended. `Attended` is
what they have to do with one another from the first poll to the last: the completion is
awaited just as long as the capture is not complete. From it follows the one fact that
the rest is built on: a poll, and likewise a close, makes the completion due exactly if it
ends the body (a close always does) and nothing has ended it before.

An unobserved body has no capture, so there is nothing to complete and no completion is
ever due.
-/

set_option autoImplicit false

namespace ExchangeArchive.Body

/-- Whether a poll gives the end of the body. -/
def Poll.isEnded {ε : Type} : Poll ε → Bool
  | .ended => true
  | _ => false

/-- There is only one poll that gives the end. -/
theorem Poll.eq_ended {ε : Type} {p : Poll ε} (h : p.isEnded = true) : p = .ended := by
  cases p with
  | ended => rfl
  | _ => cases h

/-- Changing the error of a poll does not make an end of it. -/
@[simp] theorem Poll.isEnded_mapError {ε δ : Type} (f : ε → δ) (p : Poll ε) :
    (p.mapError f).isEnded = p.isEnded := by
  cases p <;> rfl

namespace Observed

/-! ## What a poll is -/

/-- After its end a body is not polled any more: it says so again, and nothing comes of that. -/
theorem poll_of_done {o : Observed} (h : o.done = true) : o.poll = ⟨0, .ended, false, o⟩ := by
  rw [poll, if_pos h]

/-- The end of the inner body ends the body and completes its capture. -/
theorem poll_of_ended {o : Observed} {waited : Nat} {inner : Script} (h : o.done = false)
    (hp : o.inner.poll = (waited, .ended, inner)) :
    o.poll = ⟨waited, .ended, (complete { o with inner := inner, done := true }).2,
      (complete { o with inner := inner, done := true }).1⟩ := by
  rw [poll, if_neg (by simp [h]), hp]

/-- Anything but the end of the inner body is passed on, and its data are captured. -/
theorem poll_of_going {o : Observed} {waited : Nat} {p : Poll String} {inner : Script}
    (h : o.done = false) (hp : o.inner.poll = (waited, p, inner)) (hgoing : p.isEnded = false) :
    o.poll = ⟨waited, p.mapError Error.body, false, o.observe p.octets inner⟩ := by
  rw [poll, if_neg (by simp [h]), hp]
  cases p with
  | ended => cases hgoing
  | _ => rfl

/-- Only an end makes a completion due: neither data nor a failure does. -/
theorem result_of_due {o : Observed} (h : o.poll.due = true) : o.poll.result = .ended := by
  by_cases hdone : o.done = true
  · rw [poll_of_done hdone]
  · have hdone : o.done = false := by simpa using hdone
    rcases hp : o.inner.poll with ⟨waited, p, inner⟩
    by_cases hend : p.isEnded = true
    · obtain rfl : p = .ended := Poll.eq_ended hend
      rw [poll_of_ended hdone hp]
    · rw [poll_of_going hdone hp (by simpa using hend)] at h
      cases h

/-- A body that gives its end has ended. -/
theorem done_of_ended {o : Observed} (h : o.poll.result.isEnded = true) :
    o.poll.body.done = true := by
  by_cases hdone : o.done = true
  · rw [poll_of_done hdone]
    exact hdone
  · have hdone : o.done = false := by simpa using hdone
    rcases hp : o.inner.poll with ⟨waited, p, inner⟩
    by_cases hend : p.isEnded = true
    · obtain rfl : p = .ended := Poll.eq_ended hend
      rw [poll_of_ended hdone hp]
      dsimp only
      rw [complete]
      split
      · rfl
      · split <;> rfl
    · rw [poll_of_going hdone hp (by simpa using hend)] at h
      rw [Poll.isEnded_mapError] at h
      exact absurd h hend

/-! ## Attended bodies -/

/-- Whether the capture is complete; an unobserved body has none. -/
def isComplete (o : Observed) : Bool := o.capture.any (·.complete)

/-- How the flags of a body hang together if someone waits for its completion. Once complete it is
awaited no more, and an end completes it; the other way round, a body that is closed is complete
without having ended. -/
structure Attended (o : Observed) : Prop where
  captured : o.capture.isSome = true
  awaited : o.awaited = !o.isComplete
  ended : o.done = true → o.isComplete = true

/-- At its beginning a body that someone waits for is attended. -/
theorem attended_new (inner : Script) : (new inner true).Attended :=
  ⟨rfl, rfl, by simp [new]⟩

/-- At its beginning nothing is complete, even if the inner body would say at once that it ends. -/
theorem isComplete_new (inner : Script) : (new inner true).isComplete = false := rfl

/-- Completing makes a completion due unless the capture was complete before, and leaves
it complete. That the body has ended need not have been taken down yet: an end sets `done`
first and completes then. -/
theorem attended_complete {o : Observed} (hcaptured : o.capture.isSome = true)
    (hawaited : o.awaited = !o.isComplete) :
    o.complete.1.Attended ∧ o.complete.1.isComplete = true ∧ o.complete.2 = !o.isComplete := by
  obtain ⟨c, hc⟩ := Option.isSome_iff_exists.mp hcaptured
  have hcomplete : o.isComplete = c.complete := by simp [isComplete, hc]
  by_cases hdone : c.complete = true
  · have heq : o.complete = (o, false) := by simp [complete, hc, hdone]
    rw [heq]
    exact ⟨⟨hcaptured, hawaited, fun _ => by rw [hcomplete, hdone]⟩, by rw [hcomplete, hdone],
      by simp [hcomplete, hdone]⟩
  · have heq : o.complete
        = ({ o with capture := some { c with complete := true }, awaited := false },
          o.awaited) := by
      simp [complete, hc, hdone]
    rw [heq]
    exact ⟨⟨rfl, rfl, fun _ => rfl⟩, rfl, hawaited⟩

/-- Closing an attended body makes the completion due if nothing has completed it before. -/
theorem Attended.complete {o : Observed} (h : o.Attended) :
    o.complete.1.Attended ∧ o.complete.1.isComplete = true ∧ o.complete.2 = !o.isComplete :=
  attended_complete h.captured h.awaited

/-- **What a poll preserves.** It makes the completion due exactly if it is the first thing to end
the body: a close before it would have completed it. -/
theorem Attended.poll {o : Observed} (h : o.Attended) :
    o.poll.body.Attended ∧ o.poll.body.isComplete = (o.isComplete || o.poll.result.isEnded) ∧
      o.poll.due = (!o.isComplete && o.poll.result.isEnded) := by
  by_cases hdone : o.done = true
  · have hcomplete := h.ended hdone
    rw [poll_of_done hdone]
    exact ⟨h, by simp [hcomplete], by simp [hcomplete]⟩
  · have hdone : o.done = false := by simpa using hdone
    rcases hp : o.inner.poll with ⟨waited, p, inner⟩
    by_cases hend : p.isEnded = true
    · -- `done` is set before the capture is completed.
      obtain rfl : p = .ended := Poll.eq_ended hend
      obtain ⟨hattended, hcomplete, hdue⟩ :=
        attended_complete (o := { o with inner := inner, done := true }) h.captured h.awaited
      rw [poll_of_ended hdone hp]
      exact ⟨hattended, by simp [hcomplete, Poll.isEnded], by simp [hdue, Poll.isEnded, isComplete]⟩
    · have hgoing : p.isEnded = false := by simpa using hend
      rw [poll_of_going hdone hp hgoing]
      -- Data change what is captured, not whether the capture is complete.
      have hsame : (o.observe p.octets inner).isComplete = o.isComplete := by
        cases hcap : o.capture <;> simp [isComplete, observe, hcap]
      refine ⟨⟨?_, ?_, ?_⟩, ?_, ?_⟩
      · simpa [observe] using h.captured
      · rw [hsame]; exact h.awaited
      · intro hd
        rw [hsame]
        exact h.ended hd
      · simp [hsame, hgoing]
      · simp [hgoing]

/-! ## Unobserved bodies -/

/-- Without a capture nothing is completed. -/
theorem complete_of_unobserved {o : Observed} (h : o.capture = none) :
    o.complete = (o, false) := by
  rw [complete, h]

/-- Without a capture no poll makes a completion due, and there never is a capture. -/
theorem poll_of_unobserved {o : Observed} (h : o.capture = none) :
    o.poll.body.capture = none ∧ o.poll.due = false := by
  by_cases hdone : o.done = true
  · rw [poll_of_done hdone]
    exact ⟨h, rfl⟩
  · have hdone : o.done = false := by simpa using hdone
    rcases hp : o.inner.poll with ⟨waited, p, inner⟩
    by_cases hend : p.isEnded = true
    · obtain rfl : p = .ended := Poll.eq_ended hend
      rw [poll_of_ended hdone hp, complete_of_unobserved (by exact h)]
      exact ⟨h, rfl⟩
    · rw [poll_of_going hdone hp (by simpa using hend)]
      exact ⟨by simp [observe, h], rfl⟩

/-- A body whose completion nobody awaits is not awaited after a poll either. -/
theorem awaited_poll {o : Observed} (h : o.awaited = false) : o.poll.body.awaited = false := by
  by_cases hdone : o.done = true
  · rw [poll_of_done hdone]
    exact h
  · have hdone : o.done = false := by simpa using hdone
    rcases hp : o.inner.poll with ⟨waited, q, inner⟩
    by_cases hend : q.isEnded = true
    · obtain rfl : q = .ended := Poll.eq_ended hend
      rw [poll_of_ended hdone hp]
      dsimp only
      rw [Observed.complete]
      split
      · exact h
      · split
        · exact h
        · rfl
    · rw [poll_of_going hdone hp (by simpa using hend)]
      exact h

end Observed

end ExchangeArchive.Body
