import ExchangeArchive.Proofs.Body.Completion
/-
What an observed body captures, and who awaits it.

A poll adds the data that it gives to what was captured, whether or not the body ends with
it, and completing a body adds nothing. A completion becomes due only while it is awaited,
and from then on nobody awaits it any more.
-/

set_option autoImplicit false

namespace ExchangeArchive.Body

theorem Poll.octets_mapError {ε δ : Type} (f : ε → δ) (p : Poll ε) :
    (p.mapError f).octets = p.octets := by
  cases p <;> rfl

/-- The data of several polls. -/
def octetsOf {ε : Type} (polls : List (Poll ε)) : List UInt8 := polls.flatMap Poll.octets

namespace Observed

/-- The octets that were captured, if the body is observed. -/
def captured (o : Observed) : Option (List UInt8) := o.capture.map (·.octets)

theorem captured_complete (o : Observed) : o.complete.1.captured = o.captured := by
  rw [complete]
  split
  · rfl
  · next c hc =>
    split
    · rfl
    · rw [captured, captured, hc]
      rfl

/-- A poll captures the data that it gives, and nothing if it gives none. A body that is not
observed captures nothing either way. -/
theorem captured_poll (o : Observed) :
    o.poll.body.captured = o.captured.map (· ++ o.poll.result.octets) := by
  by_cases hdone : o.done = true
  · rw [poll_of_done hdone]
    simp [Poll.octets]
  · have hdone : o.done = false := by simpa using hdone
    rcases hp : o.inner.poll with ⟨waited, p, inner⟩
    by_cases hend : p.isEnded = true
    · obtain rfl : p = .ended := Poll.eq_ended hend
      -- The end brings no octets, and closing the body keeps what was captured.
      rw [poll_of_ended hdone hp]
      refine (captured_complete _).trans ?_
      simp [Poll.octets, captured, Function.comp_def]
    · rw [poll_of_going hdone hp (by simpa using hend)]
      simp only [captured, observe, Poll.octets_mapError, Option.map_map]
      rfl

/-- Once a completion is due nobody awaits it any more, so it is never due a second time. -/
theorem awaited_complete {o : Observed} (h : o.complete.2 = true) :
    o.awaited = true ∧ o.complete.1.awaited = false := by
  rw [complete] at h ⊢
  split at h
  · cases h
  · split at h
    · cases h
    · next hc hcomplete =>
      rw [if_neg hcomplete]
      exact ⟨h, rfl⟩

/-- A body that is awaited after it was completed was awaited before. -/
theorem awaited_of_complete {o : Observed} (h : o.complete.1.awaited = true) :
    o.awaited = true := by
  rw [complete] at h
  split at h
  · exact h
  · split at h
    · exact h
    · cases h

/-- A completion that a poll makes due was awaited, and is not awaited any more. -/
theorem awaited_of_due {o : Observed} (h : o.poll.due = true) :
    o.awaited = true ∧ o.poll.body.awaited = false := by
  by_cases hdone : o.done = true
  · rw [poll_of_done hdone] at h
    cases h
  · have hdone : o.done = false := by simpa using hdone
    rcases hp : o.inner.poll with ⟨waited, p, inner⟩
    by_cases hend : p.isEnded = true
    · obtain rfl : p = .ended := Poll.eq_ended hend
      -- Only the end makes a completion due, and it does so by closing the body.
      rw [poll_of_ended hdone hp] at h ⊢
      exact awaited_complete h
    · rw [poll_of_going hdone hp (by simpa using hend)] at h
      cases h

/-- Draining captures the data of all its polls, in their order. The induction is on the fuel, which
is more than there are polls left. -/
theorem captured_drain (fuel : Nat) (o : Observed) :
    (o.drain fuel).2.1.captured = o.captured.map (· ++ octetsOf (o.drain fuel).1) := by
  induction fuel generalizing o with
  | zero => simp [drain, octetsOf]
  | succ fuel ih =>
    rw [drain]
    dsimp only
    split
    · rw [captured_poll]
      simp [octetsOf]
    · refine (ih o.poll.body).trans ?_
      rw [captured_poll, Option.map_map]
      simp [octetsOf, Function.comp_def, List.append_assoc]

end Observed

end ExchangeArchive.Body
