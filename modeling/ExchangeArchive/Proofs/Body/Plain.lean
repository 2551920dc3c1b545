import ExchangeArchive.Proofs.Body.Completion
/-
Bodies without an observer, and observed bodies that go with them.

A `Plain` body is what a reader sees who takes the first end of a body for its end; errors
come wrapped, as from a body under observation. What that means in terms of the script is
`pollMany_eq`: the polls are those of the script up to its first end, and from there on the
body has ended; the script itself is polled no further.

An observed body `Mirrors` a plain one as long as both have the same script left and have
ended or not ended together. Observing changes nothing about that, whether the body is
passed through, captured, or captured with someone who waits for the completion, and
neither does closing; so any number of polls give the same on both sides.
-/

set_option autoImplicit false

namespace ExchangeArchive.Body

/-! ## Many polls of a script -/

/-- Polls a body so many times: what the polls give, and the body after them. -/
def Script.pollMany : Nat → Script → List (Poll String) × Script
  | 0, s => ([], s)
  | k + 1, s =>
    let (polls, rest) := pollMany k s.poll.2.2
    (s.poll.2.1 :: polls, rest)

theorem Script.length_pollMany (k : Nat) (s : Script) : (s.pollMany k).1.length = k := by
  induction k generalizing s with
  | zero => rfl
  | succ k ih =>
    rw [Script.pollMany]
    exact congrArg Nat.succ (ih _)

/-- The polls up to the first end, with that. If none of them is an end, they are all there. -/
def upToEnd {ε : Type} : List (Poll ε) → List (Poll ε)
  | [] => []
  | p :: rest => if p.isEnded then [p] else p :: upToEnd rest

/-- Polls without an end are all of them. -/
theorem upToEnd_of_going {ε : Type} {polls : List (Poll ε)}
    (h : polls.any Poll.isEnded = false) : upToEnd polls = polls := by
  induction polls with
  | nil => rfl
  | cons p rest ih =>
    rw [List.any_cons, Bool.or_eq_false_iff] at h
    rw [upToEnd, h.1, if_neg Bool.false_ne_true, ih h.2]

/-! ## Plain bodies -/

/-- A body without an observer, and whether its reader has seen its end. A script may go on after
an end; a reader that has seen one never asks again. -/
structure Plain where
  script : Script
  ended : Bool := false

namespace Plain

/-- Polls a body: what it gives, and the body after that. -/
def poll (p : Plain) : Poll Error × Plain :=
  if p.ended then (.ended, p)
  else (p.script.poll.2.1.mapError Error.body, ⟨p.script.poll.2.2, p.script.poll.2.1.isEnded⟩)

/-- Polls a body so many times. -/
def pollMany : Nat → Plain → List (Poll Error) × Plain
  | 0, p => ([], p)
  | k + 1, p =>
    let (polls, rest) := pollMany k p.poll.2
    (p.poll.1 :: polls, rest)

/-- Polls a body up to its end or the first error. -/
def drain : (fuel : Nat) → Plain → List (Poll Error) × Plain
  | 0, p => ([], p)
  | fuel + 1, p =>
    if p.poll.1.isLast then ([p.poll.1], p.poll.2)
    else
      let (more, rest) := drain fuel p.poll.2
      (p.poll.1 :: more, rest)

/-- Whether the body says that it has ended. -/
def isEndStream (p : Plain) : Bool := p.ended || p.script.isEndStream

theorem poll_of_ended {p : Plain} (h : p.ended = true) : p.poll = (.ended, p) := by
  rw [poll, if_pos h]

theorem poll_of_going {p : Plain} (h : p.ended = false) :
    p.poll = (p.script.poll.2.1.mapError Error.body,
      ⟨p.script.poll.2.2, p.script.poll.2.1.isEnded⟩) := by
  rw [poll, if_neg (by simp [h])]

/-- After its end a body stays ended, and all that further polls give is that end. -/
theorem pollMany_of_ended {p : Plain} (h : p.ended = true) (k : Nat) :
    p.pollMany k = (List.replicate k .ended, p) := by
  induction k with
  | zero => rfl
  | succ k ih =>
    rw [pollMany, poll_of_ended h]
    dsimp only
    rw [ih, List.replicate_succ]

/-- **The polls of a plain body are those of its script up to the first end**, and then it
has ended. The script is polled up to there and no further. -/
theorem pollMany_eq {p : Plain} (h : p.ended = false) (k : Nat) :
    (p.pollMany k).1 = (upToEnd (p.script.pollMany k).1).map (Poll.mapError Error.body)
        ++ List.replicate (k - (upToEnd (p.script.pollMany k).1).length) .ended ∧
      (p.pollMany k).2.script = (p.script.pollMany (upToEnd (p.script.pollMany k).1).length).2 ∧
        (p.pollMany k).2.ended = (p.script.pollMany k).1.any Poll.isEnded := by
  induction k generalizing p with
  | zero => exact ⟨rfl, rfl, h⟩
  | succ k ih =>
    rw [pollMany, poll_of_going h, Script.pollMany]
    dsimp only
    rw [upToEnd]
    by_cases hend : p.script.poll.2.1.isEnded = true
    · -- The script has ended: nothing of it is polled any more.
      have hnext := pollMany_of_ended (p := ⟨p.script.poll.2.2, true⟩) rfl k
      rw [hend, hnext, if_pos rfl]
      refine ⟨?_, rfl, by simp [hend]⟩
      simp
    · -- The poll is passed on, and the rest is as for a body from here.
      have hgoing : p.script.poll.2.1.isEnded = false := by simpa using hend
      obtain ⟨hpolls, hscript, hended⟩ := ih (p := ⟨p.script.poll.2.2, false⟩) rfl
      rw [hgoing, if_neg Bool.false_ne_true]
      refine ⟨?_, ?_, ?_⟩
      · rw [hpolls, List.length_cons, Nat.succ_sub_succ]
        rfl
      · rw [hscript, List.length_cons, Script.pollMany]
      · rw [hended, List.any_cons, hgoing, Bool.false_or]

end Plain

/-! ## Observed bodies -/

namespace Observed

/-- Polls a body so many times. -/
def pollMany : Nat → Observed → List (Poll Error) × Observed
  | 0, o => ([], o)
  | k + 1, o =>
    let (polls, rest) := pollMany k o.poll.body
    (o.poll.result :: polls, rest)

/-- An observed body goes with a plain one. What is captured, and whether anyone awaits it, are of
no account to the reader, so the two fields are all that has to agree. -/
structure Mirrors (o : Observed) (p : Plain) : Prop where
  inner : o.inner = p.script
  done : o.done = p.ended

variable {o : Observed} {p : Plain}

/-- Closing a body is nothing that its reader could see: the inner body is not closed with it. -/
theorem Mirrors.complete (h : o.Mirrors p) : o.complete.1.Mirrors p := by
  rw [Observed.complete]
  cases o.capture with
  | none => exact h
  | some c =>
    dsimp only
    split <;> exact ⟨h.inner, h.done⟩

/-- **What a poll preserves.** It gives the same on both sides, and leaves bodies that go together,
whether it gives data, an error or the end. -/
theorem Mirrors.poll (h : o.Mirrors p) :
    o.poll.result = p.poll.1 ∧ o.poll.body.Mirrors p.poll.2 := by
  by_cases hended : p.ended = true
  · rw [poll_of_done (h.done.trans hended), Plain.poll_of_ended hended]
    exact ⟨rfl, h⟩
  · have hended : p.ended = false := by simpa using hended
    rcases hp : o.inner.poll with ⟨waited, q, inner⟩
    rw [Plain.poll_of_going hended, ← h.inner, hp]
    by_cases hend : q.isEnded = true
    · -- The observed body is closed as well, which its reader does not see.
      obtain rfl : q = .ended := Poll.eq_ended hend
      rw [poll_of_ended (h.done.trans hended) hp]
      exact ⟨rfl, Mirrors.complete ⟨rfl, rfl⟩⟩
    · have hgoing : q.isEnded = false := by simpa using hend
      rw [poll_of_going (h.done.trans hended) hp hgoing]
      exact ⟨rfl, rfl, (h.done.trans hended).trans hgoing.symm⟩

/-- So do many polls. -/
theorem Mirrors.pollMany (h : o.Mirrors p) (k : Nat) :
    (o.pollMany k).1 = (p.pollMany k).1 ∧ (o.pollMany k).2.Mirrors (p.pollMany k).2 := by
  induction k generalizing o p with
  | zero => exact ⟨rfl, h⟩
  | succ k ih =>
    obtain ⟨hresult, hnext⟩ := h.poll
    obtain ⟨hpolls, hrest⟩ := ih hnext
    rw [Observed.pollMany, Plain.pollMany]
    dsimp only
    rw [hresult, hpolls]
    exact ⟨rfl, hrest⟩

/-- So does draining. -/
theorem Mirrors.drain (h : o.Mirrors p) (fuel : Nat) :
    (o.drain fuel).1 = (p.drain fuel).1 ∧ (o.drain fuel).2.1.Mirrors (p.drain fuel).2 := by
  induction fuel generalizing o p with
  | zero => exact ⟨rfl, h⟩
  | succ fuel ih =>
    obtain ⟨hresult, hnext⟩ := h.poll
    obtain ⟨hpolls, hrest⟩ := ih hnext
    rw [Observed.drain, Plain.drain]
    dsimp only
    rw [hresult]
    split
    · exact ⟨rfl, hnext⟩
    · exact ⟨congrArg (p.poll.1 :: ·) hpolls, hrest⟩

/-- While nobody awaits the completion both sides say the same of having ended. A body that is
awaited says that it has not, as long as the completion has yet to come. -/
theorem Mirrors.isEndStream (h : o.Mirrors p) (hawaited : o.awaited = false) :
    o.isEndStream = p.isEndStream := by
  rw [Observed.isEndStream, Plain.isEndStream, h.done, h.inner, hawaited]
  simp

/-- The size hint is that of the script. -/
theorem Mirrors.sizeHint (h : o.Mirrors p) : o.sizeHint = p.script.sizeHint := by
  rw [Observed.sizeHint, h.inner]

/-! ## Passing a script on -/

/-- A body passes a script on: its polls are those of the script up to the first end, errors
wrapped, and then nothing but ends; its size hint is the one that the script has after as
many polls as were passed on. -/
structure Passes (o : Observed) (script : Script) : Prop where
  polls : ∀ k, (o.pollMany k).1
    = (upToEnd (script.pollMany k).1).map (Poll.mapError Error.body)
      ++ List.replicate (k - (upToEnd (script.pollMany k).1).length) .ended
  sizeHint : ∀ k, (o.pollMany k).2.sizeHint
    = (script.pollMany (upToEnd (script.pollMany k).1).length).2.sizeHint

/-- What goes with a plain body from its beginning passes its script on. This is `pollMany_eq` seen
from the observed side. -/
theorem Mirrors.passes {script : Script} (h : o.Mirrors ⟨script, false⟩) : o.Passes script := by
  refine ⟨fun k => ?_, fun k => ?_⟩
  · rw [(h.pollMany k).1]
    exact (Plain.pollMany_eq rfl k).1
  · rw [(h.pollMany k).2.sizeHint, (Plain.pollMany_eq rfl k).2.1]

/-- Nobody will await a completion that is not awaited, however often the body is polled. -/
theorem awaited_pollMany (h : o.awaited = false) (k : Nat) : (o.pollMany k).2.awaited = false := by
  induction k generalizing o with
  | zero => exact h
  | succ k ih => exact ih (awaited_poll h)

/-- Until the end has been polled, a body whose completion nobody awaits says of its end
what the script says. -/
theorem Mirrors.isEndStream_pollMany {script : Script} (h : o.Mirrors ⟨script, false⟩)
    (hawaited : o.awaited = false) {k : Nat}
    (hgoing : (script.pollMany k).1.any Poll.isEnded = false) :
    (o.pollMany k).2.isEndStream = (script.pollMany k).2.isEndStream := by
  obtain ⟨-, hscript, hended⟩ := Plain.pollMany_eq (p := ⟨script, false⟩) rfl k
  -- No poll was the end, so all of them were passed on to the script.
  rw [upToEnd_of_going hgoing, Script.length_pollMany] at hscript
  rw [(h.pollMany k).2.isEndStream (awaited_pollMany hawaited k), Plain.isEndStream, hscript,
    hended, hgoing, Bool.false_or]

end Observed

end ExchangeArchive.Body
