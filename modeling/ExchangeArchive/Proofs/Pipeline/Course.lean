import ExchangeArchive.Pipeline.Run
/-
The course of a record through a pipeline.

A pipeline is a sink inside a sink, put together from the receiver outward. What it does to a
record is said here from the first step to the last instead, without sinks: `course` lists who
sees which record in which order, one copy being followed to its end before the next, and
`followEntry` walks along the course and stops at the first failure.

Where the work is: a step that forwards twice puts the same course behind itself twice, so
walking along two courses one after the other has to be the same as walking along the joined one
(`followEntry_append`). That the first failure ends everything is the same fact, since none of
the steps goes on after an error of the next sink.

The course is the whole of what would happen if nothing failed. `seenBy_succ` and
`arrivals_course` say what it hangs together by: each step sees just what the one before
forwarded, and the receiver gets what the last one forwarded.
-/

set_option autoImplicit false

namespace ExchangeArchive.Pipeline

open ExchangeArchive.Archive

/-! ## Courses -/

/-- Something that happens to a record on its way. -/
inductive Happening (α : Type) where
  /-- The step of a number sees a record. -/
  | sees (number : Nat) (x : α)
  /-- The step that saw a record last refuses it. -/
  | refused (message : String)
  /-- A record gets to the receiver. -/
  | arrives (x : α)

/-- What happens to a record from the step of a number on, if nothing fails. It is in the order in
which it happens: a copy goes all the way before the next one sets out. -/
def course {α : Type} : List (Step α) → Nat → α → List (Happening α)
  | [], _, x => [.arrives x]
  | .change f :: rest, k, x => .sees k x :: course rest (k + 1) (f x)
  | .reject message :: _, k, x => [.sees k x, .refused message]
  | .drop :: _, k, x => [.sees k x]
  | .twice :: rest, k, x => .sees k x :: (course rest (k + 1) x ++ course rest (k + 1) x)

/-- The copies that a step forwards of a record: one, changed or not, or none, or two. -/
def Step.forwards {α : Type} : Step α → α → List α
  | .change f, x => [f x]
  | .reject _, _ => []
  | .drop, _ => []
  | .twice, x => [x, x]

/-- The records that the step of a number sees, in their order. -/
def seenBy {α : Type} (k : Nat) : List (Happening α) → List α
  | [] => []
  | .sees number x :: later => if number = k then x :: seenBy k later else seenBy k later
  | _ :: later => seenBy k later

/-- The records that get to the receiver, in their order. -/
def arrivals {α : Type} : List (Happening α) → List α
  | [] => []
  | .arrives x :: later => x :: arrivals later
  | _ :: later => arrivals later

section Courses

variable {α : Type} {steps : List (Step α)} {step : Step α} {k n : Nat} {x : α}

theorem seenBy_append (before later : List (Happening α)) :
    seenBy k (before ++ later) = seenBy k before ++ seenBy k later := by
  induction before with
  | nil => rfl
  | cons happening before ih =>
    cases happening with
    | sees number x =>
      rw [List.cons_append, seenBy, seenBy, ih]
      split <;> rfl
    | refused message => exact ih
    | arrives x => exact ih

theorem arrivals_append (before later : List (Happening α)) :
    arrivals (before ++ later) = arrivals before ++ arrivals later := by
  induction before with
  | nil => rfl
  | cons happening before ih =>
    cases happening with
    | arrives x => exact congrArg (x :: ·) ih
    | sees number x => exact ih
    | refused message => exact ih

/-- After a step has seen a record, the courses of what it forwards follow, one by one. -/
theorem seenBy_course_cons (k : Nat) (step : Step α) (rest : List (Step α)) (n : Nat) (x : α) :
    seenBy k (course (step :: rest) n x)
      = (if n = k then [x] else [])
        ++ (step.forwards x).flatMap fun y => seenBy k (course rest (n + 1) y) := by
  have hsees : ∀ later, seenBy k (.sees n x :: later)
      = (if n = k then [x] else []) ++ seenBy k later := by
    intro later
    rw [seenBy]
    split <;> rfl
  cases step with
  | twice => simp only [course, hsees, seenBy_append, Step.forwards, List.flatMap_cons,
      List.flatMap_nil, List.append_nil]
  | change f => simp only [course, hsees, Step.forwards, List.flatMap_singleton]
  | reject message => exact hsees [.refused message]
  | drop => exact hsees []

theorem arrivals_course_cons (step : Step α) (rest : List (Step α)) (n : Nat) (x : α) :
    arrivals (course (step :: rest) n x)
      = (step.forwards x).flatMap fun y => arrivals (course rest (n + 1) y) := by
  cases step with
  | twice => simp only [course, arrivals, arrivals_append, Step.forwards, List.flatMap_cons,
      List.flatMap_nil, List.append_nil]
  | change f => simp only [course, arrivals, Step.forwards, List.flatMap_singleton]
  | reject message => rfl
  | drop => rfl

/-- A number below that of the first step is nobody's. -/
theorem seenBy_course_of_lt (h : k < n) (x : α) : seenBy k (course steps n x) = [] := by
  induction steps generalizing n x with
  | nil => rfl
  | cons step rest ih =>
    have hne : ¬n = k := by omega
    rw [seenBy_course_cons, if_neg hne, List.nil_append, List.flatMap_eq_nil_iff]
    intro y _
    exact ih (by omega) y

/-- The first step sees the record as it was sent, and nothing else. -/
theorem seenBy_first (step : Step α) (rest : List (Step α)) (n : Nat) (x : α) :
    seenBy n (course (step :: rest) n x) = [x] := by
  rw [seenBy_course_cons, if_pos rfl]
  have hnone : ((step.forwards x).flatMap fun y => seenBy n (course rest (n + 1) y)) = [] := by
    rw [List.flatMap_eq_nil_iff]
    intro y _
    exact seenBy_course_of_lt (Nat.lt_succ_self n) y
  rw [hnone, List.append_nil]

/-- **Each later step sees what the one before forwarded**, and nothing else. The induction is
on the steps; the step in question is the first at its end. -/
theorem seenBy_succ (h : steps[k]? = some step) (hnext : k + 1 < steps.length) (n : Nat) (x : α) :
    seenBy (n + k + 1) (course steps n x)
      = (seenBy (n + k) (course steps n x)).flatMap step.forwards := by
  induction steps generalizing k n x with
  | nil => cases h
  | cons first rest ih =>
    cases k with
    | zero =>
      obtain rfl : first = step := Option.some.inj h
      obtain ⟨second, others, rfl⟩ : ∃ second others, rest = second :: others := by
        cases rest with
        | nil => simp at hnext
        | cons second others => exact ⟨second, others, rfl⟩
      have hne : ¬n = n + 1 := by omega
      show seenBy (n + 1) _ = (seenBy n _).flatMap first.forwards
      rw [seenBy_first, seenBy_course_cons, if_neg hne, List.nil_append]
      simp only [seenBy_first, List.flatMap_singleton, List.flatMap_singleton']
    | succ k =>
      have hrest : rest[k]? = some step := h
      have hlt : k + 1 < rest.length := by simpa using hnext
      have hone : ¬n = n + (k + 1) + 1 := by omega
      have htwo : ¬n = n + (k + 1) := by omega
      have hnumber : n + (k + 1) = n + 1 + k := by omega
      rw [seenBy_course_cons, seenBy_course_cons, if_neg hone, if_neg htwo, List.nil_append,
        List.nil_append, List.flatMap_assoc, hnumber]
      simp only [ih hrest hlt]

/-- **The receiver gets what the last step forwarded**, and nothing else. It is `seenBy_succ` for
what comes after the last step. -/
theorem arrivals_course (h : steps.getLast? = some step) (n : Nat) (x : α) :
    arrivals (course steps n x)
      = (seenBy (n + (steps.length - 1)) (course steps n x)).flatMap step.forwards := by
  induction steps generalizing n x with
  | nil => cases h
  | cons first rest ih =>
    rw [arrivals_course_cons]
    cases rest with
    | nil =>
      obtain rfl : first = step := Option.some.inj h
      have harrives : ∀ y : α, arrivals (course [] (n + 1) y) = [y] := fun _ => rfl
      show _ = (seenBy n _).flatMap first.forwards
      rw [seenBy_first]
      simp only [harrives, List.flatMap_singleton, List.flatMap_singleton']
    | cons second others =>
      have hlast : (second :: others).getLast? = some step := by simpa using h
      have hne : ¬n = n + ((first :: second :: others).length - 1) := by simp
      have hnumber : n + ((first :: second :: others).length - 1)
          = n + 1 + ((second :: others).length - 1) := by
        simp only [List.length_cons]
        omega
      rw [seenBy_course_cons, if_neg hne, List.nil_append, List.flatMap_assoc, hnumber]
      simp only [ih hlast]

end Courses

/-! ## Following a course -/

section Following

variable {σ : Type}

/-- Walks along a course of entries to the first failure. Who sees a record may note it on the
state. -/
def followEntry (note : Nat → Entry → σ → σ) (receive : EntrySink σ) :
    List (Happening Entry) → StateM σ (Except Error Unit)
  | [] => pure (.ok ())
  | .sees k x :: rest => do modify (note k x); followEntry note receive rest
  | .refused message :: _ => pure (.error (.middleware message))
  | .arrives x :: rest => do
    match ← receive x with
    | .error failure => return .error failure
    | .ok () => followEntry note receive rest

/-- Walks along a course of pages. There is nothing to refuse a page with, so all of it is
walked. -/
def followPage (note : Nat → Page → σ → σ) (receive : PageSink σ) :
    List (Happening Page) → StateM σ Unit
  | [] => pure ()
  | .sees k x :: rest => do modify (note k x); followPage note receive rest
  | .refused _ :: rest => followPage note receive rest
  | .arrives x :: rest => do receive x; followPage note receive rest

/-- The middleware of numbered steps, which note what they see. By the notes the order in which the
steps see a record can be told from the state. -/
def notingEntry (note : Nat → Entry → σ → σ) (steps : List (Step Entry)) (n : Nat) :
    List (EntryMiddleware σ) :=
  (steps.zipIdx n).map fun (step, k) next x => noting (note k x) step.toEntryMiddleware next x

/-- The middleware of numbered steps for pages. -/
def notingPage (note : Nat → Page → σ → σ) (steps : List (Step Page)) (n : Nat) :
    List (PageMiddleware σ) :=
  (steps.zipIdx n).map fun (step, k) next x => noting (note k x) step.toPageMiddleware next x

variable {note : Nat → Entry → σ → σ} {receive : EntrySink σ}
  {notePage : Nat → Page → σ → σ} {receivePage : PageSink σ}

/-- A course that comes after another is walked along if the other goes well, and otherwise the
failure of that is the answer. -/
theorem followEntry_append (before later : List (Happening Entry)) :
    followEntry note receive (before ++ later) = (do
      match ← followEntry note receive before with
      | .error failure => return .error failure
      | .ok () => followEntry note receive later) := by
  induction before with
  | nil => rfl
  | cons happening before ih =>
    cases happening with
    | sees k x =>
      simp only [List.cons_append, followEntry, ih, bind_assoc]
    | refused message => rfl
    | arrives x =>
      simp only [List.cons_append, followEntry, ih, bind_assoc]
      -- Either side goes on after the receiver's answer, and stops if that is an error.
      congr 1
      funext answer
      cases answer <;> rfl

theorem followPage_append (before later : List (Happening Page)) :
    followPage notePage receivePage (before ++ later) = (do
      followPage notePage receivePage before
      followPage notePage receivePage later) := by
  induction before with
  | nil => rfl
  | cons happening before ih =>
    cases happening with
    | sees k x => simp only [List.cons_append, followPage, ih, bind_assoc]
    | refused message => exact ih
    | arrives x => simp only [List.cons_append, followPage, ih, bind_assoc]

/-- **Sinks inside sinks do what the course says.** The induction is on the steps, from the receiver
outward; the step that forwards twice is the one case that takes an argument. -/
theorem compose_notingEntry (steps : List (Step Entry)) (n : Nat) (x : Entry) :
    compose (notingEntry note steps n) receive x
      = followEntry note receive (course steps n x) := by
  induction steps generalizing n x with
  | nil =>
    show receive x = do
      match ← receive x with
      | .error failure => return .error failure
      | .ok () => pure (.ok ())
    funext s
    show receive x s = _
    simp only [bind, StateT.bind, pure]
    rcases receive x s with ⟨_ | _, s'⟩ <;> rfl
  | cons step rest ih =>
    have hcons : compose (notingEntry note (step :: rest) n) receive x = (do
        modify (note n x)
        step.toEntryMiddleware (compose (notingEntry note rest (n + 1)) receive) x) := by
      simp [notingEntry, compose, List.zipIdx_cons, noting]
    rw [hcons]
    cases step with
    | change f => simp only [Step.toEntryMiddleware, ih, course, followEntry]
    | reject message => rfl
    | drop => rfl
    | twice =>
      rw [course, followEntry, followEntry_append, ← ih]
      rfl

theorem compose_notingPage (steps : List (Step Page)) (n : Nat) (x : Page) :
    compose (notingPage notePage steps n) receivePage x
      = followPage notePage receivePage (course steps n x) := by
  induction steps generalizing n x with
  | nil => rfl
  | cons step rest ih =>
    have hcons : compose (notingPage notePage (step :: rest) n) receivePage x = (do
        modify (notePage n x)
        step.toPageMiddleware (compose (notingPage notePage rest (n + 1)) receivePage) x) := by
      simp [notingPage, compose, List.zipIdx_cons, noting]
    rw [hcons]
    cases step with
    | change f => simp only [Step.toPageMiddleware, ih, course, followPage]
    | reject message => rfl
    | drop => rfl
    | twice => simp only [Step.toPageMiddleware, ih, course, followPage, followPage_append]

/-- What of a course fails at a state: a refusal, or an arrival that the receiver answers with
an error. To be seen is no failure. -/
def Fails (receive : EntrySink σ) (s : σ) (failure : Error) (s' : σ) : Happening Entry → Prop
  | .sees _ _ => False
  | .refused message => failure = .middleware message ∧ s' = s
  | .arrives x => receive x s = (.error failure, s')

/-- A course whose first part goes well is walked on from the state that this led to. -/
theorem followEntry_after {before : List (Happening Entry)} {s s₀ : σ}
    (h : followEntry note receive before s = (.ok (), s₀)) (later : List (Happening Entry)) :
    followEntry note receive (before ++ later) s = followEntry note receive later s₀ := by
  rw [followEntry_append]
  simp only [bind, StateT.bind, h]

theorem followEntry_of_fails {happening : Happening Entry} {s s' : σ} {failure : Error}
    (h : Fails receive s failure s' happening) (later : List (Happening Entry)) :
    followEntry note receive (happening :: later) s = (.error failure, s') := by
  cases happening with
  | sees k x => exact h.elim
  | refused message =>
    obtain ⟨rfl, rfl⟩ := h
    rfl
  | arrives x =>
    have hreceive : receive x s = (.error failure, s') := h
    simp only [followEntry, bind, StateT.bind, hreceive]
    rfl

/-- **A course fails with the first failure on it.** The induction is on the course; a happening
that goes well becomes part of what lies before the failure. -/
theorem followEntry_fails_iff (happenings : List (Happening Entry)) (s s' : σ)
    (failure : Error) :
    followEntry note receive happenings s = (.error failure, s')
      ↔ ∃ before happening later s₀, happenings = before ++ happening :: later
        ∧ followEntry note receive before s = (.ok (), s₀)
        ∧ Fails receive s₀ failure s' happening := by
  constructor
  · intro h
    induction happenings generalizing s with
    | nil => cases h
    | cons happening rest ih =>
      -- If one more happening goes well, the failure is that of the rest.
      have hlater : ∀ s₁, followEntry note receive [happening] s = (.ok (), s₁) →
          ∃ before failing later s₀, happening :: rest = before ++ failing :: later
            ∧ followEntry note receive before s = (.ok (), s₀)
            ∧ Fails receive s₀ failure s' failing := by
        intro s₁ hone
        have hrest : followEntry note receive rest s₁ = (.error failure, s') := by
          rw [← h]
          exact (followEntry_after hone rest).symm
        obtain ⟨before, failing, later, s₀, rfl, hbefore, hfails⟩ := ih s₁ hrest
        refine ⟨happening :: before, failing, later, s₀, rfl, ?_, hfails⟩
        rw [← hbefore]
        exact followEntry_after hone before
      cases happening with
      | sees k x => exact hlater (note k x s) rfl
      | refused message =>
        refine ⟨[], .refused message, rest, s, rfl, rfl, ?_⟩
        cases h
        exact ⟨rfl, rfl⟩
      | arrives x =>
        rcases hreceive : receive x s with ⟨answer, s₁⟩
        cases answer with
        | error other =>
          have hfails : Fails receive s other s₁ (.arrives x) := hreceive
          rw [followEntry_of_fails hfails rest] at h
          cases h
          exact ⟨[], .arrives x, rest, s, rfl, rfl, hfails⟩
        | ok =>
          apply hlater s₁
          simp only [followEntry, bind, StateT.bind, hreceive]
          rfl
  · rintro ⟨before, happening, later, s₀, rfl, hbefore, hfails⟩
    rw [followEntry_after hbefore]
    exact followEntry_of_fails hfails later

end Following

/-! ## Plain steps -/

section Plain

variable {σ : Type}

/-- Without notes, the sinks inside sinks are the run from the first step to the last, which is how
a built pipeline is run. -/
theorem compose_entry_steps (receive : EntrySink σ) (steps : List (Step Entry)) :
    compose (steps.map Step.toEntryMiddleware) receive = runEntry receive steps := by
  induction steps with
  | nil => rfl
  | cons step rest ih =>
    funext e
    have hcons : compose ((step :: rest).map Step.toEntryMiddleware) receive
        = step.toEntryMiddleware (compose (rest.map Step.toEntryMiddleware) receive) := rfl
    rw [hcons, ih]
    cases step <;> rfl

theorem compose_page_steps (receivePage : PageSink σ) (steps : List (Step Page)) :
    compose (steps.map Step.toPageMiddleware) receivePage = runPage receivePage steps := by
  induction steps with
  | nil => rfl
  | cons step rest ih =>
    funext x
    have hcons : compose ((step :: rest).map Step.toPageMiddleware) receivePage
        = step.toPageMiddleware (compose (rest.map Step.toPageMiddleware) receivePage) := rfl
    rw [hcons, ih]
    cases step <;> rfl

end Plain

/-- How the happenings of a record hang together. Each field speaks of one step and the next, so
that together they say what every step sees of a record that is sent. -/
structure Linked {α : Type} (steps : List (Step α)) (x : α) (happenings : List (Happening α)) :
    Prop where
  /-- Without steps the record gets to the receiver as it is. -/
  direct : steps = [] → happenings = [.arrives x]
  /-- The first step sees the record before anything else happens, and sees it once. -/
  first : steps ≠ [] → happenings.head? = some (.sees 0 x) ∧ seenBy 0 happenings = [x]
  /-- A later step sees what the one before forwards of what that sees. -/
  next : ∀ k step, steps[k]? = some step → k + 1 < steps.length →
    seenBy (k + 1) happenings = (seenBy k happenings).flatMap step.forwards
  /-- The receiver gets what the last step forwards of what that sees. -/
  last : ∀ step, steps.getLast? = some step →
    arrivals happenings = (seenBy (steps.length - 1) happenings).flatMap step.forwards

theorem linked_course {α : Type} (steps : List (Step α)) (x : α) :
    Linked steps x (course steps 0 x) where
  direct := by
    rintro rfl
    rfl
  first hne := by
    obtain ⟨step, rest, rfl⟩ := List.exists_cons_of_ne_nil hne
    refine ⟨?_, seenBy_first step rest 0 x⟩
    cases step <;> rfl
  next k step h hnext := by
    have hsucc := seenBy_succ h hnext 0 x
    rwa [Nat.zero_add] at hsucc
  last step h := by
    have harrivals := arrivals_course h 0 x
    rwa [Nat.zero_add] at harrivals

/-- **A pipeline sends a record along its course.**

Steps may note on the state what they see, so the order in which they see the record is part of
the equations, as are the receiver's own effects. An entry goes along its course to the first
failure, which is the answer; a page goes along all of its own. Courses are linked from each step
to the next. Plain steps are the run from the first to the last, and a pipeline of whatever
middleware is its first part built over the rest. -/
theorem pipeline_follows_course {σ : Type} (receive : EntrySink σ) (receivePage : PageSink σ) :
    (∀ (note : Nat → Entry → σ → σ) (notePage : Nat → Page → σ → σ)
      (steps : List (Step Entry)) (pageSteps : List (Step Page)),
      let pipeline := ExchangeArchive.Pipeline.new receive receivePage
        (notingEntry note steps 0) (notingPage notePage pageSteps 0)
      (∀ e, pipeline.sendEntry e = followEntry note receive (course steps 0 e))
        ∧ ∀ p, pipeline.sendPage p = followPage notePage receivePage (course pageSteps 0 p))
    ∧ (∀ {α : Type} (steps : List (Step α)) (x : α), Linked steps x (course steps 0 x))
    ∧ (∀ (note : Nat → Entry → σ → σ) happenings s s' failure,
      followEntry note receive happenings s = (.error failure, s')
        ↔ ∃ before happening later s₀, happenings = before ++ happening :: later
          ∧ followEntry note receive before s = (.ok (), s₀)
          ∧ Fails receive s₀ failure s' happening)
    ∧ (∀ (steps : List (Step Entry)) (pageSteps : List (Step Page)),
      ExchangeArchive.Pipeline.new receive receivePage (steps.map Step.toEntryMiddleware)
          (pageSteps.map Step.toPageMiddleware)
        = ⟨runEntry receive steps, runPage receivePage pageSteps⟩)
    ∧ ∀ (outer inner : List (EntryMiddleware σ)) (outerPage innerPage : List (PageMiddleware σ)),
      ExchangeArchive.Pipeline.new receive receivePage (outer ++ inner) (outerPage ++ innerPage)
        = (let rest := ExchangeArchive.Pipeline.new receive receivePage inner innerPage
          ExchangeArchive.Pipeline.new rest.sendEntry rest.sendPage outer outerPage) := by
  refine ⟨?_, linked_course, ?_, ?_, ?_⟩
  · intro note notePage steps pageSteps
    exact ⟨compose_notingEntry steps 0, compose_notingPage pageSteps 0⟩
  · intro note
    exact followEntry_fails_iff
  · intro steps pageSteps
    simp only [ExchangeArchive.Pipeline.new, compose_entry_steps, compose_page_steps]
  · intro outer inner outerPage innerPage
    simp only [ExchangeArchive.Pipeline.new, compose_append]

end ExchangeArchive.Pipeline
