import ExchangeArchive.Transport.Stream
import Mathlib.Data.List.Induction
/-
**What a traced stream reports, said by its history.**

A traced stream keeps two flags and nothing else of its past. What they stand for is said here by
the operations that were done: whether a read has brought octets (`Begun`), and whether octets
were written since the request was last reported as written (`Unreported`). `Recalls` says that
the flags stand for that, and `Recalls.turn` that every operation keeps it so, whatever comes of
it on the stream inside. What an operation reports is then read off the history.

The second flag is not cleared by the first byte of the response, and need not be: from there on
nothing is reported whether it is set or not.
-/

set_option autoImplicit false

namespace ExchangeArchive.Transport

open ExchangeArchive.Trace

/-! ## Uses of a stream -/

/-- What an operation with its outcome is for the stream that is used. Only three uses matter: what
puts octets into the stream, what brings octets out of it, and what has it flushed. -/
inductive StreamUse where
  /-- A read that adds octets. -/
  | brings
  /-- A write, of one piece or of several, that takes octets. -/
  | puts
  /-- A flush that succeeds. -/
  | flushes
  /-- Anything else: what is pending, what fails, and what moves no octets. -/
  | nothing
  deriving DecidableEq

/-- The use that an operation with an outcome is. -/
def useOf : StreamCall → StreamOutcome → StreamUse
  | .read, .done count => if 0 < count then .brings else .nothing
  | .write, .done count => if 0 < count then .puts else .nothing
  | .gather, .done count => if 0 < count then .puts else .nothing
  | .flush, .done _ => .flushes
  | _, _ => .nothing

/-- An operation on a traced stream: its outcome on the stream inside, the outcome that it gives,
and what is reported meanwhile. -/
structure StreamTurn where
  call : StreamCall
  inner : StreamOutcome
  outer : StreamOutcome
  reported : List Event

/-- The use that a turn is. -/
def StreamTurn.use (turn : StreamTurn) : StreamUse := useOf turn.call turn.inner

/-- Whether a read has brought octets. With the first of them the response has begun. -/
def Begun (past : List StreamTurn) : Prop := ∃ turn ∈ past, turn.use = .brings

/-- Whether octets were written since the request was last reported as written. -/
def Unreported (past : List StreamTurn) : Prop :=
  ∃ before write since, past = before ++ write :: since ∧ write.use = .puts
    ∧ ∀ turn ∈ since, .wroteRequest ∉ turn.reported

section Pasts

variable {past : List StreamTurn} {turn : StreamTurn}

theorem begun_concat : Begun (past ++ [turn]) ↔ Begun past ∨ turn.use = .brings := by
  simp only [Begun, List.mem_append, List.mem_singleton, or_and_right, exists_or,
    exists_eq_left]

/-- The last turn is the write itself, or it leaves a write before it unreported. -/
theorem unreported_concat :
    Unreported (past ++ [turn])
      ↔ turn.use = .puts ∨ (Unreported past ∧ .wroteRequest ∉ turn.reported) := by
  constructor
  · rintro ⟨before, write, since, hpast, hputs, hsince⟩
    rcases List.eq_nil_or_concat since with rfl | ⟨others, last, rfl⟩
    · obtain ⟨rfl, hlast⟩ := List.append_inj' hpast rfl
      obtain rfl : turn = write := List.head_eq_of_cons_eq hlast
      exact .inl hputs
    · rw [List.concat_eq_append] at hpast hsince
      have hsplit : past ++ [turn] = (before ++ write :: others) ++ [last] := by
        rw [hpast, List.append_assoc, List.cons_append]
      obtain ⟨rfl, hlast⟩ := List.append_inj' hsplit rfl
      obtain rfl : turn = last := List.head_eq_of_cons_eq hlast
      refine .inr ⟨⟨before, write, others, rfl, hputs, ?_⟩, ?_⟩
      · intro t ht
        exact hsince t (List.mem_append_left _ ht)
      · exact hsince turn (List.mem_append_right _ (List.mem_singleton_self turn))
  · rintro (hputs | ⟨⟨before, write, since, rfl, hputs, hsince⟩, hlast⟩)
    · exact ⟨past, turn, [], rfl, hputs, fun t ht => absurd ht List.not_mem_nil⟩
    · refine ⟨before, write, since ++ [turn], ?_, hputs, ?_⟩
      · rw [List.append_assoc, List.cons_append]
      · intro t ht
        rcases List.mem_append.mp ht with ht | ht
        · exact hsince t ht
        · rw [List.mem_singleton.mp ht]
          exact hlast

end Pasts

namespace TracedStream

/-! ## Turns of a traced stream -/

/-- The turn that an operation is on a traced stream. -/
def turn (t : TracedStream) (operation : StreamCall × StreamOutcome) : StreamTurn where
  call := operation.1
  inner := operation.2
  outer := (t.step operation.1 operation.2).1
  reported := (t.step operation.1 operation.2).2.1

/-- The stream after an operation. -/
def next (t : TracedStream) (operation : StreamCall × StreamOutcome) : TracedStream :=
  (t.step operation.1 operation.2).2.2

/-- The turns that operations are on a traced stream. -/
def turns : TracedStream → List (StreamCall × StreamOutcome) → List StreamTurn
  | _, [] => []
  | t, operation :: rest => t.turn operation :: turns (t.next operation) rest

/-- The turns are those of the operations, in their order. -/
theorem map_turns (t : TracedStream) (operations : List (StreamCall × StreamOutcome)) :
    (t.turns operations).map (fun turn => (turn.call, turn.inner)) = operations := by
  induction operations generalizing t with
  | nil => rfl
  | cons operation rest ih =>
    rw [turns, List.map_cons, ih]
    rfl

/-- What is reported during operations is what their turns report. -/
theorem events_eq (t : TracedStream) (operations : List (StreamCall × StreamOutcome)) :
    t.events operations = (t.turns operations).flatMap (·.reported) := by
  induction operations generalizing t with
  | nil => rfl
  | cons operation rest ih =>
    rw [turns, List.flatMap_cons, ← ih]
    rfl

/-- First the first operation reports, and then the others do. -/
theorem events_cons (t : TracedStream) (operation : StreamCall × StreamOutcome)
    (rest : List (StreamCall × StreamOutcome)) :
    t.events (operation :: rest) = (t.turn operation).reported ++ (t.next operation).events rest :=
  rfl

/-- A step goes by the use that the operation is, so operations with the same use need not be told
apart. -/
theorem step_eq (t : TracedStream) (call : StreamCall) (inner : StreamOutcome) :
    t.step call inner = match useOf call inner with
      | .brings =>
        (inner, if t.didRead then [] else [.firstResponseByte], { t with didRead := true })
      | .puts => (inner, [], { t with wrote := true })
      | .flushes =>
        if t.wrote && !t.didRead then (inner, [.wroteRequest], { t with wrote := false })
        else (inner, [], t)
      | .nothing => (inner, [], t) := by
  have hput : ∀ count : Nat, (count != 0) = decide (0 < count) := by
    intro count
    cases count <;> rfl
  cases inner with
  | pending => cases call <;> rfl
  | failed fault => cases call <;> rfl
  | done count =>
    by_cases hcount : 0 < count
    · cases call <;> simp [step, useOf, hput, hcount]
      · obtain ⟨wrote, didRead⟩ := t
        cases didRead <;> rfl
    · cases call <;> simp [step, useOf, hput, hcount]

section Steps

variable (t : TracedStream) (operation : StreamCall × StreamOutcome)

/-- Every outcome is passed on. -/
theorem outer_turn : (t.turn operation).outer = operation.2 := by
  rw [turn, step_eq]
  cases useOf operation.1 operation.2 with
  | flushes =>
    dsimp only
    split <;> rfl
  | _ => rfl

/-- What an operation reports goes by its use and by the flags, which are what the stream remembers
of its past. -/
theorem reported_turn :
    (t.turn operation).reported
      = if (t.turn operation).use = .brings ∧ t.didRead = false then [.firstResponseByte]
        else if (t.turn operation).use = .flushes ∧ t.didRead = false ∧ t.wrote = true
          then [.wroteRequest]
        else [] := by
  have huse : (t.turn operation).use = useOf operation.1 operation.2 := rfl
  rw [huse, turn, step_eq]
  cases useOf operation.1 operation.2 with
  | brings => cases t.didRead <;> rfl
  | flushes => cases t.didRead <;> cases t.wrote <;> rfl
  | _ => rfl

/-- The response has begun if it had or octets are brought. -/
theorem didRead_next :
    (t.next operation).didRead = true
      ↔ t.didRead = true ∨ (t.turn operation).use = .brings := by
  have huse : (t.turn operation).use = useOf operation.1 operation.2 := rfl
  rw [huse, next, step_eq]
  cases useOf operation.1 operation.2 with
  | brings => simp
  | flushes =>
    dsimp only
    split <;> simp
  | _ => simp

/-- A write is to be reported until a flush reports it. -/
theorem wrote_next :
    (t.next operation).wrote = true
      ↔ (t.turn operation).use = .puts
        ∨ (t.wrote = true ∧ .wroteRequest ∉ (t.turn operation).reported) := by
  have huse : (t.turn operation).use = useOf operation.1 operation.2 := rfl
  rw [huse, next, turn, step_eq]
  cases useOf operation.1 operation.2 with
  | brings => cases t.didRead <;> simp
  | flushes =>
    dsimp only
    split <;> simp
  | _ => simp

end Steps

/-! ## What the flags stand for -/

/-- The flags of a traced stream say of its past what they should: one that the response has begun,
and the other, until then, that something written is unreported. -/
structure Recalls (t : TracedStream) (past : List StreamTurn) : Prop where
  didRead : t.didRead = true ↔ Begun past
  wrote : t.wrote = true ↔ Unreported past

/-- A fresh stream has no past. -/
theorem recalls_fresh : Recalls {} [] where
  didRead := by simp [Begun]
  wrote := by simp [Unreported]

/-- A turn is what its past calls for: the outcome is that of the stream inside, the first byte is
reported at the first read that brings octets, and the request at each flush before that if octets
were written and not reported. -/
structure Fits (past : List StreamTurn) (turn : StreamTurn) : Prop where
  passes : turn.outer = turn.inner
  reports : turn.reported = [] ∨ turn.reported = [.firstResponseByte]
    ∨ turn.reported = [.wroteRequest]
  first_byte : .firstResponseByte ∈ turn.reported ↔ turn.use = .brings ∧ ¬Begun past
  written : .wroteRequest ∈ turn.reported
    ↔ turn.use = .flushes ∧ ¬Begun past ∧ Unreported past

section Histories

variable {t : TracedStream} {past : List StreamTurn}

/-- **An operation fits its past, and the flags recall it from then on.** -/
theorem Recalls.turn (h : t.Recalls past) (operation : StreamCall × StreamOutcome) :
    Fits past (t.turn operation)
      ∧ (t.next operation).Recalls (past ++ [t.turn operation]) := by
  have hread : ¬Begun past ↔ t.didRead = false := by
    rw [← h.didRead, Bool.not_eq_true]
  have hreported := t.reported_turn operation
  constructor
  · refine ⟨t.outer_turn operation, ?_, ?_, ?_⟩
    · rw [hreported]
      split
      · exact .inr (.inl rfl)
      · split
        · exact .inr (.inr rfl)
        · exact .inl rfl
    · rw [hread, hreported]
      split
      · next hfirst => simp [hfirst]
      · next hnot =>
        split <;> simp [hnot]
    · rw [hread, ← h.wrote, hreported]
      split
      · next hfirst => simp [hfirst.1]
      · split
        · next hwritten => simp [hwritten]
        · next hnot => simp [hnot]
  · constructor
    · rw [didRead_next, begun_concat, h.didRead]
    · rw [wrote_next, unreported_concat, h.wrote]

/-- **Every turn fits those before it.** The induction is on the operations; the stream and its
past go along. -/
theorem Recalls.fits (h : t.Recalls past) {operations : List (StreamCall × StreamOutcome)}
    {earlier later : List StreamTurn} {turn : StreamTurn}
    (hturns : t.turns operations = earlier ++ turn :: later) : Fits (past ++ earlier) turn := by
  induction operations generalizing t past earlier with
  | nil => exact absurd hturns.symm (List.append_ne_nil_of_right_ne_nil _ (List.cons_ne_nil _ _))
  | cons operation rest ih =>
    obtain ⟨hfits, hnext⟩ := h.turn operation
    rw [turns] at hturns
    -- The turn is the first, or it is among the others, and the first is in their past.
    cases earlier with
    | nil =>
      obtain ⟨rfl, -⟩ := List.cons_eq_cons.mp hturns
      rw [List.append_nil]
      exact hfits
    | cons first earlier =>
      obtain ⟨rfl, hrest⟩ := List.cons_eq_cons.mp hturns
      have hmore := ih hnext hrest
      rw [List.append_assoc] at hmore
      exact hmore

/-- Once the response has begun nothing is reported, though what is written and flushed then is
passed on like anything else. -/
theorem events_of_didRead (h : t.didRead = true)
    (operations : List (StreamCall × StreamOutcome)) : t.events operations = [] := by
  induction operations generalizing t with
  | nil => rfl
  | cons operation rest ih =>
    have hnext : (t.next operation).didRead = true := (t.didRead_next operation).mpr (.inl h)
    rw [events_cons, ih hnext, reported_turn, if_neg (by simp [h]), if_neg (by simp [h])]
    rfl

/-- Until the response begins the writing of the request is reported, so many times, and then the
first byte if it comes. -/
theorem events_of_not_didRead (h : t.didRead = false)
    (operations : List (StreamCall × StreamOutcome)) :
    ∃ written, t.events operations
      = List.replicate written .wroteRequest
        ++ if ∃ operation ∈ operations, useOf operation.1 operation.2 = .brings
          then [.firstResponseByte] else [] := by
  induction operations generalizing t with
  | nil => exact ⟨0, rfl⟩
  | cons operation rest ih =>
    have huse : (t.turn operation).use = useOf operation.1 operation.2 := rfl
    by_cases hbrings : useOf operation.1 operation.2 = .brings
    · -- The first byte is reported here, and nothing after it.
      have hnext : (t.next operation).didRead = true :=
        (t.didRead_next operation).mpr (.inr hbrings)
      refine ⟨0, ?_⟩
      rw [events_cons, events_of_didRead hnext, reported_turn, huse, if_pos ⟨hbrings, h⟩,
        if_pos ⟨operation, List.mem_cons_self, hbrings⟩]
      rfl
    · have hnext : (t.next operation).didRead = false := by
        rw [← Bool.not_eq_true, didRead_next, huse]
        simp [h, hbrings]
      obtain ⟨written, hrest⟩ := ih hnext
      have hlater : (∃ o ∈ operation :: rest, useOf o.1 o.2 = .brings)
          ↔ ∃ o ∈ rest, useOf o.1 o.2 = .brings := by
        simp [hbrings]
      rw [events_cons, hrest, reported_turn, huse, if_neg (fun hfirst => hbrings hfirst.1)]
      simp only [hlater]
      split
      · exact ⟨written + 1, rfl⟩
      · exact ⟨written, rfl⟩

end Histories

/-- **What a traced stream reports during any operations, whatever comes of them on the stream
inside.** Each operation is passed on once and its outcome passed back unchanged. The first byte of
the response is reported by a read that adds octets if none has before, and by nothing else; the
request is reported as written by each flush that succeeds before that with octets written since
the request was last reported, and by nothing else; and an operation reports no more than one of
the two. So in all the request is reported so many times, and then the first byte once, if octets
are read at all, and nothing after it. -/
theorem reports_writing_until_first_byte (operations : List (StreamCall × StreamOutcome)) :
    (turns {} operations).map (fun turn => (turn.call, turn.inner)) = operations
      ∧ (∀ past turn later, turns {} operations = past ++ turn :: later → Fits past turn)
      ∧ events {} operations = (turns {} operations).flatMap (·.reported)
      ∧ ∃ written, events {} operations
        = List.replicate written .wroteRequest
          ++ if ∃ operation ∈ operations, useOf operation.1 operation.2 = .brings
            then [.firstResponseByte] else [] := by
  refine ⟨map_turns {} operations, ?_, events_eq {} operations,
    events_of_not_didRead rfl operations⟩
  intro past turn later hturns
  exact recalls_fresh.fits hturns

/-- The request is written in two parts, a flush has to be tried again, and the response begins
before its second part is flushed. -/
theorem reports_writing_until_first_byte_early :
    let operations : List (StreamCall × StreamOutcome) :=
      [(.gather, .done 5), (.flush, .pending), (.flush, .done 0), (.flush, .done 0),
        (.read, .done 0), (.write, .done 3), (.read, .done 7), (.flush, .done 0), (.read, .done 2)]
    let turns := turns {} operations
    turns = turns.take 6 ++ ⟨.read, .done 7, .done 7, [.firstResponseByte]⟩ :: turns.drop 7
      ∧ Fits (turns.take 6) ⟨.read, .done 7, .done 7, [.firstResponseByte]⟩
      ∧ events {} operations = [.wroteRequest, .firstResponseByte] := by
  intro operations turns
  have hsplit : turns
      = turns.take 6 ++ ⟨.read, .done 7, .done 7, [.firstResponseByte]⟩ :: turns.drop 7 := rfl
  exact ⟨hsplit, (reports_writing_until_first_byte operations).2.1 _ _ _ hsplit, rfl⟩

end TracedStream

end ExchangeArchive.Transport
