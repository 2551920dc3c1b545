import ExchangeArchive.Recorder.Call
import Mathlib.Data.List.Induction
/-
Observers in chains, and recorders inside one another.

However a chain is nested, and wherever there are idle observers in it, an event gets to its
members from left to right (`see_observer`). So a series of events is a series of reports, one for
each event and member (`reports`), and what is done to the state is done by these reports one after
the other. The nesting is gone from that, and with it everything that could depend on it.

A recorder puts its timing in front of the observer that it finds with a request. Recorders inside
one another make a chain so, with the caller at its far end. Each has a call of its own, and an
event changes only what the calls have of their own: the timing of each, and what the caller has
seen (`seeNested_eq`).
-/

set_option autoImplicit false

namespace ExchangeArchive.Trace

/-! ## Reports -/

/-- What is reported of events: each event to all members in their order, before the next event. -/
def reports {ι : Type} (members : List ι) (events : List Event) : List (ι × Event) :=
  events.flatMap fun e => members.map fun i => (i, e)

/-- The events that are reported to a member, out of all that a chain does, in their order. -/
def reportedTo {ι : Type} [DecidableEq ι] (i : ι) (told : List (ι × Event)) : List Event :=
  told.filterMap fun report => if report.1 = i then some report.2 else none

section Reports

variable {ι : Type} [DecidableEq ι] {i : ι} {members : List ι}

theorem reportedTo_append (told more : List (ι × Event)) :
    reportedTo i (told ++ more) = reportedTo i told ++ reportedTo i more :=
  List.filterMap_append

/-- Of one event there is a report for each time that the member stands in the chain. -/
theorem reportedTo_event (members : List ι) (e : Event) :
    reportedTo i (members.map fun j => (j, e)) = List.replicate (members.count i) e := by
  induction members with
  | nil => rfl
  | cons j members ih =>
    rw [reportedTo] at ih ⊢
    rw [List.map_cons, List.filterMap_cons]
    by_cases hj : j = i
    · rw [hj, List.count_cons_self, List.replicate_succ, ← ih]
      simp
    · rw [List.count_cons_of_ne hj, ← ih]
      simp [hj]

/-- A member that stands in the chain once is told every event once, in their order. -/
theorem reportedTo_reports (h : members.count i = 1) (events : List Event) :
    reportedTo i (reports members events) = events := by
  induction events with
  | nil => rfl
  | cons e events ih =>
    rw [reports, List.flatMap_cons, reportedTo_append, reportedTo_event, h]
    exact congrArg (e :: ·) ih

end Reports

/-! ## Nestings -/

/-- How observers are chained: nested in any way, with idle observers anywhere. The leaves are
names, so that it can be said which observer was told what. -/
inductive Nesting (ι : Type) where
  | idle
  | one (i : ι)
  | chain (first next : Nesting ι)

namespace Nesting

variable {ι σ : Type}

/-- The members of a chain from left to right; idle observers are none. -/
def members : Nesting ι → List ι
  | idle => []
  | one i => [i]
  | chain first next => first.members ++ next.members

/-- The observer that a chain is, made by the chaining of the model and nothing else. -/
def observer (of : ι → Observer σ) : Nesting ι → Observer σ
  | idle => .idle
  | one i => of i
  | chain first next => (first.observer of).chain (next.observer of)

/-- **An event gets to the members from left to right.** -/
theorem see_observer (of : ι → Observer σ) (n : Nesting ι) (e : Event) (s : σ) :
    (n.observer of).see e s = n.members.foldl (fun s i => (of i).see e s) s := by
  induction n generalizing s with
  | idle => rfl
  | one i => rfl
  | chain first next ihFirst ihNext =>
    show (next.observer of).see e ((first.observer of).see e s) = _
    rw [ihFirst, ihNext, members, List.foldl_append]

/-- Events are reports, one after the other: the last member has seen an event before the first
member is told the next. -/
theorem seeAll_observer (of : ι → Observer σ) (n : Nesting ι) (events : List Event) (s : σ) :
    (n.observer of).seeAll events s
      = (reports n.members events).foldl (fun s report => (of report.1).see report.2 s) s := by
  induction events generalizing s with
  | nil => rfl
  | cons e events ih =>
    have hrest := ih ((n.observer of).see e s)
    rw [reports, List.flatMap_cons, List.foldl_append, List.foldl_map, ← see_observer]
    exact hrest

/-- Chains of the same members are the same observer. -/
theorem observer_congr (of : ι → Observer σ) {n n' : Nesting ι} (h : n'.members = n.members) :
    n'.observer of = n.observer of := by
  have hsee : (n'.observer of).see = (n.observer of).see := by
    funext e s
    rw [see_observer, see_observer, h]
  calc n'.observer of = ⟨(n'.observer of).see⟩ := rfl
    _ = ⟨(n.observer of).see⟩ := by rw [hsee]
    _ = n.observer of := rfl

/-- What observers write down that write it to one list. The list has the reports of the chain, each
with the name of the member that it was made to. -/
theorem seeAll_recording (n : Nesting String) (events : List Event)
    (seen : List (String × Event)) :
    (n.observer recordingAs).seeAll events seen = seen ++ reports n.members events := by
  rw [seeAll_observer]
  generalize reports n.members events = told
  induction told generalizing seen with
  | nil => exact (List.append_nil seen).symm
  | cons report told ih =>
    rw [List.foldl_cons, ih, recordingAs, List.append_assoc, List.singleton_append]

end Nesting

end ExchangeArchive.Trace

namespace ExchangeArchive.Recorder

open ExchangeArchive.Trace

/-! ## Recorders inside one another -/

/-- The first of some calls sees what an observer of one call does. -/
def atFirst (o : Observer Call) : Observer (List Call) where
  see
    | _, [] => []
    | e, call :: outer => o.see e call :: outer

/-- All but the first of some calls see what an observer of them does. -/
def atOuter (o : Observer (List Call)) : Observer (List Call) where
  see
    | _, [] => []
    | e, call :: outer => call :: o.see e outer

/-- The observer that the transport finds with the request of calls that are made inside one
another, the innermost first: that of the outermost call is its own, and each other call is of a
recorder that found the observer of the call around it. -/
def nestedObserver? (now : Nat) : List Call → Option (Observer (List Call))
  | [] => none
  | [call] => (call.observer? now).map atFirst
  | call :: outer =>
    match call.isRecorded, nestedObserver? now outer with
    | true, some found => some ((atFirst (Call.timing now)).chain (atOuter found))
    | true, none => some (atFirst (Call.timing now))
    | false, some found => some (atOuter found)
    | false, none => none

/-- Reports an event to whoever is observing calls that are made inside one another. -/
def seeNested (calls : List Call) (now : Nat) (e : Event) : List Call :=
  match nestedObserver? now calls with
  | some o => o.see e calls
  | none => calls

namespace Call

/-- A call whose timing has been told events, each at its time, if it is recorded. Nothing else of
the call is changed. -/
def timed (call : Call) (events : List (Nat × Event)) : Call :=
  if call.isRecorded then
    { call with tracker := events.foldl (fun t event => t.apply event.1 event.2) call.tracker }
  else call

/-- A call whose caller has been told events, if it wants to see them. The caller is told no
times. -/
def shown (call : Call) (events : List Event) : Call :=
  if call.traced then { call with seen := call.seen ++ events } else call

theorem see_eq (call : Call) (now : Nat) (e : Event) :
    call.see now e = (call.timed [(now, e)]).shown [e] := by
  rw [see, observer?]
  cases hrec : call.isRecorded <;> cases htraced : call.traced <;>
    simp [timed, shown, hrec, htraced, timing, caller, Observer.chain]

theorem timed_nil (call : Call) : call.timed [] = call := ite_self _

theorem shown_nil (call : Call) : call.shown [] = call := by simp [shown]

theorem timed_timed (call : Call) (events more : List (Nat × Event)) :
    (call.timed events).timed more = call.timed (events ++ more) := by
  cases hrec : call.isRecorded <;> simp [timed, hrec]

theorem shown_shown (call : Call) (events more : List Event) :
    (call.shown events).shown more = call.shown (events ++ more) := by
  cases htraced : call.traced <;> simp [shown, htraced]

/-- The timing and the caller are told apart from one another. -/
theorem timed_shown (call : Call) (events : List Event) (more : List (Nat × Event)) :
    (call.shown events).timed more = (call.timed more).shown events := by
  cases hrec : call.isRecorded <;> cases htraced : call.traced <;>
    simp [timed, shown, hrec, htraced]

end Call

/-- An event changes the timing of an inner call, and then what the calls around it have. -/
theorem seeNested_cons (inside next : Call) (outer : List Call) (now : Nat) (e : Event) :
    seeNested (inside :: next :: outer) now e
      = inside.timed [(now, e)] :: seeNested (next :: outer) now e := by
  -- There are at least two calls, so the first has found what the others observe with.
  have hfound : nestedObserver? now (inside :: next :: outer)
      = match inside.isRecorded, nestedObserver? now (next :: outer) with
        | true, some found => some ((atFirst (Call.timing now)).chain (atOuter found))
        | true, none => some (atFirst (Call.timing now))
        | false, some found => some (atOuter found)
        | false, none => none := by
    rw [nestedObserver?]
    nofun
  rw [seeNested, hfound, seeNested]
  cases hrec : inside.isRecorded with
  | true =>
    have htimed : inside.timed [(now, e)] = (Call.timing now).see e inside := if_pos hrec
    rw [htimed]
    cases nestedObserver? now (next :: outer) <;> rfl
  | false =>
    have htimed : inside.timed [(now, e)] = inside := if_neg (by simp [hrec])
    rw [htimed]
    cases nestedObserver? now (next :: outer) <;> rfl

/-- **An event reaches the timing of each call, and the caller of the outermost.** -/
theorem seeNested_eq (inner : List Call) (call : Call) (now : Nat) (e : Event) :
    seeNested (inner ++ [call]) now e
      = inner.map (·.timed [(now, e)]) ++ [(call.timed [(now, e)]).shown [e]] := by
  induction inner with
  | nil =>
    rw [List.nil_append, List.map_nil, List.nil_append, ← Call.see_eq, seeNested, nestedObserver?,
      Call.see]
    cases call.observer? now <;> rfl
  | cons inside inner ih =>
    obtain ⟨next, outer, hcons⟩ : ∃ next outer, inner ++ [call] = next :: outer :=
      List.exists_cons_of_ne_nil (by simp)
    rw [List.cons_append, hcons, seeNested_cons, ← hcons, ih]
    rfl

/-- Events likewise, one after the other. -/
theorem seeNested_events (inner : List Call) (call : Call) (events : List (Nat × Event)) :
    events.foldl (fun calls event => seeNested calls event.1 event.2) (inner ++ [call])
      = inner.map (·.timed events) ++ [(call.timed events).shown (events.map Prod.snd)] := by
  induction events using List.reverseRecOn with
  | nil => simp [Call.timed_nil, Call.shown_nil]
  | append_singleton events event ih =>
    rw [List.foldl_append, ih, List.foldl_cons, List.foldl_nil, seeNested_eq, Call.timed_shown,
      Call.shown_shown, Call.timed_timed, List.map_map, List.map_append]
    congr 2
    funext inside
    exact inside.timed_timed events [event]

/-- **However a chain is nested, each member sees each event once.** Chains of the same members are
one observer, so idle observers and brackets make no difference. What a chain does is done by
reports to its members, which get each event from left to right before the next one, and so it
stands in a list that all of them write to; a member that stands in the chain once is told just the
events, in their order. Of recorders inside one another every timing that is kept is told every
event at its time, and the caller, if it wants to see them, every event once; nothing else
changes. -/
theorem chained_observers_see_once {ι σ : Type} [DecidableEq ι] (n : Nesting ι)
    (of : ι → Observer σ) :
    (∀ n' : Nesting ι, n'.members = n.members → n'.observer of = n.observer of) ∧
    (∀ events s, (n.observer of).seeAll events s
      = (reports n.members events).foldl (fun s report => (of report.1).see report.2 s) s) ∧
    (∀ i, n.members.count i = 1 →
      ∀ events, reportedTo i (reports n.members events) = events) ∧
    (∀ (named : Nesting String) (events : List Event) (seen : List (String × Event)),
      (named.observer recordingAs).seeAll events seen = seen ++ reports named.members events) ∧
    ∀ (inner : List Call) (outermost : Call) (events : List (Nat × Event)),
      events.foldl (fun calls event => seeNested calls event.1 event.2) (inner ++ [outermost])
        = inner.map (·.timed events)
          ++ [(outermost.timed events).shown (events.map Prod.snd)] :=
  ⟨fun _ h => Nesting.observer_congr of h, Nesting.seeAll_observer of n,
    fun _ h events => reportedTo_reports h events, Nesting.seeAll_recording, seeNested_events⟩

/-- Three observers, with an idle one between them and behind them. -/
theorem chained_observers_see_once_bracketed :
    let left : Nesting String := .chain (.chain (.one "a") .idle) (.chain (.one "b") (.one "c"))
    let right : Nesting String := .chain (.one "a") (.chain (.one "b") (.chain (.one "c") .idle))
    let events : List Event := [.dnsDone, .wroteRequest]
    right.members = left.members ∧ left.members.count "b" = 1 ∧
      right.observer recordingAs = left.observer recordingAs ∧
      reportedTo "b" (reports left.members events) = events ∧
      (left.observer recordingAs).seeAll events []
        = [("a", .dnsDone), ("b", .dnsDone), ("c", .dnsDone),
          ("a", .wroteRequest), ("b", .wroteRequest), ("c", .wroteRequest)] := by
  intro left right events
  have hmembers : right.members = left.members := rfl
  have hcount : left.members.count "b" = 1 := by decide
  obtain ⟨hsame, -, honce, hlog, -⟩ := chained_observers_see_once left recordingAs
  exact ⟨hmembers, hcount, hsame right hmembers, honce "b" hcount events, hlog left events []⟩

end ExchangeArchive.Recorder
