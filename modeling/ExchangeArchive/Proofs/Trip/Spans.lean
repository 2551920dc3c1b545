import ExchangeArchive.Trip.Tracker
import Mathlib.Data.List.Induction
/-
The phases of a request as spans of its history.

A tracker keeps seven marks and overwrites them as it is told of one thing after the other.
What it reports is said here of the history instead: each phase is a span of time that ends
with some notice and starts with an earlier one, and which these are is settled by looking
back through the history (`History.spans`). `Remembers` says what a tracker has of the
history so far, and the induction is over the history as it grows at its end.
-/

set_option autoImplicit false

namespace ExchangeArchive.Trip

open ExchangeArchive.Archive ExchangeArchive.Time ExchangeArchive.Trace

/-! ## Histories -/

/-- What a tracker is told: an event of the transport, or that the response has come or been
read. -/
inductive Notice where
  | event (e : Event)
  /-- The transport has handed back the headers of the response. -/
  | responseHeaders
  | responseRead
  deriving DecidableEq, Repr

/-- The kinds of notices. The headers of the response are as good as its first byte. -/
inductive Kind where
  | getConnection
  | gotConnection
  | dnsStart
  | dnsDone
  | connectStart
  | connectDone
  | tlsStart
  | tlsDone
  | wroteRequest
  | firstByte
  | responseRead
  deriving DecidableEq, Repr

/-- The kind of a notice. -/
def Notice.kind : Notice → Kind
  | .event (.getConnection _) => .getConnection
  | .event (.gotConnection _) => .gotConnection
  | .event (.dnsStart _) => .dnsStart
  | .event .dnsDone => .dnsDone
  | .event (.connectStart _) => .connectStart
  | .event .connectDone => .connectDone
  | .event .tlsStart => .tlsStart
  | .event .tlsDone => .tlsDone
  | .event .wroteRequest => .wroteRequest
  | .event .firstResponseByte => .firstByte
  | .responseHeaders => .firstByte
  | .responseRead => .responseRead

/-- Notices with the times at which they were given, oldest first. -/
abbrev History := List (Nat × Notice)

namespace History

/-- The clock never goes back, from the start through all notices until now. -/
def InOrder : History → Nat → Nat → Prop
  | [], started, now => started ≤ now
  | x :: rest, started, now => started ≤ x.1 ∧ InOrder rest x.1 now

/-- Nothing in the history is of these kinds. It is how "the last" and "the first" of a kind are
said of a history that is cut in two. -/
def Lacks (h : History) (kinds : List Kind) : Prop := ∀ x ∈ h, x.2.kind ∉ kinds

/-- The last notice of some kinds: its time, and the history before it, in which what began the span
is looked for. -/
def last? (kinds : List Kind) : History → Option (Nat × History)
  | [] => none
  | x :: rest =>
    match last? kinds rest with
    | some (time, before) => some (time, x :: before)
    | none => if x.2.kind ∈ kinds then some (x.1, []) else none

/-- The first notice of some kinds: its time, and the history before it. -/
def first? (kinds : List Kind) : History → Option (Nat × History)
  | [] => none
  | x :: rest =>
    if x.2.kind ∈ kinds then some (x.1, [])
    else (first? kinds rest).map fun (time, before) => (time, x :: before)

/-- When the last notice of some kinds was given. -/
def lastTime? (kinds : List Kind) (h : History) : Option Nat := (last? kinds h).map Prod.fst

/-- When the first notice of some kinds was given. -/
def firstTime? (kinds : List Kind) (h : History) : Option Nat := (first? kinds h).map Prod.fst

/-- The address that was dialed last. -/
def lastDialed? (h : History) : Option String :=
  (h.filterMap fun
    | (_, .event (.connectStart address)) => some address
    | _ => none).getLast?

/-- The address and the connection of what was dialed last. -/
def dialed (h : History) : Option String × Option String :=
  match h.lastDialed? with
  | some address =>
    (some (splitHostPort address).1,
      if (splitHostPort address).2.isEmpty then none else some (splitHostPort address).2)
  | none => (none, none)

variable {kinds : List Kind} {h earlier : History} {time : Nat}

theorem last?_append (a b : History) :
    last? kinds (a ++ b)
      = ((last? kinds b).map fun y => (y.1, a ++ y.2)).or (last? kinds a) := by
  induction a with
  | nil => simp [last?]
  | cons x a ih =>
    rw [List.cons_append, last?, ih]
    cases hb : last? kinds b with
    | some y => rfl
    | none => rfl

theorem first?_append (a b : History) :
    first? kinds (a ++ b)
      = (first? kinds a).or ((first? kinds b).map fun y => (y.1, a ++ y.2)) := by
  induction a with
  | nil => simp [first?]
  | cons x a ih =>
    rw [List.cons_append, first?, first?, ih]
    split
    · rfl
    · cases ha : first? kinds a with
      | some y => rfl
      | none => simp [Function.comp_def]

theorem last?_eq_none_iff : last? kinds h = none ↔ h.Lacks kinds := by
  induction h with
  | nil => simp [last?, Lacks]
  | cons x rest ih =>
    rw [last?, Lacks, List.forall_mem_cons, ← Lacks, ← ih]
    cases last? kinds rest <;> simp

/-- What `last?` finds: nothing of the kinds comes later. -/
theorem last?_eq_some_iff : last? kinds h = some (time, earlier) ↔
    ∃ notice later, h = earlier ++ (time, notice) :: later ∧ notice.kind ∈ kinds
      ∧ Lacks later kinds := by
  constructor
  · intro hlast
    induction h generalizing earlier with
    | nil => cases hlast
    | cons x rest ih =>
      rw [last?] at hlast
      cases hrest : last? kinds rest with
      | some y =>
        rw [hrest] at hlast
        obtain ⟨rfl, rfl⟩ : y.1 = time ∧ x :: y.2 = earlier := by simpa using hlast
        obtain ⟨notice, later, rfl, hkind, hlater⟩ := ih hrest
        exact ⟨notice, later, rfl, hkind, hlater⟩
      | none =>
        rw [hrest] at hlast
        obtain ⟨hkind, rfl, rfl⟩ : x.2.kind ∈ kinds ∧ x.1 = time ∧ [] = earlier := by
          simpa using hlast
        exact ⟨x.2, rest, rfl, hkind, last?_eq_none_iff.mp hrest⟩
  · rintro ⟨notice, later, rfl, hkind, hlater⟩
    rw [last?_append, last?, last?_eq_none_iff.mpr hlater]
    simp [hkind]

theorem first?_eq_none_iff : first? kinds h = none ↔ h.Lacks kinds := by
  induction h with
  | nil => simp [first?, Lacks]
  | cons x rest ih =>
    rw [first?, Lacks, List.forall_mem_cons, ← Lacks, ← ih]
    split <;> simp_all

/-- What `first?` finds: nothing of the kinds comes before. -/
theorem first?_eq_some_iff : first? kinds h = some (time, earlier) ↔
    ∃ notice later, h = earlier ++ (time, notice) :: later ∧ notice.kind ∈ kinds
      ∧ earlier.Lacks kinds := by
  constructor
  · intro hfirst
    induction h generalizing earlier with
    | nil => cases hfirst
    | cons x rest ih =>
      rw [first?] at hfirst
      by_cases hkind : x.2.kind ∈ kinds
      · rw [if_pos hkind] at hfirst
        obtain ⟨rfl, rfl⟩ : x.1 = time ∧ [] = earlier := by simpa using hfirst
        exact ⟨x.2, rest, rfl, hkind, by simp [Lacks]⟩
      · rw [if_neg hkind] at hfirst
        obtain ⟨y, hrest, hy⟩ := Option.map_eq_some_iff.mp hfirst
        obtain ⟨rfl, rfl⟩ : y.1 = time ∧ x :: y.2 = earlier := by simpa using hy
        obtain ⟨notice, later, rfl, hnotice, hearlier⟩ := ih hrest
        exact ⟨notice, later, rfl, hnotice, List.forall_mem_cons.mpr ⟨hkind, hearlier⟩⟩
  · rintro ⟨notice, later, rfl, hkind, hearlier⟩
    rw [first?_append, first?_eq_none_iff.mpr hearlier, first?, if_pos hkind]
    simp

@[simp] theorem last?_concat (h : History) (x : Nat × Notice) :
    last? kinds (h ++ [x]) = if x.2.kind ∈ kinds then some (x.1, h) else last? kinds h := by
  rw [last?_append]
  by_cases hkind : x.2.kind ∈ kinds <;> simp [last?, hkind]

@[simp] theorem first?_concat (h : History) (x : Nat × Notice) :
    first? kinds (h ++ [x])
      = (first? kinds h).or (if x.2.kind ∈ kinds then some (x.1, h) else none) := by
  rw [first?_append]
  by_cases hkind : x.2.kind ∈ kinds <;> simp [first?, hkind]

@[simp] theorem lastTime?_concat (h : History) (x : Nat × Notice) :
    lastTime? kinds (h ++ [x])
      = if x.2.kind ∈ kinds then some x.1 else lastTime? kinds h := by
  rw [lastTime?, last?_concat]
  split <;> rfl

@[simp] theorem firstTime?_concat (h : History) (x : Nat × Notice) :
    firstTime? kinds (h ++ [x])
      = (firstTime? kinds h).or (if x.2.kind ∈ kinds then some x.1 else none) := by
  rw [firstTime?, first?_concat, firstTime?]
  cases first? kinds h with
  | some y => rfl
  | none => split <;> rfl

end History

/-! ## Spans -/

/-- A span of time, from a notice or the start to a notice. -/
structure Span where
  start : Nat
  stop : Nat
  deriving DecidableEq, Repr

namespace Span

/-- How long a span is. -/
def length (s : Span) : Nat := s.stop - s.start

/-- A span that does not end before it starts, from the start of a history on until now. -/
structure Within (s : Span) (started now : Nat) : Prop where
  started_le : started ≤ s.start
  start_le : s.start ≤ s.stop
  stop_le : s.stop ≤ now

end Span

/-- The spans of the phases; none for one that did not take place. -/
structure Spans where
  blocked : Option Span
  dns : Option Span
  connect : Option Span
  tls : Option Span
  send : Option Span
  wait : Option Span
  receive : Option Span

namespace Spans

/-- The spans of the phases that took place. -/
def all (s : Spans) : List Span :=
  [s.blocked, s.dns, s.connect, s.tls, s.send, s.wait, s.receive].filterMap id

/-- How long the phases took, exactly. A phase of the connection without a span has no length, and
any other without one has the length zero. -/
def phases (s : Spans) : Phases where
  blocked := s.blocked.map Span.length
  dns := s.dns.map Span.length
  connect := s.connect.map Span.length
  tls := s.tls.map Span.length
  send := (s.send.map Span.length).getD 0
  wait := (s.wait.map Span.length).getD 0
  receive := (s.receive.map Span.length).getD 0

/-- The length of a span in milliseconds, if there is one. -/
def lengthMillis (absent : Float) : Option Span → Float
  | some span => millis span.length
  | none => absent

/-- The phases in milliseconds: those of the connection do not apply unless they took place,
and the others are zero then. -/
def timings (s : Spans) : Timings where
  blocked := lengthMillis notApplicable s.blocked
  dns := lengthMillis notApplicable s.dns
  connect := lengthMillis notApplicable s.connect
  ssl := lengthMillis notApplicable s.tls
  send := lengthMillis 0.0 s.send
  wait := lengthMillis 0.0 s.wait
  receive := lengthMillis 0.0 s.receive

end Spans

namespace History

/-- The kinds of notices from which on the request can be sent. -/
def readying : List Kind := [.gotConnection, .connectDone, .tlsDone]

/-- From the last notice of some kinds before it, or from the start, to the last notice of
one kind. -/
def span (h : History) (started : Nat) (begins : List Kind) (ends : Kind) : Option Span :=
  (h.last? [ends]).map fun (stop, before) => ⟨(before.lastTime? begins).getD started, stop⟩

/-- From the last notice before it that the request was written, or else from the last one
that it could be sent, or else from the start, to the first byte of the response. -/
def waiting (h : History) (started : Nat) : Option Span :=
  (h.first? [.firstByte]).map fun (stop, before) =>
    ⟨((before.lastTime? [.wroteRequest]).or (before.lastTime? readying)).getD started, stop⟩

/-- From the first byte before it to the last notice that the response was read; of no length
if no byte came before. -/
def receiving (h : History) : Option Span :=
  (h.last? [.responseRead]).map fun (stop, before) =>
    ⟨(before.firstTime? [.firstByte]).getD stop, stop⟩

/-- The spans of the phases, told by the history alone: nothing here is kept up from one notice to
the next. -/
def spans (h : History) (started : Nat) : Spans where
  blocked := h.span started [.getConnection] .gotConnection
  dns := h.span started [.dnsStart] .dnsDone
  connect := h.span started [.connectStart] .connectDone
  tls := h.span started [.tlsStart] .tlsDone
  send := h.span started readying .wroteRequest
  wait := h.waiting started
  receive := h.receiving

/-- The times from which the phases under way count. -/
def marks (h : History) : Marks where
  blocked := h.lastTime? [.getConnection]
  dns := h.lastTime? [.dnsStart]
  connect := h.lastTime? [.connectStart]
  tls := h.lastTime? [.tlsStart]
  send := h.lastTime? readying
  wait := h.lastTime? [.wroteRequest]
  response := h.firstTime? [.firstByte]

@[simp] theorem span_concat (h : History) (started : Nat) (begins : List Kind) (ends : Kind)
    (x : Nat × Notice) :
    span (h ++ [x]) started begins ends
      = if x.2.kind = ends then some ⟨(h.lastTime? begins).getD started, x.1⟩
        else h.span started begins ends := by
  rw [span, last?_concat, span]
  by_cases hkind : x.2.kind = ends <;> simp [hkind]

@[simp] theorem waiting_concat (h : History) (started : Nat) (x : Nat × Notice) :
    waiting (h ++ [x]) started = (h.waiting started).or
      (if x.2.kind = .firstByte then
        some ⟨((h.lastTime? [.wroteRequest]).or (h.lastTime? readying)).getD started, x.1⟩
      else none) := by
  rw [waiting, first?_concat, waiting]
  by_cases hkind : x.2.kind = .firstByte <;> cases h.first? [.firstByte] <;> simp [hkind]

@[simp] theorem receiving_concat (h : History) (x : Nat × Notice) :
    receiving (h ++ [x])
      = if x.2.kind = .responseRead then some ⟨(h.firstTime? [.firstByte]).getD x.1, x.1⟩
        else h.receiving := by
  rw [receiving, last?_concat, receiving]
  by_cases hkind : x.2.kind = .responseRead <;> simp [hkind]

/-- The waiting is over just if a first byte has been noted. -/
theorem isSome_waiting (h : History) (started : Nat) :
    (h.waiting started).isSome = (h.firstTime? [.firstByte]).isSome := by
  simp [waiting, firstTime?]

end History

/-! ## What a tracker remembers -/

namespace Tracker

/-- Tells a tracker something, at a time. -/
def note (t : Tracker) (x : Nat × Notice) : Tracker :=
  match x.2 with
  | .event e => t.apply x.1 e
  | .responseHeaders => t.responseHeaders x.1
  | .responseRead => t.responseRead x.1

/-- Tells a tracker a history. -/
def noteAll (t : Tracker) (h : History) : Tracker := h.foldl note t

/-- What a tracker has of a history that began with the clock showing `c`. The tracker overwrites
its marks and phases; the history keeps everything, and says what should be there. -/
structure Remembers (t : Tracker) (c : Clock) (h : History) : Prop where
  started : t.started = c.elapsed
  startedDateTime : t.startedDateTime = c.timestamp
  marks : t.marks = h.marks
  phases : t.phases = (h.spans c.elapsed).phases
  dialed : (t.serverIPAddress, t.connection) = h.dialed

variable {t : Tracker} {c : Clock} {h : History}

theorem remembers_new (c : Clock) : (new c).Remembers c [] := ⟨rfl, rfl, rfl, rfl, rfl⟩

theorem noteAll_concat (t : Tracker) (h : History) (x : Nat × Notice) :
    t.noteAll (h ++ [x]) = (t.noteAll h).note x := by
  rw [noteAll, List.foldl_append]
  rfl

/-- The first byte sets its mark unless that is set. -/
theorem marks_noteResponse (t : Tracker) (now : Nat) :
    (t.noteResponse now).marks
      = { t.marks with response := t.marks.response.or (some now) } := by
  rw [noteResponse]
  cases hmark : t.marks.response with
  | none => rfl
  | some first =>
    show t.marks = { t.marks with response := some first }
    rw [← hmark]

/-- The first byte ends the waiting, and later ones do not. -/
theorem phases_noteResponse (t : Tracker) (now : Nat) :
    (t.noteResponse now).phases = { t.phases with
      wait := if t.marks.response.isSome then t.phases.wait
        else t.since (t.marks.wait.or t.marks.send) now } := by
  rw [noteResponse]
  cases hmark : t.marks.response <;> simp

theorem marks_note (hmarks : t.marks = h.marks) (x : Nat × Notice) :
    (t.note x).marks = History.marks (h ++ [x]) := by
  obtain ⟨now, notice⟩ := x
  cases notice with
  | event e =>
    cases e <;>
      simp [note, apply, marks_noteResponse, hmarks, History.marks, History.readying, Notice.kind]
  | responseHeaders =>
    simp [note, responseHeaders, marks_noteResponse, hmarks, History.marks, History.readying,
      Notice.kind]
  | responseRead =>
    simp [note, responseRead, hmarks, History.marks, History.readying, Notice.kind]

/-- The first byte, by whichever notice, ends the waiting of the history too. -/
theorem phases_firstByte (hstarted : t.started = c.elapsed) (hmarks : t.marks = h.marks)
    (hphases : t.phases = (h.spans c.elapsed).phases) (now : Nat) {notice : Notice}
    (hkind : notice.kind = .firstByte) :
    (t.noteResponse now).phases
      = (History.spans (h ++ [(now, notice)]) c.elapsed).phases := by
  have hsome := h.isSome_waiting c.elapsed
  rw [phases_noteResponse, hphases, hmarks]
  cases hwaiting : h.waiting c.elapsed with
  | some span =>
    -- There was a first byte before, so the mark is set and the waiting stays what it was.
    rw [hwaiting] at hsome
    simp [History.spans, History.marks, Spans.phases, hkind, hwaiting, ← hsome]
  | none =>
    rw [hwaiting] at hsome
    simp [History.spans, History.marks, Spans.phases, hkind, hwaiting, ← hsome, since, hstarted,
      Span.length]

theorem phases_note (hstarted : t.started = c.elapsed) (hmarks : t.marks = h.marks)
    (hphases : t.phases = (h.spans c.elapsed).phases) (x : Nat × Notice) :
    (t.note x).phases = (History.spans (h ++ [x]) c.elapsed).phases := by
  obtain ⟨now, notice⟩ := x
  cases notice with
  | event e =>
    cases e with
    | firstResponseByte => exact phases_firstByte hstarted hmarks hphases now rfl
    | _ =>
      -- Each other event ends one phase at most, by the mark that the history has for it.
      simp [note, apply, since, hstarted, hmarks, hphases, History.marks, History.spans,
        Spans.phases, Span.length, Notice.kind]
  | responseHeaders => exact phases_firstByte hstarted hmarks hphases now rfl
  | responseRead =>
    simp [note, responseRead, hmarks, hphases, History.marks, History.spans, Spans.phases,
      Span.length, Notice.kind]

/-- Only a dial changes what was dialed last. -/
theorem dialed_note (hdialed : (t.serverIPAddress, t.connection) = h.dialed)
    (x : Nat × Notice) :
    ((t.note x).serverIPAddress, (t.note x).connection) = History.dialed (h ++ [x]) := by
  obtain ⟨now, notice⟩ := x
  have hsame : (t.noteResponse now).serverIPAddress = t.serverIPAddress
      ∧ (t.noteResponse now).connection = t.connection := by
    rw [noteResponse]
    split <;> exact ⟨rfl, rfl⟩
  cases notice with
  | event e =>
    cases e <;> simp_all [note, apply, History.dialed, History.lastDialed?]
  | responseHeaders => simp_all [note, responseHeaders, History.dialed, History.lastDialed?]
  | responseRead => simp_all [note, responseRead, History.dialed, History.lastDialed?]

/-- No notice moves the start. -/
theorem started_note (t : Tracker) (x : Nat × Notice) :
    (t.note x).started = t.started ∧ (t.note x).startedDateTime = t.startedDateTime := by
  have hsame : (t.noteResponse x.1).started = t.started
      ∧ (t.noteResponse x.1).startedDateTime = t.startedDateTime := by
    rw [noteResponse]
    split <;> exact ⟨rfl, rfl⟩
  obtain ⟨now, notice⟩ := x
  cases notice with
  | event e => cases e <;> first | exact hsame | exact ⟨rfl, rfl⟩
  | responseHeaders => exact hsame
  | responseRead => exact ⟨rfl, rfl⟩

/-- **What one notice preserves.** The cases on the kinds of notices are in the lemmas on the marks
and on the phases, which are all that a notice can change besides what was dialed last. -/
theorem Remembers.note (hr : t.Remembers c h) (x : Nat × Notice) :
    (t.note x).Remembers c (h ++ [x]) where
  started := (started_note t x).1.trans hr.started
  startedDateTime := (started_note t x).2.trans hr.startedDateTime
  marks := marks_note hr.marks x
  phases := phases_note hr.started hr.marks hr.phases x
  dialed := dialed_note hr.dialed x

/-- **What a tracker remembers** of any history, in any order and at any times. That the clock does
not go back is needed only for the spans to have their lengths. -/
theorem remembers_noteAll (c : Clock) (h : History) : ((new c).noteAll h).Remembers c h := by
  induction h using List.reverseRecOn with
  | nil => exact remembers_new c
  | append_singleton h x ih =>
    rw [noteAll_concat]
    exact ih.note x

theorem phaseMillis_length (span : Option Span) :
    phaseMillis (span.map Span.length) = Spans.lengthMillis notApplicable span := by
  cases span <;> rfl

theorem millis_length (span : Option Span) :
    millis ((span.map Span.length).getD 0) = Spans.lengthMillis 0.0 span := by
  cases span with
  | none => decide +kernel
  | some span => rfl

/-- The milliseconds of a tracker are those of its exact phases. -/
theorem timings_of_phases {spans : Spans} (h : t.phases = spans.phases) :
    t.timings = spans.timings := by
  rw [timings, h, Spans.timings]
  simp only [Spans.phases, phaseMillis_length, millis_length]

end Tracker

namespace History

/-! ## Order -/

variable {h earlier later : History} {started now time : Nat} {x : Nat × Notice}
  {kinds begins : List Kind} {ends : Kind} {s : Span}

theorem InOrder.le (hclock : h.InOrder started now) : started ≤ now := by
  induction h generalizing started with
  | nil => exact hclock
  | cons x rest ih => exact Nat.le_trans hclock.1 (ih hclock.2)

/-- A history is in order just if it is up to one of its notices and from there on. -/
theorem inOrder_append_cons : InOrder (earlier ++ x :: later) started now ↔
    earlier.InOrder started x.1 ∧ InOrder later x.1 now := by
  induction earlier generalizing started with
  | nil => rfl
  | cons y earlier ih =>
    rw [List.cons_append, InOrder, InOrder, ih, and_assoc]

/-- What `last?` finds lies in order after all that comes before it. -/
theorem InOrder.of_last? (hclock : h.InOrder started now)
    (hlast : h.last? kinds = some (time, earlier)) :
    earlier.InOrder started time ∧ time ≤ now := by
  obtain ⟨notice, later, rfl, -, -⟩ := last?_eq_some_iff.mp hlast
  obtain ⟨hearlier, hlater⟩ := inOrder_append_cons.mp hclock
  exact ⟨hearlier, hlater.le⟩

/-- What `first?` finds lies in order after all that comes before it. -/
theorem InOrder.of_first? (hclock : h.InOrder started now)
    (hfirst : h.first? kinds = some (time, earlier)) :
    earlier.InOrder started time ∧ time ≤ now := by
  obtain ⟨notice, later, rfl, -, -⟩ := first?_eq_some_iff.mp hfirst
  obtain ⟨hearlier, hlater⟩ := inOrder_append_cons.mp hclock
  exact ⟨hearlier, hlater.le⟩

theorem InOrder.lastTime? (hclock : h.InOrder started now)
    (hlast : h.lastTime? kinds = some time) : started ≤ time ∧ time ≤ now := by
  obtain ⟨y, hy, rfl⟩ := Option.map_eq_some_iff.mp hlast
  obtain ⟨hearlier, hnow⟩ := hclock.of_last? hy
  exact ⟨hearlier.le, hnow⟩

theorem InOrder.firstTime? (hclock : h.InOrder started now)
    (hfirst : h.firstTime? kinds = some time) : started ≤ time ∧ time ≤ now := by
  obtain ⟨y, hy, rfl⟩ := Option.map_eq_some_iff.mp hfirst
  obtain ⟨hearlier, hnow⟩ := hclock.of_first? hy
  exact ⟨hearlier.le, hnow⟩

/-- A span that counts from a mark, or from the start if there is none. -/
theorem within_of_mark {mark : Option Nat} (hle : started ≤ time) (hnow : time ≤ now)
    (hmark : ∀ m, mark = some m → started ≤ m ∧ m ≤ time) :
    Span.Within ⟨mark.getD started, time⟩ started now := by
  cases mark with
  | none => exact ⟨Nat.le_refl _, hle, hnow⟩
  | some m => exact ⟨(hmark m rfl).1, (hmark m rfl).2, hnow⟩

theorem InOrder.within_span (hclock : h.InOrder started now)
    (hs : h.span started begins ends = some s) : s.Within started now := by
  obtain ⟨⟨time, earlier⟩, hlast, rfl⟩ := Option.map_eq_some_iff.mp hs
  obtain ⟨hearlier, hnow⟩ := hclock.of_last? hlast
  exact within_of_mark hearlier.le hnow fun m hm => hearlier.lastTime? hm

theorem InOrder.within_waiting (hclock : h.InOrder started now)
    (hs : h.waiting started = some s) : s.Within started now := by
  obtain ⟨⟨time, earlier⟩, hfirst, rfl⟩ := Option.map_eq_some_iff.mp hs
  obtain ⟨hearlier, hnow⟩ := hclock.of_first? hfirst
  refine within_of_mark hearlier.le hnow fun m hm => ?_
  rcases Option.or_eq_some_iff.mp hm with hm | ⟨-, hm⟩
  · exact hearlier.lastTime? hm
  · exact hearlier.lastTime? hm

theorem InOrder.within_receiving (hclock : h.InOrder started now)
    (hs : h.receiving = some s) : s.Within started now := by
  obtain ⟨⟨time, earlier⟩, hlast, rfl⟩ := Option.map_eq_some_iff.mp hs
  obtain ⟨hearlier, hnow⟩ := hclock.of_last? hlast
  show Span.Within ⟨(earlier.firstTime? [.firstByte]).getD time, time⟩ started now
  -- Without a first byte the span has no length; it does not count from the start.
  cases hmark : earlier.firstTime? [.firstByte] with
  | none => exact ⟨hearlier.le, Nat.le_refl _, hnow⟩
  | some m => exact ⟨(hearlier.firstTime? hmark).1, (hearlier.firstTime? hmark).2, hnow⟩

/-- **No phase is longer than the whole**, and none runs backwards. -/
theorem InOrder.within_spans (hclock : h.InOrder started now) :
    ∀ s ∈ (h.spans started).all, s.Within started now := by
  intro s hs
  obtain ⟨_, hs, rfl⟩ := List.mem_filterMap.mp hs
  simp only [List.mem_cons, List.not_mem_nil, or_false] at hs
  rcases hs with hs | hs | hs | hs | hs | hs | hs
  · exact hclock.within_span hs.symm
  · exact hclock.within_span hs.symm
  · exact hclock.within_span hs.symm
  · exact hclock.within_span hs.symm
  · exact hclock.within_span hs.symm
  · exact hclock.within_waiting hs.symm
  · exact hclock.within_receiving hs.symm

instance decidableInOrder : (h : History) → (started now : Nat) → Decidable (h.InOrder started now)
  | [], started, now => inferInstanceAs (Decidable (started ≤ now))
  | x :: rest, _, now =>
    have := decidableInOrder rest x.1 now
    inferInstanceAs (Decidable (_ ∧ _))

end History

/-! ## The result -/

namespace Tracker

/-- **The report of a tracker is settled by its history.** Let a tracker begin with the clock
showing `c`, be told any notices in any order while the clock does not go back, and be asked
now. The phases that it reports are the lengths of the spans that the history has for them:
not applicable, or zero, for a phase without a span, and else exactly the time from the start
of its span to the end, which is not before it. -/
theorem reports_spans (c : Clock) (h : History) (now : Nat) (hclock : h.InOrder c.elapsed now) :
    ((new c).noteAll h).timings = (h.spans c.elapsed).timings
      ∧ (∀ s ∈ (h.spans c.elapsed).all, s.Within c.elapsed now)
      ∧ ((new c).noteAll h).time now = millis (now - c.elapsed) ∧ c.elapsed ≤ now
      ∧ ((new c).noteAll h).startedDateTime = c.timestamp
      ∧ (((new c).noteAll h).serverIPAddress, ((new c).noteAll h).connection) = h.dialed := by
  have hr := remembers_noteAll c h
  refine ⟨timings_of_phases hr.phases, hclock.within_spans, ?_, ?_, hr.startedDateTime, hr.dialed⟩
  · rw [time, hr.started]
  · exact hclock.le

/-- Two attempts to connect, of which the first is given up in the middle of a handshake that
had no start; the request is written twice, and a third time after the first byte. -/
theorem reports_spans_retried :
    let c : Clock := ⟨0, 5⟩
    let h : History := [(5, .event (.getConnection "h:443")), (6, .event .dnsDone),
      (7, .event (.connectStart "1.1.1.1:443")), (9, .event .tlsDone),
      (10, .event (.connectStart "2.2.2.2:443")), (14, .event .connectDone),
      (15, .event (.gotConnection false)), (18, .event .wroteRequest), (20, .event .wroteRequest),
      (27, .responseHeaders), (30, .event .wroteRequest), (31, .event .firstResponseByte),
      (33, .responseRead), (40, .responseRead)]
    h.InOrder c.elapsed 50 ∧ ((new c).noteAll h).timings = (h.spans c.elapsed).timings
      ∧ (h.spans c.elapsed).all
        = [⟨5, 15⟩, ⟨5, 6⟩, ⟨10, 14⟩, ⟨5, 9⟩, ⟨15, 30⟩, ⟨20, 27⟩, ⟨27, 40⟩] := by
  intro c h
  have hclock : h.InOrder c.elapsed 50 := by decide
  exact ⟨hclock, (reports_spans c h 50 hclock).1, by decide⟩

end Tracker

end ExchangeArchive.Trip
