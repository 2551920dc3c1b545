import Mathlib.Data.List.Basic
import Mathlib.Data.List.Induction
import ExchangeArchive.Recorder.Session
import ExchangeArchive.Proofs.Pipeline.Course
/-
The life of the pages of a session.

Pages are started and ended under ids in whatever order, any number of times, while time passes.
What the registry has of an id is said from the history alone: it is what the last operation that
started or ended a page under that id has left (`last?`). A page is started by a marker, which
may have been made at any time before, so a start carries the clock that the marker was made at.

Where the work is: looking up an id after the page of another was put in or taken out. That is
`find?_start` and `find?_erase`; everything after them is about the history.

A page that ends leaves the registry before it is sent. A pipeline is free to do what it likes
with a page, and all that is asked of it is to leave the registry alone; those that are built
from steps do.
-/

set_option autoImplicit false

namespace ExchangeArchive.Page

open ExchangeArchive.Archive ExchangeArchive.Pipeline ExchangeArchive.Time

/-! ## Looking up ids -/

namespace Registry

theorem lookup_cons_ite {β : Type} (key id : String) (value : β) (pairs : List (String × β)) :
    ((key, value) :: pairs).lookup id = if id = key then some value else pairs.lookup id := by
  rw [List.lookup_cons]
  by_cases h : id = key
  · rw [if_pos h, h, beq_self_eq_true]
  · rw [if_neg h, beq_false_of_ne h]

theorem lookup_filter_ne {β : Type} (id other : String) (pairs : List (String × β)) :
    (pairs.filter fun p => p.1 != id).lookup other
      = if other = id then none else pairs.lookup other := by
  induction pairs with
  | nil => simp
  | cons p pairs ih =>
    obtain ⟨key, value⟩ := p
    rw [List.filter_cons, lookup_cons_ite]
    by_cases hkey : key = id
    · -- The pair goes, and an id that is looked up is another or finds nothing.
      subst hkey
      rw [if_neg (by simp), ih]
      split <;> rfl
    · rw [if_pos (by simp [hkey]), lookup_cons_ite, ih]
      by_cases hother : other = key
      · have hne : ¬other = id := by
          rwa [hother]
        rw [if_pos hother, if_neg hne, if_pos hother]
      · rw [if_neg hother, if_neg hother]

/-- Taking out a page takes out that of its id and no other. An id that nothing is registered
under may be taken out as well, and that is nothing to the rest. -/
theorem find?_erase (r : Registry) (id other : String) :
    (r.erase id).find? other = if other = id then none else r.find? other :=
  lookup_filter_ne id other r.pages

/-- A page that is put in is found under its id, whatever was there before, and does not hide
what there is under other ids. -/
theorem find?_start (r : Registry) (s : Start) (id : String) :
    (r.start s).find? id = if id = s.id then some (s.started, pageOf s) else r.find? id := by
  show ((s.id, s.started, pageOf s) :: (r.erase s.id).pages).lookup id = _
  rw [lookup_cons_ite]
  by_cases hid : id = s.id
  · rw [if_pos hid, if_pos hid]
  · have herased : (r.erase s.id).find? id = r.find? id := by
      rw [find?_erase, if_neg hid]
    rw [if_neg hid, if_neg hid]
    exact herased

/-- The ids that have a page. -/
def ids (r : Registry) : List String := r.pages.map Prod.fst

theorem mem_ids_iff (r : Registry) (id : String) : id ∈ r.ids ↔ (r.find? id).isSome := by
  obtain ⟨pages⟩ := r
  unfold ids find?
  induction pages with
  | nil => simp
  | cons p pages ih =>
    obtain ⟨key, page⟩ := p
    rw [List.map_cons, List.mem_cons, lookup_cons_ite]
    by_cases hid : id = key
    · simp [hid]
    · rw [if_neg hid, ← ih]
      simp [hid]

theorem nodup_erase {r : Registry} (h : r.ids.Nodup) (id : String) : (r.erase id).ids.Nodup := by
  unfold ids erase
  exact h.sublist (List.filter_sublist.map Prod.fst)

theorem nodup_start {r : Registry} (h : r.ids.Nodup) (s : Start) : (r.start s).ids.Nodup := by
  have hnew : s.id ∉ (r.erase s.id).ids := by
    rw [mem_ids_iff, find?_erase, if_pos rfl]
    exact Bool.false_ne_true
  exact List.nodup_cons.mpr ⟨hnew, nodup_erase h s.id⟩

theorem erase_of_none {r : Registry} {id : String} (h : r.find? id = none) :
    r.erase id = r := by
  have hnot : id ∉ r.ids := by
    rw [mem_ids_iff, h]
    exact Bool.false_ne_true
  have hkept : ∀ p ∈ r.pages, (p.1 != id) = true := by
    intro p hp
    rw [bne_iff_ne]
    rintro rfl
    exact hnot (List.mem_map_of_mem hp)
  unfold erase
  rw [List.filter_eq_self.mpr hkept]

theorem take_of_none {r : Registry} {id : String} (h : r.find? id = none) (now : Nat) :
    r.take now id = (r, none) := by
  rw [take, h]

theorem take_of_some {r : Registry} {id : String} {started : Nat} {page : Archive.Page}
    (h : r.find? id = some (started, page)) (now : Nat) :
    r.take now id = (r.erase id, some (loaded started now page)) := by
  rw [take, h]

end Registry

/-! ## Operations -/

/-- Something that is done with the registry of a session, or the passing of time. It is by
these that its users reach it: what a recorder does to pages is a part of them. -/
inductive Operation where
  | advance (nanos : Nat)
  /-- Registers the page of a marker, which was made when the clock was as it says. -/
  | start (made : Clock) (id title comment : String)
  | get (id : String)
  | finalize (id : String)

namespace Operation

/-- The id whose page an operation starts or ends. -/
def touches : Operation → Option String
  | .start _ id _ _ => some id
  | .finalize id => some id
  | _ => none

/-- The session after an operation, the pages of which end through a pipeline. -/
def act (p : Pipeline Session) (s : Session) : Operation → Session
  | .advance nanos => s.advance nanos
  | .start made id title comment =>
    { s with pages := s.pages.start (.new made id title comment) }
  | .get _ => s
  | .finalize id => s.finalizePage p id

/-- The page that an operation sends, as the registry of the session has it. What should be
sent, as the history has it, is `due`. -/
def sends (s : Session) : Operation → Option Archive.Page
  | .finalize id => (s.pages.take s.now id).2
  | _ => none

/-- The page that an operation leaves under its id, and when that was started. -/
def leaves : Operation → Option (Nat × Archive.Page)
  | .start made id title comment =>
    some (made.elapsed, Registry.pageOf (.new made id title comment))
  | _ => none

end Operation

/-- The session after operations. -/
def run (p : Pipeline Session) (s : Session) (ops : List Operation) : Session :=
  ops.foldl (Operation.act p) s

/-- The operations of a run, each with those before it and with the session that it finds. Of
the two the first is what is said of a page and the second what is done about it. -/
def moments (p : Pipeline Session) (s : Session) (past : List Operation) :
    List Operation → List (List Operation × Session × Operation)
  | [] => []
  | op :: rest => (past, s, op) :: moments p (op.act p s) (past ++ [op]) rest

/-- The pages that operations send, in their order. -/
def sent (p : Pipeline Session) (s : Session) (ops : List Operation) : List Archive.Page :=
  (moments p s [] ops).filterMap fun (_, s, op) => op.sends s

/-- The last of the operations that started or ended a page under an id. It settles what there
is under the id now, so that the ones before it need not be looked at. -/
def last? (ops : List Operation) (id : String) : Option Operation :=
  ops.reverse.find? fun op => op.touches = some id

/-- The page that an operation should send after others: if it ends a page and the last that was
done with it was to start it, then that, loaded from when its marker was made until now. -/
def due (past : List Operation) (now : Nat) : Operation → Option Archive.Page
  | .finalize id =>
    match last? past id with
    | some (.start made _ title comment) => some
      { startedDateTime := made.timestamp
        id := id
        title := title
        pageTimings := { onContentLoaded := -1.0, onLoad := millis (now - made.elapsed) }
        comment := if comment = "" then none else some comment }
    | _ => none
  | _ => none

section Histories

theorem last?_concat (ops : List Operation) (op : Operation) (id : String) :
    last? (ops ++ [op]) id = if op.touches = some id then some op else last? ops id := by
  unfold last?
  rw [List.reverse_append, List.reverse_singleton, List.singleton_append, List.find?_cons]
  by_cases h : op.touches = some id <;> simp [h]

/-- Of all operations only a start or an end of the id can be the last on it. -/
theorem last?_cases (ops : List Operation) (id : String) :
    last? ops id = none ∨ last? ops id = some (.finalize id)
      ∨ ∃ made title comment, last? ops id = some (.start made id title comment) := by
  cases hlast : last? ops id with
  | none => exact .inl rfl
  | some op =>
    have hfound := List.find?_some hlast
    have htouches : op.touches = some id := by
      simpa using hfound
    cases op with
    | start made other title comment =>
      obtain rfl : other = id := Option.some.inj htouches
      exact .inr (.inr ⟨made, title, comment, rfl⟩)
    | finalize other =>
      obtain rfl : other = id := Option.some.inj htouches
      exact .inr (.inl rfl)
    | advance nanos => cases htouches
    | get other => cases htouches

/-- Whether a page has been started under an id since one was ended under it, if ever. -/
def StartedSince (ops : List Operation) (id : String) : Prop :=
  ∃ before made title comment later,
    ops = before ++ .start made id title comment :: later ∧ .finalize id ∉ later

theorem startedSince_concat (ops : List Operation) (op : Operation) (id : String) :
    StartedSince (ops ++ [op]) id
      ↔ (∃ made title comment, op = .start made id title comment)
        ∨ op ≠ .finalize id ∧ StartedSince ops id := by
  constructor
  · rintro ⟨before, made, title, comment, later, hops, hlater⟩
    -- The start is the last operation, or the last one comes later and is not the end of it.
    rcases List.eq_nil_or_concat later with rfl | ⟨others, last, rfl⟩
    · have hop := (List.append_inj' hops rfl).2
      exact .inl ⟨made, title, comment, List.singleton_inj.mp hop⟩
    · have hsplit : ops ++ [op] = (before ++ .start made id title comment :: others) ++ [last] := by
        simpa using hops
      obtain ⟨hbefore, hlast⟩ := List.append_inj' hsplit rfl
      obtain rfl : op = last := List.singleton_inj.mp hlast
      rw [List.concat_eq_append, List.mem_append, List.mem_singleton, not_or] at hlater
      exact .inr ⟨Ne.symm hlater.2, before, made, title, comment, others, hbefore, hlater.1⟩
  · rintro (⟨made, title, comment, rfl⟩ | ⟨hop, before, made, title, comment, later, rfl, hlater⟩)
    · exact ⟨ops, made, title, comment, [], rfl, List.not_mem_nil⟩
    · refine ⟨before, made, title, comment, later ++ [op], by simp, ?_⟩
      rw [List.mem_append, List.mem_singleton, not_or]
      exact ⟨hlater, Ne.symm hop⟩

/-- The last operation on an id is a start just if the id was started since it was ended. The
left side says it with the operations of other ids in between, the right side without them. -/
theorem startedSince_iff (ops : List Operation) (id : String) :
    StartedSince ops id
      ↔ ∃ made title comment, last? ops id = some (.start made id title comment) := by
  induction ops using List.reverseRecOn with
  | nil =>
    constructor
    · rintro ⟨before, made, title, comment, later, hops, -⟩
      simp at hops
    · rintro ⟨made, title, comment, h⟩
      cases h
  | append_singleton ops op ih =>
    rw [startedSince_concat, ih]
    by_cases htouches : op.touches = some id
    · simp only [last?_concat, if_pos htouches, Option.some.injEq]
      cases op with
      | start made other title comment =>
        obtain rfl : other = id := Option.some.inj htouches
        simp
      | finalize other =>
        obtain rfl : other = id := Option.some.inj htouches
        simp
      | advance nanos => cases htouches
      | get other => cases htouches
    · have hfinal : op ≠ .finalize id := by
        rintro rfl
        exact htouches rfl
      have hstart : ¬∃ made title comment, op = .start made id title comment := by
        rintro ⟨made, title, comment, rfl⟩
        exact htouches rfl
      simp only [last?_concat, if_neg htouches, hstart, hfinal, ne_eq, not_false_eq_true,
        true_and, false_or]

end Histories

/-! ## Runs -/

section Runs

variable {p : Pipeline Session} {s : Session} {ops past : List Operation} {op : Operation}
  {id : String}

/-- Whether a pipeline leaves the registry alone when it is sent a page. Middleware that starts
or ends pages while it is handed one does not, and nothing is said of it here. -/
def LeavesRegistry (p : Pipeline Session) : Prop :=
  ∀ page s, (p.sendPage page s).2.pages = s.pages

/-- **Ending a page** sends it, once it is out of the registry, and is nothing if there is none. -/
theorem act_finalize (p : Pipeline Session) (s : Session) (id : String) :
    (Operation.finalize id).act p s
      = match (Operation.finalize id).sends s with
        | none => s
        | some page => (p.sendPage page { s with pages := s.pages.erase id }).2 := by
  simp only [Operation.act, Operation.sends, Session.finalizePage]
  cases hfound : s.pages.find? id with
  | none => rw [Registry.take_of_none hfound]
  | some opened => rw [Registry.take_of_some hfound]

/-- After its end a page is out of the registry, whether or not it was there. -/
theorem pages_finalize (hp : LeavesRegistry p) (s : Session) (id : String) :
    ((Operation.finalize id).act p s).pages = s.pages.erase id := by
  rw [act_finalize, Operation.sends]
  cases hfound : s.pages.find? id with
  | none =>
    rw [Registry.take_of_none hfound]
    exact (Registry.erase_of_none hfound).symm
  | some opened =>
    rw [Registry.take_of_some hfound]
    exact hp _ _

/-- What the end of a page may do to a session. Where nothing is registered under the id it does
nothing. Otherwise what is registered there, and nothing else, leaves the registry, and then the
page is handed to the sink of the pipeline, once, loaded from when it started until now. -/
inductive EndsPage (p : Pipeline Session) (id : String) (s : Session) : Session → Prop
  | absent (missing : s.pages.find? id = none) : EndsPage p id s s
  | sent {started : Nat} {page : Archive.Page} {out : Registry}
      (found : s.pages.find? id = some (started, page)) (gone : out.find? id = none)
      (others : ∀ other, other ≠ id → out.find? other = s.pages.find? other) :
      EndsPage p id s
        (p.sendPage
          { page with
            pageTimings := { page.pageTimings with onLoad := millis (s.now - started) } }
          { s with pages := out }).2

/-- Ending a page is one of the two, and which of them is up to the registry. -/
theorem endsPage_finalizePage (p : Pipeline Session) (id : String) (s : Session) :
    EndsPage p id s (s.finalizePage p id) := by
  unfold Session.finalizePage
  cases hfound : s.pages.find? id with
  | none =>
    rw [Registry.take_of_none hfound]
    exact .absent hfound
  | some opened =>
    rw [Registry.take_of_some hfound]
    have hgone : (s.pages.erase id).find? id = none := by
      rw [Registry.find?_erase, if_pos rfl]
    have hothers : ∀ other, other ≠ id →
        (s.pages.erase id).find? other = s.pages.find? other := by
      intro other hother
      rw [Registry.find?_erase, if_neg hother]
    exact .sent hfound hgone hothers

/-- However a page ends, nothing is registered under its id after that. For a page that was
sent, the pipeline must not have put it back. -/
theorem EndsPage.find?_eq_none {s' : Session} (hp : LeavesRegistry p) (h : EndsPage p id s s') :
    s'.pages.find? id = none := by
  cases h with
  | absent missing => exact missing
  | sent found gone others =>
    rw [hp]
    exact gone

/-- **What a step does to an id**: an operation leaves its own page under the id that it touches,
and the pages of other ids as they are. -/
theorem find?_act (hp : LeavesRegistry p) (s : Session) (op : Operation) (id : String) :
    (op.act p s).pages.find? id
      = if op.touches = some id then op.leaves else s.pages.find? id := by
  -- The id of an operation is compared from the other side.
  have hside : ∀ other : String, (some other = some id) = (id = other) := by
    intro other
    rw [Option.some.injEq]
    exact propext eq_comm
  cases op with
  | advance nanos => rfl
  | get other => rfl
  | start made other title comment =>
    simp only [Operation.touches, hside]
    exact Registry.find?_start s.pages (.new made other title comment) id
  | finalize other =>
    simp only [Operation.touches, hside]
    rw [pages_finalize hp]
    exact Registry.find?_erase s.pages other id

theorem run_concat (p : Pipeline Session) (s : Session) (ops : List Operation)
    (op : Operation) : run p s (ops ++ [op]) = op.act p (run p s ops) := by
  simp [run]

/-- **The registry is what the history says**: of each id it has what the last operation that
started or ended a page under it has left. The induction is on the operations, and each of them
is the last for its own id only. -/
theorem find?_run (hp : LeavesRegistry p) (hs : s.pages = {}) (ops : List Operation)
    (id : String) :
    (run p s ops).pages.find? id = (last? ops id).bind Operation.leaves := by
  induction ops using List.reverseRecOn with
  | nil =>
    show s.pages.find? id = none
    rw [hs]
    rfl
  | append_singleton ops op ih =>
    rw [run_concat, find?_act hp, last?_concat, ih]
    split <;> rfl

theorem nodup_act (hp : LeavesRegistry p) (h : s.pages.ids.Nodup) (op : Operation) :
    (op.act p s).pages.ids.Nodup := by
  cases op with
  | advance nanos => exact h
  | get id => exact h
  | start made id title comment => exact Registry.nodup_start h _
  | finalize id =>
    rw [pages_finalize hp]
    exact Registry.nodup_erase h id

/-- No id has two pages: starting a page under an id that has one takes that one out, and it is
never sent. -/
theorem nodup_run (hp : LeavesRegistry p) (hs : s.pages = {}) (ops : List Operation) :
    (run p s ops).pages.ids.Nodup := by
  induction ops using List.reverseRecOn with
  | nil =>
    show s.pages.ids.Nodup
    rw [hs]
    exact List.nodup_nil
  | append_singleton ops op ih =>
    rw [run_concat]
    exact nodup_act hp ih op

/-- What an operation sends is what is due by the history before it. An id that was never
touched and one that was ended last are alike here: the registry has nothing of either. -/
theorem sends_run (hp : LeavesRegistry p) (hs : s.pages = {}) (past : List Operation)
    (op : Operation) :
    op.sends (run p s past) = due past (run p s past).now op := by
  cases op with
  | finalize id =>
    have hfound := find?_run hp hs past id
    simp only [Operation.sends, due]
    rcases last?_cases past id with hlast | hlast | ⟨made, title, comment, hlast⟩
    · rw [hlast] at hfound ⊢
      rw [Registry.take_of_none hfound]
    · rw [hlast] at hfound ⊢
      rw [Registry.take_of_none hfound]
    · rw [hlast] at hfound ⊢
      rw [Registry.take_of_some hfound]
      simp only [Registry.loaded, Registry.pageOf, Start.new, String.isEmpty_iff, notApplicable]
  | _ => rfl

theorem mem_moments (past ops : List Operation) {before : List Operation} {found : Session}
    (h : (before, found, op) ∈ moments p (run p s past) past ops) : found = run p s before := by
  induction ops generalizing past with
  | nil => cases h
  | cons first rest ih =>
    rcases List.mem_cons.mp h with heq | hrest
    · cases heq
      rfl
    · rw [← run_concat] at hrest
      exact ih (past ++ [first]) hrest

end Runs

/-! ## Pipelines of steps -/

theorem runPage_leaves (steps : List (Step Archive.Page)) (page : Archive.Page) (s : Session) :
    (runPage Session.receivePage steps page s).2.pages = s.pages := by
  induction steps generalizing page s with
  | nil => rfl
  | cons step rest ih =>
    cases step with
    | change f => exact ih (f page) s
    | reject message => rfl
    | drop => rfl
    | twice =>
      show (runPage Session.receivePage rest page
        (runPage Session.receivePage rest page s).2).2.pages = s.pages
      rw [ih, ih]

/-- A pipeline of steps leaves the registry alone, for all it can do is change the page, refuse
it, drop it or hand it on twice. -/
theorem leavesRegistry_of_steps (entryMiddleware : List (EntryMiddleware Session))
    (steps : List (Step Archive.Page)) :
    LeavesRegistry (Session.pipeline entryMiddleware (steps.map Step.toPageMiddleware)) := by
  intro page s
  show (compose _ Session.receivePage page s).2.pages = s.pages
  rw [compose_page_steps]
  exact runPage_leaves steps page s

/-! ## Lives of pages -/

/-- What operations on the registry of a session do, one after the other. Every field is said
of the operations alone or of a session that one of them finds, so that the registry itself,
how it is kept and in which order, has no part in it. -/
structure Lifecycle (p : Pipeline Session) (s : Session) (ops : List Operation) : Prop where
  /-- The pages sent are those that are due, in the order of the operations. -/
  sent : sent p s ops
    = (moments p s [] ops).filterMap fun (past, found, op) => due past found.now op
  /-- The end of a page hands the page that is due to the pipeline, if any, and does nothing
  else. -/
  ends : ∀ past found id, (past, found, .finalize id) ∈ moments p s [] ops →
    (Operation.finalize id).act p found
      = match due past found.now (.finalize id) with
        | none => found
        | some page => (p.sendPage page { found with pages := found.pages.erase id }).2
  /-- A page is due if one was started under the id since one was ended. -/
  once : ∀ past now id, (due past now (.finalize id)).isSome ↔ StartedSince past id
  /-- What there is under an id is what the last operation on it has left. -/
  holds : ∀ id, (run p s ops).pages.find? id = (last? ops id).bind Operation.leaves
  /-- The ids that have a page are those on which the last operation was a start. -/
  ids : ∀ id, id ∈ (run p s ops).pages.ids
    ↔ ∃ made title comment, last? ops id = some (.start made id title comment)
  nodup : (run p s ops).pages.ids.Nodup
  /-- An operation on one id is nothing to another, whatever the session. -/
  apart : ∀ (found : Session) (op : Operation) id, op.touches ≠ some id →
    (op.act p found).pages.find? id = found.pages.find? id

theorem isSome_due_iff (past : List Operation) (now : Nat) (id : String) :
    (due past now (.finalize id)).isSome
      ↔ ∃ made title comment, last? past id = some (.start made id title comment) := by
  rcases last?_cases past id with hlast | hlast | ⟨made, title, comment, hlast⟩ <;>
    simp [due, hlast]

theorem isSome_leaves_iff (ops : List Operation) (id : String) :
    ((last? ops id).bind Operation.leaves).isSome
      ↔ ∃ made title comment, last? ops id = some (.start made id title comment) := by
  rcases last?_cases ops id with hlast | hlast | ⟨made, title, comment, hlast⟩ <;>
    simp [Operation.leaves, hlast]

/-- **A page is sent once for each time it was started and then ended**, by whatever pipeline,
as its last start says, and timed from when the marker of that start was made. -/
theorem pages_live_once (p : Pipeline Session) (hp : LeavesRegistry p) (s : Session)
    (hs : s.pages = {}) (ops : List Operation) : Lifecycle p s ops where
  sent := by
    apply List.filterMap_congr
    rintro ⟨past, found, op⟩ hmem
    obtain rfl := mem_moments [] ops hmem
    exact sends_run hp hs past op
  ends := by
    intro past found id hmem
    obtain rfl := mem_moments [] ops hmem
    rw [act_finalize, sends_run hp hs]
  once := by
    intro past now id
    rw [isSome_due_iff, startedSince_iff]
  holds := find?_run hp hs ops
  ids := by
    intro id
    rw [Registry.mem_ids_iff, find?_run hp hs, isSome_leaves_iff]
  nodup := nodup_run hp hs ops
  apart := by
    intro found op id htouches
    rw [find?_act hp, if_neg htouches]

/-- A page is started twice and ended twice, with another one under way. What is sent is the
second start, once, though the pipeline hands every page on twice. -/
theorem pages_live_once_restarted :
    let p := Session.pipeline [] [Step.twice.toPageMiddleware]
    let s : Session := { clock := { started := 0 } }
    let ops : List Operation := [.start s.clock "a" "First" "", .start s.clock "b" "Other" "",
      .advance 5, .start s.clock "a" "Second" "again", .advance 2, .finalize "a", .finalize "a"]
    LeavesRegistry p ∧ s.pages = {}
      ∧ sent p s ops = [{
          startedDateTime := s.clock.timestamp, id := "a", title := "Second",
          pageTimings := { onContentLoaded := -1.0, onLoad := millis 7 },
          comment := some "again" }]
      ∧ "b" ∈ (run p s ops).pages.ids := by
  intro p s ops
  have hp : LeavesRegistry p := leavesRegistry_of_steps [] [.twice]
  have hlives := pages_live_once p hp s rfl ops
  refine ⟨hp, rfl, hlives.sent.trans rfl, (hlives.ids "b").mpr ?_⟩
  exact ⟨s.clock, "Other", "", rfl⟩

end ExchangeArchive.Page
