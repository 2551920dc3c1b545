import ExchangeArchive.Proofs.Receiver.Ready
import ExchangeArchive.Proofs.Storage.Writing
import Mathlib.Data.List.DropRight
import Mathlib.Data.List.Induction
/-
**The file of a receiver holds what was accepted.**

What a receiver is told and answers is its transcript, and the archive that its file should
hold is read off the transcript alone: the version of the last start that went well, and the
records that were accepted since the last close that went well. Flushes are no part of that,
so a transcript without its flushes says the same; on a disk without outages it is the
transcript of the run without them (`withoutFlushes_transcript`).

`Kept` is what the receiver holds in its fields, and `note` what one line of a transcript
adds to it; a step of the receiver does the same to its fields (`kept_step`), whatever the
disk does. With that a flush that goes well writes the archive of the transcript, and one
that fails has changed nothing that the next would write.
-/

set_option autoImplicit false

namespace ExchangeArchive.Receiver.HarFile

open ExchangeArchive.Archive ExchangeArchive.Storage

/-! ## Operations -/

/-- An operation on a receiver. -/
inductive Operation where
  | start (v : Version)
  | entry (e : Entry)
  | page (p : Page)
  | flush
  | close

namespace Operation

def isFlush : Operation → Bool
  | .flush => true
  | _ => false

end Operation

/-- A receiver with the disk, which during a run is its own: nobody else writes to it. -/
structure World where
  file : HarFile
  disk : Disk

/-- The operations of a run, each with its result; a page always goes well. -/
abbrev Transcript := List (Operation × Except Error Unit)

namespace World

/-- A receiver that has not been used yet, for the file at a path. It has opened nothing. -/
def fresh (path : String) (d : Disk) : World := ⟨{ path }, d⟩

/-- What an operation comes to. -/
def outcome (w : World) : Operation → Outcome HarFile
  | .start v => w.file.start v w.disk
  | .entry e => w.file.entry e w.disk
  | .page p => .ok (w.file.page p) w.disk
  | .flush => w.file.flush w.disk
  | .close => w.file.close w.disk

/-- Does an operation. -/
def step (w : World) (op : Operation) : World := ⟨(w.outcome op).receiver, (w.outcome op).disk⟩

/-- Does operations one after the other. -/
def after (w : World) (ops : List Operation) : World := ops.foldl step w

/-- The transcript of a run. -/
def transcript : World → List Operation → Transcript
  | _, [] => []
  | w, op :: rest => (op, (w.outcome op).result) :: transcript (w.step op) rest

theorem after_concat (w : World) (ops : List Operation) (op : Operation) :
    w.after (ops ++ [op]) = (w.after ops).step op := by
  rw [after, List.foldl_append]
  rfl

theorem transcript_concat (w : World) (ops : List Operation) (op : Operation) :
    w.transcript (ops ++ [op])
      = w.transcript ops ++ [(op, ((w.after ops).outcome op).result)] := by
  induction ops generalizing w with
  | nil => rfl
  | cons a ops ih => exact congrArg _ (ih (w.step a))

end World

/-! ## What a transcript says -/

namespace Transcript

/-- The version of a start that went well; a start that failed gives none. -/
def started? : Operation × Except Error Unit → Option Version
  | (.start v, .ok ()) => some v
  | _ => none

/-- The entry that was accepted, as the result told the caller: an entry that was refused is not
among the entries of the transcript. -/
def accepted? : Operation × Except Error Unit → Option Entry
  | (.entry e, .ok ()) => some e
  | _ => none

/-- The page that was brought. Whether a file was open to take it, the line alone does not say;
`pages` looks at the lines before. -/
def page? : Operation × Except Error Unit → Option Page
  | (.page p, _) => some p
  | _ => none

/-- Whether a close went well. -/
def isClose : Operation × Except Error Unit → Bool
  | (.close, .ok ()) => true
  | _ => false

variable (t : Transcript)

/-- What came after the last close that went well. -/
def lately : Transcript := List.rtakeWhile (fun x => !isClose x) t

/-- A file is open if there was a start that went well and no close since. A close that failed
leaves the file open, and so do failed writes. -/
def isOpen : Bool := (lately t).any fun x => (started? x).isSome

/-- The version of the last start that went well, also of one before a close: a receiver keeps its
version over that. -/
def version : Version := (List.filterMap started? t).getLast?.getD {}

/-- The entries that were accepted since the last close. -/
def entries : List Entry := (lately t).filterMap accepted?

/-- The pages that were accepted since the last close: those that came while a file was
open. -/
def pages : List Page := ((lately t).dropWhile fun x => (started? x).isNone).filterMap page?

/-- The archive of what was accepted: what the file is to hold, with nothing in it that the caller
could not have told from the transcript. -/
def archive : HttpArchive where
  log := {
    version := (version t).harVersion
    creator := (version t).agent
    pages := pages t
    entries := entries t }

/-- The archive as compact JSON, and the end of the line. -/
def text : String := HttpArchive.codec.toJsonText (archive t) ++ "\n"

def withoutFlushes : Transcript := List.filter (fun x => !x.1.isFlush) t

end Transcript

/-! ## Line by line -/

/-- What a receiver keeps: the version, the records, and whether a file is open. Everything it
writes depends on these alone. -/
structure Kept where
  version : Version := {}
  pages : List Page := []
  entries : List Entry := []
  isOpen : Bool := false

namespace Kept

/-- What one line of a transcript adds. -/
def note (k : Kept) : Operation × Except Error Unit → Kept
  | (.start v, .ok ()) => { k with version := v, isOpen := true }
  | (.entry e, .ok ()) => { k with entries := k.entries ++ [e] }
  | (.page p, _) => if k.isOpen then { k with pages := k.pages ++ [p] } else k
  | (.close, .ok ()) => { k with pages := [], entries := [], isOpen := false }
  | _ => k

end Kept

namespace Transcript

/-- What a transcript says that is kept. -/
def kept (t : Transcript) : Kept := ⟨version t, pages t, entries t, isOpen t⟩

variable (t : Transcript) {x : Operation × Except Error Unit}

theorem lately_of_close (h : isClose x = true) : lately (t ++ [x]) = [] := by
  rw [lately, List.rtakeWhile_concat, if_neg (by simp [h])]

theorem lately_of_not_close (h : isClose x = false) : lately (t ++ [x]) = lately t ++ [x] := by
  rw [lately, List.rtakeWhile_concat, if_pos (by simp [h])]
  rfl

theorem version_concat : version (t ++ [x]) = (started? x).getD (version t) := by
  rw [version, List.filterMap_append]
  cases h : started? x with
  | none => simp [h, version]
  | some v => simp [h]

theorem isOpen_concat (h : isClose x = false) :
    isOpen (t ++ [x]) = (isOpen t || (started? x).isSome) := by
  rw [isOpen, lately_of_not_close t h, List.any_append, ← isOpen]
  simp

theorem entries_concat (h : isClose x = false) :
    entries (t ++ [x]) = entries t ++ (accepted? x).toList := by
  rw [entries, lately_of_not_close t h, List.filterMap_append, ← entries]
  cases hx : accepted? x <;> simp [hx]

/-- A page that comes while no file is open is passed over. -/
theorem pages_concat (h : isClose x = false) :
    pages (t ++ [x]) = pages t ++ if isOpen t then (page? x).toList else [] := by
  have hnone : ((lately t).dropWhile fun x => (started? x).isNone) = [] ↔ isOpen t = false := by
    rw [List.dropWhile_eq_nil_iff, isOpen, List.any_eq_false]
    simp
  rw [pages, lately_of_not_close t h, List.dropWhile_append]
  by_cases hopen : isOpen t = true
  · have hsome : ¬ ((lately t).dropWhile fun x => (started? x).isNone).isEmpty = true := by
      rw [List.isEmpty_iff, hnone, hopen]
      exact nofun
    rw [if_neg hsome, if_pos hopen, List.filterMap_append, ← pages]
    cases hx : page? x <;> simp [hx]
  · have hshut : isOpen t = false := by simpa using hopen
    have hpages : pages t = [] := by
      rw [pages, hnone.mpr hshut]
      rfl
    rw [hnone.mpr hshut, if_neg hopen, hpages]
    -- The line is dropped, or it is a start, which brings no page.
    rcases x with ⟨op, result⟩
    cases op <;> cases result <;> rfl

/-- **What is kept after one line more.** -/
theorem kept_concat : kept (t ++ [x]) = (kept t).note x := by
  by_cases h : isClose x = true
  · have hx : x = (.close, .ok ()) := by
      rcases x with ⟨op, result⟩
      cases op <;> cases result <;> first | rfl | cases h
    have hlately := lately_of_close t h
    rw [kept, version_concat, pages, entries, isOpen, hlately, hx]
    rfl
  · have h : isClose x = false := by simpa using h
    rw [kept, version_concat, pages_concat t h, entries_concat t h, isOpen_concat t h]
    rcases x with ⟨op, result⟩
    cases op with
    | page p =>
      cases hopen : isOpen t <;> simp [kept, hopen, Kept.note, started?, accepted?, page?]
    | close =>
      cases result with
      | ok _ => cases h
      | error e => simp [kept, Kept.note, started?, accepted?, page?]
    | _ => cases result <;> simp [kept, Kept.note, started?, accepted?, page?]

/-- A flush is not kept, so two transcripts that differ by flushes alone say the same. -/
theorem kept_withoutFlushes : kept (withoutFlushes t) = kept t := by
  induction t using List.reverseRecOn with
  | nil => rfl
  | append_singleton t x ih =>
    rw [kept_concat, withoutFlushes, List.filter_append]
    by_cases hx : x.1.isFlush = true
    · have hnote : (kept t).note x = kept t := by
        rcases x with ⟨op, result⟩
        cases op <;> first | rfl | cases hx
      rw [List.filter_cons_of_neg (by simp [hx]), List.filter_nil, List.append_nil, hnote]
      exact ih
    · rw [List.filter_cons_of_pos (by simpa using hx), List.filter_nil, kept_concat]
      exact congrArg (Kept.note · x) ih

/-- The text depends on what is kept alone, and not on the way there. -/
theorem text_congr {t t' : Transcript} (h : kept t = kept t') : text t = text t' := by
  have hversion : version t = version t' := congrArg Kept.version h
  have hpages : pages t = pages t' := congrArg Kept.pages h
  have hentries : entries t = entries t' := congrArg Kept.entries h
  rw [text, text, archive, archive, hversion, hpages, hentries]

end Transcript

/-! ## Step by step -/

namespace World

variable {w : World} {op : Operation}

/-- What a receiver holds in its fields. -/
def kept (w : World) : Kept :=
  ⟨w.file.version, w.file.pages, w.file.entries, w.file.file.isSome⟩

/-- What an operation comes to: nothing, or what it is for. An operation that fails is among those
that come to nothing for the receiver, though the disk may have changed. -/
inductive Effect (w : World) : Operation → Prop where
  /-- It fails, and leaves the receiver as it was. -/
  | failed {op : Operation} (e : Error) (hresult : (w.outcome op).result = .error e)
      (hfile : (w.step op).file = w.file) : Effect w op
  | started (v : Version) (handle : Handle) (hresult : (w.outcome (.start v)).result = .ok ())
      (hfile : (w.step (.start v)).file = { w.file with file := some handle, version := v })
      (hopen : (w.step (.start v)).disk.OpenAt handle w.file.path) : Effect w (.start v)
  | accepted (e : Entry) (hopen : w.file.file.isSome = true)
      (hresult : (w.outcome (.entry e)).result = .ok ())
      (hfile : (w.step (.entry e)).file = { w.file with entries := w.file.entries ++ [e] })
      (hdisk : (w.step (.entry e)).disk = w.disk) : Effect w (.entry e)
  | added (p : Page) (hopen : w.file.file.isSome = true)
      (hfile : (w.step (.page p)).file = { w.file with pages := w.file.pages ++ [p] })
      (hdisk : (w.step (.page p)).disk = w.disk) : Effect w (.page p)
  /-- The page is passed over, as no file is open. -/
  | passed (p : Page) (hshut : w.file.file = none)
      (hfile : (w.step (.page p)).file = w.file) : Effect w (.page p)
  | flushed (hresult : (w.outcome .flush).result = .ok ())
      (hfile : (w.step .flush).file = w.file) : Effect w .flush
  | closed (hresult : (w.outcome .close).result = .ok ())
      (hfile : (w.step .close).file = { w.file with file := none, pages := [], entries := [] }) :
      Effect w .close

/-- Every operation comes to one of these. What runs keep is proved by cases on them, not by
opening the receiver each time. -/
theorem effect (w : World) (op : Operation) : w.Effect op := by
  cases op with
  | start v =>
    have hcreate := @Disk.openAt_create w.disk w.file.path
    have hstart : w.outcome (.start v) = w.file.start v w.disk := rfl
    rw [HarFile.start] at hstart
    rcases hc : w.disk.create w.file.path with ⟨fault | handle, d⟩
    · rw [hc] at hstart
      exact .failed (.io fault) (by rw [hstart]; rfl) (by rw [step, hstart]; rfl)
    · rw [hc] at hstart hcreate
      refine .started v handle (by rw [hstart]; rfl) (by rw [step, hstart]; rfl) ?_
      rw [step, hstart]
      exact hcreate rfl
  | entry e =>
    have hentry : w.outcome (.entry e) = w.file.entry e w.disk := rfl
    rw [HarFile.entry] at hentry
    cases hf : w.file.file with
    | none =>
      rw [hf] at hentry
      exact .failed .closed (by rw [hentry]; rfl) (by rw [step, hentry]; rfl)
    | some handle =>
      rw [hf] at hentry
      exact .accepted e (by rw [hf]; rfl) (by rw [hentry]; rfl)
        (by simp [step, hentry, Outcome.ok, hf]) (by rw [step, hentry]; rfl)
  | page p =>
    have hpage : w.outcome (.page p) = .ok (w.file.page p) w.disk := rfl
    rw [HarFile.page] at hpage
    cases hf : w.file.file with
    | none =>
      rw [hf] at hpage
      exact .passed p hf (by rw [step, hpage]; rfl)
    | some handle =>
      rw [hf] at hpage
      exact .added p (by rw [hf]; rfl) (by simp [step, hpage, Outcome.ok, hf])
        (by rw [step, hpage]; rfl)
  | flush =>
    have hfile : (w.step .flush).file = w.file := flush_receiver w.file w.disk
    cases hresult : (w.outcome .flush).result with
    | error e => exact .failed e hresult hfile
    | ok _ => exact .flushed hresult hfile
  | close =>
    have hflush := flush_receiver w.file w.disk
    have hclose : w.outcome .close = w.file.close w.disk := rfl
    rw [HarFile.close] at hclose
    rcases hc : w.file.flush w.disk with ⟨e | _, f, d⟩
    · rw [hc] at hclose hflush
      exact .failed e (by rw [hclose]; rfl) (by rw [step, hclose]; exact hflush)
    · rw [hc] at hclose hflush
      obtain rfl : f = w.file := hflush
      exact .closed (by rw [hclose]; rfl) (by rw [step, hclose]; rfl)

/-- An operation that fails leaves the receiver as it was, so it can be tried again. -/
theorem step_of_error {e : Error} (h : (w.outcome op).result = .error e) :
    (w.step op).file = w.file := by
  cases effect w op with
  | failed e' hresult hfile => exact hfile
  | passed p hshut hfile => exact hfile
  | flushed hresult hfile => exact hfile
  | added p hopen hfile hdisk => cases h
  | started v handle hresult hfile hopen => cases hresult.symm.trans h
  | accepted e' hopen hresult hfile hdisk => cases hresult.symm.trans h
  | closed hresult hfile => cases hresult.symm.trans h

/-- While no file is open nothing is accepted, and nothing changes. A page is passed over without
an error, as pages never have one. -/
theorem outcome_of_closed (h : w.file.file = none) :
    (∀ e, w.outcome (.entry e) = .fail .closed w.file w.disk)
      ∧ (∀ p, w.outcome (.page p) = .ok w.file w.disk)
      ∧ w.outcome .flush = .fail .closed w.file w.disk
      ∧ w.outcome .close = .fail .closed w.file w.disk := by
  have hflush : w.file.flush w.disk = .fail .closed w.file w.disk := by rw [flush, h]
  refine ⟨fun e => ?_, fun p => ?_, hflush, ?_⟩
  · rw [outcome, entry, h]
  · rw [outcome, page, h]
  · rw [outcome, close, hflush]
    rfl

/-- **A step keeps what its line in the transcript says.** -/
theorem kept_step (w : World) (op : Operation) :
    (w.step op).kept = w.kept.note (op, (w.outcome op).result) := by
  rw [kept]
  cases effect w op with
  | failed e hresult hfile =>
    rw [hfile, hresult]
    cases op with
    | page p => cases hresult
    | _ => rfl
  | started v handle hresult hfile hopen =>
    rw [hfile, hresult]
    rfl
  | accepted e hopen hresult hfile hdisk =>
    rw [hfile, hresult]
    rfl
  | added p hopen hfile hdisk =>
    rw [hfile]
    exact (if_pos hopen).symm
  | passed p hshut hfile =>
    have hnot : ¬ w.file.file.isSome = true := by simp [hshut]
    rw [hfile]
    exact (if_neg hnot).symm
  | flushed hresult hfile =>
    rw [hfile, hresult]
    rfl
  | closed hresult hfile =>
    rw [hfile, hresult]
    rfl

/-- The open file is the one behind the path of the receiver, and that path stays. -/
structure Holds (path : String) (w : World) : Prop where
  path : w.file.path = path
  isOpen : w.file.file.isSome = true → w.file.IsOpen w.disk

theorem holds_fresh (path : String) (d : Disk) : Holds path (fresh path d) :=
  ⟨rfl, fun h => by cases h⟩

/-- A file that stays open with the receiver does so on the disk: writing it changes no names. -/
theorem isOpen_step (h : w.file.IsOpen w.disk) (hfile : (w.step op).file = w.file) :
    w.file.IsOpen (w.step op).disk := by
  cases op with
  | start v =>
    -- The handle may be another now, but by what is assumed it is not.
    have hopen := (h.start v).2.1
    have hsame : (w.file.start v w.disk).receiver = w.file := hfile
    rw [hsame] at hopen
    exact hopen
  | entry e =>
    have hdisk : (w.file.entry e w.disk).disk = w.disk := by
      rw [entry]
      split <;> rfl
    rw [step, outcome, hdisk]
    exact h
  | page p => exact h
  | flush => exact h.flush.2
  | close =>
    rw [step, outcome, (close_eq_flush w.file w.disk).2]
    exact h.flush.2

/-- An operation leaves an open file open, and behind the path. -/
theorem Holds.step {path : String} (h : Holds path w) (op : Operation) :
    Holds path (w.step op) := by
  -- Whatever leaves the receiver as it was leaves its file where it was.
  have hsame : (w.step op).file = w.file → Holds path (w.step op) := by
    intro hfile
    refine ⟨by rw [hfile]; exact h.path, fun hopen => ?_⟩
    rw [hfile] at hopen ⊢
    exact isOpen_step (h.isOpen hopen) hfile
  cases effect w op with
  | failed e hresult hfile => exact hsame hfile
  | passed p hshut hfile => exact hsame hfile
  | flushed hresult hfile => exact hsame hfile
  | started v handle hresult hfile hopen =>
    refine ⟨by rw [hfile]; exact h.path, fun _ => ?_⟩
    rw [hfile]
    exact ⟨handle, rfl, hopen⟩
  | accepted e hopen hresult hfile hdisk =>
    refine ⟨by rw [hfile]; exact h.path, fun _ => ?_⟩
    rw [hfile, hdisk]
    exact h.isOpen hopen
  | added p hopen hfile hdisk =>
    refine ⟨by rw [hfile]; exact h.path, fun _ => ?_⟩
    rw [hfile, hdisk]
    exact h.isOpen hopen
  | closed hresult hfile =>
    refine ⟨by rw [hfile]; exact h.path, fun hopen => ?_⟩
    rw [hfile] at hopen
    cases hopen

/-- What holds after any operations, by induction on the run from a receiver that has opened
nothing. -/
theorem holds_after (path : String) (d : Disk) (ops : List Operation) :
    Holds path ((fresh path d).after ops) := by
  induction ops using List.reverseRecOn with
  | nil => exact holds_fresh path d
  | append_singleton ops op ih =>
    rw [after_concat]
    exact ih.step op

/-- **A receiver keeps what its transcript says**, whatever has failed. -/
theorem kept_after (path : String) (d : Disk) (ops : List Operation) :
    ((fresh path d).after ops).kept = Transcript.kept ((fresh path d).transcript ops) := by
  induction ops using List.reverseRecOn with
  | nil => rfl
  | append_singleton ops op ih =>
    rw [after_concat, kept_step, ih, transcript_concat, Transcript.kept_concat]

/-! ## Flushes between other operations -/

/-- The world without the contents of the disk. Runs with and without flushes differ in these, and,
where no outage is planned, in nothing else. -/
def forget (w : World) : World := ⟨w.file, w.disk.forget⟩

/-- On a calm disk a flush writes contents and nothing else, so it is a step that does not move the
world that is left without them. -/
theorem flush_forget (f : HarFile) {d : Disk} (h : d.IsCalm) :
    (f.flush d.forget).result = (f.flush d).result ∧ (f.flush d).disk.forget = d.forget
      ∧ (f.flush d).disk.IsCalm := by
  rw [HarFile.flush, HarFile.flush]
  cases f.file with
  | none => exact ⟨rfl, rfl, h⟩
  | some handle =>
    obtain ⟨hresult, hdisk, hcalm⟩ := Disk.replaceContent_forget h handle f.content
    dsimp only
    rcases hw : d.replaceContent handle f.content with ⟨result, d₁⟩
    rcases hw' : d.forget.replaceContent handle f.content with ⟨result', d₁'⟩
    rw [hw] at hresult hdisk hcalm
    rw [hw'] at hresult
    obtain rfl : result' = result := hresult
    cases result' with
    | error fault => exact ⟨rfl, hdisk, hcalm⟩
    | ok _ => exact ⟨rfl, hdisk, hcalm⟩

/-- On a calm disk the contents have no part in what an operation comes to. -/
theorem forget_step (h : w.disk.IsCalm) (op : Operation) :
    (w.forget.outcome op).result = (w.outcome op).result
      ∧ (w.forget.step op).forget = (w.step op).forget ∧ (w.step op).disk.IsCalm := by
  cases op with
  | start v =>
    obtain ⟨hresult, hdisk, hcalm⟩ := Disk.create_forget h w.file.path
    rw [forget, step, step, outcome, outcome, HarFile.start, HarFile.start]
    rcases hc : w.disk.create w.file.path with ⟨result, d⟩
    rcases hc' : w.disk.forget.create w.file.path with ⟨result', d'⟩
    rw [hc] at hresult hdisk hcalm
    rw [hc'] at hresult hdisk
    obtain rfl : result' = result := hresult
    cases result' with
    | error fault => exact ⟨rfl, congrArg (World.mk _) hdisk, hcalm⟩
    | ok handle => exact ⟨rfl, congrArg (World.mk _) hdisk, hcalm⟩
  | entry e =>
    rw [forget, step, step, outcome, outcome, HarFile.entry, HarFile.entry]
    cases w.file.file with
    | none => exact ⟨rfl, rfl, h⟩
    | some handle => exact ⟨rfl, rfl, h⟩
  | page p => exact ⟨rfl, rfl, h⟩
  | flush =>
    obtain ⟨hresult, hdisk, hcalm⟩ := flush_forget w.file h
    obtain ⟨-, hdisk', -⟩ := flush_forget w.file (d := w.disk.forget) h
    have hfile : (w.forget.step .flush).file = (w.step .flush).file :=
      (flush_receiver w.file w.disk.forget).trans (flush_receiver w.file w.disk).symm
    exact ⟨hresult, congrArg₂ World.mk hfile (hdisk'.trans hdisk.symm), hcalm⟩
  | close =>
    -- A close is a flush, and what follows on one that goes well does not look at the disk.
    obtain ⟨hresult, hdisk, hcalm⟩ := flush_forget w.file h
    obtain ⟨-, hdisk', -⟩ := flush_forget w.file (d := w.disk.forget) h
    have hfile := flush_receiver w.file w.disk
    have hfile' := flush_receiver w.file w.disk.forget
    rw [forget, step, step, outcome, outcome, HarFile.close, HarFile.close]
    rcases hw : w.file.flush w.disk with ⟨result, f, d⟩
    rcases hw' : w.file.flush w.disk.forget with ⟨result', f', d'⟩
    rw [hw] at hresult hdisk hcalm hfile
    rw [hw'] at hresult hdisk' hfile'
    obtain rfl : result' = result := hresult
    obtain rfl : f = w.file := hfile
    obtain rfl : f' = w.file := hfile'
    have hsame : d'.forget = d.forget := hdisk'.trans hdisk.symm
    cases result' with
    | error e => exact ⟨rfl, congrArg (World.mk _) hsame, hcalm⟩
    | ok _ => exact ⟨rfl, congrArg (World.mk _) hsame, hcalm⟩

theorem transcript_forget (h : w.disk.IsCalm) (ops : List Operation) :
    w.forget.transcript ops = w.transcript ops := by
  induction ops generalizing w with
  | nil => rfl
  | cons op ops ih =>
    obtain ⟨hresult, hnext, hcalm⟩ := forget_step h op
    obtain ⟨-, -, hcalm'⟩ := forget_step (w := w.forget) h op
    rw [transcript, transcript, hresult, ← ih hcalm', hnext, ih hcalm]

/-- **On a calm disk flushes make no difference to the other operations.** A run without its
flushes is the run of the others. -/
theorem withoutFlushes_transcript (h : w.disk.IsCalm) (ops : List Operation) :
    Transcript.withoutFlushes (w.transcript ops)
      = w.transcript (ops.filter fun op => !op.isFlush) := by
  induction ops generalizing w with
  | nil => rfl
  | cons op ops ih =>
    have hcalm := (forget_step h op).2.2
    rw [transcript, Transcript.withoutFlushes]
    by_cases hop : op.isFlush = true
    · rw [List.filter_cons_of_neg (by simpa using hop),
        List.filter_cons_of_neg (by simpa using hop)]
      -- The flush changes contents only, which the others do not see.
      have hforget : (w.step op).forget = w.forget := by
        cases op <;> cases hop
        exact congrArg₂ World.mk (flush_receiver w.file w.disk) (flush_forget w.file h).2.1
      refine (ih hcalm).trans ?_
      rw [← transcript_forget hcalm, hforget, transcript_forget h]
    · rw [List.filter_cons_of_pos (by simpa using hop),
        List.filter_cons_of_pos (by simpa using hop)]
      exact congrArg _ (ih hcalm)

/-! ## The result -/

/-- What is written is the archive as its codec writes it: the members that the document
leaves out are those of an archive without a browser and a comment. -/
theorem content_eq (f : HarFile) :
    f.content = HttpArchive.codec.toJsonText f.archive ++ "\n" := rfl

/-- The content of a file is the text of its transcript, at whatever point of a run it is
written. -/
theorem content_after (path : String) (d : Disk) (ops : List Operation) :
    ((fresh path d).after ops).file.content
      = Transcript.text ((fresh path d).transcript ops) := by
  have hkept := kept_after path d ops
  have hversion : ((fresh path d).after ops).file.version = _ := congrArg Kept.version hkept
  have hpages : ((fresh path d).after ops).file.pages = _ := congrArg Kept.pages hkept
  have hentries : ((fresh path d).after ops).file.entries = _ := congrArg Kept.entries hkept
  rw [content_eq, archive, hversion, hpages, hentries]
  rfl

/-- A close writes like a flush; what it does besides shows only when it went well. -/
theorem outcome_of_flush {op : Operation} (hop : op = .flush ∨ op = .close) :
    (w.outcome op).result = (w.file.flush w.disk).result
      ∧ (w.step op).disk = (w.file.flush w.disk).disk := by
  rcases hop with rfl | rfl
  · exact ⟨rfl, rfl⟩
  · exact close_eq_flush w.file w.disk

/-- A flush, or a close, that goes well leaves the content at the path. -/
theorem Holds.read? {path : String} (h : Holds path w) {op : Operation}
    (hop : op = .flush ∨ op = .close) (hok : (w.outcome op).result = .ok ()) :
    (w.step op).disk.read? path = some w.file.content := by
  obtain ⟨hresult, hdisk⟩ := outcome_of_flush (w := w) hop
  have hflush := hresult.symm.trans hok
  cases hf : w.file.file with
  | none =>
    rw [flush, hf] at hflush
    cases hflush
  | some handle =>
    rw [hdisk, ← h.path]
    exact (h.isOpen (by rw [hf]; rfl)).read?_flush hflush

/-- A flush or a close of an open file does to its content what the steps of writing do, all
of them, as it does unless an outage hits it, or up to one that fails. -/
theorem steps_of_flush {op : Operation} (hop : op = .flush ∨ op = .close) {n : Nat}
    (hf : w.file.file = some (.file n)) (place : Nat) :
    (w.disk.outages w.disk.operations = none → (w.outcome op).result = .ok ())
      ∧ ∃ k ≤ (WriteStep.rewrite w.file.content.toList).length,
      ((w.step op).disk.content n).toList
          = (WriteStep.runAll ⟨(w.disk.content n).toList, place⟩
              ((WriteStep.rewrite w.file.content.toList).take k)).text
        ∧ ((w.outcome op).result = .ok ()
            ↔ k = (WriteStep.rewrite w.file.content.toList).length) := by
  obtain ⟨hresult, hdisk⟩ := outcome_of_flush (w := w) hop
  have hflush : (w.file.flush w.disk).disk
        = (w.disk.replaceContent (.file n) w.file.content).2
      ∧ ((w.file.flush w.disk).result = .ok ()
        ↔ (w.disk.replaceContent (.file n) w.file.content).1 = .ok ()) := by
    rw [flush, hf]
    dsimp only
    rcases w.disk.replaceContent (.file n) w.file.content with ⟨fault | _, d⟩
    · exact ⟨rfl, iff_of_false (fun h => by cases h) (fun h => by cases h)⟩
    · exact ⟨rfl, iff_of_true rfl rfl⟩
  rw [hresult, hdisk, hflush.1, hflush.2]
  exact ⟨fun hcalm => (w.disk.replaceContent_of_calm n w.file.content hcalm).1,
    w.disk.replaceContent_steps n w.file.content place⟩

/-- A flush that stops at a character of the document could not write the document; one that stops
before them, or at the end of the line or later, tells of the file. -/
theorem failure_stopAfter (f : HarFile) (fault : IoFault) (k : Nat) :
    f.failure (Disk.stopAfter fault k)
      = if 2 ≤ k ∧ k < f.document.toText.length + 2 then .json fault.message else .io fault := by
  unfold failure Disk.stopAfter
  by_cases hk : k < 2
  · rw [if_pos hk, if_neg (show ¬(2 ≤ k ∧ _) by omega)]
    rfl
  · have hiff : k - 2 < f.document.toText.length ↔ 2 ≤ k ∧ k < f.document.toText.length + 2 := by
      omega
    rw [if_neg hk]
    simp only [Option.any_some, decide_eq_true_eq, hiff]

/-- **The file of a receiver holds what was accepted.** After any operations, whatever has
failed among them:

* a flush or a close that goes well leaves at the path the archive of the transcript, as its
  codec writes it, and the end of a line; any other run whose transcript differs by flushes
  only leaves the same;
* without outages flushes make no difference to the other operations: but for the flushes
  the transcript is that of a run without them;
* an operation that fails leaves the receiver as it was, and the archive of the transcript
  is the one that it was, so that a later flush writes it;
* a file is open if there was a start that went well and no close since; while there is none
  entries, flushes and closes are refused, and nothing but a start changes anything;
* a flush or a close goes back to the beginning of the file, cuts it to nothing, writes the
  text and has it stored, in this order, and it goes well exactly if it does all of that, as
  it does unless an outage hits it: whatever the file held before, nothing of it is left. -/
theorem file_holds_accepted (path : String) (d : Disk) (ops : List Operation) :
    let w := (fresh path d).after ops
    let told := (fresh path d).transcript ops
    (∀ op, op = .flush ∨ op = .close → (w.outcome op).result = .ok () →
      (w.step op).disk.read? path = some (Transcript.text told)
        ∧ ∀ d' ops' op', op' = .flush ∨ op' = .close →
          let w' := (fresh path d').after ops'
          (w'.outcome op').result = .ok () →
          Transcript.withoutFlushes ((fresh path d').transcript ops')
            = Transcript.withoutFlushes told →
          (w'.step op').disk.read? path = (w.step op).disk.read? path)
    ∧ (d.IsCalm → Transcript.withoutFlushes told
        = (fresh path d).transcript (ops.filter fun op => !op.isFlush))
    ∧ (∀ op e, (w.outcome op).result = .error e →
        (w.step op).file = w.file
          ∧ Transcript.text (told ++ [(op, .error e)]) = Transcript.text told)
    ∧ w.file.file.isSome = Transcript.isOpen told
    ∧ (Transcript.isOpen told = false →
        (∀ e, (w.outcome (.entry e)).result = .error .closed)
          ∧ (w.outcome .flush).result = .error .closed
          ∧ (w.outcome .close).result = .error .closed
          ∧ ∀ op, (∀ v, op ≠ .start v) → w.step op = w)
    ∧ (∀ op n place, op = .flush ∨ op = .close → w.file.file = some (.file n) →
        let steps := WriteStep.rewrite (Transcript.text told).toList
        (w.disk.outages w.disk.operations = none → (w.outcome op).result = .ok ())
          ∧ ∃ k ≤ steps.length,
          ((w.step op).disk.content n).toList
              = (WriteStep.runAll ⟨(w.disk.content n).toList, place⟩ (steps.take k)).text
            ∧ ((w.outcome op).result = .ok () ↔ k = steps.length)) := by
  intro w told
  have hholds : Holds path w := holds_after path d ops
  have hcontent : w.file.content = Transcript.text told := content_after path d ops
  have hisOpen : w.file.file.isSome = Transcript.isOpen told :=
    congrArg Kept.isOpen (kept_after path d ops)
  refine ⟨?_, fun hcalm => withoutFlushes_transcript hcalm ops, ?_, hisOpen, ?_, ?_⟩
  · intro op hop hok
    have hread := hholds.read? hop hok
    rw [hcontent] at hread
    refine ⟨hread, ?_⟩
    intro d' ops' op' hop' w' hok' hsame
    have hread' := (holds_after path d' ops').read? hop' hok'
    have hkept : Transcript.kept ((fresh path d').transcript ops') = Transcript.kept told := by
      rw [← Transcript.kept_withoutFlushes, hsame, Transcript.kept_withoutFlushes]
    rw [content_after, Transcript.text_congr hkept] at hread'
    exact hread'.trans hread.symm
  · intro op e he
    refine ⟨step_of_error he, Transcript.text_congr ?_⟩
    rw [Transcript.kept_concat]
    cases op with
    | page p => cases he
    | _ => rfl
  · intro hshut
    have hnone : w.file.file = none := by
      rw [← hisOpen] at hshut
      simpa using hshut
    obtain ⟨hentry, hpage, hflush, hclose⟩ := outcome_of_closed hnone
    refine ⟨fun e => by rw [hentry]; rfl, by rw [hflush]; rfl, by rw [hclose]; rfl, ?_⟩
    intro op hop
    cases op with
    | start v => exact absurd rfl (hop v)
    | entry e => rw [step, hentry]; rfl
    | page p => rw [step, hpage]; rfl
    | flush => rw [step, hflush]; rfl
    | close => rw [step, hclose]; rfl
  · intro op n place hop hf
    rw [← hcontent]
    exact steps_of_flush hop hf place

end World

end ExchangeArchive.Receiver.HarFile
