import ExchangeArchive.Receiver.Checkpoint
import ExchangeArchive.Proofs.Storage.Files
/-
What a receiver of a sequence of files does before it takes a record.

First about one file: which parts of it and of the disk a flush, a close or another start
can change. Then about going on from one file to the next, where everything happens that
can go wrong with the sequence: the present file cannot be closed, there is no name for the
next, or it cannot be opened. `Ready` is the list of what that can come to, and
`ready_prepare` says that it is complete. Nothing later looks into `prepare` again.
-/

set_option autoImplicit false

namespace ExchangeArchive.Receiver

open ExchangeArchive.Archive ExchangeArchive.Storage ExchangeArchive.Time

/-! ## One file -/

namespace HarFile

variable {f : HarFile} {d : Disk}

/-- The file is open, and it is the one behind its path. As long as this is so, what is written to
the handle can be read at the path. -/
def IsOpen (f : HarFile) (d : Disk) : Prop := ∃ h, f.file = some h ∧ d.OpenAt h f.path

/-- A flush leaves the records as they are, whether or not it goes well. -/
theorem flush_receiver (f : HarFile) (d : Disk) : (f.flush d).receiver = f := by
  rw [flush]
  cases f.file with
  | none => rfl
  | some h =>
    dsimp only
    rcases d.replaceContent h f.content with ⟨result, d'⟩
    cases result <;> rfl

/-- Closing does to the disk what a flush does, and goes well if that does: it keeps no records. -/
theorem close_eq_flush (f : HarFile) (d : Disk) :
    (f.close d).result = (f.flush d).result ∧ (f.close d).disk = (f.flush d).disk := by
  rw [close]
  rcases f.flush d with ⟨result, f', d'⟩
  cases result <;> exact ⟨rfl, rfl⟩

/-- A flush of an open file touches its path only, and leaves it open. It need not go well for
that. -/
theorem IsOpen.flush (h : f.IsOpen d) :
    d.Touches (f.flush d).disk [f.path] ∧ f.IsOpen (f.flush d).disk := by
  obtain ⟨handle, hfile, hopen⟩ := h
  have hdisk : (f.flush d).disk = (d.replaceContent handle f.content).2 := by
    rw [HarFile.flush, hfile]
    dsimp only
    rcases d.replaceContent handle f.content with ⟨result, d'⟩
    cases result <;> rfl
  rw [hdisk]
  exact ⟨Disk.touches_replaceContent hopen f.content,
    handle, hfile, Disk.openAt_replaceContent hopen f.content⟩

/-- After a flush that went well the archive can be read at the path of the file, with all records
that the file has by then. -/
theorem IsOpen.read?_flush (h : f.IsOpen d) (hok : (f.flush d).result = .ok ()) :
    (f.flush d).disk.read? f.path = some f.content := by
  obtain ⟨handle, hfile, hopen⟩ := h
  rw [HarFile.flush, hfile] at hok ⊢
  dsimp only at hok ⊢
  have hread : (d.replaceContent handle f.content).1 = .ok () →
      (d.replaceContent handle f.content).2.read? f.path = some f.content :=
    Disk.read?_replaceContent hopen
  rcases hr : d.replaceContent handle f.content with ⟨result, d'⟩
  rw [hr] at hok hread
  cases result with
  | error fault => cases hok
  | ok _ => exact hread rfl

/-- Starting a file over touches its path only; it stays open, under its path and with its
records. -/
theorem IsOpen.start (h : f.IsOpen d) (v : Version) :
    d.Touches (f.start v d).disk [f.path] ∧ (f.start v d).receiver.IsOpen (f.start v d).disk ∧
      (f.start v d).receiver.path = f.path ∧ (f.start v d).receiver.entries = f.entries ∧
        (f.start v d).receiver.pages = f.pages := by
  have htouches := Disk.touches_create d f.path
  rw [HarFile.start]
  rcases hc : d.create f.path with ⟨result, d'⟩
  rw [hc] at htouches
  cases result with
  | error fault =>
    -- The file keeps the handle that it has.
    obtain ⟨handle, hfile, hopen⟩ := h
    have hopen' := Disk.openAt_create_of_error (q := f.path) hopen (by rw [hc])
    rw [hc] at hopen'
    exact ⟨htouches, ⟨handle, hfile, hopen'⟩, rfl, rfl, rfl⟩
  | ok handle =>
    have hopen := Disk.openAt_create (d := d) (p := f.path) (h := handle) (by rw [hc])
    rw [hc] at hopen
    exact ⟨htouches, ⟨handle, rfl, hopen⟩, rfl, rfl, rfl⟩

end HarFile

/-! ## Getting ready -/

namespace Checkpoint

/-- The receiver that has counted a record of the given size. Without a limit there is nothing to
count for. -/
def count (size : Option Nat) (r : Checkpoint) : Checkpoint :=
  { r with
    counted := match size with
      | some n => if r.maxBytes = 0 then r.counted else r.counted + n
      | none => r.counted }

/-- Whether the present file is let go of for the next one, when a record of the given size
comes or, without one, a flush. -/
def isDue (c : Clock) (size : Option Nat) (r : Checkpoint) : Bool :=
  !r.closed && (r.writer.isNone ||
    (size.isSome && r.maxBytes != 0 && decide (r.maxBytes < (r.count size).counted)) ||
      r.isTooOld c)

/-- The receiver between two files: the old one is let go of, and the new one not opened yet. -/
def between (c : Clock) (r : Checkpoint) : Checkpoint :=
  { r with names := (r.names.next c).2, lastRoll := c.elapsed, counted := 0, writer := none }

/-- The file that the receiver goes on to: it has the version of the last start, or the default one
if there was no start. -/
def nextFile (r : Checkpoint) (path : String) (h : Handle) : HarFile :=
  { path := path, file := some h, version := r.version.getD {} }

/-- The disk once the present file, if there is one, has been closed. -/
def closedDisk (r : Checkpoint) (d : Disk) : Disk :=
  r.writer.elim d fun f => (f.close d).disk

/-- What getting ready can come to. Each way that it can fail is a case of its own, with what it
leaves behind: a file that could not be closed is gone all the same. -/
inductive Ready (c : Clock) (size : Option Nat) (r : Checkpoint) (d : Disk) :
    Outcome Checkpoint → Prop where
  /-- The receiver is closed. -/
  | closed (h : r.closed = true) : Ready c size r d (.fail .closed r d)
  /-- The present file will do. -/
  | present (f : HarFile) (h : r.closed = false) (hdue : r.isDue c size = false)
      (hf : r.writer = some f) : Ready c size r d (.ok (r.count size) d)
  /-- The present file cannot be closed. -/
  | stuck (f : HarFile) (e : Error) (hdue : r.isDue c size = true) (hf : r.writer = some f)
      (he : (f.close d).result = .error e) :
      Ready c size r d (.fail (.rotate e) { r.count size with writer := none } (r.closedDisk d))
  /-- There is no name for the next file. -/
  | unnamed (e : Error) (hdue : r.isDue c size = true)
      (hclose : ∀ f, r.writer = some f → (f.close d).result = .ok ())
      (hname : (r.names.next c).1 = .error e) :
      Ready c size r d (.fail e (r.between c) (r.closedDisk d))
  /-- The next file cannot be opened. -/
  | unopened (path : String) (fault : IoFault) (hdue : r.isDue c size = true)
      (hclose : ∀ f, r.writer = some f → (f.close d).result = .ok ())
      (hname : (r.names.next c).1 = .ok path)
      (hcreate : ((r.closedDisk d).create path).1 = .error fault) :
      Ready c size r d
        (.fail (.rotate (.io fault)) (r.between c) ((r.closedDisk d).create path).2)
  /-- The next file is open. -/
  | opened (path : String) (h : Handle) (hdue : r.isDue c size = true)
      (hclose : ∀ f, r.writer = some f → (f.close d).result = .ok ())
      (hname : (r.names.next c).1 = .ok path)
      (hcreate : ((r.closedDisk d).create path).1 = .ok h) :
      Ready c size r d
        (.ok { r.between c with writer := some (r.nextFile path h) }
          ((r.closedDisk d).create path).2)

variable {c : Clock} {size : Option Nat} {r : Checkpoint} {d : Disk}

/-- Getting ready is going on to the next file, or counting what comes for the present one. With
this the tests that decide between the two are one condition, `isDue`. -/
theorem prepare_eq (c : Clock) (size : Option Nat) (r : Checkpoint) (d : Disk) :
    r.prepare c size d =
      if r.closed then .fail .closed r d
      else if r.isDue c size then rotate c (r.count size) d
      else .ok (r.count size) d := by
  unfold prepare
  by_cases hclosed : r.closed = true
  · rw [if_pos hclosed, if_pos hclosed]
  rw [if_neg hclosed, if_neg hclosed]
  by_cases hnone : r.writer.isNone = true
  · have hw : r.writer = none := Option.isNone_iff_eq_none.mp hnone
    have hdue : r.isDue c size = true := by simp [isDue, hclosed, hnone]
    -- Whether the record is counted first makes no difference to going on.
    have hrotate : rotate c r d = rotate c (r.count size) d := by
      have hw' : (r.count size).writer = none := hw
      rw [rotate, rotate, hw, hw']
      rfl
    rw [if_pos hnone, if_pos hdue, hrotate]
  · have hdue : r.isDue c size = ((size.isSome && r.maxBytes != 0 &&
        decide (r.maxBytes < (r.count size).counted)) || (r.count size).isTooOld c) := by
      have hage : (r.count size).isTooOld c = r.isTooOld c := rfl
      simp [isDue, hclosed, hnone, hage]
    rw [if_neg hnone, hdue]
    -- A full file and an old one lead to the same.
    show (if (size.isSome && r.maxBytes != 0 &&
            decide (r.maxBytes < (r.count size).counted)) = true then rotate c (r.count size) d
          else if (r.count size).isTooOld c = true then rotate c (r.count size) d
          else .ok (r.count size) d) = _
    cases (size.isSome && r.maxBytes != 0 && decide (r.maxBytes < (r.count size).counted)) <;>
      cases (r.count size).isTooOld c <;> rfl

/-- Opening the next file, once there is no present one: there may be no name, the file may not
open, or it is there and new. -/
theorem ready_openNext (hdue : r.isDue c size = true)
    (hclose : ∀ f, r.writer = some f → (f.close d).result = .ok ()) :
    Ready c size r d (openNext c { r.count size with writer := none } (r.closedDisk d)) := by
  rcases hn : r.names.next c with ⟨name, names⟩
  have hbetween : r.between c =
      { r.count size with
        names := names, lastRoll := c.elapsed, counted := 0, writer := none } := by
    rw [between, hn]
    rfl
  have hn' : ({ r.count size with writer := none } : Checkpoint).names.next c = (name, names) := hn
  unfold openNext
  rw [hn']
  cases name with
  | error e =>
    have h := Ready.unnamed (d := d) e hdue hclose (by rw [hn])
    rw [hbetween] at h
    exact h
  | ok path =>
    unfold HarFile.start
    dsimp only
    rcases hc : (r.closedDisk d).create path with ⟨result, d'⟩
    cases result with
    | error fault =>
      have h := Ready.unopened path fault hdue hclose (by rw [hn]) (by rw [hc])
      rw [hc, hbetween] at h
      exact h
    | ok handle =>
      have h := Ready.opened path handle hdue hclose (by rw [hn]) (by rw [hc])
      rw [hc, hbetween] at h
      exact h

/-- Without a present file there is none to let go of, and the next is opened at once. -/
theorem rotate_of_none (hw : r.writer = none) :
    rotate c (r.count size) d
      = openNext c { r.count size with writer := none } (r.closedDisk d) := by
  have hw' : (r.count size).writer = none := hw
  have hsame : { r.count size with writer := none } = r.count size := by
    rw [← hw']
  rw [rotate, hw', closedDisk, hw, hsame]
  rfl

/-- A present file that cannot be closed is let go of all the same. -/
theorem rotate_of_error {f : HarFile} {e : Error} (hw : r.writer = some f)
    (he : (f.close d).result = .error e) :
    rotate c (r.count size) d
      = .fail (.rotate e) { r.count size with writer := none } (r.closedDisk d) := by
  have hw' : (r.count size).writer = some f := hw
  rw [rotate, hw', closedDisk, hw, Option.elim_some]
  dsimp only
  rcases hc : f.close d with ⟨result, f', d'⟩
  rw [hc] at he
  obtain rfl : result = .error e := he
  rfl

/-- After the present file has been closed the next one is opened, if there is a name for it. -/
theorem rotate_of_ok {f : HarFile} (hw : r.writer = some f) (he : (f.close d).result = .ok ()) :
    rotate c (r.count size) d
      = openNext c { r.count size with writer := none } (r.closedDisk d) := by
  have hw' : (r.count size).writer = some f := hw
  rw [rotate, hw', closedDisk, hw, Option.elim_some]
  dsimp only
  rcases hc : f.close d with ⟨result, f', d'⟩
  rw [hc] at he
  obtain rfl : result = .ok () := he
  rfl

/-- **What getting ready comes to** is one of the things listed. Everything about runs is proved
from this, so none of it looks at how a receiver rotates. -/
theorem ready_prepare (c : Clock) (size : Option Nat) (r : Checkpoint) (d : Disk) :
    Ready c size r d (r.prepare c size d) := by
  rw [prepare_eq]
  cases hclosed : r.closed with
  | true => exact .closed hclosed
  | false =>
    rw [if_neg Bool.false_ne_true]
    cases hdue : r.isDue c size with
    | false =>
      rw [if_neg Bool.false_ne_true]
      -- Without a file the next one would be due.
      have hw : r.writer.isNone = false := by
        simp only [isDue, hclosed, Bool.not_false, Bool.true_and, Bool.or_eq_false_iff] at hdue
        exact hdue.1.1
      obtain ⟨f, hf⟩ := Option.isSome_iff_exists.mp (by simpa using hw)
      exact .present f hclosed hdue hf
    | true =>
      have hbetween : (r.count size).between c = r.between c := rfl
      rw [if_pos rfl]
      cases hw : r.writer with
      | none =>
        have hclose : ∀ f, r.writer = some f → (f.close d).result = .ok () := by simp [hw]
        rw [rotate_of_none hw]
        exact ready_openNext hdue hclose
      | some f =>
        cases he : (f.close d).result with
        | error e => rw [rotate_of_error hw he]; exact .stuck f e hdue hw he
        | ok _ =>
          have hclose : ∀ g, r.writer = some g → (g.close d).result = .ok () := by
            rintro g hg
            obtain rfl : f = g := Option.some.inj (hw.symm.trans hg)
            exact he
          rw [rotate_of_ok hw he]
          exact ready_openNext hdue hclose

end Checkpoint

end ExchangeArchive.Receiver
