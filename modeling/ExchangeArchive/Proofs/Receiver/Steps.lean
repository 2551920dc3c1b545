import ExchangeArchive.Proofs.Receiver.Ready
/-
Steps of a receiver that writes a sequence of files.

An operation is two things, one after the other: getting ready, in which the present file
may be let go of for the next one, and work on the present file (`outcome_eq`). `Moves`
says where the present file can go in the first; in the second it gets its record.

What the rest of the theory speaks of is read off a state and the operation that it finds:
the file that the operation lets go of (`closing?`), the path of the file that it goes on
to (`generated?`), and whether it gets as far as the present file (`getsReady`). The step
lemmas at the end account for the records, the paths and the disk: what was in the present
file before, or comes with the operation, is in the file let go of or in the present one
after it, and the disk changes at the paths of these files only.
-/

set_option autoImplicit false

namespace ExchangeArchive.Receiver

open ExchangeArchive.Archive ExchangeArchive.Storage ExchangeArchive.Time

namespace Checkpoint

/-! ## Operations -/

/-- An operation on a receiver, or time that passes. -/
inductive Operation where
  | start (v : Version)
  | entry (e : Entry)
  | page (p : Page)
  | flush
  | close
  | advance (nanos : Nat)

namespace Operation

/-- For an operation that has to get ready first, the size of its record, if it has one. A flush
has none, and a start or a close does not get ready. -/
def prepares? : Operation → Option (Option Nat)
  | .entry e => some (some (entrySize e))
  | .page p => some (some (pageSize p))
  | .flush => some none
  | _ => none

/-- What an operation does with the present file, once the receiver has seen to it that there is
one. -/
def act : Operation → HarFile → Disk → Outcome HarFile
  | .start v => HarFile.start v
  | .entry e => HarFile.entry e
  | .page p => fun f d => .ok (f.page p) d
  | .flush => HarFile.flush
  | _ => .ok

/-- The entry that an operation brings. -/
def entries : Operation → List Entry
  | .entry e => [e]
  | _ => []

/-- The page that an operation brings. -/
def pages : Operation → List Page
  | .page p => [p]
  | _ => []

/-- What an operation tells of its result. Of a page it tells nothing: a page that found no file is
lost, and the caller does not hear of it. -/
def told (op : Operation) (result : Except Error Unit) : Except Error Unit :=
  match op with
  | .page _ => .ok ()
  | _ => result

/-- The clock after an operation. -/
def clock (op : Operation) (c : Clock) : Clock :=
  match op with
  | .advance nanos => c.advance nanos
  | _ => c

/-- Whether an operation is to leave everything on the disk, which is what a flush and a close are
for. -/
def isDurable : Operation → Bool
  | .flush => true
  | .close => true
  | _ => false

end Operation

/-- A receiver with the clock and the disk. The clock moves only where an operation says that time
passes. -/
structure World where
  clock : Clock
  receiver : Checkpoint
  disk : Disk

namespace World

/-- A receiver that has not been used yet. -/
def fresh (c : Clock) (names : FileNames) (maxBytes maxDuration lastRoll : Nat) (d : Disk) :
    World :=
  ⟨c, { names, maxBytes, maxDuration, lastRoll }, d⟩

/-- What an operation comes to. -/
def outcome (w : World) : Operation → Outcome Checkpoint
  | .start v => w.receiver.start v w.disk
  | .entry e => w.receiver.entry w.clock e w.disk
  | .page p => w.receiver.page w.clock p w.disk
  | .flush => w.receiver.flush w.clock w.disk
  | .close => w.receiver.close w.disk
  | .advance _ => .ok w.receiver w.disk

/-- Does an operation. -/
def step (w : World) (op : Operation) : Except Error Unit × World :=
  ((w.outcome op).result, ⟨op.clock w.clock, (w.outcome op).receiver, (w.outcome op).disk⟩)

/-- What an operation does before it gets to the present file. This is all that may let go of a
file, use up a name or open the next one. -/
def before (w : World) (op : Operation) : Outcome Checkpoint :=
  match op.prepares?, op with
  | some size, _ => w.receiver.prepare w.clock size w.disk
  | none, .start v =>
    if w.receiver.closed then .fail .closed w.receiver w.disk
    else .ok { w.receiver with version := some v } w.disk
  | none, .close =>
    if w.receiver.closed then .ok w.receiver w.disk
    else
      ⟨w.receiver.writer.elim (.ok ()) fun f => (f.close w.disk).result,
        { w.receiver with closed := true, writer := none }, w.receiver.closedDisk w.disk⟩
  | none, _ => .ok w.receiver w.disk

/-- The present file that an operation lets go of, whether or not it can be closed well. -/
def closing? (w : World) (op : Operation) : Option HarFile :=
  match op.prepares?, op with
  | some size, _ => if w.receiver.isDue w.clock size then w.receiver.writer else none
  | none, .close => if w.receiver.closed then none else w.receiver.writer
  | none, _ => none

/-- Whether the file that an operation lets go of, if it does so, is closed well. -/
def closesWell (w : World) (op : Operation) : Bool :=
  (w.closing? op).all fun f => (f.close w.disk).result.isOk

/-- The path of the file that an operation goes on to, or means to go on to. -/
def generated? (w : World) (op : Operation) : Option String :=
  match op.prepares? with
  | some size =>
    if w.receiver.isDue w.clock size && w.closesWell op then
      (w.receiver.names.next w.clock).1.toOption
    else none
  | none => none

/-- Where the present file goes before an operation gets to it: the file that is let go of,
the path that is gone on to, and the present file and the disk after that. -/
inductive Moves (version : Version) (writer : Option HarFile) (d : Disk) :
    Option HarFile → Option String → Option HarFile → Disk → Prop where
  | stays : Moves version writer d none none writer d
  | goes : Moves version writer d writer none none (writer.elim d fun f => (f.close d).disk)
  | misses (path : String) (fault : IoFault)
      (hclose : ∀ f, writer = some f → (f.close d).result = .ok ())
      (h : ((writer.elim d fun f => (f.close d).disk).create path).1 = .error fault) :
      Moves version writer d writer (some path) none
        ((writer.elim d fun f => (f.close d).disk).create path).2
  | turns (path : String) (handle : Handle)
      (hclose : ∀ f, writer = some f → (f.close d).result = .ok ())
      (h : ((writer.elim d fun f => (f.close d).disk).create path).1 = .ok handle) :
      Moves version writer d writer (some path)
        (some { path := path, file := some handle, version := version })
        ((writer.elim d fun f => (f.close d).disk).create path).2

variable {w : World} {op : Operation} {size : Option Nat}

theorem before_of_prepares (h : op.prepares? = some size) :
    w.before op = w.receiver.prepare w.clock size w.disk := by
  cases op <;> cases h <;> rfl

theorem closing?_of_prepares (h : op.prepares? = some size) :
    w.closing? op = if w.receiver.isDue w.clock size then w.receiver.writer else none := by
  cases op <;> cases h <;> rfl

theorem generated?_of_prepares (h : op.prepares? = some size) :
    w.generated? op = if w.receiver.isDue w.clock size && w.closesWell op then
      (w.receiver.names.next w.clock).1.toOption else none := by
  rw [generated?, h]

theorem closing?_close (w : World) :
    w.closing? .close = if w.receiver.closed then none else w.receiver.writer := rfl

theorem isOk_iff {ε : Type} {r : Except ε Unit} : r.isOk = true ↔ r = .ok () := by
  cases r <;> simp [Except.isOk, Except.toBool]

/-- The file that there is, if there is one, is closed well. -/
theorem allClose_iff {writer : Option HarFile} {d : Disk} :
    (writer.all fun f => (f.close d).result.isOk) = true ↔
      ∀ f, writer = some f → (f.close d).result = .ok () := by
  rw [Option.all_eq_true]
  simp only [isOk_iff]

/-- An operation moves the present file in one of the ways listed. What follows about a step is
proved from this list alone. -/
theorem moves_before (w : World) (op : Operation) :
    Moves (w.receiver.version.getD {}) w.receiver.writer w.disk (w.closing? op)
      (w.generated? op) (w.before op).receiver.writer (w.before op).disk := by
  cases hp : op.prepares? with
  | some size =>
    have hready := ready_prepare w.clock size w.receiver w.disk
    rw [before_of_prepares hp, generated?_of_prepares hp, closesWell, closing?_of_prepares hp]
    generalize w.receiver.prepare w.clock size w.disk = o at hready ⊢
    cases hready with
    | closed h =>
      have hdue : w.receiver.isDue w.clock size = false := by simp [isDue, h]
      rw [hdue]
      exact .stays
    | present f h hdue hf =>
      rw [hdue]
      exact .stays
    | stuck f e hdue hf he =>
      -- No path is asked for after a failure to close.
      have hill : ((some f).all fun f => (f.close w.disk).result.isOk) = false := by
        rw [Option.all_some, he]
        rfl
      rw [hdue, if_pos rfl, hf, hill, ← hf]
      exact .goes
    | unnamed e hdue hclose hname =>
      rw [hdue, if_pos rfl, allClose_iff.mpr hclose, hname]
      exact .goes
    | unopened path fault hdue hclose hname hcreate =>
      rw [hdue, if_pos rfl, allClose_iff.mpr hclose, hname]
      exact .misses path fault hclose hcreate
    | opened path h hdue hclose hname hcreate =>
      rw [hdue, if_pos rfl, allClose_iff.mpr hclose, hname]
      exact .turns path h hclose hcreate
  | none =>
    have hgenerated : w.generated? op = none := by rw [generated?, hp]
    rw [hgenerated]
    cases op with
    | close =>
      by_cases hclosed : w.receiver.closed = true
      · have hbefore : w.before .close = .ok w.receiver w.disk := if_pos hclosed
        have hclosing : w.closing? .close = none := if_pos hclosed
        rw [hbefore, hclosing]
        exact .stays
      · have hclosing : w.closing? .close = w.receiver.writer := if_neg hclosed
        have hbefore : w.before .close = _ := if_neg hclosed
        rw [hbefore, hclosing]
        exact .goes
    | start v =>
      have hbefore : (w.before (.start v)).receiver.writer = w.receiver.writer ∧
          (w.before (.start v)).disk = w.disk := by
        show (if w.receiver.closed = true then _ else _ : Outcome Checkpoint).receiver.writer = _ ∧
          (if w.receiver.closed = true then _ else _ : Outcome Checkpoint).disk = _
        split <;> exact ⟨rfl, rfl⟩
      rw [hbefore.1, hbefore.2]
      exact .stays
    | advance nanos => exact .stays
    | _ => cases hp

/-- Who is ready has a file, so that an operation that got ready never finds the receiver without
one. -/
theorem writer_of_prepares (w : World) (op : Operation) (h : op.prepares?.isSome = true)
    (hok : (w.before op).result = .ok ()) : ∃ f, (w.before op).receiver.writer = some f := by
  obtain ⟨size, hp⟩ := Option.isSome_iff_exists.mp h
  have hready := ready_prepare w.clock size w.receiver w.disk
  rw [before_of_prepares hp] at hok ⊢
  generalize w.receiver.prepare w.clock size w.disk = o at hready hok ⊢
  cases hready with
  | present f h hdue hf => exact ⟨f, hf⟩
  | opened path h hdue hclose hname hcreate => exact ⟨_, rfl⟩
  | _ => cases hok

/-- Lets an operation that has got as far as the present file do its work there. -/
def settle (op : Operation) (b : Outcome Checkpoint) : Outcome Checkpoint :=
  match b.result, b.receiver.writer with
  | .ok (), some f => (op.act f b.disk).map fun f => { b.receiver with writer := some f }
  | _, _ => b

/-- Where there is no work to do, nothing changes, whether or not there is a present file. -/
theorem settle_of_idle {r : Checkpoint} {d : Disk} (h : ∀ f d, op.act f d = .ok f d) :
    settle op (.ok r d) = .ok r d := by
  cases hw : r.writer with
  | none => simp only [settle, Outcome.ok, hw]
  | some f =>
    have hsame : { r with writer := some f } = r := by rw [← hw]
    simp only [settle, Outcome.ok, hw, h, Outcome.map, hsame]

/-- Whoever is ready has a file, so the work on the present file is that of `withWriter` then, which
never says that the receiver is closed. -/
theorem settle_of_ready {op : Operation} {o : Outcome Checkpoint}
    (hready : o.result = .ok () → ∃ f, o.receiver.writer = some f) :
    settle op o = match o.result with
      | .error e => .fail e o.receiver o.disk
      | .ok () => o.receiver.withWriter op.act o.disk := by
  rcases o with ⟨_ | _, r, d⟩
  · rfl
  · obtain ⟨f, hf⟩ := hready rfl
    have hwriter : r.writer = some f := hf
    simp only [settle, withWriter, hwriter]

/-- **An operation is getting ready, and then work on the present file.** The receiver has a body of
its own for each operation; this is the form that all of them have. -/
theorem outcome_eq (w : World) (op : Operation) :
    w.outcome op =
      { settle op (w.before op) with result := op.told (settle op (w.before op)).result } := by
  cases op with
  | advance nanos =>
    have hbefore : w.before (.advance nanos) = .ok w.receiver w.disk := rfl
    rw [hbefore, settle_of_idle fun _ _ => rfl]
    rfl
  | start v =>
    by_cases hclosed : w.receiver.closed = true
    · have hbefore : w.before (.start v) = .fail .closed w.receiver w.disk := if_pos hclosed
      have houtcome : w.outcome (.start v) = .fail .closed w.receiver w.disk := if_pos hclosed
      rw [hbefore, houtcome]
      rfl
    · have hbefore : w.before (.start v) = .ok { w.receiver with version := some v } w.disk :=
        if_neg hclosed
      have houtcome : w.outcome (.start v) = _ := if_neg hclosed
      rw [hbefore, houtcome]
      cases hw : w.receiver.writer with
      | none => simp only [settle, Outcome.ok, hw]; rfl
      | some f => simp only [settle, Outcome.ok, hw]; rfl
  | close =>
    by_cases hclosed : w.receiver.closed = true
    · have hbefore : w.before .close = .ok w.receiver w.disk := if_pos hclosed
      have houtcome : w.outcome .close = .ok w.receiver w.disk := if_pos hclosed
      rw [hbefore, houtcome, settle_of_idle fun _ _ => rfl]
      rfl
    · have hbefore : w.before .close = _ := if_neg hclosed
      have houtcome : w.outcome .close = _ := if_neg hclosed
      rw [hbefore, houtcome, closedDisk]
      cases hw : w.receiver.writer with
      | none => simp only [settle, Outcome.ok]; rfl
      | some f =>
        simp only [settle, Option.elim_some]
        rcases f.close w.disk with ⟨_ | _, f', d'⟩ <;> rfl
  -- Whatever takes a record, or flushes, has a file once it is ready.
  | entry e =>
    rw [settle_of_ready (writer_of_prepares w (.entry e) rfl), before_of_prepares rfl, outcome,
      entry]
    rcases w.receiver.prepare w.clock (some (entrySize e)) w.disk with ⟨_ | _, r, d⟩ <;> rfl
  | page p =>
    have hready := writer_of_prepares w (.page p) rfl
    rw [before_of_prepares rfl] at hready ⊢
    rw [outcome, page]
    -- A page is not told of, so the receiver need not make an outcome of the work on it.
    generalize w.receiver.prepare w.clock (some (pageSize p)) w.disk = o at hready ⊢
    rcases o with ⟨_ | _, r, d⟩
    · rfl
    · obtain ⟨f, hf⟩ := hready rfl
      have hwriter : r.writer = some f := hf
      simp only [settle, hwriter]
      rfl
  | flush =>
    rw [settle_of_ready (writer_of_prepares w .flush rfl), before_of_prepares rfl, outcome, flush]
    rcases w.receiver.prepare w.clock none w.disk with ⟨_ | _, r, d⟩ <;> rfl

/-! ## What a step does to the files -/

/-- The present file, if there is one, is open, and once the receiver is closed there is
none. -/
structure IsOpen (w : World) : Prop where
  file : ∀ f, w.receiver.writer = some f → f.IsOpen w.disk
  closed : w.receiver.closed = true → w.receiver.writer = none

section Moving

variable {v : Version} {writer writer' closing : Option HarFile} {generated : Option String}
  {d d' : Disk}

/-- Closing the present file touches its path, and no other, whether or not it goes well. -/
theorem touches_closing (hopen : ∀ f, writer = some f → f.IsOpen d) :
    d.Touches (writer.elim d fun f => (f.close d).disk) (writer.toList.map (·.path)) := by
  cases writer with
  | none => exact .refl d []
  | some f =>
    rw [Option.elim_some, (f.close_eq_flush d).2]
    exact (hopen f rfl).flush.1

/-- Whatever a file has, moving on takes it from the present file to the one let go of, and
leaves nothing for the next. -/
theorem Moves.records {α : Type} (hm : Moves v writer d closing generated writer' d')
    (get : HarFile → List α)
    (hnew : ∀ path handle, get { path := path, file := some handle, version := v } = []) :
    closing.toList.flatMap get ++ writer'.toList.flatMap get = writer.toList.flatMap get := by
  cases hm with
  | stays => simp
  | goes => simp
  | misses path fault hclose h => simp
  | turns path handle hclose h => simp [hnew]

/-- The files come in the order of the paths that were generated for them: the one let go of is the
first, and the one that is gone on to the last. -/
theorem Moves.paths (hm : Moves v writer d closing generated writer' d') :
    ((closing.toList ++ writer'.toList).map (·.path)).Sublist
      (writer.toList.map (·.path) ++ generated.toList) := by
  cases hm with
  | stays => simp
  | goes => simp
  | misses path fault hclose h => simp
  | turns path handle hclose h => simp

/-- Moving on touches the path of the present file and that of the next. -/
theorem Moves.touches (hm : Moves v writer d closing generated writer' d')
    (hopen : ∀ f, writer = some f → f.IsOpen d) :
    d.Touches d' (writer.toList.map (·.path) ++ generated.toList) := by
  have hclosing := touches_closing hopen
  cases hm with
  | stays => exact .refl d _
  | goes => exact hclosing.mono (List.subset_append_left _ _)
  | misses path fault hclose h => exact hclosing.trans (Disk.touches_create _ path)
  | turns path handle hclose h => exact hclosing.trans (Disk.touches_create _ path)

/-- The present file is open after moving on, whichever it is. -/
theorem Moves.isOpen (hm : Moves v writer d closing generated writer' d')
    (hopen : ∀ f, writer = some f → f.IsOpen d) : ∀ f, writer' = some f → f.IsOpen d' := by
  cases hm with
  | stays => exact hopen
  | goes => rintro f hf; cases hf
  | misses path fault hclose h => rintro f hf; cases hf
  | turns path handle hclose h =>
    rintro f hf
    cases hf
    exact ⟨handle, rfl, Disk.openAt_create h⟩

/-- The archive of a file that was closed well can be read at its path, also after the next
one was opened at another. -/
theorem Moves.read? (hm : Moves v writer d closing generated writer' d')
    (hopen : ∀ f, writer = some f → f.IsOpen d) (hd : d.Sound) {f : HarFile}
    (hf : closing = some f) (hok : (f.close d).result = .ok ())
    (hapart : ∀ p ∈ generated, ¬d.SameFile f.path p) :
    d'.read? f.path = some f.content := by
  -- The close writes the archive, and opening the next file does not touch it.
  have hmoved : ∀ f, writer = some f → (f.close d).result = .ok () →
      (writer.elim d fun f => (f.close d).disk).read? f.path = some f.content := by
    rintro f rfl hok
    rw [Option.elim_some, (f.close_eq_flush d).2]
    exact (hopen f rfl).read?_flush ((f.close_eq_flush d).1 ▸ hok)
  have hclosing := touches_closing hopen
  have hcreate : ∀ path, ¬d.SameFile f.path path →
      ((writer.elim d fun f => (f.close d).disk).create path).2.read? f.path
        = (writer.elim d fun f => (f.close d).disk).read? f.path := by
    intro path hne
    refine (Disk.touches_create _ path).elsewhere (hclosing.sound hd) f.path fun p hp hsame => ?_
    obtain rfl := List.mem_singleton.mp hp
    exact hne ((Disk.sameFile_congr hclosing.layout).mp hsame.symm)
  cases hm with
  | stays => cases hf
  | goes => exact hmoved f hf hok
  | misses path fault hclose h => rw [hcreate path (hapart path rfl), hmoved f hf hok]
  | turns path handle hclose h => rw [hcreate path (hapart path rfl), hmoved f hf hok]

/-- If a file is let go of and there is a present one, that is the next. -/
theorem Moves.next (hm : Moves v writer d closing generated writer' d') {f g : HarFile}
    (hf : closing = some f) (hg : writer' = some g) : generated = some g.path := by
  cases hm with
  | stays => cases hf
  | goes => cases hg
  | misses path fault hclose h => cases hg
  | turns path handle hclose h => cases hg; rfl

/-- Only the present file can be let go of, and it is so as it was before the operation. -/
theorem Moves.writer_of_closing {f : HarFile}
    (hm : Moves v writer d (some f) generated writer' d') : writer = some f := by
  cases hm <;> rfl

/-- If the present file cannot be closed there is none afterwards. -/
theorem Moves.stuck (hm : Moves v writer d closing generated writer' d') {f : HarFile} {e : Error}
    (hf : closing = some f) (he : (f.close d).result = .error e) : writer' = none := by
  cases hm with
  | stays => cases hf
  | goes => rfl
  | misses path fault hclose h => rfl
  | turns path handle hclose h =>
    rw [hclose f hf] at he
    cases he

end Moving

/-- What work on an open file does: it adds the record to the file, touches the path of the
file, and leaves it open. -/
theorem act_spec {f : HarFile} {d : Disk} (h : f.IsOpen d) (op : Operation) :
    d.Touches (op.act f d).disk [f.path] ∧ (op.act f d).receiver.IsOpen (op.act f d).disk ∧
      (op.act f d).receiver.path = f.path ∧
        (op.act f d).receiver.entries = f.entries ++ op.entries ∧
          (op.act f d).receiver.pages = f.pages ++ op.pages := by
  obtain ⟨handle, hfile, hopen⟩ := h
  have hnone : f.entries = f.entries ++ [] ∧ f.pages = f.pages ++ [] :=
    ⟨(List.append_nil _).symm, (List.append_nil _).symm⟩
  cases op with
  | start v =>
    obtain ⟨htouches, hopen', hpath, hentries, hpages⟩ :=
      HarFile.IsOpen.start ⟨handle, hfile, hopen⟩ v
    exact ⟨htouches, hopen', hpath, by simp [Operation.act, Operation.entries, hentries],
      by simp [Operation.act, Operation.pages, hpages]⟩
  | entry e =>
    have hact : (Operation.entry e).act f d
        = .ok { f with entries := f.entries ++ [e] } d := by
      rw [Operation.act, HarFile.entry, hfile]
    rw [hact]
    exact ⟨.refl d _, ⟨handle, hfile, hopen⟩, rfl, rfl, hnone.2⟩
  | page p =>
    have hact : (Operation.page p).act f d = .ok { f with pages := f.pages ++ [p] } d := by
      simp only [Operation.act, HarFile.page, hfile]
    rw [hact]
    exact ⟨.refl d _, ⟨handle, hfile, hopen⟩, rfl, hnone.1, rfl⟩
  | flush =>
    obtain ⟨htouches, hopen'⟩ := HarFile.IsOpen.flush ⟨handle, hfile, hopen⟩
    have hact : (Operation.flush.act f d).receiver = f := f.flush_receiver d
    rw [hact]
    exact ⟨htouches, hopen', rfl, hnone.1, hnone.2⟩
  | close => exact ⟨.refl d _, ⟨handle, hfile, hopen⟩, rfl, hnone.1, hnone.2⟩
  | advance nanos => exact ⟨.refl d _, ⟨handle, hfile, hopen⟩, rfl, hnone.1, hnone.2⟩

/-- Whether an operation gets as far as the present file. That it does so is what the caller learns
from the result of an entry, but not from that of a page. -/
def getsReady (w : World) (op : Operation) : Bool := (w.before op).result.isOk

/-- What a step does to the present file and the disk, once it is known where the file has
moved: it ends there, or it does its work. -/
theorem step_cases (w : World) (op : Operation) :
    ((w.step op).2.receiver = (w.before op).receiver ∧ (w.step op).2.disk = (w.before op).disk ∧
        (w.step op).1 = op.told (w.before op).result ∧
          ((w.before op).receiver.writer = none ∨ w.getsReady op = false)) ∨
      ∃ f, w.getsReady op = true ∧ (w.before op).receiver.writer = some f ∧
        (w.step op).2.receiver = { (w.before op).receiver with
          writer := some (op.act f (w.before op).disk).receiver } ∧
        (w.step op).2.disk = (op.act f (w.before op).disk).disk ∧
          (w.step op).1 = op.told (op.act f (w.before op).disk).result := by
  rw [step, outcome_eq, getsReady]
  rcases w.before op with ⟨_ | _, r, d⟩
  · exact .inl ⟨rfl, rfl, rfl, .inr rfl⟩
  · cases hw : r.writer with
    | none =>
      refine .inl ?_
      simp only [settle, hw]
      exact ⟨trivial, trivial, trivial, .inl trivial⟩
    | some f =>
      refine .inr ⟨f, rfl, rfl, ?_⟩
      simp only [settle, hw]
      exact ⟨rfl, rfl, rfl⟩

/-- The present file as a list, of one file or none, so that it can stand behind the files that were
let go of. -/
def present (w : World) : List HarFile := w.receiver.writer.toList

/-- Getting ready leaves a closed receiver closed, and closes one only for good. -/
theorem closed_before (h : w.receiver.closed = true → w.receiver.writer = none) (op : Operation) :
    (w.before op).receiver.closed = true → (w.before op).receiver.writer = none := by
  cases hp : op.prepares? with
  | some size =>
    have hready := ready_prepare w.clock size w.receiver w.disk
    rw [before_of_prepares hp]
    generalize w.receiver.prepare w.clock size w.disk = o at hready ⊢
    cases hready with
    | closed hclosed => exact h
    | present f hclosed hdue hf => exact h
    | stuck f e hdue hf he => exact fun _ => rfl
    | unnamed e hdue hclose hname => exact fun _ => rfl
    | unopened path fault hdue hclose hname hcreate => exact fun _ => rfl
    | opened path handle hdue hclose hname hcreate =>
      -- What is due is not done by a closed receiver.
      intro hclosed
      have hopen : w.receiver.closed = false := by
        simp only [isDue, Bool.and_eq_true, Bool.not_eq_true'] at hdue
        exact hdue.1
      have hclosed : w.receiver.closed = true := hclosed
      rw [hopen] at hclosed
      cases hclosed
  | none =>
    cases op with
    | close =>
      by_cases hclosed : w.receiver.closed = true
      · have hbefore : w.before .close = .ok w.receiver w.disk := if_pos hclosed
        rw [hbefore]
        exact h
      · have hbefore : w.before .close = _ := if_neg hclosed
        rw [hbefore]
        exact fun _ => rfl
    | start v =>
      by_cases hclosed : w.receiver.closed = true
      · have hbefore : w.before (.start v) = .fail .closed w.receiver w.disk := if_pos hclosed
        rw [hbefore]
        exact h
      · have hbefore : w.before (.start v) = .ok { w.receiver with version := some v } w.disk :=
          if_neg hclosed
        rw [hbefore]
        exact h
    | advance nanos => exact h
    | _ => cases hp

/-- A step leaves the present file open, and a closed receiver without one. -/
theorem IsOpen.step (h : w.IsOpen) (op : Operation) : (w.step op).2.IsOpen := by
  have hopen := (moves_before w op).isOpen h.file
  have hclosed := closed_before h.closed op
  rcases step_cases w op with ⟨hreceiver, hdisk, -⟩ | ⟨f, -, hf, hreceiver, hdisk, -⟩
  · refine ⟨?_, ?_⟩
    · rw [hreceiver, hdisk]
      exact hopen
    · rw [hreceiver]
      exact hclosed
  · refine ⟨?_, ?_⟩
    · rw [hreceiver, hdisk]
      rintro g hg
      cases hg
      exact (act_spec (hopen f hf) op).2.1
    · rw [hreceiver]
      intro hc
      rw [hclosed hc] at hf
      cases hf

/-- A step touches the path of the present file, and that of the next. All other files are as they
were, which is how the files of a run keep what they were closed with. -/
theorem IsOpen.touches_step (h : w.IsOpen) (op : Operation) :
    w.disk.Touches (w.step op).2.disk (w.present.map (·.path) ++ (w.generated? op).toList) := by
  have hmoves := moves_before w op
  have hopen := hmoves.isOpen h.file
  have htouches := hmoves.touches h.file
  rcases step_cases w op with ⟨-, hdisk, -⟩ | ⟨f, -, hf, -, hdisk, -⟩
  · rw [hdisk]
    exact htouches
  · rw [hdisk]
    refine (htouches.trans (act_spec (hopen f hf) op).1).mono ?_
    -- The file that the work is done on is one of the two.
    have hpath : f.path ∈ w.present.map (·.path) ++ (w.generated? op).toList := by
      refine hmoves.paths.subset ?_
      rw [hf]
      simp
    exact List.append_subset.mpr
      ⟨List.Subset.refl _, List.cons_subset.mpr ⟨hpath, List.nil_subset _⟩⟩

/-- The present files come in the order of the paths that are generated. -/
theorem IsOpen.paths_step (h : w.IsOpen) (op : Operation) :
    (((w.closing? op).toList ++ (w.step op).2.present).map (·.path)).Sublist
      (w.present.map (·.path) ++ (w.generated? op).toList) := by
  have hmoves := moves_before w op
  have hpaths := hmoves.paths
  rcases step_cases w op with ⟨hreceiver, -⟩ | ⟨f, -, hf, hreceiver, -⟩
  · rw [present, hreceiver]
    exact hpaths
  · rw [present, hreceiver, present]
    rw [hf] at hpaths
    simpa [(act_spec (hmoves.isOpen h.file f hf) op).2.2.1] using hpaths

/-- Records that a step takes are added to those of the present file, and all that the file
had goes with it when it is let go of. -/
theorem IsOpen.records_step {α : Type} (h : w.IsOpen) (op : Operation)
    (get : HarFile → List α) (added : List α)
    (hnew : ∀ path handle version,
      get { path := path, file := some handle, version := version } = [])
    (hact : ∀ f d, f.IsOpen d → get (op.act f d).receiver = get f ++ added)
    (hprepares : added = [] ∨ op.prepares?.isSome = true) :
    (w.closing? op).toList.flatMap get ++ (w.step op).2.present.flatMap get
      = w.present.flatMap get ++ if w.getsReady op then added else [] := by
  have hmoves := moves_before w op
  have hrecords := hmoves.records get fun path handle => hnew path handle _
  rcases step_cases w op with ⟨hreceiver, -, -, hidle⟩ | ⟨f, hready, hf, hreceiver, -⟩
  · have hnothing : (if w.getsReady op then added else []) = [] := by
      rcases hidle with hnone | hnot
      · rcases hprepares with rfl | hp
        · exact ite_self _
        · -- An operation that brings records does not get ready without a file.
          refine if_neg fun hready => ?_
          have hok : (w.before op).result = .ok () := by
            rw [getsReady] at hready
            cases hr : (w.before op).result with
            | error e => rw [hr] at hready; cases hready
            | ok _ => rfl
          obtain ⟨f, hf⟩ := writer_of_prepares w op hp hok
          rw [hnone] at hf
          cases hf
      · rw [hnot]
        rfl
    rw [present, hreceiver, hnothing, List.append_nil]
    exact hrecords
  · rw [hf] at hrecords
    rw [present, hreceiver, hready, if_pos rfl, present, ← hrecords]
    simp [hact f _ (hmoves.isOpen h.file f hf)]

/-- The archive of a file that a step has closed well can be read at its path afterwards, if
the next file is another. -/
theorem IsOpen.read?_closing (h : w.IsOpen) (hd : w.disk.Sound) {f : HarFile}
    (hf : w.closing? op = some f) (hok : (f.close w.disk).result = .ok ())
    (hapart : ∀ p ∈ w.generated? op, ¬w.disk.SameFile f.path p) :
    (w.step op).2.disk.read? f.path = some f.content := by
  have hmoves := moves_before w op
  have hread := hmoves.read? h.file hd hf hok hapart
  rcases step_cases w op with ⟨-, hdisk, -⟩ | ⟨g, -, hg, -, hdisk, -⟩
  · rw [hdisk]
    exact hread
  · -- The work is on the next file, which is another.
    have htouches := hmoves.touches h.file
    have hwork := (act_spec (hmoves.isOpen h.file g hg) op).1
    rw [hdisk, hwork.elsewhere (htouches.sound hd) f.path fun p hp hsame => ?_, hread]
    obtain rfl := List.mem_singleton.mp hp
    exact hapart g.path (hmoves.next hf hg)
      ((Disk.sameFile_congr htouches.layout).mp hsame.symm)

/-- After a flush that went well the archive of the present file can be read at its path. -/
theorem IsOpen.read?_flush (h : w.IsOpen) (hok : (w.step .flush).1 = .ok ()) :
    ∃ f, (w.step .flush).2.receiver.writer = some f ∧
      (w.step .flush).2.disk.read? f.path = some f.content := by
  have hmoves := moves_before w .flush
  rcases step_cases w .flush with ⟨-, -, hresult, hidle⟩ | ⟨f, -, hf, hreceiver, hdisk, hresult⟩
  · -- A flush that goes well got ready, and so there was a file to flush.
    have hready : (w.before .flush).result = .ok () := hresult.symm.trans hok
    obtain ⟨f, hf⟩ := writer_of_prepares w .flush rfl hready
    rcases hidle with hnone | hnot
    · rw [hnone] at hf
      cases hf
    · rw [getsReady, hready] at hnot
      cases hnot
  · have hopen := hmoves.isOpen h.file f hf
    have hsame : (Operation.flush.act f (w.before .flush).disk).receiver = f := f.flush_receiver _
    refine ⟨f, ?_, ?_⟩
    · rw [hreceiver, hsame]
    · rw [hdisk]
      exact hopen.read?_flush (hresult.symm.trans hok)

/-- A file that is let go of was the present one, and the only one. -/
theorem present_of_closing {f : HarFile} (hf : w.closing? op = some f) : w.present = [f] := by
  have hmoves := moves_before w op
  rw [hf] at hmoves
  rw [present, hmoves.writer_of_closing]
  rfl

/-- A step that fails to close a file has none afterwards: the receiver gives the file up before it
knows how closing it went. -/
theorem present_of_stuck {f : HarFile} {e : Error} (hf : w.closing? op = some f)
    (he : (f.close w.disk).result = .error e) : (w.step op).2.present = [] := by
  have hnone := (moves_before w op).stuck hf he
  rcases step_cases w op with ⟨hreceiver, -⟩ | ⟨g, -, hg, -⟩
  · rw [present, hreceiver, hnone]
    rfl
  · rw [hnone] at hg
    cases hg

/-- Closing without a file changes nothing on the disk, and goes well. -/
theorem step_close_of_none (h : w.present = []) :
    (w.step .close).1 = .ok () ∧ (w.step .close).2.disk = w.disk := by
  have hw : w.receiver.writer = none := by
    cases hw : w.receiver.writer with
    | none => rfl
    | some f => rw [present, hw] at h; cases h
  rw [step, outcome, close]
  by_cases hclosed : w.receiver.closed = true
  · rw [if_pos hclosed]
    exact ⟨rfl, rfl⟩
  · rw [if_neg hclosed, hw]
    exact ⟨rfl, rfl⟩

/-- An entry is accepted if the operation gets as far as the present file. -/
theorem IsOpen.accepts_eq (h : w.IsOpen) (op : Operation) :
    (if (w.step op).1.isOk then op.entries else [])
      = if w.getsReady op then op.entries else [] := by
  cases op with
  | entry e =>
    have hmoves := moves_before w (.entry e)
    rcases step_cases w (.entry e) with ⟨-, -, hresult, -⟩ | ⟨f, hready, hf, -, -, hresult⟩
    · rw [hresult]
      rfl
    · obtain ⟨handle, hfile, -⟩ := hmoves.isOpen h.file f hf
      have hact : ((Operation.entry e).act f (w.before (.entry e)).disk).result = .ok () := by
        rw [Operation.act, HarFile.entry, hfile]
        rfl
      rw [hresult, hready, hact]
      rfl
  | _ => simp [Operation.entries]

end World

end Checkpoint

end ExchangeArchive.Receiver
