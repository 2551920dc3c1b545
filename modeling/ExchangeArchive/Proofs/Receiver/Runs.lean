import ExchangeArchive.Proofs.Receiver.Steps
import Mathlib.Data.List.Induction
/-
Runs of a receiver that writes a sequence of files.

The step lemmas add up. Over any run, whatever fails, the entries that were accepted are
those of the files that were let go of, one file after the other, and then those of the
present file (`entries_run`); pages likewise. The paths of these files come in the order in
which they were generated, so if the generated paths lead to different files, what can be
read of a file does not change any more once it has been let go of (`read?_of_closing`).
-/

set_option autoImplicit false

namespace ExchangeArchive.Receiver.Checkpoint.World

open ExchangeArchive.Archive ExchangeArchive.Storage

/-! ## Runs -/

/-- The world after operations. -/
def after (w : World) (ops : List Operation) : World := ops.foldl (fun w op => (w.step op).2) w

/-- The operations of a run, each with the world that it finds. What a file was let go of with, or
which path was generated, is read off such a pair. -/
def trace : World → List Operation → List (World × Operation)
  | _, [] => []
  | w, op :: rest => (w, op) :: trace (w.step op).2 rest

/-- The files that a run lets go of, oldest first, those among them that could not be closed
included. -/
def closings (w : World) (ops : List Operation) : List HarFile :=
  (w.trace ops).filterMap fun m => m.1.closing? m.2

/-- The paths that are generated in a run, oldest first. -/
def generated (w : World) (ops : List Operation) : List String :=
  (w.trace ops).filterMap fun m => m.1.generated? m.2

/-- The files of a run in the order in which they were opened, the present one last. A path that
could not be opened gives no file. -/
def files (w : World) (ops : List Operation) : List HarFile :=
  w.closings ops ++ (w.after ops).present

/-- The entries whose acceptance was told, in their order. Whoever passed them in has been answered
that all went well, and will not pass them in again. -/
def accepted (w : World) (ops : List Operation) : List Entry :=
  (w.trace ops).flatMap fun m => if (m.1.step m.2).1.isOk then m.2.entries else []

/-- The pages that got as far as a file, in their order; of a page nobody is told any failure. -/
def acceptedPages (w : World) (ops : List Operation) : List Page :=
  (w.trace ops).flatMap fun m => if m.1.getsReady m.2 then m.2.pages else []

/-- The paths that are generated in a run lead to different files. Names that repeat, or that lead
to one file by two ways, are the caller's to avoid. -/
def GeneratesApart (w : World) (ops : List Operation) : Prop :=
  (w.generated ops).Pairwise fun p q => ¬w.disk.SameFile p q

variable {w : World} {ops : List Operation} {op : Operation}

@[simp] theorem after_nil (w : World) : w.after [] = w := rfl

theorem after_concat (w : World) (ops : List Operation) (op : Operation) :
    w.after (ops ++ [op]) = ((w.after ops).step op).2 := by
  rw [after, after, List.foldl_append]
  rfl

theorem trace_append (w : World) (ops later : List Operation) :
    w.trace (ops ++ later) = w.trace ops ++ (w.after ops).trace later := by
  induction ops generalizing w with
  | nil => rfl
  | cons a ops ih => exact congrArg _ (ih (w.step a).2)

theorem trace_concat (w : World) (ops : List Operation) (op : Operation) :
    w.trace (ops ++ [op]) = w.trace ops ++ [(w.after ops, op)] :=
  trace_append w ops [op]

theorem closings_concat (w : World) (ops : List Operation) (op : Operation) :
    w.closings (ops ++ [op]) = w.closings ops ++ ((w.after ops).closing? op).toList := by
  rw [closings, closings, trace_concat, List.filterMap_append]
  cases hc : (w.after ops).closing? op <;> simp [hc]

theorem generated_concat (w : World) (ops : List Operation) (op : Operation) :
    w.generated (ops ++ [op]) = w.generated ops ++ ((w.after ops).generated? op).toList := by
  rw [generated, generated, trace_concat, List.filterMap_append]
  cases hg : (w.after ops).generated? op <;> simp [hg]

theorem accepted_concat (w : World) (ops : List Operation) (op : Operation) :
    w.accepted (ops ++ [op])
      = w.accepted ops ++ if ((w.after ops).step op).1.isOk then op.entries else [] := by
  rw [accepted, accepted, trace_concat, List.flatMap_append]
  simp

theorem acceptedPages_concat (w : World) (ops : List Operation) (op : Operation) :
    w.acceptedPages (ops ++ [op])
      = w.acceptedPages ops ++ if (w.after ops).getsReady op then op.pages else [] := by
  rw [acceptedPages, acceptedPages, trace_concat, List.flatMap_append]
  simp

/-- A moment of a run that goes one operation further is the last one or an earlier one. So what is
said of all moments can be proved along with the run. -/
theorem concat_within_concat {before : List Operation} {op' : Operation} :
    before ++ [op] <+: ops ++ [op'] ↔ (before = ops ∧ op = op') ∨ before ++ [op] <+: ops := by
  rw [List.prefix_concat_iff]
  constructor
  · rintro (hlast | hearlier)
    · obtain ⟨rfl, hop⟩ := List.append_inj' hlast rfl
      exact .inl ⟨rfl, List.head_eq_of_cons_eq hop⟩
    · exact .inr hearlier
  · rintro (⟨rfl, rfl⟩ | hearlier)
    · exact .inl rfl
    · exact .inr hearlier

/-! ## What runs preserve -/

/-- A receiver that has not been used has no file that could fail to be open. -/
theorem isOpen_fresh (c : Time.Clock) (names : FileNames) (maxBytes maxDuration lastRoll : Nat)
    (d : Disk) : (fresh c names maxBytes maxDuration lastRoll d).IsOpen :=
  ⟨(fun _ hf => by cases hf), fun hclosed => by cases hclosed⟩

theorem IsOpen.after (h : w.IsOpen) (ops : List Operation) : (w.after ops).IsOpen := by
  induction ops using List.reverseRecOn with
  | nil => exact h
  | append_singleton ops op ih =>
    rw [after_concat]
    exact ih.step op

/-- No run changes the directories, and all leave a sound disk sound. So where a path leads is the
same at any point of a run. -/
theorem IsOpen.disk_after (h : w.IsOpen) (ops : List Operation) :
    (w.after ops).disk.layout = w.disk.layout ∧
      (w.disk.Sound → (w.after ops).disk.Sound) := by
  induction ops using List.reverseRecOn with
  | nil => exact ⟨rfl, id⟩
  | append_singleton ops op ih =>
    have htouches := (h.after ops).touches_step op
    rw [after_concat]
    exact ⟨htouches.layout.trans ih.1, fun hd => htouches.sound (ih.2 hd)⟩

/-- Records of one kind: those of the files of a run are those that got as far as a file. -/
theorem IsOpen.records_run {α : Type} (h : w.IsOpen) (get : HarFile → List α)
    (added : Operation → List α)
    (hnew : ∀ path handle version,
      get { path := path, file := some handle, version := version } = [])
    (hact : ∀ op f d, f.IsOpen d → get (Operation.act op f d).receiver = get f ++ added op)
    (hprepares : ∀ op, added op = [] ∨ op.prepares?.isSome = true) (ops : List Operation) :
    (w.files ops).flatMap get = w.present.flatMap get ++
      (w.trace ops).flatMap fun m => if m.1.getsReady m.2 then added m.2 else [] := by
  induction ops using List.reverseRecOn with
  | nil => simp [files, closings, trace]
  | append_singleton ops op ih =>
    -- What the last step adds goes to its present file, after all that is there already.
    have hstep := (h.after ops).records_step op get (added op) hnew (hact op) (hprepares op)
    rw [trace_concat, List.flatMap_append, List.flatMap_singleton, ← List.append_assoc, ← ih,
      files, files, closings_concat, after_concat, List.append_assoc, List.flatMap_append,
      List.flatMap_append, List.flatMap_append, hstep, List.append_assoc]

/-- The entries that a run accepted are those that got as far as a file. -/
theorem IsOpen.accepted_eq (h : w.IsOpen) (ops : List Operation) :
    w.accepted ops
      = (w.trace ops).flatMap fun m => if m.1.getsReady m.2 then m.2.entries else [] := by
  induction ops using List.reverseRecOn with
  | nil => rfl
  | append_singleton ops op ih =>
    rw [accepted_concat, (h.after ops).accepts_eq op, ih, trace_concat, List.flatMap_append,
      List.flatMap_singleton]

/-- **Where the entries are.** Whatever fails in a run, the entries that it accepted are
those of its files, one file after the other. -/
theorem IsOpen.entries_run (h : w.IsOpen) (ops : List Operation) :
    (w.files ops).flatMap (·.entries) = w.present.flatMap (·.entries) ++ w.accepted ops := by
  rw [h.accepted_eq]
  refine h.records_run (·.entries) Operation.entries (fun _ _ _ => rfl)
    (fun op f d hf => (act_spec hf op).2.2.2.1) (fun op => ?_) ops
  cases op <;> first | exact .inl rfl | exact .inr rfl

/-- **Where the pages are**: likewise in the files of the run, one file after the other. -/
theorem IsOpen.pages_run (h : w.IsOpen) (ops : List Operation) :
    (w.files ops).flatMap (·.pages) = w.present.flatMap (·.pages) ++ w.acceptedPages ops := by
  refine h.records_run (·.pages) Operation.pages (fun _ _ _ => rfl)
    (fun op f d hf => (act_spec hf op).2.2.2.2) (fun op => ?_) ops
  cases op <;> first | exact .inl rfl | exact .inr rfl

/-- The files of a run come in the order of the paths that were generated for them. A path for which
no file could be opened is passed over. -/
theorem IsOpen.paths_run (h : w.IsOpen) (hnone : w.present = []) (ops : List Operation) :
    ((w.files ops).map (·.path)).Sublist (w.generated ops) := by
  induction ops using List.reverseRecOn with
  | nil => simp [files, closings, trace, hnone]
  | append_singleton ops op ih =>
    have hstep := (h.after ops).paths_step op
    rw [files, List.map_append] at ih
    rw [files, closings_concat, after_concat, List.append_assoc, List.map_append, generated_concat]
    refine (List.Sublist.append_left hstep _).trans ?_
    rw [← List.append_assoc]
    exact List.Sublist.append_right ih _

/-! ## Files that were let go of -/

/-- If the paths of a run are apart, so are those of its beginning, as an induction needs. -/
theorem GeneratesApart.of_beginning {before : List Operation} (h : w.GeneratesApart ops)
    (hbefore : before <+: ops) : w.GeneratesApart before := by
  obtain ⟨later, rfl⟩ := hbefore
  refine List.Pairwise.sublist ?_ h
  rw [generated, generated, trace_append, List.filterMap_append]
  exact List.sublist_append_left _ _

/-- Closing the receiver generates no path, so a run may always be closed. -/
theorem generatesApart_close (hapart : w.GeneratesApart ops) :
    w.GeneratesApart (ops ++ [.close]) := by
  have hnone : (w.after ops).generated? .close = none := rfl
  rw [GeneratesApart, generated_concat, hnone, Option.toList_none, List.append_nil]
  exact hapart

/-- A file of a run and a path that is generated later are apart: the file was opened at a path that
was generated before. -/
theorem IsOpen.apart_generated (h : w.IsOpen) (hnone : w.present = [])
    (hapart : w.GeneratesApart (ops ++ [op])) {f : HarFile} (hf : f ∈ w.files ops) {p : String}
    (hp : p ∈ (w.after ops).generated? op) : ¬(w.after ops).disk.SameFile f.path p := by
  have hpath : f.path ∈ w.generated ops :=
    (h.paths_run hnone ops).subset (List.mem_map_of_mem hf)
  -- The path of the file is among those before, the other is the last one.
  rw [GeneratesApart, generated_concat] at hapart
  rw [Disk.sameFile_congr (h.disk_after ops).1]
  exact (List.pairwise_append.mp hapart).2.2 f.path hpath p (Option.mem_toList.mpr hp)

/-- A file that was let go of and the present file are apart. -/
theorem IsOpen.apart_present (h : w.IsOpen) (hnone : w.present = [])
    (hapart : w.GeneratesApart ops) {f g : HarFile} (hf : f ∈ w.closings ops)
    (hg : g ∈ (w.after ops).present) : ¬(w.after ops).disk.SameFile f.path g.path := by
  have hpaths := List.Pairwise.sublist (h.paths_run hnone ops) hapart
  rw [files, List.map_append] at hpaths
  rw [Disk.sameFile_congr (h.disk_after ops).1]
  exact (List.pairwise_append.mp hpaths).2.2 f.path (List.mem_map_of_mem hf) g.path
    (List.mem_map_of_mem hg)

/-- What can be read of a file that was let go of, the next step does not change: it writes to the
present file and to the next one only, and both are others. -/
theorem IsOpen.read?_step (h : w.IsOpen) (hnone : w.present = []) (hd : w.disk.Sound)
    (hapart : w.GeneratesApart (ops ++ [op])) {f : HarFile} (hf : f ∈ w.closings ops) :
    (w.after (ops ++ [op])).disk.read? f.path = (w.after ops).disk.read? f.path := by
  have htouches := (h.after ops).touches_step op
  have hbefore := hapart.of_beginning (List.prefix_append ops [op])
  rw [after_concat]
  -- The step touches the paths of the present file and of the next, and neither is this one.
  refine htouches.elsewhere ((h.disk_after ops).2 hd) f.path fun p hp hsame => ?_
  rcases List.mem_append.mp hp with hp | hp
  · obtain ⟨g, hg, rfl⟩ := List.mem_map.mp hp
    exact h.apart_present hnone hbefore hf hg hsame.symm
  · exact h.apart_generated hnone hapart (List.mem_append_left _ hf) (Option.mem_toList.mp hp)
      hsame.symm

/-- **What can be read of a file that was let go of stays the same** for the rest of a run. -/
theorem IsOpen.read?_of_closing (h : w.IsOpen) (hnone : w.present = []) (hd : w.disk.Sound)
    {later : List Operation} (hapart : w.GeneratesApart (ops ++ later)) {f : HarFile}
    (hf : f ∈ w.closings ops) :
    (w.after (ops ++ later)).disk.read? f.path = (w.after ops).disk.read? f.path := by
  induction later using List.reverseRecOn with
  | nil => rw [List.append_nil]
  | append_singleton later op ih =>
    rw [← List.append_assoc] at hapart ⊢
    have hmem : f ∈ w.closings (ops ++ later) := by
      rw [closings, trace_append, List.filterMap_append]
      exact List.mem_append_left _ hf
    rw [h.read?_step hnone hd hapart hmem]
    exact ih (hapart.of_beginning (List.prefix_append _ _))

/-- The archive of a file that an operation has closed well can be read at its path, at once; that
it stays so is the lemma before this one. -/
theorem IsOpen.read?_closed (h : w.IsOpen) (hnone : w.present = []) (hd : w.disk.Sound)
    (hapart : w.GeneratesApart (ops ++ [op])) {f : HarFile}
    (hf : (w.after ops).closing? op = some f)
    (hok : (f.close (w.after ops).disk).result = .ok ()) :
    (w.after (ops ++ [op])).disk.read? f.path = some f.content := by
  have hpresent : f ∈ w.files ops := by
    rw [files, present_of_closing hf]
    exact List.mem_append_right _ (List.mem_singleton_self f)
  rw [after_concat]
  exact (h.after ops).read?_closing ((h.disk_after ops).2 hd) hf hok
    fun p hp => h.apart_generated hnone hapart hpresent hp

/-- A file is let go of by some operation of the run. -/
theorem exists_of_mem_closings {f : HarFile} (hf : f ∈ w.closings ops) :
    ∃ before op, before ++ [op] <+: ops ∧ (w.after before).closing? op = some f := by
  induction ops using List.reverseRecOn with
  | nil => cases hf
  | append_singleton ops op ih =>
    rw [closings_concat] at hf
    rcases List.mem_append.mp hf with hf | hf
    · obtain ⟨before, op', hpre, hclosing⟩ := ih hf
      exact ⟨before, op', hpre.trans (List.prefix_append _ _), hclosing⟩
    · exact ⟨ops, op, List.prefix_rfl, Option.mem_toList.mp hf⟩

end ExchangeArchive.Receiver.Checkpoint.World
