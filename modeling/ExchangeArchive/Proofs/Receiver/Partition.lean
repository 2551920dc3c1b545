import ExchangeArchive.Proofs.Receiver.Runs
/-
The files of a run share out its records.

If nothing fails, all records reach a file: the entries of the files, in the order in which
the files were opened, are those that were passed in, and so are the pages. That no file
operation fails is `GoesWell`, one operation at a time; that the records are accepted then
is a consequence (`before_of_goesWell`). The invariant of the run (`Running`) says besides
that there is one file for each generated path, and that the present one has the version of
the last start. Closing the receiver at the end lets go of the last file, and then all files
can be read at their paths.
-/

set_option autoImplicit false

namespace ExchangeArchive.Receiver.Checkpoint

open ExchangeArchive.Archive ExchangeArchive.Storage

/-- The version in force after an operation. -/
def Operation.version (op : Operation) (v : Option Version) : Option Version :=
  match op with
  | .start v => some v
  | _ => v

/-- The version of the last start among operations, if there is one. Every file that is opened from
then on begins with it. -/
def lastStart (ops : List Operation) : Option Version :=
  ops.foldl (fun v op => op.version v) none

theorem lastStart_concat (ops : List Operation) (op : Operation) :
    lastStart (ops ++ [op]) = op.version (lastStart ops) := by
  rw [lastStart, lastStart, List.foldl_append]
  rfl

namespace World

/-! ## Operations that go well -/

/-- No file operation of an operation fails, and there is a name if it needs one. -/
structure GoesWell (w : World) (op : Operation) : Prop where
  closes : ∀ f, w.closing? op = some f → (f.close w.disk).result = .ok ()
  opens : ∀ size, op.prepares? = some size → w.receiver.isDue w.clock size = true →
    ∃ path h, (w.receiver.names.next w.clock).1 = .ok path ∧
      ((w.receiver.closedDisk w.disk).create path).1 = .ok h
  works : ∀ f, (w.before op).receiver.writer = some f →
    (op.act f (w.before op).disk).result = .ok ()

variable {w : World} {ops : List Operation} {op : Operation}

/-- The same as a computation, by which a run on given operations can be checked to go well. -/
def goesWell (w : World) (op : Operation) : Bool :=
  w.closesWell op &&
    (op.prepares?.all fun size => !w.receiver.isDue w.clock size ||
      (w.receiver.names.next w.clock).1.toOption.any fun path =>
        ((w.receiver.closedDisk w.disk).create path).1.isOk) &&
    (w.before op).receiver.writer.all fun f => (op.act f (w.before op).disk).result.isOk

theorem goesWell_iff (w : World) (op : Operation) : w.goesWell op = true ↔ w.GoesWell op := by
  have hopens : (op.prepares?.all fun size => !w.receiver.isDue w.clock size ||
      (w.receiver.names.next w.clock).1.toOption.any fun path =>
        ((w.receiver.closedDisk w.disk).create path).1.isOk) = true ↔
      ∀ size, op.prepares? = some size → w.receiver.isDue w.clock size = true →
        ∃ path h, (w.receiver.names.next w.clock).1 = .ok path ∧
          ((w.receiver.closedDisk w.disk).create path).1 = .ok h := by
    cases op.prepares? with
    | none => simp
    | some size =>
      cases hdue : w.receiver.isDue w.clock size with
      | false => simp [hdue]
      | true =>
        cases (w.receiver.names.next w.clock).1 with
        | error e => simp [hdue, Except.toOption]
        | ok path =>
          cases hc : ((w.receiver.closedDisk w.disk).create path).1 <;>
            simp [hdue, Except.toOption, Except.isOk, Except.toBool, hc]
  rw [goesWell, Bool.and_eq_true, Bool.and_eq_true, hopens, closesWell, allClose_iff,
    Option.all_eq_true]
  constructor
  · rintro ⟨⟨hcloses, hopens⟩, hworks⟩
    exact ⟨hcloses, hopens, fun f hf => isOk_iff.mp (hworks f hf)⟩
  · rintro ⟨hcloses, hopens, hworks⟩
    exact ⟨⟨hcloses, hopens⟩, fun f hf => isOk_iff.mpr (hworks f hf)⟩

instance (w : World) (op : Operation) : Decidable (w.GoesWell op) :=
  decidable_of_iff (w.goesWell op = true) (goesWell_iff w op)

/-- Unless it is closed, a receiver that has no trouble with its files gets ready: with the
present file, or with the next one, for which a path is generated. -/
theorem before_of_goesWell (hclosed : w.receiver.closed = false) (h : w.GoesWell op)
    (hop : op ≠ .close) :
    (w.before op).result = .ok () ∧ (w.before op).receiver.closed = false ∧
      (w.before op).receiver.version = op.version w.receiver.version ∧
      (w.closing? op = none ∧ w.generated? op = none ∧
          (w.before op).receiver.writer = w.receiver.writer ∨
        ∃ path handle, w.closing? op = w.receiver.writer ∧ w.generated? op = some path ∧
          (w.before op).receiver.writer = some (w.receiver.nextFile path handle)) := by
  cases hp : op.prepares? with
  | none =>
    cases op with
    | close => exact absurd rfl hop
    | start v =>
      have hbefore : w.before (.start v) = .ok { w.receiver with version := some v } w.disk :=
        if_neg (by simp [hclosed])
      rw [hbefore]
      exact ⟨rfl, hclosed, rfl, .inl ⟨rfl, rfl, rfl⟩⟩
    | advance nanos => exact ⟨rfl, hclosed, rfl, .inl ⟨rfl, rfl, rfl⟩⟩
    | _ => cases hp
  | some size =>
    have hversion : op.version w.receiver.version = w.receiver.version := by
      cases op <;> first | rfl | cases hp
    have hready := ready_prepare w.clock size w.receiver w.disk
    have hcloses := h.closes
    have hopens := h.opens size hp
    rw [closing?_of_prepares hp] at hcloses
    rw [before_of_prepares hp, hversion, generated?_of_prepares hp, closesWell,
      closing?_of_prepares hp]
    generalize w.receiver.prepare w.clock size w.disk = o at hready ⊢
    cases hready with
    | closed hc =>
      rw [hclosed] at hc
      cases hc
    | present f _ hdue hf =>
      rw [hdue]
      exact ⟨rfl, hclosed, rfl, .inl ⟨rfl, rfl, rfl⟩⟩
    | stuck f e hdue hf he =>
      rw [hcloses f (by rw [hdue, if_pos rfl, hf])] at he
      cases he
    | unnamed e hdue hclose hname =>
      obtain ⟨path, handle, hpath, -⟩ := hopens hdue
      rw [hpath] at hname
      cases hname
    | unopened path fault hdue hclose hname hcreate =>
      obtain ⟨path', handle, hpath, hopened⟩ := hopens hdue
      obtain rfl : path' = path := Except.ok.inj (hpath.symm.trans hname)
      rw [hopened] at hcreate
      cases hcreate
    | opened path handle hdue hclose hname hcreate =>
      rw [hdue, if_pos rfl, allClose_iff.mpr hclose, hname]
      exact ⟨rfl, hclosed, rfl, .inr ⟨path, handle, rfl, rfl, rfl⟩⟩

/-- Work that goes well puts a version into the file just if the operation brings one: a start. -/
theorem act_version {f : HarFile} {d : Disk} {v : Option Version}
    (hok : (op.act f d).result = .ok ()) (hf : f.version = v.getD {}) :
    (op.act f d).receiver.version = (op.version v).getD {} := by
  cases op with
  | start v' =>
    rw [Operation.act, HarFile.start] at hok ⊢
    rcases hc : d.create f.path with ⟨result, d'⟩
    rw [hc] at hok
    cases result with
    | error fault => cases hok
    | ok handle => rfl
  | entry e =>
    have hsame : ((Operation.entry e).act f d).receiver.version = f.version := by
      rw [Operation.act, HarFile.entry]
      split <;> rfl
    exact hsame.trans hf
  | page p =>
    have hsame : ((Operation.page p).act f d).receiver.version = f.version := by
      show (f.page p).version = f.version
      rw [HarFile.page]
      split <;> rfl
    exact hsame.trans hf
  | flush =>
    have hsame : (Operation.flush.act f d).receiver = f := f.flush_receiver d
    rw [hsame]
    exact hf
  | close => exact hf
  | advance nanos => exact hf

/-! ## Runs that go well -/

/-- How a receiver stands after operations that went well: what it says of itself agrees with the
operations, and every path that was generated is that of a file. -/
structure Running (w : World) (ops : List Operation) : Prop where
  closed : (w.after ops).receiver.closed = false
  version : (w.after ops).receiver.version = lastStart ops
  present : ∀ f ∈ (w.after ops).present, f.version = (lastStart ops).getD {}
  paths : (w.files ops).map (·.path) = w.generated ops
  entries : w.accepted ops = ops.flatMap (·.entries)
  pages : w.acceptedPages ops = ops.flatMap (·.pages)

/-- A receiver that has not been used stands so after no operations. -/
theorem running_fresh (c : Time.Clock) (names : FileNames) (maxBytes maxDuration lastRoll : Nat)
    (d : Disk) : Running (fresh c names maxBytes maxDuration lastRoll d) [] :=
  ⟨rfl, rfl, (fun _ hf => by cases hf), rfl, rfl, rfl⟩

/-- **What one operation preserves.** One that goes well and does not close the receiver
leaves it running, and says that it went well. -/
theorem Running.concat (h : Running w ops) (hopen : w.IsOpen) (hwell : (w.after ops).GoesWell op)
    (hop : op ≠ .close) :
    Running w (ops ++ [op]) ∧ ((w.after ops).step op).1 = .ok () := by
  obtain ⟨hready, hclosed, hversion, hmoved⟩ := before_of_goesWell h.closed hwell hop
  have hgets : (w.after ops).getsReady op = true := by rw [getsReady, hready]; rfl
  rw [h.version, ← lastStart_concat] at hversion
  -- The present file once the operation is ready, and the paths so far.
  have hfile : ∀ f, ((w.after ops).before op).receiver.writer = some f →
      f.version = (lastStart ops).getD {} := by
    rintro f hf
    rcases hmoved with ⟨-, -, hsame⟩ | ⟨path, handle, -, -, hnext⟩
    · rw [hsame] at hf
      exact h.present f (Option.mem_toList.mpr hf)
    · rw [hnext] at hf
      obtain rfl := Option.some.inj hf
      rw [← h.version]
      rfl
  -- Where a file is let go of, the next one has the path that was generated.
  have hpaths : (((w.after ops).closing? op).toList ++
      ((w.after ops).before op).receiver.writer.toList).map (·.path)
        = (w.after ops).present.map (·.path) ++ ((w.after ops).generated? op).toList := by
    rcases hmoved with ⟨hclosing, hgenerated, hsame⟩ | ⟨path, handle, hclosing, hgenerated, hnext⟩
    · rw [hclosing, hgenerated, hsame]
      simp [World.present]
    · rw [hclosing, hgenerated, hnext]
      simp [World.present, nextFile]
  have hall : ((w.after ops).step op).2.receiver.closed = false ∧
      ((w.after ops).step op).2.receiver.version = lastStart (ops ++ [op]) ∧
      (∀ f ∈ ((w.after ops).step op).2.present, f.version = (lastStart (ops ++ [op])).getD {}) ∧
      ((w.after ops).step op).2.present.map (·.path)
        = ((w.after ops).before op).receiver.writer.toList.map (·.path) ∧
      ((w.after ops).step op).1 = .ok () := by
    rcases step_cases (w.after ops) op with
      ⟨hreceiver, -, hresult, hidle⟩ | ⟨f, -, hf, hreceiver, -, hresult⟩
    · -- It got ready and had no work to do, as a start does before there is a file.
      have hnone : ((w.after ops).before op).receiver.writer = none := by
        rcases hidle with hnone | hnot
        · exact hnone
        · rw [hgets] at hnot
          cases hnot
      have hempty : ((w.after ops).step op).2.present = [] := by
        rw [World.present, hreceiver, hnone]
        rfl
      have htold : op.told (.ok ()) = .ok () := by cases op <;> rfl
      rw [hempty, hreceiver, hresult, hready, hnone]
      exact ⟨hclosed, hversion, (fun _ hf => by cases hf), rfl, htold⟩
    · have hfopen := (moves_before (w.after ops) op).isOpen (hopen.after ops).file f hf
      have hworks := hwell.works f hf
      have hpresent : ((w.after ops).step op).2.present
          = [(op.act f ((w.after ops).before op).disk).receiver] := by
        rw [World.present, hreceiver]
        rfl
      have htold : op.told (.ok ()) = .ok () := by cases op <;> rfl
      rw [hpresent, hreceiver, hresult, hworks, hf]
      refine ⟨hclosed, hversion, fun g hg => ?_, ?_, htold⟩
      · obtain rfl := List.mem_singleton.mp hg
        rw [lastStart_concat]
        exact act_version hworks (hfile f hf)
      · simp [(act_spec hfopen op).2.2.1]
  obtain ⟨hclosed', hversion', hpresent', hpaths', hresult⟩ := hall
  have hfiles := h.paths
  rw [files, List.map_append] at hfiles
  refine ⟨⟨?_, ?_, ?_, ?_, ?_, ?_⟩, hresult⟩
  · rw [after_concat]
    exact hclosed'
  · rw [after_concat]
    exact hversion'
  · rw [after_concat]
    exact hpresent'
  · rw [files, closings_concat, after_concat, generated_concat, List.map_append, List.map_append,
      hpaths', List.append_assoc, ← List.map_append, hpaths, ← List.append_assoc, hfiles]
  · rw [accepted_concat, hresult, h.entries, List.flatMap_append]
    simp [Except.isOk, Except.toBool]
  · rw [acceptedPages_concat, hgets, h.pages, List.flatMap_append]
    simp

/-- **What a run preserves.** The induction is on the operations from the last. -/
theorem Running.of_goesWell (hfresh : Running w []) (hopen : w.IsOpen)
    (hops : Operation.close ∉ ops) (hwell : ∀ m ∈ w.trace ops, m.1.GoesWell m.2) :
    Running w ops ∧ ∀ m ∈ w.trace ops, (m.1.step m.2).1 = .ok () := by
  induction ops using List.reverseRecOn with
  | nil => exact ⟨hfresh, fun m hm => by cases hm⟩
  | append_singleton ops op ih =>
    rw [trace_concat] at hwell ⊢
    have hop : op ≠ .close := by
      rintro rfl
      exact hops (List.mem_append_right _ (List.mem_singleton_self _))
    obtain ⟨hrunning, hresults⟩ := ih (fun hmem => hops (List.mem_append_left _ hmem))
      fun m hm => hwell m (List.mem_append_left _ hm)
    obtain ⟨hnext, hresult⟩ := hrunning.concat hopen
      (hwell (w.after ops, op) (List.mem_append_right _ (List.mem_singleton_self _))) hop
    refine ⟨hnext, fun m hm => ?_⟩
    rcases List.mem_append.mp hm with hm | hm
    · exact hresults m hm
    · obtain rfl := List.mem_singleton.mp hm
      exact hresult

/-! ## Runs that end with a close -/

/-- The last operation of a run lets go of the present file, as it is the one that closes. -/
theorem closings_close (hclosed : (w.after ops).receiver.closed = false) :
    w.closings (ops ++ [.close]) = w.files ops := by
  have hclosing : (w.after ops).closing? .close = (w.after ops).receiver.writer :=
    if_neg (by simp [hclosed])
  rw [closings_concat, hclosing]
  rfl

/-- Closing a receiver that has no trouble with its file goes well. -/
theorem step_close_of_goesWell (hclosed : w.receiver.closed = false) (h : w.GoesWell .close) :
    (w.step .close).1 = .ok () := by
  have hstep : (w.step .close).1 = (w.receiver.close w.disk).result := rfl
  rw [hstep, close, if_neg (by simp [hclosed])]
  cases hw : w.receiver.writer with
  | none => rfl
  | some f =>
    have hclosing : w.closing? .close = some f := by
      rw [closing?_close, if_neg (by simp [hclosed]), hw]
    exact h.closes f hclosing

/-- The archive of each file that a run has let go of can be read at its path when the run is
over, if all were closed well. -/
theorem IsOpen.read?_of_goesWell (h : w.IsOpen) (hnone : w.present = []) (hd : w.disk.Sound)
    (hapart : w.GeneratesApart ops) (hwell : ∀ m ∈ w.trace ops, m.1.GoesWell m.2)
    {before : List Operation} {f : HarFile} (hpre : before ++ [op] <+: ops)
    (hf : (w.after before).closing? op = some f) :
    (w.after ops).disk.read? f.path = some f.content := by
  obtain ⟨later, rfl⟩ := hpre
  have hmem : (w.after before, op) ∈ w.trace (before ++ [op] ++ later) := by
    rw [trace_append, trace_concat]
    simp
  have hok := (hwell _ hmem).closes f hf
  have hclosing : f ∈ w.closings (before ++ [op]) := by
    rw [closings_concat, hf]
    exact List.mem_append_right _ (List.mem_singleton_self f)
  rw [h.read?_of_closing hnone hd hapart hclosing]
  exact h.read?_closed hnone hd (hapart.of_beginning (List.prefix_append _ _)) hf hok

/-- **The files of a run share out its records.** Let a receiver that has not been used do
any operations and be closed at the end, without any failure of a file operation, and let
the generated paths lead to different files. Then all operations go well. There is one file
for each generated path, in their order; the entries of the files, one file after the other,
are those that were passed in, and the pages likewise. And when the run is over, what is read
at the path of a file is the whole archive of its records, with the version and the creator
of the last start before the file was let go of, or else the default. -/
theorem files_share_records (c : Time.Clock) (names : FileNames)
    (maxBytes maxDuration lastRoll : Nat) (d : Disk) (ops : List Operation)
    (hops : Operation.close ∉ ops) (hd : d.Sound)
    (hwell : ∀ m ∈ (fresh c names maxBytes maxDuration lastRoll d).trace (ops ++ [.close]),
      m.1.GoesWell m.2)
    (hapart : (fresh c names maxBytes maxDuration lastRoll d).GeneratesApart ops) :
    let w := fresh c names maxBytes maxDuration lastRoll d
    (∀ m ∈ w.trace (ops ++ [.close]), (m.1.step m.2).1 = .ok ()) ∧
      (w.closings (ops ++ [.close])).map (·.path) = w.generated ops ∧
      (w.closings (ops ++ [.close])).flatMap (·.entries) = ops.flatMap (·.entries) ∧
      (w.closings (ops ++ [.close])).flatMap (·.pages) = ops.flatMap (·.pages) ∧
      ∀ before op f, before ++ [op] <+: ops ++ [.close] →
        (w.after before).closing? op = some f →
          (w.after (ops ++ [.close])).disk.read? f.path = some (HttpArchive.codec.toJsonText
            { log := {
                version := ((lastStart before).getD {}).harVersion
                creator := ((lastStart before).getD {}).agent
                pages := f.pages
                entries := f.entries } } ++ "\n") := by
  intro w
  have hopen : w.IsOpen := isOpen_fresh c names maxBytes maxDuration lastRoll d
  have hnone : w.present = [] := rfl
  have hfresh : Running w [] := running_fresh c names maxBytes maxDuration lastRoll d
  have hwell' : ∀ m ∈ w.trace ops, m.1.GoesWell m.2 := fun m hm => by
    refine hwell m ?_
    rw [trace_concat]
    exact List.mem_append_left _ hm
  obtain ⟨hrunning, hresults⟩ := hfresh.of_goesWell hopen hops hwell'
  have hlast : (w.after ops).GoesWell .close := by
    refine hwell (w.after ops, .close) ?_
    rw [trace_concat]
    exact List.mem_append_right _ (List.mem_singleton_self _)
  have hclosings := closings_close hrunning.closed
  have hentries := hopen.entries_run ops
  have hpages := hopen.pages_run ops
  rw [hnone, List.flatMap_nil, List.nil_append] at hentries hpages
  refine ⟨fun m hm => ?_, ?_, ?_, ?_, fun before op f hpre hf => ?_⟩
  · rw [trace_concat] at hm
    rcases List.mem_append.mp hm with hm | hm
    · exact hresults m hm
    · obtain rfl := List.mem_singleton.mp hm
      exact step_close_of_goesWell hrunning.closed hlast
  · rw [hclosings, hrunning.paths]
  · rw [hclosings, hentries, hrunning.entries]
  · rw [hclosings, hpages, hrunning.pages]
  · -- Until the end the run up to this file is itself one that went well.
    have hbefore : before <+: ops := by
      rcases concat_within_concat.mp hpre with ⟨rfl, -⟩ | hearlier
      · exact List.prefix_rfl
      · exact (List.prefix_append before [op]).trans hearlier
    obtain ⟨later, rfl⟩ := hbefore
    have hrun : Running w before := by
      refine (hfresh.of_goesWell hopen (fun hmem => hops (List.mem_append_left _ hmem))
        fun m hm => hwell' m ?_).1
      rw [trace_append]
      exact List.mem_append_left _ hm
    have hversion : f.version = (lastStart before).getD {} := by
      refine hrun.present f ?_
      rw [present_of_closing hf]
      exact List.mem_singleton_self f
    rw [hopen.read?_of_goesWell hnone hd (generatesApart_close hapart) hwell hpre hf, ← hversion]
    rfl

/-- An entry for one file, and, when that has become too old, a page for the next. The receiver is
closed at the end, and both files can be read. -/
theorem files_share_records_two_files :
    let w := fresh ⟨0, 0⟩ (.listed [.ok "a.har", .ok "b.har"]) 0 1 0 {}
    let ops : List Operation := [.start {}, .entry {}, .advance 2, .page {}]
    (w.closings (ops ++ [.close])).map (·.path) = ["a.har", "b.har"] ∧
      (w.closings (ops ++ [.close])).flatMap (·.entries) = [{}] ∧
        (w.closings (ops ++ [.close])).flatMap (·.pages) = [{}] := by
  intro w ops
  have hops : Operation.close ∉ ops := by simp [ops]
  have hwell : ∀ m ∈ w.trace (ops ++ [.close]), m.1.GoesWell m.2 := by decide +kernel
  have hgenerated : w.generated ops = ["a.har", "b.har"] := rfl
  have hapart : w.GeneratesApart ops := by
    rw [GeneratesApart, hgenerated, List.pairwise_pair]
    rintro ⟨name, ha, hb⟩
    have hsame : some ["work", "a.har"] = some ["work", "b.har"] := ha.trans hb.symm
    simp at hsame
  obtain ⟨-, hpaths, hentries, hpages, -⟩ := files_share_records ⟨0, 0⟩
    (.listed [.ok "a.har", .ok "b.har"]) 0 1 0 {} ops hops (Disk.sound_empty _) hwell hapart
  exact ⟨hpaths.trans hgenerated, hentries, hpages⟩

end World

end ExchangeArchive.Receiver.Checkpoint
