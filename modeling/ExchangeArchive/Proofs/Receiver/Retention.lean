import ExchangeArchive.Proofs.Receiver.Runs
import Mathlib.Data.List.Perm.Subperm
/-
What a failure costs: the records of a file that cannot be closed.

When a receiver goes on to its next file, or is closed for good, it lets go of the present
one whether or not that can be closed, and with it of the records in there. So an entry that
was accepted can be lost, and this is the only way: the file is closed with a failure, and
its last content that was written well does not have the entry. `retains_iff` is that
condition for the records as the receiver has them, `durable_iff` for what is on the disk
when a flush or a close goes well later.

`Ledger` keeps, for each file, the entries of its last content that was written well: by a
flush that went well, or by a close that did.
-/

set_option autoImplicit false

namespace ExchangeArchive.Receiver.Checkpoint

open ExchangeArchive.Archive ExchangeArchive.Storage

/-! ## What was written well -/

/-- The entries in the last contents that were written well. It is kept beside the run and says of
each file how much of it a reader would find if nothing more were written. -/
structure Ledger where
  /-- Of the files that were let go of, one after the other. -/
  past : List Entry := []
  /-- Of the present file. -/
  present : List Entry := []

namespace World

/-- An operation lets go of a file that it cannot close. -/
def FailsToClose (w : World) (op : Operation) (f : HarFile) : Prop :=
  w.closing? op = some f ∧ (f.close w.disk).result.isOk = false

/-- What an operation leaves of the present file's entries that were written well, if it lets
go of the file: all entries, if the file was closed well. -/
def salvaged (w : World) (op : Operation) (written : List Entry) : List Entry :=
  match w.closing? op with
  | some f => if (f.close w.disk).result.isOk then f.entries else written
  | none => []

/-- The entries of the present file after an operation that were written well. A flush that goes
well makes all of them so, and a new file starts with none. -/
def written (w : World) (op : Operation) (before : List Entry) : List Entry :=
  match op with
  | .flush =>
    if (w.step .flush).1.isOk then (w.step .flush).2.present.flatMap (·.entries)
    else if (w.closing? .flush).isSome then [] else before
  | op => if (w.closing? op).isSome then [] else before

/-- The ledger of a run, one operation after the other, from that of no operations. -/
def ledger (w : World) (ops : List Operation) : Ledger :=
  (w.trace ops).foldl (fun l m =>
    ⟨l.past ++ m.1.salvaged m.2 l.present, m.1.written m.2 l.present⟩) {}

/-- No accepted entry is lost: each is in the present file or in the last content of its
file that was written well. -/
def Retains (w : World) (ops : List Operation) : Prop :=
  (w.accepted ops).Subperm ((w.ledger ops).past ++ (w.after ops).present.flatMap (·.entries))

variable {w : World} {ops : List Operation} {op : Operation}

theorem ledger_concat (w : World) (ops : List Operation) (op : Operation) :
    w.ledger (ops ++ [op]) =
      ⟨(w.ledger ops).past ++ (w.after ops).salvaged op (w.ledger ops).present,
        (w.after ops).written op (w.ledger ops).present⟩ := by
  rw [ledger, ledger, trace_concat, List.foldl_append]
  rfl

/-- Unless a file is let go of, the entries of the present one stay, and more may come behind
them. -/
theorem IsOpen.entries_grow (h : w.IsOpen) (hclosing : w.closing? op = none) :
    w.present.flatMap (·.entries) <+: (w.step op).2.present.flatMap (·.entries) := by
  have hstep := h.records_step op (·.entries) op.entries
    (fun _ _ _ => rfl) (fun f d hf => (act_spec hf op).2.2.2.1)
    (by cases op <;> first | exact .inl rfl | exact .inr rfl)
  rw [hclosing] at hstep
  exact ⟨_, hstep.symm⟩

/-- What was written well of the present file is a beginning of its entries. -/
theorem IsOpen.ledger_present (h : w.IsOpen) (ops : List Operation) :
    (w.ledger ops).present <+: (w.after ops).present.flatMap (·.entries) := by
  induction ops using List.reverseRecOn with
  | nil => exact List.nil_prefix
  | append_singleton ops op ih =>
    have hkept : (if ((w.after ops).closing? op).isSome then [] else (w.ledger ops).present)
        <+: ((w.after ops).step op).2.present.flatMap (·.entries) := by
      cases hclosing : (w.after ops).closing? op with
      | some f => exact List.nil_prefix
      | none => exact ih.trans ((h.after ops).entries_grow hclosing)
    rw [ledger_concat, after_concat]
    cases op with
    | flush =>
      rw [written]
      split
      · exact List.prefix_rfl
      · exact hkept
    | _ => exact hkept

/-- What is left of a file that is let go of is a beginning of its entries; all of them if it
was closed well. -/
theorem IsOpen.salvaged_begins (h : w.IsOpen) (ops : List Operation) (op : Operation) :
    (w.after ops).salvaged op (w.ledger ops).present
      <+: ((w.after ops).closing? op).toList.flatMap (·.entries) := by
  rw [salvaged]
  cases hclosing : (w.after ops).closing? op with
  | none => exact List.nil_prefix
  | some f =>
    have hpresent := h.ledger_present ops
    rw [present_of_closing hclosing] at hpresent
    dsimp only
    split
    · simp
    · exact hpresent

/-- What is left of an operation's file is all of it unless the operation fails to close it
with entries that had not been written. -/
theorem salvaged_eq_iff (w : World) (op : Operation) (l : List Entry) :
    w.salvaged op l = (w.closing? op).toList.flatMap (·.entries) ↔
      ∀ f, w.FailsToClose op f → l = f.entries := by
  rw [salvaged]
  cases hclosing : w.closing? op with
  | none => simp [FailsToClose, hclosing]
  | some f =>
    cases hok : (f.close w.disk).result.isOk <;> simp [FailsToClose, hclosing, hok]

/-- What is left of the files that were let go of is part of their entries, in the same order. -/
theorem IsOpen.ledger_past (h : w.IsOpen) (ops : List Operation) :
    (w.ledger ops).past.Sublist ((w.closings ops).flatMap (·.entries)) := by
  induction ops using List.reverseRecOn with
  | nil => exact List.nil_sublist _
  | append_singleton ops op ih =>
    rw [ledger_concat, closings_concat, List.flatMap_append]
    exact ih.append (h.salvaged_begins ops op).sublist

/-- It is all of them just if no failure to close a file found entries that had not been
written. -/
theorem IsOpen.ledger_past_eq_iff (h : w.IsOpen) (ops : List Operation) :
    (w.ledger ops).past = (w.closings ops).flatMap (·.entries) ↔
      ∀ before op f, before ++ [op] <+: ops → (w.after before).FailsToClose op f →
        (w.ledger before).present = f.entries := by
  induction ops using List.reverseRecOn with
  | nil =>
    refine ⟨fun _ before op f hpre => ?_, fun _ => rfl⟩
    simp at hpre
  | append_singleton ops op ih =>
    have hpast := h.ledger_past ops
    have hsalvaged := (h.salvaged_begins ops op).sublist
    rw [ledger_concat, closings_concat, List.flatMap_append]
    constructor
    · intro heq before op' f hpre hfails
      -- Each part is at most as long as it should be, so neither is shorter.
      have hlengths := congrArg List.length heq
      rw [List.length_append, List.length_append] at hlengths
      have hle := hpast.length_le
      have hle' := hsalvaged.length_le
      rcases concat_within_concat.mp hpre with ⟨rfl, rfl⟩ | hearlier
      · have hall := hsalvaged.eq_of_length (by omega)
        exact (salvaged_eq_iff _ op' _).mp hall f hfails
      · exact ih.mp (hpast.eq_of_length (by omega)) before op' f hearlier hfails
    · intro hall
      have hearlier := ih.mpr fun before op' f hpre =>
        hall before op' f (hpre.trans (List.prefix_append _ _))
      have hlast := (salvaged_eq_iff _ op (w.ledger ops).present).mpr fun f =>
        hall ops op f List.prefix_rfl
      rw [hearlier, hlast]

/-- **When a run loses nothing.** All accepted entries are kept just if each file that could
not be closed had all of its entries in its last content that was written well. -/
theorem IsOpen.retains_iff (h : w.IsOpen) (hnone : w.present = []) (ops : List Operation) :
    w.Retains ops ↔
      ∀ before op f, before ++ [op] <+: ops → (w.after before).FailsToClose op f →
        (w.ledger before).present = f.entries := by
  have haccepted : w.accepted ops = (w.closings ops).flatMap (·.entries) ++
      (w.after ops).present.flatMap (·.entries) := by
    have hrun := h.entries_run ops
    rw [files, List.flatMap_append, hnone] at hrun
    exact hrun.symm
  rw [← h.ledger_past_eq_iff, Retains, haccepted]
  constructor
  · -- What is left is part of the whole, and if it has all of that it is as long.
    intro hsub
    have hle := hsub.length_le
    rw [List.length_append, List.length_append] at hle
    exact (h.ledger_past ops).eq_of_length_le (by omega)
  · intro heq
    rw [heq]

/-! ## What is on the disk -/

/-- The entries of a file can be read at its path, in an archive that may have more. -/
def Durable (d : Disk) (f : HarFile) : Prop :=
  ∃ a : HttpArchive, d.read? f.path = some (HttpArchive.codec.toJsonText a ++ "\n") ∧
    ∀ e ∈ f.entries, e ∈ a.log.entries

theorem durable_of_content {d : Disk} {f : HarFile} (h : d.read? f.path = some f.content) :
    Durable d f :=
  ⟨f.archive, h, fun _ he => he⟩

/-- After a flush or a close that went well the present file, if there is one, is durable. -/
theorem IsOpen.durable_present (h : w.IsOpen) (hop : op.isDurable = true)
    (hok : (w.step op).1 = .ok ()) {f : HarFile} (hf : f ∈ (w.step op).2.present) :
    Durable (w.step op).2.disk f := by
  cases op with
  | flush =>
    obtain ⟨g, hg, hread⟩ := h.read?_flush hok
    rw [present, hg] at hf
    obtain rfl := List.mem_singleton.mp hf
    exact durable_of_content hread
  | close =>
    have hnone : (w.step .close).2.receiver.writer = none := by
      have hstep : (w.step .close).2.receiver = (w.receiver.close w.disk).receiver := rfl
      rw [hstep, close]
      by_cases hclosed : w.receiver.closed = true
      · rw [if_pos hclosed]
        exact h.closed hclosed
      · rw [if_neg hclosed]
        cases hw : w.receiver.writer with
        | none => rfl
        | some g => rfl
    rw [present, hnone] at hf
    cases hf
  | _ => cases hop

/-- A close that fails to close a file says so. It is the failures of a rotation that a later close
knows nothing of. -/
theorem step_close_of_stuck {f : HarFile} (hfails : w.FailsToClose .close f) :
    (w.step .close).1 ≠ .ok () := by
  obtain ⟨hclosing, hill⟩ := hfails
  rw [closing?_close] at hclosing
  have hopen : ¬w.receiver.closed = true := fun hclosed => by
    rw [if_pos hclosed] at hclosing
    cases hclosing
  have hw : w.receiver.writer = some f := by
    rw [if_neg hopen] at hclosing
    exact hclosing
  have hstep : (w.step .close).1 = (w.receiver.close w.disk).result := rfl
  rw [hstep, close, if_neg hopen, hw]
  intro hok
  have hok : (f.close w.disk).result = .ok () := hok
  rw [hok] at hill
  cases hill

/-- **When everything is on the disk.** In a run whose generated paths lead to different
files, and wherever it is closed: each flush or close that goes well leaves all files of the
run durable, just if each failure to close a file left that file durable. -/
theorem IsOpen.durable_iff (h : w.IsOpen) (hnone : w.present = []) (hd : w.disk.Sound)
    (hapart : w.GeneratesApart ops) :
    (∀ before op, before ++ [op] <+: ops ∨ before <+: ops ∧ op = .close →
      op.isDurable = true → ((w.after before).step op).1 = .ok () →
        ∀ f ∈ w.files (before ++ [op]), Durable (w.after (before ++ [op])).disk f) ↔
      ∀ before op f, before ++ [op] <+: ops → (w.after before).FailsToClose op f →
        Durable (w.after (before ++ [op])).disk f := by
  constructor
  · intro hall before op f hpre hfails
    -- Close the receiver at once: that goes well, and changes nothing on the disk.
    have hill : ∃ e, (f.close (w.after before).disk).result = .error e := by
      cases hr : (f.close (w.after before).disk).result with
      | error e => exact ⟨e, rfl⟩
      | ok _ =>
        have hnot := hfails.2
        rw [hr] at hnot
        cases hnot
    obtain ⟨e, he⟩ := hill
    have hempty := present_of_stuck hfails.1 he
    rw [← after_concat] at hempty
    obtain ⟨hok, hdisk⟩ := step_close_of_none hempty
    have hf : f ∈ w.files (before ++ [op] ++ [.close]) := by
      rw [files, closings_concat, closings_concat, hfails.1]
      simp
    have hdurable := hall (before ++ [op]) .close (.inr ⟨hpre, rfl⟩) rfl hok f hf
    rw [after_concat, hdisk] at hdurable
    exact hdurable
  · intro hall before op hrun hop hok f hf
    have hapart' : w.GeneratesApart (before ++ [op]) := by
      rcases hrun with hpre | ⟨hpre, rfl⟩
      · exact hapart.of_beginning hpre
      · exact generatesApart_close (hapart.of_beginning hpre)
    rw [files] at hf
    rcases List.mem_append.mp hf with hf | hf
    · -- A file that was let go of: durable at that time, and nothing has changed it since.
      obtain ⟨early, op', ⟨later, heq⟩, hclosing⟩ := exists_of_mem_closings hf
      have hsince : (w.after (before ++ [op])).disk.read? f.path
          = (w.after (early ++ [op'])).disk.read? f.path := by
        rw [← heq] at hapart' ⊢
        refine h.read?_of_closing hnone hd hapart' ?_
        rw [closings_concat, hclosing]
        exact List.mem_append_right _ (List.mem_singleton_self f)
      rw [Durable, hsince]
      cases hwell : (f.close (w.after early).disk).result with
      | ok _ =>
        have hearly := hapart'.of_beginning ⟨later, heq⟩
        exact durable_of_content (h.read?_closed hnone hd hearly hclosing hwell)
      | error e =>
        have hfails : (w.after early).FailsToClose op' f := ⟨hclosing, by rw [hwell]; rfl⟩
        have hwithin : early ++ [op'] <+: before ++ [op] := ⟨later, heq⟩
        rcases hrun with hpre | ⟨hpre, rfl⟩
        · exact hall early op' f (hwithin.trans hpre) hfails
        · rcases concat_within_concat.mp hwithin with ⟨rfl, rfl⟩ | hearlier
          · -- The close itself went well, so it is not the one that failed.
            exact absurd hok (step_close_of_stuck hfails)
          · exact hall early op' f (hearlier.trans hpre) hfails
    · rw [after_concat] at hf ⊢
      exact (h.after before).durable_present hop hok hf

/-! ## The fate of an accepted entry -/

/-- If all files of a run are durable, every accepted entry is in one of them. -/
theorem IsOpen.exists_of_accepted (h : w.IsOpen) (hnone : w.present = []) {d : Disk}
    (hdurable : ∀ f ∈ w.files ops, Durable d f) {e : Entry} (he : e ∈ w.accepted ops) :
    ∃ p a, d.read? p = some (HttpArchive.codec.toJsonText a ++ "\n") ∧ e ∈ a.log.entries := by
  have hrun := h.entries_run ops
  rw [hnone, List.flatMap_nil, List.nil_append] at hrun
  rw [← hrun] at he
  obtain ⟨f, hf, hef⟩ := List.mem_flatMap.mp he
  obtain ⟨a, hread, hall⟩ := hdurable f hf
  exact ⟨f.path, a, hread, hall e hef⟩

/-- **What becomes of the entries that a receiver accepted**, whatever fails in a run. They
are the entries of the files of the run, one file after the other. None is lost just if each
file that could not be closed had all of its entries in its last content that was written
well. And if the generated paths lead to different files, each flush or close that goes well
leaves all files of the run durable, and so each accepted entry in some file, just if each
failure to close a file left that file durable. -/
theorem fate_of_accepted (c : Time.Clock) (names : FileNames)
    (maxBytes maxDuration lastRoll : Nat) (d : Disk) (ops : List Operation) :
    let w := fresh c names maxBytes maxDuration lastRoll d
    w.accepted ops = (w.files ops).flatMap (·.entries) ∧
      (w.Retains ops ↔
        ∀ before op f, before ++ [op] <+: ops → (w.after before).FailsToClose op f →
          (w.ledger before).present = f.entries) ∧
      (d.Sound → w.GeneratesApart ops →
        ((∀ before op, before ++ [op] <+: ops ∨ before <+: ops ∧ op = .close →
            op.isDurable = true → ((w.after before).step op).1 = .ok () →
              ∀ f ∈ w.files (before ++ [op]), Durable (w.after (before ++ [op])).disk f) ↔
          ∀ before op f, before ++ [op] <+: ops → (w.after before).FailsToClose op f →
            Durable (w.after (before ++ [op])).disk f) ∧
        ((∀ before op f, before ++ [op] <+: ops → (w.after before).FailsToClose op f →
            Durable (w.after (before ++ [op])).disk f) →
          ∀ before op, before ++ [op] <+: ops → op.isDurable = true →
            ((w.after before).step op).1 = .ok () → ∀ e ∈ w.accepted (before ++ [op]),
              ∃ p a, (w.after (before ++ [op])).disk.read? p
                  = some (HttpArchive.codec.toJsonText a ++ "\n") ∧ e ∈ a.log.entries)) := by
  intro w
  have hopen : w.IsOpen := isOpen_fresh c names maxBytes maxDuration lastRoll d
  have hnone : w.present = [] := rfl
  refine ⟨(hopen.entries_run ops).symm, hopen.retains_iff hnone ops, fun hd hapart => ?_⟩
  have hdurable := hopen.durable_iff hnone hd hapart
  refine ⟨hdurable, fun hfails before op hpre hop hok e he => ?_⟩
  exact hopen.exists_of_accepted hnone (hdurable.mpr hfails before op (.inl hpre) hop hok) he

/-- A receiver with names for two files, each of which is too old after a nanosecond, on a disk
whose third operation fails. -/
def ailing : World :=
  fresh ⟨0, 0⟩ (.listed [.ok "a.har", .ok "b.har"]) 0 1 0
    { outages := fun n => if n = 2 then some ⟨.other "stale", none⟩ else none }

/-- A file is flushed with its entry, becomes too old, and cannot be closed. It has been durable
since it was flushed, so when the next flush has gone on to another file the entry is on the
disk. -/
theorem fate_of_accepted_closed_badly :
    (∃ f, (ailing.after [.entry {}, .flush, .advance 2]).FailsToClose .flush f)
      ∧ ailing.Retains [.entry {}, .flush, .advance 2, .flush, .flush]
      ∧ ∃ p a, (ailing.after [.entry {}, .flush, .advance 2, .flush, .flush]).disk.read? p
          = some (HttpArchive.codec.toJsonText a ++ "\n") ∧ ({} : Entry) ∈ a.log.entries := by
  have hapart : ailing.GeneratesApart [.entry {}, .flush, .advance 2, .flush, .flush] := by
    have hgenerated : ailing.generated [.entry {}, .flush, .advance 2, .flush, .flush]
        = ["a.har", "b.har"] := rfl
    rw [GeneratesApart, hgenerated, List.pairwise_pair]
    rintro ⟨name, ha, hb⟩
    have hsame : some ["work", "a.har"] = some ["work", "b.har"] := ha.trans hb.symm
    simp at hsame
  have hquiet : ∀ (w : World) op f, w.closing? op = none → ¬w.FailsToClose op f := by
    rintro w op f hnone ⟨hclosing, -⟩
    rw [hnone] at hclosing
    cases hclosing
  -- Of the five operations only the flush of a file that is too old lets go of one.
  have honly : ∀ before op f,
      before ++ [op] <+: [.entry {}, .flush, .advance 2, .flush, .flush] →
      (ailing.after before).FailsToClose op f →
        before = [.entry {}, .flush, .advance 2] ∧ op = .flush := by
    intro before op f hpre hfails
    have hpre : before ++ [op]
        <+: [] ++ [.entry {}] ++ [.flush] ++ [.advance 2] ++ [.flush] ++ [.flush] := hpre
    rcases concat_within_concat.mp hpre with ⟨rfl, rfl⟩ | hpre
    · exact absurd hfails (hquiet _ _ f rfl)
    rcases concat_within_concat.mp hpre with ⟨rfl, rfl⟩ | hpre
    · exact ⟨rfl, rfl⟩
    rcases concat_within_concat.mp hpre with ⟨rfl, rfl⟩ | hpre
    · exact absurd hfails (hquiet _ _ f rfl)
    rcases concat_within_concat.mp hpre with ⟨rfl, rfl⟩ | hpre
    · exact absurd hfails (hquiet _ _ f rfl)
    rcases concat_within_concat.mp hpre with ⟨rfl, rfl⟩ | hpre
    · exact absurd hfails (hquiet _ _ f rfl)
    simp at hpre
  have hlost : (ailing.after [.entry {}, .flush, .advance 2]).closing? .flush
      = some { path := "a.har", file := some (.file 0), entries := [{}] } := rfl
  have hsaved : ∀ before op f,
      before ++ [op] <+: [.entry {}, .flush, .advance 2, .flush, .flush] →
      (ailing.after before).FailsToClose op f → (ailing.ledger before).present = f.entries
        ∧ Durable (ailing.after (before ++ [op])).disk f := by
    intro before op f hpre hfails
    obtain ⟨rfl, rfl⟩ := honly before op f hpre hfails
    obtain rfl := Option.some.inj (hlost.symm.trans hfails.1)
    exact ⟨rfl, durable_of_content rfl⟩
  obtain ⟨-, hretains, hdurable⟩ := fate_of_accepted ⟨0, 0⟩ (.listed [.ok "a.har", .ok "b.har"])
    0 1 0 ailing.disk [.entry {}, .flush, .advance 2, .flush, .flush]
  refine ⟨⟨_, hlost, rfl⟩, hretains.mpr fun before op f hpre hfails =>
    (hsaved before op f hpre hfails).1, ?_⟩
  exact (hdurable (Disk.sound_empty _) hapart).2
    (fun before op f hpre hfails => (hsaved before op f hpre hfails).2)
    [.entry {}, .flush, .advance 2, .flush] .flush List.prefix_rfl rfl rfl {}
    (List.mem_singleton_self _)

/-- **An accepted entry can be lost.** A receiver accepts an entry for a file that cannot be
written. When the file has become too old a flush lets go of it, and fails; the next flush
goes well, and what it leaves on the disk is an archive without entries. -/
theorem accepted_entry_lost :
    let w := fresh ⟨0, 0⟩ (.listed [.ok "/dev/full", .ok "b.har"]) 0 1 0 {}
    let before : List Operation := [.entry {}, .advance 2, .flush]
    w.accepted before = [{}] ∧ ((w.after before).step .flush).1 = .ok () ∧
      ¬w.Retains (before ++ [.flush]) ∧
        (w.after (before ++ [.flush])).disk.contents
          = [(0, HarFile.content { path := "b.har", entries := [] })] := by
  refine ⟨rfl, rfl, fun hretains => ?_, rfl⟩
  have hle : 1 ≤ 0 := hretains.length_le
  omega

end World

end ExchangeArchive.Receiver.Checkpoint
