import ExchangeArchive.Proofs.Decimal.Digits
import ExchangeArchive.Proofs.Receiver.Rotation
import ExchangeArchive.Proofs.Text.Splitting
import ExchangeArchive.Proofs.Text.Trimming
/-
**Names that are made of the time of day and a count never come twice.**

A name is whatever names begin with, then the time, then a dash, the count and the ending.
Beginnings may have dashes, dots and digits of their own, and the time may be any, so only
what stands at the end can tell two names apart. Behind the last dash there are just the
digits of the count and the ending: where that dash is follows from the text, and so does the
count (`Counted.unique`). Behind it there is no slash either. The count is therefore part of
the last name of the path, whatever directory the name is joined to (`Path.counted_fileName?`),
and paths with different counts lead to different files on every disk (`Disk.not_sameFile`).

The paths that a receiver goes on to are those of successive counts (`IsOpen.generated_run`).
So none of them is that of a file that it had before, and what it has let go of stays as it is.
-/

set_option autoImplicit false

namespace ExchangeArchive

open ExchangeArchive.Decimal ExchangeArchive.Text

/-! ## The count in a text -/

namespace Receiver

/-- What stands behind the last dash of a name: a count and the ending. The count has as many digits
as it needs, and no others. -/
def countedEnding (n : Nat) : List Char := natDigits n ++ ['.', 'h', 'a', 'r']

/-- A text that ends in a dash, a count and the ending of names. What is before the dash may have
dashes and counts of its own. -/
def Counted (n : Nat) (cs : List Char) : Prop := ∃ before, cs = before ++ '-' :: countedEnding n

variable {n m : Nat} {cs : List Char}

/-- Neither the digits of a count nor the ending have a dash or a slash. -/
theorem not_mem_countedEnding {c : Char} (hdigit : c.isDigit = false)
    (hending : c ∉ ['.', 'h', 'a', 'r']) (n : Nat) : c ∉ countedEnding n := by
  rw [countedEnding, List.mem_append, not_or]
  refine ⟨fun hmem => ?_, hending⟩
  rw [isDigit_natDigits hmem] at hdigit
  cases hdigit

/-- **A text ends in one count at most.** Neither a count nor the ending has a dash, so where the
dash before them is follows from the text. -/
theorem Counted.unique (hn : Counted n cs) (hm : Counted m cs) : n = m := by
  obtain ⟨before, rfl⟩ := hn
  obtain ⟨before', heq⟩ := hm
  have hdash : ∀ k, '-' ∉ countedEnding k := not_mem_countedEnding (by decide) (by decide)
  have hsplit := splitLast?_append before (hdash n)
  rw [heq, splitLast?_append before' (hdash m)] at hsplit
  have hending : countedEnding m = countedEnding n := (Prod.mk.inj (Option.some.inj hsplit)).2
  have hdigits : natDigits m = natDigits n := List.append_cancel_right hending
  rw [← ofDigitChars_natDigits n, ← hdigits, ofDigitChars_natDigits]

theorem Counted.append (before : List Char) (h : Counted n cs) : Counted n (before ++ cs) := by
  obtain ⟨between, rfl⟩ := h
  exact ⟨before ++ between, (List.append_assoc _ _ _).symm⟩

/-- What of a counted text stands behind its last slash is counted: the slash is before the dash. -/
theorem Counted.last_part (h : Counted n cs) :
    ∃ early last, parts '/' cs = early ++ [last] ∧ Counted n last := by
  obtain ⟨before, rfl⟩ := h
  have hslash : '/' ∉ '-' :: countedEnding n := by
    rw [List.mem_cons, not_or]
    exact ⟨by decide, not_mem_countedEnding (by decide) (by decide) n⟩
  rw [parts_eq_splitOn]
  rcases last_or_not_mem '/' before with hnone | ⟨outer, inner, rfl, hinner⟩
  · refine ⟨[], before ++ '-' :: countedEnding n, ?_, before, rfl⟩
    exact List.splitOn_eq_singleton (List.not_mem_append hnone hslash)
  · refine ⟨outer.splitOn '/', inner ++ '-' :: countedEnding n, ?_, inner, rfl⟩
    rw [List.append_assoc, List.cons_append, List.splitOn_append_cons_self,
      List.splitOn_eq_singleton (List.not_mem_append hinner hslash)]

end Receiver

/-! ## Paths -/

namespace Storage

open Receiver (Counted)

variable {n m : Nat} {p q : String}

/-- The name of the file in a path. -/
def Path.fileName? (path : String) : Option String := (names path).getLast?

/-- The name of the file has the count that the path ends in. -/
theorem Path.counted_fileName? (h : Counted n p.toList) :
    ∃ name, Path.fileName? p = some name ∧ Counted n name.toList := by
  obtain ⟨early, last, hparts, hlast⟩ := h.last_part
  refine ⟨String.ofList last, ?_, by rwa [String.toList_ofList]⟩
  -- A dash and an ending are too much for a name that is left out.
  have hkept : (String.ofList last != "" && String.ofList last != ".") = true := by
    obtain ⟨before, rfl⟩ := hlast
    have hdash : '-' ∈ before ++ '-' :: Receiver.countedEnding n := by simp
    rw [Bool.and_eq_true, bne_iff_ne, bne_iff_ne]
    constructor <;>
    · intro heq
      have hlist := congrArg String.toList heq
      rw [String.toList_ofList] at hlist
      rw [hlist] at hdash
      revert hdash
      decide
  rw [fileName?, names, hparts, List.map_append, List.filter_append, List.map_singleton,
    List.filter_singleton, hkept, cond_true, List.getLast?_concat]

/-- Paths with different counts have different names of files. -/
theorem Path.fileName?_ne (hp : Counted n p.toList) (hq : Counted m q.toList) (hne : n ≠ m) :
    Path.fileName? p ≠ Path.fileName? q := by
  obtain ⟨name, hname, hcounted⟩ := counted_fileName? hp
  obtain ⟨name', hname', hcounted'⟩ := counted_fileName? hq
  rw [hname, hname']
  rintro ⟨⟩
  exact hne (hcounted.unique hcounted')

/-- Joining to a directory puts something before a name, or nothing: an absolute name stays as it
is, and either way the end of the text is that of the name. -/
theorem Path.counted_join (directory : String) (h : Counted n p.toList) :
    Counted n (Path.join directory p).toList := by
  rw [join]
  split
  · exact h
  split
  · rw [String.toList_append]
    exact h.append _
  · rw [String.toList_append]
    exact h.append _

/-- Where a path leads there is the name of its file, at the end of the name from the root. -/
theorem Disk.getLast?_of_name? {d : Disk} {name : List String} (h : d.name? p = some name) :
    name.getLast? = Path.fileName? p := by
  have hresolve : d.resolve p = .ok name := by
    cases hr : d.resolve p with
    | error f => rw [name?, hr] at h; cases h
    | ok name' => rw [name?, hr] at h; exact congrArg _ (Option.some.inj h)
  rw [Disk.resolve] at hresolve
  split at hresolve
  · cases hresolve
  split at hresolve
  · cases hresolve
  dsimp only at hresolve
  rw [Path.fileName?]
  cases hlast : (Path.names p).getLast? with
  | none =>
    rw [hlast] at hresolve
    cases hresolve
  | some last =>
    rw [hlast] at hresolve
    dsimp only [bind, Except.bind] at hresolve
    -- It does not matter what the directory is that the names before lead to.
    cases hfollow : d.follow (d.startOf p) (Path.names p).dropLast with
    | error f =>
      rw [hfollow] at hresolve
      cases hresolve
    | ok directory =>
      rw [hfollow] at hresolve
      dsimp only at hresolve
      split at hresolve
      · cases hresolve
      split at hresolve
      · cases hresolve
      split at hresolve
      · cases hresolve
      rw [← Except.ok.inj hresolve, List.getLast?_concat]

/-- **Paths with different names of files lead to different files** on every disk. -/
theorem Disk.not_sameFile (d : Disk) (h : Path.fileName? p ≠ Path.fileName? q) :
    ¬d.SameFile p q := by
  rintro ⟨name, hp, hq⟩
  exact h ((getLast?_of_name? hp).symm.trans (getLast?_of_name? hq))

end Storage

/-! ## Names of files -/

namespace Receiver

open ExchangeArchive.Storage ExchangeArchive.Time

namespace FileNames

variable {directory beginning : String} {count : Nat}

/-- The paths of successive counts with these times. -/
def stamped (directory beginning : String) (count : Nat) (times : List Timestamp) : List String :=
  times.mapIdx fun i t => Path.join directory (timestampName beginning t (count + i + 1))

/-- What successive calls give that find these clocks. -/
def calls : FileNames → List Clock → List (Except Error String)
  | _, [] => []
  | names, c :: clocks => (names.next c).1 :: calls (names.next c).2 clocks

theorem counted_timestampName (beginning : String) (t : Timestamp) (n : Nat) :
    Counted n (timestampName beginning t n).toList := by
  refine ⟨beginning.toList ++ t.fileText, ?_⟩
  simp only [timestampName, countedEnding, natDigits, String.toList_append, String.toList_ofList,
    List.append_assoc]
  rfl

theorem stamped_concat (times : List Timestamp) (t : Timestamp) :
    stamped directory beginning count (times ++ [t])
      = stamped directory beginning count times
        ++ [Path.join directory (timestampName beginning t (count + times.length + 1))] :=
  List.mapIdx_concat

theorem stamped_cons (t : Timestamp) (times : List Timestamp) :
    stamped directory beginning count (t :: times)
      = Path.join directory (timestampName beginning t (count + 1))
        :: stamped directory beginning (count + 1) times := by
  have hshift : ∀ i, count + 1 + i + 1 = count + (i + 1) + 1 := fun i => by omega
  simp only [stamped, List.mapIdx_cons, Nat.add_zero, hshift]

/-- Successive calls of a generator give the paths of successive counts, whatever the clock
shows, and never fail. -/
theorem calls_timestamps (directory beginning : String) (count : Nat) (clocks : List Clock) :
    (FileNames.timestamps directory beginning count).calls clocks
      = (stamped directory beginning count (clocks.map Clock.timestamp)).map .ok := by
  induction clocks generalizing count with
  | nil => rfl
  | cons c clocks ih => rw [calls, next, ih, List.map_cons, stamped_cons, List.map_cons]

/-- Names of successive counts with the times that the clock shows, or with any others: a clock
that is set back, or set to another year, shows those. -/
inductive Stamps (directory beginning : String) (count : Nat) : FileNames → Prop where
  | clock : Stamps directory beginning count (.timestamps directory beginning count)
  | others (times : List Timestamp) : Stamps directory beginning count
    (.listed ((stamped directory beginning count times).map .ok))

/-- The next name has the next count, unless there is none. The time that the clock shows stands
before the count and may be any. -/
theorem Stamps.next {names : FileNames} (h : Stamps directory beginning count names) (c : Clock) :
    (∃ t, (names.next c).1 = .ok (Path.join directory (timestampName beginning t (count + 1))) ∧
      Stamps directory beginning (count + 1) (names.next c).2) ∨
    (∃ e, (names.next c).1 = .error e) ∧ Stamps directory beginning count (names.next c).2 := by
  cases h with
  | clock => exact .inl ⟨c.timestamp, rfl, .clock⟩
  | others times =>
    cases times with
    | nil => exact .inr ⟨⟨_, rfl⟩, .others []⟩
    | cons t times =>
      rw [stamped_cons]
      exact .inl ⟨t, rfl, .others times⟩

/-- **The paths of successive counts are those of different files**, whatever the times. -/
theorem stamped_apart (directory beginning : String) (count : Nat) (times : List Timestamp) :
    (stamped directory beginning count times).Pairwise fun p q =>
      Path.fileName? p ≠ Path.fileName? q := by
  rw [List.pairwise_iff_getElem]
  intro i j hi hj hij
  simp only [stamped, List.getElem_mapIdx]
  exact Path.fileName?_ne (Path.counted_join directory (counted_timestampName _ _ _))
    (Path.counted_join directory (counted_timestampName _ _ _)) (by omega)

end FileNames

/-! ## Runs of a receiver -/

namespace Checkpoint.World

open FileNames (stamped Stamps)

variable {w : World} {op : Operation} {directory beginning : String} {count : Nat}

/-- A path is generated exactly by asking for a name, so the paths of a run are the names that
it took. -/
theorem generated?_eq (w : World) (op : Operation) :
    w.generated? op = if w.rotates op && w.receiver.writer.all fun f => (f.close w.disk).result.isOk
      then (w.receiver.names.next w.clock).1.toOption else none := by
  cases hp : op.prepares? with
  | none =>
    rw [generated?, rotates, hp]
    rfl
  | some size =>
    rw [generated?_of_prepares hp, rotates, hp, Option.any_some, closesWell,
      closing?_of_prepares hp]
    by_cases hdue : w.receiver.isDue w.clock size = true
    · rw [if_pos hdue]
    · rw [eq_false_of_ne_true hdue]
      rfl

/-- The paths that a run generates are those of successive counts, one for each name that was
asked for. -/
theorem IsOpen.generated_run (h : w.IsOpen)
    (hnames : Stamps directory beginning count w.receiver.names) (ops : List Operation) :
    ∃ times, w.generated ops = stamped directory beginning count times ∧
      Stamps directory beginning (count + times.length) (w.after ops).receiver.names := by
  induction ops using List.reverseRecOn with
  | nil => exact ⟨[], rfl, hnames⟩
  | append_singleton ops op ih =>
    obtain ⟨times, hgenerated, hcount⟩ := ih
    rw [generated_concat, after_concat, hgenerated, ((h.after ops).steady_step op).names,
      generated?_eq]
    split
    · rcases hcount.next (w.after ops).clock with ⟨t, hpath, hnext⟩ | ⟨⟨e, herror⟩, hnext⟩
      · refine ⟨times ++ [t], ?_, ?_⟩
        · rw [FileNames.stamped_concat, hpath]
          rfl
        · rw [List.length_append]
          exact hnext
      · -- Without a name there is no file either.
        rw [herror]
        exact ⟨times, List.append_nil _, hnext⟩
    · exact ⟨times, List.append_nil _, hcount⟩

/-- The paths that a run generates have different names of files, since no two have the same
count. -/
theorem IsOpen.fileNames_apart (h : w.IsOpen)
    (hnames : Stamps directory beginning count w.receiver.names) (ops : List Operation) :
    (w.generated ops).Pairwise fun p q => Path.fileName? p ≠ Path.fileName? q := by
  obtain ⟨times, hgenerated, -⟩ := h.generated_run hnames ops
  rw [hgenerated]
  exact FileNames.stamped_apart directory beginning count times

/-- A path that is generated has another name than all files of the run before it. -/
theorem IsOpen.fileName?_ne (h : w.IsOpen) (hnone : w.present = [])
    (hnames : Stamps directory beginning count w.receiver.names) {ops : List Operation}
    {f : HarFile} (hf : f ∈ w.files ops) {p : String} (hp : p ∈ (w.after ops).generated? op) :
    Path.fileName? f.path ≠ Path.fileName? p := by
  have hpath : f.path ∈ w.generated ops :=
    (h.paths_run hnone ops).subset (List.mem_map_of_mem hf)
  have hapart := h.fileNames_apart hnames (ops ++ [op])
  rw [generated_concat] at hapart
  exact (List.pairwise_append.mp hapart).2.2 f.path hpath p (Option.mem_toList.mpr hp)

/-- **A receiver with names of the time and a count never writes over a file that it had.**
Whatever the directory and the beginning of the names, and whatever times the clock shows:

* the paths of successive counts differ, and on no disk do two of them lead to one file;
* these are the paths that successive calls give, none of which fails;
* in a run of a receiver, whatever it is told and whatever the disk does, a path that is
  generated is not that of a file of the run before it, under this path or another; the
  archive of a file that is closed well is there after the next file has been opened; and
  what can be read of a file that was let go of stays the same. -/
theorem no_file_written_over (directory beginning : String) (count : Nat) :
    (∀ times, (stamped directory beginning count times).Pairwise fun p q =>
      p ≠ q ∧ ∀ d : Disk, ¬d.SameFile p q)
    ∧ (∀ clocks, (FileNames.timestamps directory beginning count).calls clocks
        = (stamped directory beginning count (clocks.map Clock.timestamp)).map .ok)
    ∧ ∀ (c : Clock) (names : FileNames) (maxBytes maxDuration lastRoll : Nat) (d : Disk)
        (ops : List Operation), Stamps directory beginning count names → d.Sound →
          let w := fresh c names maxBytes maxDuration lastRoll d
          (∀ op, ∀ p ∈ (w.after ops).generated? op, ∀ f ∈ w.files ops,
            f.path ≠ p ∧ ¬(w.after ops).disk.SameFile f.path p)
          ∧ (∀ op f, (w.after ops).closing? op = some f →
              (f.close (w.after ops).disk).result = .ok () →
                (w.after (ops ++ [op])).disk.read? f.path = some f.content)
          ∧ ∀ f ∈ w.closings ops, ∀ later,
              (w.after (ops ++ later)).disk.read? f.path = (w.after ops).disk.read? f.path := by
  refine ⟨fun times => ?_, FileNames.calls_timestamps directory beginning count, ?_⟩
  · refine (FileNames.stamped_apart directory beginning count times).imp fun hne => ?_
    exact ⟨fun heq => hne (congrArg _ heq), fun d => Disk.not_sameFile d hne⟩
  · intro c names maxBytes maxDuration lastRoll d ops hnames hd w
    have hopen : w.IsOpen := isOpen_fresh c names maxBytes maxDuration lastRoll d
    have hapart : ∀ ops, w.GeneratesApart ops := fun ops =>
      (hopen.fileNames_apart hnames ops).imp (Disk.not_sameFile w.disk)
    refine ⟨fun op p hp f hf => ?_, fun op f hf hok => ?_, fun f hf later => ?_⟩
    · have hne := hopen.fileName?_ne rfl hnames hf hp
      exact ⟨fun heq => hne (congrArg _ heq), Disk.not_sameFile _ hne⟩
    · exact hopen.read?_closed rfl hd (hapart _) hf hok
    · exact hopen.read?_of_closing rfl hd (hapart _) hf

/-- An absolute directory, a beginning that looks like a path and names of its own, and a clock
that is set back to what it showed for the first file: the second file is another than the
first. -/
theorem no_file_written_over_two_files :
    let d : Disk := { directories := [["var"], ["var", "hars"], ["var", "hars", "a-1.har"]] }
    let names := FileNames.listed
      ((stamped "/var/hars" "a-1.har/b-2" 0 [Timestamp.epoch, Timestamp.epoch]).map .ok)
    let w := fresh ⟨0, 0⟩ names 0 1 0 d
    let ops : List Operation := [.flush, .advance 2]
    (w.files ops).map (·.path) = ["/var/hars/a-1.har/b-21970-01-01_00-00-00.000-1.har"]
      ∧ (w.after ops).generated? .flush = some "/var/hars/a-1.har/b-21970-01-01_00-00-00.000-2.har"
      ∧ ∀ f ∈ w.files ops, ¬(w.after ops).disk.SameFile f.path
        "/var/hars/a-1.har/b-21970-01-01_00-00-00.000-2.har" := by
  intro d names w ops
  have hd : d.Sound := ⟨(fun h => by cases h), fun h => by cases h⟩
  have hnext : (w.after ops).generated? .flush
      = some "/var/hars/a-1.har/b-21970-01-01_00-00-00.000-2.har" := by decide +kernel
  refine ⟨by decide +kernel, hnext, fun f hf => ?_⟩
  exact (((no_file_written_over "/var/hars" "a-1.har/b-2" 0).2.2 ⟨0, 0⟩ names 0 1 0 d ops
    (.others _) hd).1 .flush _ hnext f hf).2

end Checkpoint.World

end Receiver

end ExchangeArchive
