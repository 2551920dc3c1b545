import ExchangeArchive.Proofs.Receiver.Runs
import Mathlib.Algebra.GroupWithZero.Nat
import Mathlib.Data.List.Forall2
/-
**When a receiver goes on to its next file.**

The receiver keeps two numbers about its present file, how much was counted towards it and
when it was opened, and the tests of size and age read these. What they should be is told
by the file's life: when it was opened, which record opened it, and which records came
later, with their times. `lives` follows the files of a run in this way, and counts nothing.

`Course` lists what getting ready does to the two numbers; the early ways out of it are the
cases in which there is no present file afterwards, so that a number that was left behind
does no harm. `Counts.step` keeps the numbers and the life of the present file together
over a step, and what the tests let pass is then a fact about lives.
-/

set_option autoImplicit false

namespace ExchangeArchive.Receiver.Checkpoint

open ExchangeArchive.Archive ExchangeArchive.Storage ExchangeArchive.Time

/-! ## Records -/

/-- What a receiver is brought, an entry or a page: the two count towards the size of a file in the
same way. -/
inductive Record where
  | entry (e : Entry)
  | page (p : Page)

namespace Record

/-- How much a record takes up in a file, in octets of its JSON text. The commas and brackets
around it are not part of the count. -/
def size : Record → Nat
  | .entry e => entrySize e
  | .page p => pageSize p

def toEntry : Record → Option Entry
  | .entry e => some e
  | .page _ => none

def toPage : Record → Option Page
  | .entry _ => none
  | .page p => some p

end Record

namespace Operation

/-- The record that an operation brings. -/
def record? : Operation → Option Record
  | .entry e => some (.entry e)
  | .page p => some (.page p)
  | _ => none

variable (op : Operation)

theorem entries_eq : op.entries = op.record?.toList.filterMap Record.toEntry := by
  cases op <;> rfl

theorem pages_eq : op.pages = op.record?.toList.filterMap Record.toPage := by
  cases op <;> rfl

/-- What has to get ready does so for its record. -/
theorem prepares?_eq {op : Operation} {size : Option Nat} (h : op.prepares? = some size) :
    size = op.record?.map Record.size := by
  cases op <;> cases h <;> rfl

end Operation

/-! ## The lives of files -/

/-- The life of a file, as it was followed from outside: when it was opened, and what came to it
after that and when. The receiver itself keeps only a sum and a time. -/
structure Life where
  /-- How much time had passed when it was opened. -/
  opened : Nat
  /-- The record whose arrival opened it; a flush opens a file without one. -/
  first : Option Record
  /-- The records that it took later, each with its time. -/
  later : List (Nat × Record) := []

namespace Life

variable (l : Life)

/-- All its records, in the order in which they came. -/
def records : List Record := l.first.toList ++ l.later.map (·.2)

/-- The size of all its records. -/
def size : Nat := (l.records.map Record.size).sum

/-- The size of its records without the one whose arrival opened it. This is what the receiver
counts where it has a limit, since the count starts from zero once the file has been opened. -/
def counted : Nat := (l.later.map (·.2.size)).sum

/-- The life after an operation that it goes on in. -/
def take (elapsed : Nat) (record : Option Record) : Life :=
  { l with later := l.later ++ record.toList.map fun r => (elapsed, r) }

theorem counted_take (elapsed : Nat) (record : Option Record) :
    (l.take elapsed record).counted = l.counted + (record.map Record.size).getD 0 := by
  cases record <;> simp [take, counted]

theorem records_take (elapsed : Nat) (record : Option Record) :
    (l.take elapsed record).records = l.records ++ record.toList := by
  cases record <;> simp [take, records]

/-- A file has the records of a life. -/
structure Fills (f : HarFile) : Prop where
  entries : f.entries = l.records.filterMap Record.toEntry
  pages : f.pages = l.records.filterMap Record.toPage

/-- A file that is new has the record whose arrival opened it. -/
theorem fills_first {f : HarFile} {op : Operation} (elapsed : Nat)
    (hentries : f.entries = op.entries) (hpages : f.pages = op.pages) :
    Fills ⟨elapsed, op.record?, []⟩ f := by
  refine ⟨?_, ?_⟩
  · rw [hentries, Operation.entries_eq, records, List.map_nil, List.append_nil]
  · rw [hpages, Operation.pages_eq, records, List.map_nil, List.append_nil]

variable {l} in
/-- An operation that a life goes on in adds its record to the file. -/
theorem Fills.take {f g : HarFile} {op : Operation} (h : l.Fills g) (elapsed : Nat)
    (hentries : f.entries = g.entries ++ op.entries) (hpages : f.pages = g.pages ++ op.pages) :
    (l.take elapsed op.record?).Fills f := by
  refine ⟨?_, ?_⟩
  · rw [hentries, h.entries, records_take, List.filterMap_append, Operation.entries_eq]
  · rw [hpages, h.pages, records_take, List.filterMap_append, Operation.pages_eq]

/-- A life within the limits; a limit of zero does not apply. The size is that of what was counted,
and the age that at which a record came. -/
structure Keeps (maxBytes maxDuration : Nat) : Prop where
  size : 0 < maxBytes → l.counted ≤ maxBytes
  age : 0 < maxDuration → ∀ m ∈ l.later, m.1 ≤ l.opened + maxDuration

end Life

/-- With its first record a life has at most the size of that more than the limit. -/
theorem Life.Keeps.size_le {l : Life} {maxBytes maxDuration : Nat}
    (h : l.Keeps maxBytes maxDuration) (hpos : 0 < maxBytes) {r : Record} {rest : List Record}
    (hrecords : l.records = r :: rest) : l.size ≤ maxBytes + r.size := by
  have hcounted := h.size hpos
  cases hfirst : l.first with
  | none =>
    have hsize : l.size = l.counted := by
      simp [Life.size, Life.records, Life.counted, hfirst, Function.comp_def]
    omega
  | some first =>
    -- The record that opened the file is its first.
    obtain rfl : first = r := by
      rw [Life.records, hfirst] at hrecords
      exact List.head_eq_of_cons_eq hrecords
    have hsize : l.size = first.size + l.counted := by
      simp [Life.size, Life.records, Life.counted, hfirst, Function.comp_def]
    omega

/-- The lives of the files that were let go of, oldest first, and that of the present one if there
is one. There is none at first, after a file that could not be opened, and after a close. -/
structure Lives where
  past : List Life := []
  present : Option Life := none

/-- All lives. -/
def Lives.all (l : Lives) : List Life := l.past ++ l.present.toList

namespace World

/-- Whether an operation lets go of the present file, if there is one, for the next. -/
def rotates (w : World) (op : Operation) : Bool := op.prepares?.any (w.receiver.isDue w.clock)

end World

/-- The lives after an operation in a world. -/
def Lives.next (l : Lives) (m : World × Operation) : Lives where
  past := l.past ++ if (m.1.closing? m.2).isSome then l.present.toList else []
  present :=
    match (m.1.step m.2).2.receiver.writer with
    | none => none
    | some _ =>
      if m.1.rotates m.2 then some ⟨m.1.clock.elapsed, m.2.record?, []⟩
      else l.present.map fun life => life.take m.1.clock.elapsed m.2.record?

theorem Lives.past_next (l : Lives) (m : World × Operation) :
    (l.next m).past
      = l.past ++ if (m.1.closing? m.2).isSome then l.present.toList else [] := rfl

namespace World

/-- The lives of the files of a run, from its trace: the worlds of the run and the operations made
in them. -/
def lives (w : World) (ops : List Operation) : Lives := (w.trace ops).foldl Lives.next {}

theorem lives_concat (w : World) (ops : List Operation) (op : Operation) :
    w.lives (ops ++ [op]) = (w.lives ops).next (w.after ops, op) := by
  rw [lives, trace_concat, List.foldl_append]
  rfl

variable {w : World} {op : Operation} {f : HarFile}

/-! ## When the next file is due -/

/-- With a present file that is when the record goes beyond the size, or the file is too
old. -/
theorem rotates_of_present (hopen : w.receiver.closed = false)
    (hw : w.receiver.writer = some f) {size : Option Nat} (hp : op.prepares? = some size) :
    w.rotates op = true ↔
      (∃ s, size = some s ∧ 0 < w.receiver.maxBytes
        ∧ w.receiver.maxBytes < w.receiver.counted + s)
      ∨ 0 < w.receiver.maxDuration
        ∧ w.receiver.lastRoll + w.receiver.maxDuration < w.clock.elapsed := by
  have hage : w.receiver.isTooOld w.clock = true ↔ 0 < w.receiver.maxDuration
      ∧ w.receiver.lastRoll + w.receiver.maxDuration < w.clock.elapsed := by
    rw [isTooOld, Bool.and_eq_true, bne_iff_ne, decide_eq_true_eq]
    omega
  rw [rotates, hp, Option.any_some, isDue, hopen, hw, ← hage]
  cases size with
  | none => simp
  | some s =>
    by_cases hzero : w.receiver.maxBytes = 0
    · simp [hzero]
    · have hcount : (w.receiver.count (some s)).counted = w.receiver.counted + s := if_neg hzero
      rw [hcount]
      simp [hzero, Nat.pos_of_ne_zero hzero]

/-- Without a present file the next one is due, whatever comes and however little: neither the
size nor the age is asked about then. -/
theorem rotates_of_none (hopen : w.receiver.closed = false) (hw : w.receiver.writer = none)
    (hp : op.prepares?.isSome = true) : w.rotates op = true := by
  obtain ⟨size, hp⟩ := Option.isSome_iff_exists.mp hp
  rw [rotates, hp, Option.any_some, isDue, hopen, hw]
  rfl

/-! ## One operation -/

/-- What getting ready comes to for the present file and the numbers kept about it: the file stays,
or it is let go of and no other came in its place, or the next one was opened. -/
inductive Course (w : World) (op : Operation) (b : Outcome Checkpoint) : Prop where
  /-- The present file stays, if there is one, with the record counted. -/
  | stays (hnot : w.rotates op = false)
      (hok : w.receiver.writer.isSome = true → b.result = .ok ())
      (hwriter : b.receiver.writer = w.receiver.writer)
      (hroll : b.receiver.lastRoll = w.receiver.lastRoll)
      (hcounted : b.receiver.counted
        = (w.receiver.count (op.record?.map Record.size)).counted)
  /-- There is no present file afterwards. -/
  | ends (hnone : b.receiver.writer = none)
  /-- There is a new one, and the numbers start from the beginning. -/
  | turns (path : String) (handle : Handle) (version : Version) (hrotates : w.rotates op = true)
      (hok : b.result = .ok ())
      (hwriter : b.receiver.writer
        = some { path := path, file := some handle, version := version })
      (hroll : b.receiver.lastRoll = w.clock.elapsed) (hcounted : b.receiver.counted = 0)

/-- The numbers and names that only going on to the next file changes, and that are therefore the
same wherever the next file is not due. -/
structure Steady (w : World) (op : Operation) (b : Checkpoint) : Prop where
  maxBytes : b.maxBytes = w.receiver.maxBytes
  maxDuration : b.maxDuration = w.receiver.maxDuration
  names : b.names
    = if w.rotates op && w.receiver.writer.all fun f => (f.close w.disk).result.isOk then
        (w.receiver.names.next w.clock).2
      else w.receiver.names

/-- Getting ready takes one of these courses, and whichever it takes, a name is used up only on the
way to the next file. -/
theorem IsOpen.course (h : w.IsOpen) (op : Operation) :
    w.Course op (w.before op) ∧ w.Steady op (w.before op).receiver := by
  cases hp : op.prepares? with
  | some size =>
    -- What a record or a flush comes to is one of the cases of `Ready`, and each of them says
    -- itself what is left of the present file and of the numbers.
    have hready := ready_prepare w.clock size w.receiver w.disk
    have hrotates : w.rotates op = w.receiver.isDue w.clock size := by
      rw [rotates, hp, Option.any_some]
    have hsize := Operation.prepares?_eq hp
    rw [before_of_prepares hp]
    generalize w.receiver.prepare w.clock size w.disk = o at hready ⊢
    cases hready with
    | closed hclosed =>
      have hnot : w.receiver.isDue w.clock size = false := by simp [isDue, hclosed]
      exact ⟨.ends (h.closed hclosed), rfl, rfl, by rw [hrotates, hnot]; rfl⟩
    | present f hopen hdue hf =>
      refine ⟨.stays (hrotates.trans hdue) (fun _ => rfl) rfl rfl ?_, rfl, rfl,
        by rw [hrotates, hdue]; rfl⟩
      rw [← hsize]
      rfl
    | stuck f e hdue hf he =>
      -- It is the failure to close the present file that saves the name of the next.
      have hill : (w.receiver.writer.all fun f => (f.close w.disk).result.isOk) = false := by
        rw [hf, Option.all_some, he]
        rfl
      exact ⟨.ends rfl, rfl, rfl, by rw [hill, Bool.and_false]; rfl⟩
    | unnamed e hdue hclose hname =>
      refine ⟨.ends rfl, rfl, rfl, ?_⟩
      rw [hrotates, hdue, allClose_iff.mpr hclose]
      rfl
    | unopened path fault hdue hclose hname hcreate =>
      refine ⟨.ends rfl, rfl, rfl, ?_⟩
      rw [hrotates, hdue, allClose_iff.mpr hclose]
      rfl
    | opened path handle hdue hclose hname hcreate =>
      refine ⟨.turns path handle _ (hrotates.trans hdue) rfl rfl rfl rfl, rfl, rfl, ?_⟩
      rw [hrotates, hdue, allClose_iff.mpr hclose]
      rfl
  | none =>
    -- Nothing else lets go of a file for the next, so neither the names nor the limits change.
    have hnot : w.rotates op = false := by rw [rotates, hp]; rfl
    have hsteady : ∀ b : Checkpoint, b.maxBytes = w.receiver.maxBytes →
        b.maxDuration = w.receiver.maxDuration → b.names = w.receiver.names →
        w.Steady op b := fun b hbytes hduration hnames =>
      ⟨hbytes, hduration, by rw [hnot, Bool.false_and]; exact hnames⟩
    cases op with
    | close =>
      by_cases hclosed : w.receiver.closed = true
      · -- A receiver is closed once; to close it again is nothing.
        have hbefore : w.before .close = .ok w.receiver w.disk := if_pos hclosed
        rw [hbefore]
        exact ⟨.stays hnot (fun _ => rfl) rfl rfl rfl, hsteady _ rfl rfl rfl⟩
      · have hbefore : w.before .close = _ := if_neg hclosed
        rw [hbefore]
        exact ⟨.ends rfl, hsteady _ rfl rfl rfl⟩
    | start v =>
      by_cases hclosed : w.receiver.closed = true
      · have hbefore : w.before (.start v) = .fail .closed w.receiver w.disk := if_pos hclosed
        rw [hbefore]
        exact ⟨.ends (h.closed hclosed), hsteady _ rfl rfl rfl⟩
      · have hbefore : w.before (.start v) = .ok { w.receiver with version := some v } w.disk :=
          if_neg hclosed
        rw [hbefore]
        exact ⟨.stays hnot (fun _ => rfl) rfl rfl rfl, hsteady _ rfl rfl rfl⟩
    | advance nanos =>
      exact ⟨.stays hnot (fun _ => rfl) rfl rfl rfl, hsteady _ rfl rfl rfl⟩
    | _ => cases hp

/-- Work on the present file changes nothing but that file: what the receiver knows about sizes,
times and names was settled when it got ready. -/
theorem receiver_step (w : World) (op : Operation) :
    ∃ writer, (w.step op).2.receiver = { (w.before op).receiver with writer := writer } := by
  rcases step_cases w op with ⟨hreceiver, -⟩ | ⟨f, -, -, hreceiver, -⟩
  · exact ⟨_, hreceiver⟩
  · exact ⟨_, hreceiver⟩

theorem IsOpen.steady_step (h : w.IsOpen) (op : Operation) :
    w.Steady op (w.step op).2.receiver := by
  obtain ⟨writer, hreceiver⟩ := receiver_step w op
  obtain ⟨hbytes, hduration, hnames⟩ := (h.course op).2
  rw [hreceiver]
  exact ⟨hbytes, hduration, hnames⟩

/-- What is there after a step has been worked on: it was the present file when the
receiver was ready, and has the record that came. -/
theorem IsOpen.worked (h : w.IsOpen) (op : Operation)
    (hf : (w.step op).2.receiver.writer = some f) :
    ∃ g, (w.before op).receiver.writer = some g ∧ f.entries = g.entries ++ op.entries
      ∧ f.pages = g.pages ++ op.pages := by
  rcases step_cases w op with ⟨hreceiver, -, -, hidle⟩ | ⟨g, -, hg, hreceiver, -⟩
  · -- Who has a file and did not work on it was not ready.
    rw [hreceiver] at hf
    have hready : (w.before op).result = .ok () := by
      cases (h.course op).1 with
      | stays hnot hok hwriter hroll hcounted =>
        exact hok (by rw [← hwriter, hf]; rfl)
      | ends hnone =>
        rw [hf] at hnone
        cases hnone
      | turns path handle version hrotates hok hwriter hroll hcounted => exact hok
    rcases hidle with hnone | hnot
    · rw [hf] at hnone
      cases hnone
    · rw [getsReady, hready] at hnot
      cases hnot
  · obtain ⟨-, -, -, hentries, hpages⟩ := act_spec ((moves_before w op).isOpen h.file g hg) op
    rw [hreceiver] at hf
    obtain rfl : _ = f := Option.some.inj hf
    exact ⟨g, hg, hentries, hpages⟩

/-- Where the next file is due, and nothing goes wrong on the way to it, it is there, new, when the
receiver is ready. -/
theorem before_of_rotates (hrotates : w.rotates op = true)
    (hclose : ∀ f, w.receiver.writer = some f → (f.close w.disk).result = .ok ()) {path : String}
    (hname : (w.receiver.names.next w.clock).1 = .ok path) {handle : Handle}
    (hcreate : ((w.receiver.closedDisk w.disk).create path).1 = .ok handle) :
    (w.before op).result = .ok ()
      ∧ (w.before op).receiver.writer = some (w.receiver.nextFile path handle) := by
  cases hp : op.prepares? with
  | none =>
    rw [rotates, hp] at hrotates
    cases hrotates
  | some size =>
    rw [rotates, hp, Option.any_some] at hrotates
    have hready := ready_prepare w.clock size w.receiver w.disk
    rw [before_of_prepares hp]
    generalize w.receiver.prepare w.clock size w.disk = o at hready ⊢
    cases hready with
    | closed hclosed => simp [isDue, hclosed] at hrotates
    | present f hopen hdue hf =>
      rw [hrotates] at hdue
      cases hdue
    | stuck f e hdue hf he =>
      rw [hclose f hf] at he
      cases he
    | unnamed e hdue hclose' hname' =>
      rw [hname] at hname'
      cases hname'
    | unopened path' fault hdue hclose' hname' hcreate' =>
      obtain rfl := Except.ok.inj (hname.symm.trans hname')
      rw [hcreate] at hcreate'
      cases hcreate'
    | opened path' handle' hdue hclose' hname' hcreate' =>
      obtain rfl := Except.ok.inj (hname.symm.trans hname')
      obtain rfl := Except.ok.inj (hcreate.symm.trans hcreate')
      exact ⟨rfl, rfl⟩

/-- **Going on leaves a present file**, if the one before it is closed well, if there is a name,
and if a file of that name can be opened. The new file is the one behind its path, and it has the
record that came and no other. -/
theorem IsOpen.turned (h : w.IsOpen) (hrotates : w.rotates op = true)
    (hclose : ∀ f, w.receiver.writer = some f → (f.close w.disk).result = .ok ()) {path : String}
    (hname : (w.receiver.names.next w.clock).1 = .ok path) {handle : Handle}
    (hcreate : ((w.receiver.closedDisk w.disk).create path).1 = .ok handle) :
    ∃ f, (w.step op).2.receiver.writer = some f ∧ f.path = path
      ∧ f.IsOpen (w.step op).2.disk ∧ f.entries = op.entries ∧ f.pages = op.pages := by
  obtain ⟨hready, hnext⟩ := before_of_rotates hrotates hclose hname hcreate
  rcases step_cases w op with ⟨-, -, -, hidle⟩ | ⟨f, -, hf, hreceiver, -, -⟩
  · -- Who is ready and has a file works on it.
    rcases hidle with hnone | hnot
    · rw [hnext] at hnone
      cases hnone
    · rw [getsReady, hready] at hnot
      cases hnot
  · obtain ⟨-, -, hpath, hentries, hpages⟩ := act_spec ((moves_before w op).isOpen h.file f hf) op
    have hwriter : (w.step op).2.receiver.writer
        = some (op.act f (w.before op).disk).receiver := by
      rw [hreceiver]
    obtain rfl : w.receiver.nextFile path handle = f := Option.some.inj (hnext.symm.trans hf)
    exact ⟨_, hwriter, hpath, (h.step op).file _ hwriter, hentries, hpages⟩

/-! ## Numbers and lives -/

/-- The numbers that are kept about the present file are those of its life. Without a file they are
of no life, and nothing is said about them. -/
structure Counts (w : World) (life? : Option Life) : Prop where
  present : life?.isSome = w.receiver.writer.isSome
  fills : ∀ {life f}, life? = some life → w.receiver.writer = some f → life.Fills f
  opened : ∀ {life}, life? = some life → life.opened = w.receiver.lastRoll
  counted : 0 < w.receiver.maxBytes → ∀ {life}, life? = some life →
    life.counted = w.receiver.counted
  keeps : ∀ {life}, life? = some life → life.Keeps w.receiver.maxBytes w.receiver.maxDuration

theorem counts_none (h : w.receiver.writer = none) : w.Counts none :=
  ⟨by rw [h]; rfl, nofun, nofun, fun _ => nofun, nofun⟩

/-- What a record that does not go beyond the limits leaves of them: the life that takes it is
within them as well. -/
theorem Counts.keeps_take {life : Life} (h : w.IsOpen) (hcounts : w.Counts (some life))
    (hnot : w.rotates op = false) :
    (life.take w.clock.elapsed op.record?).Keeps w.receiver.maxBytes w.receiver.maxDuration := by
  obtain ⟨hsize, hage⟩ := hcounts.keeps rfl
  cases hr : op.record? with
  | none => exact ⟨by simpa [Life.take, Life.counted] using hsize, by simpa [Life.take] using hage⟩
  | some r =>
    have hp : op.prepares? = some (some r.size) := by
      cases op <;> cases hr <;> rfl
    obtain ⟨f, hf⟩ := Option.isSome_iff_exists.mp hcounts.present.symm
    have hopen : w.receiver.closed = false := by
      cases hclosed : w.receiver.closed with
      | false => rfl
      | true =>
        rw [h.closed hclosed] at hf
        cases hf
    -- Neither test has let the receiver go on.
    rw [← Bool.not_eq_true, rotates_of_present hopen hf hp, not_or] at hnot
    obtain ⟨hsmall, hyoung⟩ := hnot
    have hopened := hcounts.opened rfl
    refine ⟨fun hbytes => ?_, fun hduration m hm => ?_⟩
    · have hcounted := hcounts.counted hbytes rfl
      have hle : ¬ w.receiver.maxBytes < w.receiver.counted + r.size := fun hlt =>
        hsmall ⟨r.size, rfl, hbytes, hlt⟩
      rw [Life.counted_take]
      simp only [Option.map_some, Option.getD_some]
      omega
    · rcases List.mem_append.mp hm with hbefore | hnow
      · exact hage hduration m hbefore
      · obtain rfl : m = (w.clock.elapsed, r) := by simpa using hnow
        have hle : ¬ w.receiver.lastRoll + w.receiver.maxDuration < w.clock.elapsed := fun hlt =>
          hyoung ⟨hduration, hlt⟩
        show w.clock.elapsed ≤ life.opened + w.receiver.maxDuration
        omega

/-- **One operation** keeps the numbers and the life of the present file together. Where the file
stays its life takes the record and the numbers count it; where it ends there is no life to keep
in step with; and where the next one is opened both start from the beginning. -/
theorem Counts.step {lives : Lives} (h : w.IsOpen) (hcounts : w.Counts lives.present)
    (op : Operation) : (w.step op).2.Counts (lives.next (w, op)).present := by
  cases hf : (w.step op).2.receiver.writer with
  | none =>
    have hnone : (lives.next (w, op)).present = none := by simp only [Lives.next, hf]
    rw [hnone]
    exact counts_none hf
  | some f =>
    -- What is there after the step was there when the receiver was ready, and the step has worked
    -- on it; the numbers are those of that moment.
    have hnext : (lives.next (w, op)).present
        = if w.rotates op then some ⟨w.clock.elapsed, op.record?, []⟩
          else lives.present.map fun life => life.take w.clock.elapsed op.record? := by
      simp only [Lives.next, hf]
    obtain ⟨writer, hreceiver⟩ := receiver_step w op
    obtain ⟨hbytes, hduration, -⟩ := h.steady_step op
    obtain ⟨g, hg, hentries, hpages⟩ := h.worked op hf
    have hroll : (w.step op).2.receiver.lastRoll = (w.before op).receiver.lastRoll := by
      rw [hreceiver]
    have hcount : (w.step op).2.receiver.counted = (w.before op).receiver.counted := by
      rw [hreceiver]
    cases (h.course op).1 with
    | stays hnot hok hwriter hroll' hcounted =>
      -- The file is the one of before, so there is a life that goes on.
      have hpresent : lives.present.isSome = true := by
        rw [hcounts.present, ← hwriter, hg]
        rfl
      obtain ⟨life, hlife⟩ := Option.isSome_iff_exists.mp hpresent
      rw [hlife] at hcounts
      rw [hnext, hnot, if_neg Bool.false_ne_true, hlife, Option.map_some]
      refine ⟨by rw [hf]; rfl, ?_, ?_, ?_, ?_⟩
      · rintro life' f' ⟨⟩ hf'
        obtain rfl : f = f' := Option.some.inj (hf.symm.trans hf')
        exact (hcounts.fills rfl (hwriter ▸ hg)).take _ hentries hpages
      · rintro life' ⟨⟩
        exact (hcounts.opened rfl).trans (hroll'.symm.trans hroll.symm)
      · rintro hpos life' ⟨⟩
        rw [hbytes] at hpos
        rw [Life.counted_take, hcount, hcounted, hcounts.counted hpos rfl]
        -- The receiver counts only if there is a limit, and there is one.
        cases op.record? with
        | none => rfl
        | some r => exact (if_neg (Nat.pos_iff_ne_zero.mp hpos)).symm
      · rintro life' ⟨⟩
        rw [hbytes, hduration]
        exact hcounts.keeps_take h hnot
    | ends hnone =>
      rw [hg] at hnone
      cases hnone
    | turns path handle version hrotates hok hwriter hroll' hcounted =>
      -- The file is empty when the receiver is ready; what it has now came with the operation.
      rw [hwriter] at hg
      obtain rfl := Option.some.inj hg
      rw [hnext, hrotates, if_pos rfl]
      refine ⟨by rw [hf]; rfl, ?_, ?_, ?_, ?_⟩
      · rintro life' f' ⟨⟩ hf'
        obtain rfl : f = f' := Option.some.inj (hf.symm.trans hf')
        exact Life.fills_first _ hentries hpages
      · rintro life' ⟨⟩
        exact hroll'.symm.trans hroll.symm
      · rintro - life' ⟨⟩
        rw [hcount, hcounted]
        rfl
      · rintro life' ⟨⟩
        exact ⟨fun _ => Nat.zero_le _, fun _ m hm => by cases hm⟩

/-! ## Runs -/

/-- The limits stay what they are, whatever is done. -/
theorem IsOpen.limits_after (h : w.IsOpen) (ops : List Operation) :
    (w.after ops).receiver.maxBytes = w.receiver.maxBytes
      ∧ (w.after ops).receiver.maxDuration = w.receiver.maxDuration := by
  induction ops using List.reverseRecOn with
  | nil => exact ⟨rfl, rfl⟩
  | append_singleton ops op ih =>
    obtain ⟨hbytes, hduration, -⟩ := (h.after ops).steady_step op
    rw [after_concat]
    exact ⟨hbytes.trans ih.1, hduration.trans ih.2⟩

theorem IsOpen.counts_after (h : w.IsOpen) (hnone : w.receiver.writer = none)
    (ops : List Operation) : (w.after ops).Counts (w.lives ops).present := by
  induction ops using List.reverseRecOn with
  | nil => exact counts_none hnone
  | append_singleton ops op ih =>
    rw [after_concat, lives_concat]
    exact ih.step (h.after ops) op

/-- All lives of a run are within the limits, those of files that were let go of and that of the
present one. -/
theorem IsOpen.keeps_run (h : w.IsOpen) (hnone : w.receiver.writer = none)
    (ops : List Operation) :
    ∀ l ∈ (w.lives ops).all, l.Keeps w.receiver.maxBytes w.receiver.maxDuration := by
  have hpresent : ∀ ops, ∀ l ∈ (w.lives ops).present.toList,
      l.Keeps w.receiver.maxBytes w.receiver.maxDuration := by
    intro ops l hl
    have hkeeps := (h.counts_after hnone ops).keeps (Option.mem_toList.mp hl)
    rw [(h.limits_after ops).1, (h.limits_after ops).2] at hkeeps
    exact hkeeps
  -- What is past was present before.
  have hpast : ∀ l ∈ (w.lives ops).past, l.Keeps w.receiver.maxBytes w.receiver.maxDuration := by
    induction ops using List.reverseRecOn with
    | nil => simp [lives, trace]
    | append_singleton ops op ih =>
      intro l hl
      rw [lives_concat, Lives.past_next] at hl
      rcases List.mem_append.mp hl with hbefore | hnow
      · exact ih l hbefore
      · split at hnow
        · exact hpresent ops l hnow
        · cases hnow
  intro l hl
  rcases List.mem_append.mp hl with hbefore | hnow
  · exact hpast l hbefore
  · exact hpresent ops l hnow

/-- **The lives of a run are those of its files.** A life was followed for each file that was let
go of, in their order, and each file has the records of its life. -/
theorem IsOpen.fills_run (h : w.IsOpen) (hnone : w.receiver.writer = none)
    (ops : List Operation) : List.Forall₂ Life.Fills (w.lives ops).all (w.files ops) := by
  have hpresent : ∀ ops, List.Forall₂ Life.Fills (w.lives ops).present.toList
      (w.after ops).present := by
    intro ops
    have hcounts := h.counts_after hnone ops
    have hsome := hcounts.present
    rw [present]
    cases hlife : (w.lives ops).present with
    | none =>
      rw [hlife] at hsome
      have hw : (w.after ops).receiver.writer = none := by simpa using hsome.symm
      rw [hw]
      exact .nil
    | some life =>
      rw [hlife] at hsome
      obtain ⟨f, hf⟩ := Option.isSome_iff_exists.mp hsome.symm
      rw [hf]
      exact .cons (hcounts.fills hlife hf) .nil
  have hpast : List.Forall₂ Life.Fills (w.lives ops).past (w.closings ops) := by
    induction ops using List.reverseRecOn with
    | nil => exact .nil
    | append_singleton ops op ih =>
      rw [lives_concat, closings_concat, Lives.past_next]
      refine List.rel_append ih ?_
      cases hclosing : (w.after ops).closing? op with
      | none => exact .nil
      | some f =>
        have hpresent := hpresent ops
        rw [present_of_closing hclosing] at hpresent
        exact hpresent
  exact List.rel_append hpast (hpresent ops)

/-! ## The result -/

/-- **A receiver goes on to its next file by size and by age.** After any operations,
whatever has failed among them:

* the lives that were followed are those of the files of the run, the last one that of the
  present file if there is one;
* an entry, a page or a flush that comes to an open receiver lets go of the present file for
  the next one exactly if its record, unless it has none, would take what was counted of the
  life beyond the limit, or the file is too old, each only if that limit is not zero; and if
  there is no present file, always;
* a name is used up exactly by going on to the next file, unless the present one cannot be
  closed, and by nothing else;
* if the present one is closed well, if there is a name and if a file of that name can be opened,
  then going on leaves a present file, which is the one behind the path of that name and has the
  record that came and no other;
* what is counted of any file is within the limit, so that all its records together are
  beyond it by the size of the first at most;
* no file has taken a record when it was too old. -/
theorem rotates_by_size_or_age (c : Clock) (names : FileNames)
    (maxBytes maxDuration lastRoll : Nat) (d : Disk) (ops : List Operation) :
    let w₀ := fresh c names maxBytes maxDuration lastRoll d
    let w := w₀.after ops
    let lives := w₀.lives ops
    (List.Forall₂ Life.Fills lives.all (w₀.files ops)
        ∧ lives.present.isSome = w.receiver.writer.isSome)
    ∧ (w.receiver.closed = false → ∀ op size, op.prepares? = some size →
        w.receiver.prepare w.clock size w.disk
            = (if w.rotates op then rotate w.clock (w.receiver.count size) w.disk
              else .ok (w.receiver.count size) w.disk)
          ∧ (w.rotates op = true ↔ ∀ l, lives.present = some l →
              (∃ s, size = some s ∧ 0 < maxBytes ∧ maxBytes < l.counted + s)
                ∨ 0 < maxDuration ∧ l.opened + maxDuration < w.clock.elapsed))
    ∧ (∀ op, (w.step op).2.receiver.names
        = if w.rotates op && w.receiver.writer.all fun f => (f.close w.disk).result.isOk then
            (w.receiver.names.next w.clock).2
          else w.receiver.names)
    ∧ (∀ op path handle, w.rotates op = true →
        (∀ f, w.receiver.writer = some f → (f.close w.disk).result = .ok ()) →
        (w.receiver.names.next w.clock).1 = .ok path →
        ((w.receiver.closedDisk w.disk).create path).1 = .ok handle →
          ∃ f, (w.step op).2.receiver.writer = some f ∧ f.path = path
            ∧ f.IsOpen (w.step op).2.disk ∧ f.entries = op.entries ∧ f.pages = op.pages)
    ∧ (0 < maxBytes → ∀ l ∈ lives.all, l.counted ≤ maxBytes
        ∧ ∀ r rest, l.records = r :: rest → l.size ≤ maxBytes + r.size)
    ∧ (0 < maxDuration → ∀ l ∈ lives.all, ∀ m ∈ l.later, m.1 ≤ l.opened + maxDuration) := by
  intro w₀ w lives
  have hopen : w₀.IsOpen := isOpen_fresh c names maxBytes maxDuration lastRoll d
  have hcounts : w.Counts lives.present := hopen.counts_after rfl ops
  have hkeeps : ∀ l ∈ lives.all, l.Keeps maxBytes maxDuration := hopen.keeps_run rfl ops
  have hlimits : w.receiver.maxBytes = maxBytes ∧ w.receiver.maxDuration = maxDuration :=
    hopen.limits_after ops
  refine ⟨⟨hopen.fills_run rfl ops, hcounts.present⟩, ?_, ?_, ?_, ?_, ?_⟩
  · intro hclosed op size hp
    have hrotates : w.rotates op = w.receiver.isDue w.clock size := by
      rw [rotates, hp, Option.any_some]
    refine ⟨by rw [prepare_eq, hclosed, hrotates]; rfl, ?_⟩
    cases hlife : lives.present with
    | none =>
      have hnone : w.receiver.writer = none := by
        have hpresent := hcounts.present
        rw [hlife] at hpresent
        simpa using hpresent.symm
      refine iff_of_true (rotates_of_none hclosed hnone (by rw [hp]; rfl)) fun l hl => ?_
      exact absurd hl (Option.some_ne_none l).symm
    | some l =>
      obtain ⟨f, hf⟩ := Option.isSome_iff_exists.mp
        (show w.receiver.writer.isSome = true by rw [← hcounts.present, hlife]; rfl)
      rw [rotates_of_present hclosed hf hp, hlimits.1, hlimits.2, ← hcounts.opened hlife]
      -- The number that was kept is what is counted of the life, if it is asked for.
      have hcounted : ∀ s, (0 < maxBytes ∧ maxBytes < w.receiver.counted + s)
          ↔ (0 < maxBytes ∧ maxBytes < l.counted + s) := fun s =>
        and_congr_right fun hpos => by rw [hcounts.counted (by rw [hlimits.1]; exact hpos) hlife]
      simp only [hcounted, Option.some.injEq, forall_eq']
  · intro op
    exact ((hopen.after ops).steady_step op).names
  · intro op path handle hrotates hclose hname hcreate
    exact (hopen.after ops).turned hrotates hclose hname hcreate
  · intro hpos l hl
    exact ⟨(hkeeps l hl).size hpos, fun r rest hrecords => (hkeeps l hl).size_le hpos hrecords⟩
  · intro hpos l hl
    exact (hkeeps l hl).age hpos

/-- A file that has become too old: the next entry goes on to a second file, and is what that
has. -/
theorem rotates_by_size_or_age_second_file :
    let w := (fresh ⟨0, 0⟩ (.listed [.ok "a.har", .ok "b.har"]) 0 1 0 {}).after
      [.entry {}, .advance 2]
    let op : Operation := .entry { comment := some "next" }
    w.rotates op = true ∧ ∃ f, (w.step op).2.receiver.writer = some f ∧ f.path = "b.har"
      ∧ f.IsOpen (w.step op).2.disk ∧ f.entries = [{ comment := some "next" }] := by
  intro w op
  have hrotates : w.rotates op = true := by decide +kernel
  have hclose : ∀ f, w.receiver.writer = some f → (f.close w.disk).result = .ok () :=
    allClose_iff.mp (by decide +kernel)
  have hcreate : ((w.receiver.closedDisk w.disk).create "b.har").1 = .ok (.file 1) := by rfl
  obtain ⟨f, hf, hpath, hopen, hentries, -⟩ := (rotates_by_size_or_age ⟨0, 0⟩
    (.listed [.ok "a.har", .ok "b.har"]) 0 1 0 {} [.entry {}, .advance 2]).2.2.2.1
    op "b.har" (.file 1) hrotates hclose rfl hcreate
  exact ⟨hrotates, f, hf, hpath, hopen, hentries⟩

end World

end ExchangeArchive.Receiver.Checkpoint
