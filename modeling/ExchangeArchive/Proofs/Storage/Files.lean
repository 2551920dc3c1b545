import ExchangeArchive.Storage.Disk
/-
What writing one file does to the others: nothing.

A path leads to a name, a name to a number, and the content hangs on the number. Where a
path leads depends on the directories alone (`layout`), and no file operation touches those. On a
`Sound` disk different names have different numbers, so paths that do not lead to the same
name have nothing in common; everything about the content of a file is then said through
its path (`read?`), and the numbers stay in here.

An open file is `OpenAt` a path as long as its number is the one behind that path. Writing
through it changes what is read there, and only there, whatever an outage does to the
writing. What operations come to depends on the names alone as long as there is no outage
(`forget`).
-/

set_option autoImplicit false

namespace ExchangeArchive.Storage.Disk

variable {d d' : Disk} {p q : String}

/-! ## Reading -/

/-- The name that a path leads to, whether or not there is a file. -/
def name? (d : Disk) (path : String) : Option (List String) := (d.resolve path).toOption

/-- The working directory and the directories that were made. -/
def layout (d : Disk) : List String × List (List String) := (d.here, d.directories)

/-- The content of the file that a path leads to. There is none behind a device, or behind a path
that does not lead to a name. -/
def read? (d : Disk) (path : String) : Option String :=
  (d.name? path).bind fun name => (d.files.lookup name).map d.content

/-- Two paths are paths of one file: they lead to the same name. -/
def SameFile (d : Disk) (p q : String) : Prop :=
  ∃ name, d.name? p = some name ∧ d.name? q = some name

/-- The numbers of files are in order: they have been given out, each to one name. -/
structure Sound (d : Disk) : Prop where
  given : ∀ {name n}, d.files.lookup name = some n → n < d.created
  apart : ∀ {a b n}, d.files.lookup a = some n → d.files.lookup b = some n → a = b

/-- An empty disk is sound, whatever outages are planned. -/
theorem sound_empty (outages : Nat → Option Outage) : Sound { outages := outages } :=
  ⟨(fun h => by cases h), fun h => by cases h⟩

/-- An open file is the one that a path leads to. A device is not behind any path that
leads to a name. -/
def OpenAt (d : Disk) (h : Handle) (path : String) : Prop :=
  ∀ n, h = .file n → ∃ name, d.name? path = some name ∧ d.files.lookup name = some n

/-! ## Where paths lead -/

theorem isDirectory_congr (h : d.layout = d'.layout) (name : List String) :
    d.isDirectory name = d'.isDirectory name := by
  obtain ⟨hhere, hdirectories⟩ := Prod.mk.inj h
  rw [isDirectory, isDirectory, hhere, hdirectories]

/-- Which names can be followed down depends on the directories alone, not on the files in them. -/
theorem follow_congr (h : d.layout = d'.layout) (directory names : List String) :
    (d.follow directory names).toOption = (d'.follow directory names).toOption := by
  induction names generalizing directory with
  | nil => rfl
  | cons n rest ih =>
    rw [follow, follow]
    by_cases hlong : nameLimit < n.utf8ByteSize
    · rw [if_pos hlong, if_pos hlong]
    · rw [if_neg hlong, if_neg hlong]
      dsimp only
      -- Both try the same next name, and ask only whether it is a directory.
      rw [isDirectory_congr h]
      by_cases hin : d'.isDirectory (stepTo directory n) = true
      · rw [if_pos hin, if_pos hin]
        exact ih (stepTo directory n)
      · -- Neither goes on; they differ at most in the fault.
        rw [if_neg hin, if_neg hin]
        split <;> split <;> rfl

/-- Where a path leads depends on the directories alone. -/
theorem name?_congr (h : d.layout = d'.layout) (path : String) :
    d.name? path = d'.name? path := by
  have hstart : d.startOf path = d'.startOf path := by
    rw [startOf, startOf, (Prod.mk.inj h).1]
  have hfollow := follow_congr h (d'.startOf path) (Path.names path).dropLast
  rw [name?, name?, resolve, resolve, hstart]
  split
  · rfl
  split
  · rfl
  dsimp only
  cases (Path.names path).getLast? with
  | none => rfl
  | some last =>
    dsimp only
    -- Either both come to the same directory, or neither comes to one.
    cases hd : d.follow (d'.startOf path) (Path.names path).dropLast with
    | error f =>
      cases hd' : d'.follow (d'.startOf path) (Path.names path).dropLast with
      | error f' => rfl
      | ok directory => rw [hd, hd'] at hfollow; cases hfollow
    | ok directory =>
      cases hd' : d'.follow (d'.startOf path) (Path.names path).dropLast with
      | error f' => rw [hd, hd'] at hfollow; cases hfollow
      | ok directory' =>
        rw [hd, hd'] at hfollow
        obtain rfl : directory = directory' := Option.some.inj hfollow
        simp only [isDirectory_congr h]

theorem name?_of_layout {name : List String} (hname : d.name? p = some name)
    (h : d'.layout = d.layout) : d'.name? p = some name :=
  (name?_congr h p).trans hname

theorem sameFile_congr (h : d.layout = d'.layout) :
    d.SameFile p q ↔ d'.SameFile p q := by
  rw [SameFile, SameFile, name?_congr h, name?_congr h]

theorem SameFile.symm (h : d.SameFile p q) : d.SameFile q p := by
  obtain ⟨name, hp, hq⟩ := h
  exact ⟨name, hq, hp⟩

/-! ## Contents -/

theorem content_setContent (d : Disk) (n m : Nat) (text : String) :
    (d.setContent n text).content m = if m = n then text else d.content m := by
  -- What is filtered out for one number is not missed by another.
  have hfilter : ∀ cs : List (Nat × String), m ≠ n →
      (cs.filter fun c => c.1 != n).lookup m = cs.lookup m := by
    intro cs hmn
    induction cs with
    | nil => rfl
    | cons c cs ih =>
      by_cases hc : c.1 = n
      · have hmc : (m == c.1) = false := by simpa [hc] using hmn
        rw [List.filter_cons_of_neg (by simp [hc]), ih, List.lookup_cons, hmc]
      · rw [List.filter_cons_of_pos (by simpa using hc), List.lookup_cons, List.lookup_cons, ih]
  rw [content, setContent, List.lookup_cons]
  by_cases hmn : m = n
  · simp [hmn]
  · have hbeq : (m == n) = false := by simpa using hmn
    rw [hbeq, if_neg hmn, hfilter d.contents hmn]
    rfl

/-- A change of a disk that leaves alone what is read elsewhere than at these paths. Paths of one
file count as the same place, so it is told by the files that they lead to. -/
structure Touches (d d' : Disk) (paths : List String) : Prop where
  layout : d'.layout = d.layout
  sound : d.Sound → d'.Sound
  elsewhere : d.Sound → ∀ q, (∀ p ∈ paths, ¬d.SameFile p q) → d'.read? q = d.read? q

theorem Touches.refl (d : Disk) (paths : List String) : Touches d d paths :=
  ⟨rfl, id, fun _ _ _ => rfl⟩

theorem Touches.mono {paths more : List String} (h : Touches d d' paths) (hsub : paths ⊆ more) :
    Touches d d' more :=
  ⟨h.layout, h.sound, fun hd q hq => h.elsewhere hd q fun p hp => hq p (hsub hp)⟩

theorem Touches.trans {d'' : Disk} {paths more : List String} (h : Touches d d' paths)
    (h' : Touches d' d'' more) : Touches d d'' (paths ++ more) := by
  refine ⟨h'.layout.trans h.layout, fun hd => h'.sound (h.sound hd),
    fun hd q hq => ?_⟩
  rw [h'.elsewhere (h.sound hd) q fun p hp => ?_,
    h.elsewhere hd q fun p hp => hq p (List.mem_append_left more hp)]
  rw [sameFile_congr h.layout]
  exact hq p (List.mem_append_right paths hp)

/-- A change in the books of a disk alone, such as the count of its operations, touches nothing. -/
theorem touches_of_same (paths : List String) (hlayout : d'.layout = d.layout)
    (hfiles : d'.files = d.files) (hcontents : d'.contents = d.contents)
    (hcreated : d'.created = d.created) : Touches d d' paths := by
  refine ⟨hlayout, fun hd => ⟨?_, ?_⟩, fun _ q _ => ?_⟩
  · rw [hfiles, hcreated]
    exact hd.given
  · rw [hfiles]
    exact hd.apart
  · have hcontent : d'.content = d.content := by
      funext n
      rw [content, content, hcontents]
    rw [read?, read?, name?_congr hlayout, hfiles, hcontent]

/-- Setting the content behind a path touches that path only. -/
theorem touches_setContent {name : List String} {n : Nat} (text : String)
    (hname : d.name? p = some name) (hn : d.files.lookup name = some n) :
    Touches d (d.setContent n text) [p] := by
  refine ⟨rfl, fun hd => ⟨hd.given, hd.apart⟩, fun hd q hq => ?_⟩
  have hlayout : (d.setContent n text).layout = d.layout := rfl
  rw [read?, read?, name?_congr hlayout]
  cases hother : d.name? q with
  | none => rfl
  | some other =>
    -- Different names have different numbers, as the disk is sound.
    have hne : other ≠ name := by
      rintro rfl
      exact hq p (List.mem_singleton_self p) ⟨other, hname, hother⟩
    show (d.files.lookup other).map (d.setContent n text).content
      = (d.files.lookup other).map d.content
    cases hm : d.files.lookup other with
    | none => rfl
    | some m =>
      have hmn : m ≠ n := by
        rintro rfl
        exact hne (hd.apart hm hn)
      simp [content_setContent, hmn]

/-- The disk with a new file, empty. Its number is one that was not given out before. -/
def addFile (d : Disk) (name : List String) : Disk :=
  { d.setContent d.created "" with
    files := (name, d.created) :: d.files
    created := d.created + 1 }

theorem lookup_addFile (d : Disk) (name other : List String) :
    (d.addFile name).files.lookup other
      = if other = name then some d.created else d.files.lookup other := by
  show ((name, d.created) :: d.files).lookup other = _
  rw [List.lookup_cons]
  by_cases h : other = name
  · simp [h]
  · have hbeq : (other == name) = false := by simpa using h
    rw [hbeq, if_neg h]

/-- A new file behind a path touches that path only. -/
theorem touches_addFile {name : List String} (hname : d.name? p = some name)
    (hnone : d.files.lookup name = none) : Touches d (d.addFile name) [p] := by
  refine ⟨rfl, fun hd => ⟨?_, ?_⟩, fun hd q hq => ?_⟩
  · intro other n h
    rw [lookup_addFile] at h
    show n < d.created + 1
    split at h
    · cases h
      exact Nat.lt_succ_self d.created
    · exact Nat.lt_succ_of_lt (hd.given h)
  · -- The new number has not been given out before.
    intro a b n ha hb
    have hnew : ∀ c, d.files.lookup c ≠ some d.created := fun c hc =>
      Nat.lt_irrefl d.created (hd.given hc)
    rw [lookup_addFile] at ha hb
    split at ha
    · split at hb
      · rw [‹a = name›, ‹b = name›]
      · cases ha
        exact absurd hb (hnew b)
    · split at hb
      · cases hb
        exact absurd ha (hnew a)
      · exact hd.apart ha hb
  · have hlayout : (d.addFile name).layout = d.layout := rfl
    rw [read?, read?, name?_congr hlayout]
    cases hother : d.name? q with
    | none => rfl
    | some other =>
      have hne : other ≠ name := by
        rintro rfl
        exact hq p (List.mem_singleton_self p) ⟨other, hname, hother⟩
      show ((d.addFile name).files.lookup other).map (d.setContent d.created "").content
        = (d.files.lookup other).map d.content
      rw [lookup_addFile, if_neg hne]
      cases hm : d.files.lookup other with
      | none => rfl
      | some m =>
        have hmn : m ≠ d.created := Nat.ne_of_lt (hd.given hm)
        simp [content_setContent, hmn]

/-! ## Operations -/

/-- What opening a file can come to: it fails; a device is just opened; a file that is
there is emptied; a file that is not there is made. -/
theorem create_cases (d : Disk) (p : String) :
    (∃ fault, d.create p = (.error fault, d.outage.2)) ∨
      d.create p = (.ok .device, d.outage.2) ∨
      (∃ name n, d.name? p = some name ∧ d.files.lookup name = some n ∧
        d.create p = (.ok (.file n), d.outage.2.setContent n "")) ∨
      ∃ name, d.name? p = some name ∧ d.files.lookup name = none ∧
        d.create p = (.ok (.file d.created), d.outage.2.addFile name) := by
  have hname : d.name? p = (d.outage.2.resolve p).toOption :=
    @name?_congr d d.outage.2 rfl p
  rw [hname]
  -- Noting the operation changes neither the names nor the numbers.
  have hfiles : d.outage.2.files = d.files := rfl
  have hcreated : d.outage.2.created = d.created := rfl
  rw [create, ← hfiles, ← hcreated]
  rcases d.outage with ⟨o, d'⟩
  cases o with
  | some o => exact .inl ⟨o.fault, rfl⟩
  | none =>
    dsimp only
    by_cases hnul : p.toList.contains '\x00' = true
    · rw [if_pos hnul]
      exact .inl ⟨_, rfl⟩
    rw [if_neg hnul]
    cases d'.resolve p with
    | error f => exact .inl ⟨_, rfl⟩
    | ok name =>
      dsimp only
      by_cases hdevice : devices.contains name = true
      · rw [if_pos hdevice]
        exact .inr (.inl rfl)
      rw [if_neg hdevice]
      cases hl : d'.files.lookup name with
      | some n => exact .inr (.inr (.inl ⟨name, n, rfl, hl, rfl⟩))
      | none => exact .inr (.inr (.inr ⟨name, rfl, hl, rfl⟩))

/-- Noting an operation touches nothing, and every operation is noted, also one that fails. -/
theorem touches_outage (d : Disk) (paths : List String) : Touches d d.outage.2 paths :=
  touches_of_same paths rfl rfl rfl rfl

/-- Opening a file touches its path only, and nothing if it fails. If the file was there it loses
its content, which is why names that were used before are to be avoided. -/
theorem touches_create (d : Disk) (p : String) : Touches d (d.create p).2 [p] := by
  rcases create_cases d p with ⟨fault, h⟩ | h | ⟨name, n, hname, hn, h⟩ | ⟨name, hname, hnone, h⟩
  · rw [h]
    exact touches_outage d [p]
  · rw [h]
    exact touches_outage d [p]
  · rw [h]
    exact (touches_outage d []).trans (touches_setContent "" (name?_of_layout hname rfl) hn)
  · rw [h]
    exact (touches_outage d []).trans (touches_addFile (name?_of_layout hname rfl) hnone)

/-- A file that has been opened is the one behind its path: what is written by its handle is read
at the path. -/
theorem openAt_create {h : Handle} (hok : (d.create p).1 = .ok h) : (d.create p).2.OpenAt h p := by
  intro m hm
  subst hm
  rcases create_cases d p with ⟨fault, h⟩ | h | ⟨name, n, hname, hn, h⟩ | ⟨name, hname, hnone, h⟩
  · rw [h] at hok
    cases hok
  · rw [h] at hok
    cases hok
  · rw [h] at hok ⊢
    cases hok
    exact ⟨name, name?_of_layout hname rfl, hn⟩
  · rw [h] at hok ⊢
    cases hok
    refine ⟨name, name?_of_layout hname rfl, ?_⟩
    rw [lookup_addFile, if_pos rfl]
    rfl

/-- An open file stays the one behind its path as long as no names change. -/
theorem OpenAt.of_files {h : Handle} (hopen : d.OpenAt h p)
    (hlayout : d'.layout = d.layout) (hfiles : d'.files = d.files) :
    d'.OpenAt h p := by
  intro n hn
  obtain ⟨name, hname, hlookup⟩ := hopen n hn
  exact ⟨name, name?_of_layout hname hlayout, by rw [hfiles]; exact hlookup⟩

/-- If opening a file fails, a file that is open stays so, since no name was given or taken. -/
theorem openAt_create_of_error {h : Handle} {fault : IoFault} (hopen : d.OpenAt h p)
    (herror : (d.create q).1 = .error fault) : (d.create q).2.OpenAt h p := by
  rcases create_cases d q with ⟨_, hc⟩ | hc | ⟨_, _, -, -, hc⟩ | ⟨_, -, -, hc⟩
  · rw [hc]
    exact hopen.of_files rfl rfl
  all_goals
    rw [hc] at herror
    cases herror

/-- What writing an open file can come to: only the content behind its number changes. -/
theorem replaceContent_cases (d : Disk) (h : Handle) (text : String) :
    (∃ n, h = .file n ∧ d.replaceContent h text = (.ok (), d.outage.2.setContent n text)) ∨
      (∃ n o left, h = .file n ∧
        d.replaceContent h text = (.error o, d.outage.2.setContent n left)) ∨
      ∃ o, d.replaceContent h text = (.error o, d.outage.2) := by
  unfold replaceContent
  -- A device takes nothing; a file takes all, nothing, or a part before an outage.
  rcases d.outage with ⟨o, d'⟩
  cases h with
  | device =>
    refine .inr (.inr ?_)
    cases o <;> exact ⟨_, rfl⟩
  | file n =>
    rcases o with _ | ⟨fault, _ | k⟩
    · exact .inl ⟨n, rfl, rfl⟩
    · exact .inr (.inr ⟨_, rfl⟩)
    · exact .inr (.inl ⟨n, _, _, rfl, rfl⟩)

/-- Writing an open file touches its path only, whatever happens. -/
theorem touches_replaceContent {h : Handle} (hopen : d.OpenAt h p) (text : String) :
    Touches d (d.replaceContent h text).2 [p] := by
  have hset : ∀ n left, h = .file n → Touches d (d.outage.2.setContent n left) [p] := by
    intro n left hn
    obtain ⟨name, hname, hlookup⟩ := hopen n hn
    exact (touches_outage d []).trans
      (touches_setContent left (name?_of_layout hname rfl) hlookup)
  rcases replaceContent_cases d h text with ⟨n, hn, h⟩ | ⟨n, o, left, hn, h⟩ | ⟨o, h⟩
  · rw [h]
    exact hset n text hn
  · rw [h]
    exact hset n left hn
  · rw [h]
    exact touches_outage d [p]

/-- An open file stays open while it is written, since writing changes a content and no names. -/
theorem openAt_replaceContent {h : Handle} (hopen : d.OpenAt h p) (text : String) :
    (d.replaceContent h text).2.OpenAt h p := by
  rcases replaceContent_cases d h text with ⟨n, -, h⟩ | ⟨n, o, left, -, h⟩ | ⟨o, h⟩ <;>
    rw [h] <;> exact hopen.of_files rfl rfl

/-- What is written to an open file can be read at its path. -/
theorem read?_replaceContent {h : Handle} {text : String} (hopen : d.OpenAt h p)
    (hok : (d.replaceContent h text).1 = .ok ()) :
    (d.replaceContent h text).2.read? p = some text := by
  rcases replaceContent_cases d h text with ⟨n, hn, h⟩ | ⟨n, o, left, -, h⟩ | ⟨o, h⟩
  · obtain ⟨name, hname, hlookup⟩ := hopen n hn
    have hname' : (d.outage.2.setContent n text).name? p = some name :=
      name?_of_layout hname rfl
    have hlookup' : (d.outage.2.setContent n text).files.lookup name = some n := hlookup
    rw [h, read?, hname', Option.bind_some, hlookup', Option.map_some, content_setContent,
      if_pos rfl]
  · rw [h] at hok
    cases hok
  · rw [h] at hok
    cases hok

/-! ## What the contents have no part in -/

/-- The disk without the contents of its files, and without the count of its operations. What is
left decides how opening and writing go, as long as no outage is planned. -/
def forget (d : Disk) : Disk := { d with contents := [], operations := 0 }

theorem follow_forget (d : Disk) (directory names : List String) :
    d.forget.follow directory names = d.follow directory names := by
  induction names generalizing directory with
  | nil => rfl
  | cons n rest ih =>
    rw [follow, follow]
    dsimp only
    rw [ih]
    rfl

theorem resolve_forget (d : Disk) (path : String) : d.forget.resolve path = d.resolve path := by
  rw [resolve, resolve]
  dsimp only
  rw [follow_forget]
  rfl

/-- No outage is planned. Operations may still fail, but for reasons that lie in the names or in a
device. -/
def IsCalm (d : Disk) : Prop := ∀ n, d.outages n = none

theorem outage_of_calm (h : d.IsCalm) : d.outage = (none, d.outage.2) := by
  rw [outage, h]

/-- On a calm disk the contents have no part in what opening a file comes to. -/
theorem create_forget (h : d.IsCalm) (p : String) :
    (d.forget.create p).1 = (d.create p).1
      ∧ (d.forget.create p).2.forget = (d.create p).2.forget ∧ (d.create p).2.IsCalm := by
  have h' : d.forget.IsCalm := h
  rw [create, create, outage_of_calm h, outage_of_calm h']
  dsimp only
  split
  · exact ⟨rfl, rfl, h⟩
  have hresolve : d.forget.outage.2.resolve p = d.outage.2.resolve p :=
    (resolve_forget d.forget.outage.2 p).symm.trans (resolve_forget d.outage.2 p)
  rw [hresolve]
  cases d.outage.2.resolve p with
  | error f => exact ⟨rfl, rfl, h⟩
  | ok name =>
    have hfiles : d.forget.outage.2.files = d.outage.2.files := rfl
    dsimp only
    rw [hfiles]
    split
    · exact ⟨rfl, rfl, h⟩
    cases d.outage.2.files.lookup name with
    | none => exact ⟨rfl, rfl, h⟩
    | some n => exact ⟨rfl, rfl, h⟩

/-- Neither have they in what writing comes to, and nothing but them is written. -/
theorem replaceContent_forget (h : d.IsCalm) (handle : Handle) (text : String) :
    (d.forget.replaceContent handle text).1 = (d.replaceContent handle text).1
      ∧ (d.replaceContent handle text).2.forget = d.forget
      ∧ (d.replaceContent handle text).2.IsCalm := by
  have h' : d.forget.IsCalm := h
  unfold replaceContent
  rw [outage_of_calm h, outage_of_calm h']
  cases handle with
  | device => exact ⟨rfl, rfl, h⟩
  | file n => exact ⟨rfl, rfl, h⟩

end ExchangeArchive.Storage.Disk
