import ExchangeArchive.Archive.Codec
import ExchangeArchive.Proofs.Document.Faithful
/-
Every record of an archive comes back from its JSON text.

The shapes of the records are lawful: no two members of a record have one name, every field is
written from and read into its own place, and nothing of a record lies outside its fields. So
a record comes back if its parts do, from the smallest records up to the archive. What is
asked of a record is that its numbers can be written at all: that its doubles are finite and
its integers have the widths that the format gives them.
-/

set_option autoImplicit false

namespace ExchangeArchive.Archive

open ExchangeArchive.Decimal ExchangeArchive.Document ExchangeArchive.Text

/-! ## The shapes -/

section Shapes

attribute [ext] NamedValue Agent PageTimings Page Cookie PostData Content Request Response Cache
  Timings Entry Log HttpArchive Version

-- With these unfolded, each law compares the names and the places of finitely many fields.
attribute [local simp] Field.required Field.withDefault Field.maybe Field.OmitsAbsent

theorem NamedValue.lawful (name : String) : (shape name).Lawful := by
  constructor <;> simp +contextual [shape, NamedValue.ext_iff]

theorem Agent.lawful : shape.Lawful := by
  constructor <;> simp +contextual [shape, Agent.ext_iff]

theorem PageTimings.lawful : shape.Lawful := by
  constructor <;> simp +contextual [shape, PageTimings.ext_iff]

theorem Page.lawful : shape.Lawful := by
  constructor <;> simp +contextual [shape, Page.ext_iff]

theorem Cookie.lawful : shape.Lawful := by
  constructor <;> simp +contextual [shape, Cookie.ext_iff]

theorem PostData.lawful : shape.Lawful := by
  constructor <;> simp +contextual [shape, PostData.ext_iff]

theorem Content.lawful : shape.Lawful := by
  constructor <;> simp +contextual [shape, Content.ext_iff]

theorem Request.lawful : shape.Lawful := by
  constructor <;> simp +contextual [shape, Request.ext_iff]

theorem Response.lawful : shape.Lawful := by
  constructor <;> simp +contextual [shape, Response.ext_iff]

theorem Cache.lawful : shape.Lawful := by
  constructor <;> simp +contextual [shape, Cache.ext_iff]

theorem Timings.lawful : shape.Lawful := by
  constructor <;> simp +contextual [shape, Timings.ext_iff]

theorem Entry.lawful : shape.Lawful := by
  constructor <;> simp +contextual [shape, Entry.ext_iff]

theorem Log.lawful : shape.Lawful := by
  constructor <;> simp +contextual [shape, Log.ext_iff]

theorem HttpArchive.lawful : shape.Lawful := by
  constructor <;> simp +contextual [shape, HttpArchive.ext_iff]

theorem Version.lawful : shape.Lawful := by
  constructor <;> simp +contextual [shape, Version.ext_iff]

end Shapes

/-! ## What can be written -/

/-- An integer of 64 bits with a sign. The sizes of an archive are such integers, as they may be
unknown and are then `-1`. -/
def IsWord (i : Int) : Prop := -2 ^ 63 ≤ i ∧ i < 2 ^ 63

structure PageTimings.Sound (t : PageTimings) : Prop where
  onContentLoaded : isFinite t.onContentLoaded = true
  onLoad : isFinite t.onLoad = true

structure Content.Sound (c : Content) : Prop where
  size : IsWord c.size
  compression : ∀ i ∈ c.compression, IsWord i

structure Request.Sound (r : Request) : Prop where
  headersSize : IsWord r.headersSize
  bodySize : IsWord r.bodySize

structure Response.Sound (r : Response) : Prop where
  status : r.status < 2 ^ 16
  content : r.content.Sound
  headersSize : IsWord r.headersSize
  bodySize : IsWord r.bodySize

structure Timings.Sound (t : Timings) : Prop where
  blocked : isFinite t.blocked = true
  dns : isFinite t.dns = true
  connect : isFinite t.connect = true
  send : isFinite t.send = true
  wait : isFinite t.wait = true
  receive : isFinite t.receive = true
  ssl : isFinite t.ssl = true

structure Entry.Sound (e : Entry) : Prop where
  time : isFinite e.time = true
  request : e.request.Sound
  response : e.response.Sound
  timings : e.timings.Sound

structure Log.Sound (l : Log) : Prop where
  pages : ∀ p ∈ l.pages, p.pageTimings.Sound
  entries : ∀ e ∈ l.entries, e.Sound

/-! ## The records -/

theorem NamedValue.returns (name : String) (x : NamedValue) : (shape name).codec.Returns x :=
  (lawful name).returns (by simp [shape])

theorem Agent.returns (x : Agent) : codec.Returns x := lawful.returns (by simp [shape])

theorem PageTimings.returns {x : PageTimings} (h : x.Sound) : codec.Returns x :=
  lawful.returns (by simp [shape, double_returns h.onContentLoaded, double_returns h.onLoad])

theorem Page.returns {x : Page} (h : x.pageTimings.Sound) : codec.Returns x :=
  lawful.returns (by simp [shape, PageTimings.returns h])

theorem Cookie.returns (x : Cookie) : codec.Returns x := lawful.returns (by simp [shape])

theorem PostData.returns (x : PostData) : codec.Returns x := lawful.returns (by simp [shape])

theorem Content.returns {x : Content} (h : x.Sound) : codec.Returns x := by
  have hcompression : ∀ i ∈ x.compression, int64.Returns i :=
    fun i hi => int64_returns (h.compression i hi)
  exact lawful.returns (by simp [shape, int64_returns h.size, Field.maybe_returned hcompression])

theorem cookies_returns (xs : List Cookie) : (list Cookie.codec).Returns xs :=
  list_returns fun x _ => Cookie.returns x

theorem headers_returns (xs : List NamedValue) : (list header).Returns xs :=
  list_returns fun x _ => NamedValue.returns _ x

theorem queryString_returns (xs : List NamedValue) : (list queryParameter).Returns xs :=
  list_returns fun x _ => NamedValue.returns _ x

theorem Request.returns {x : Request} (h : x.Sound) : codec.Returns x :=
  lawful.returns (by
    simp [shape, cookies_returns, headers_returns, queryString_returns, PostData.returns,
      int64_returns h.headersSize, int64_returns h.bodySize])

theorem Response.returns {x : Response} (h : x.Sound) : codec.Returns x :=
  lawful.returns (by
    simp [shape, cookies_returns, headers_returns, nat16_returns h.status,
      Content.returns h.content, int64_returns h.headersSize, int64_returns h.bodySize])

theorem Cache.returns (x : Cache) : codec.Returns x := lawful.returns (by simp [shape])

theorem Timings.returns {x : Timings} (h : x.Sound) : codec.Returns x :=
  lawful.returns (by
    simp [shape, double_returns h.blocked, double_returns h.dns, double_returns h.connect,
      double_returns h.send, double_returns h.wait, double_returns h.receive,
      double_returns h.ssl])

theorem Entry.returns {x : Entry} (h : x.Sound) : codec.Returns x :=
  lawful.returns (by
    simp [shape, double_returns h.time, Request.returns h.request, Response.returns h.response,
      Cache.returns, Timings.returns h.timings])

theorem Log.returns {x : Log} (h : x.Sound) : codec.Returns x := by
  have hpages : (list Page.codec).Returns x.pages :=
    list_returns fun p hp => Page.returns (h.pages p hp)
  have hentries : (list Entry.codec).Returns x.entries :=
    list_returns fun e he => Entry.returns (h.entries e he)
  exact lawful.returns (by simp [shape, Agent.returns, hpages, hentries])

theorem HttpArchive.returns {x : HttpArchive} (h : x.log.Sound) : codec.Returns x :=
  lawful.returns (by simp [shape, Log.returns h])

theorem Version.returns (x : Version) : codec.Returns x := lawful.returns (by simp [shape])

/-! ## Any record -/

/-- The kinds of records that documents are made of. A request and a response are read and written
on their own too, and so is each of the others. -/
inductive RecordKind where
  | archive
  | log
  | agent
  | page
  | pageTimings
  | entry
  | request
  | response
  | cookie
  | header
  | queryParameter
  | postData
  | content
  | cache
  | timings
  | version

namespace RecordKind

/-- The records of a kind. -/
def Record : RecordKind → Type
  | archive => HttpArchive
  | log => Log
  | agent => Agent
  | page => Page
  | pageTimings => PageTimings
  | entry => Entry
  | request => Request
  | response => Response
  | cookie => Cookie
  | header => NamedValue
  | queryParameter => NamedValue
  | postData => PostData
  | content => Content
  | cache => Cache
  | timings => Timings
  | version => Version

/-- How the records of a kind are written and read. -/
def codec : (k : RecordKind) → Codec k.Record
  | archive => HttpArchive.codec
  | log => Log.codec
  | agent => Agent.codec
  | page => Page.codec
  | pageTimings => PageTimings.codec
  | entry => Entry.codec
  | request => Request.codec
  | response => Response.codec
  | cookie => Cookie.codec
  | header => Archive.header
  | queryParameter => Archive.queryParameter
  | postData => PostData.codec
  | content => Content.codec
  | cache => Cache.codec
  | timings => Timings.codec
  | version => Version.codec

/-- The records of a kind whose doubles are finite and whose integers have the widths that
the format gives them. -/
def Sound : (k : RecordKind) → k.Record → Prop
  | archive, x => Log.Sound (HttpArchive.log x)
  | log, x => Log.Sound x
  | page, x => PageTimings.Sound (Page.pageTimings x)
  | pageTimings, x => PageTimings.Sound x
  | entry, x => Entry.Sound x
  | request, x => Request.Sound x
  | response, x => Response.Sound x
  | content, x => Content.Sound x
  | timings, x => Timings.Sound x
  | agent, _ | cookie, _ | header, _ | queryParameter, _ | postData, _ | cache, _ | version, _ =>
    True

theorem returns (k : RecordKind) {x : k.Record} (h : k.Sound x) : k.codec.Returns x := by
  cases k with
  | archive => exact HttpArchive.returns h
  | log => exact Log.returns h
  | agent => exact Agent.returns x
  | page => exact Page.returns h
  | pageTimings => exact PageTimings.returns h
  | entry => exact Entry.returns h
  | request => exact Request.returns h
  | response => exact Response.returns h
  | cookie => exact Cookie.returns x
  | header => exact NamedValue.returns _ x
  | queryParameter => exact NamedValue.returns _ x
  | postData => exact PostData.returns x
  | content => exact Content.returns h
  | cache => exact Cache.returns x
  | timings => exact Timings.returns h
  | version => exact Version.returns x

/-- **A record of any kind is read from its compact JSON text.** The text is what the codec makes of
the record, and what is read is its octets: neither the tree of values between them nor the order
of the members is assumed to be kept, both are part of what is proved. -/
theorem ofJsonText_written (k : RecordKind) (x : k.Record) (h : k.Sound x) :
    k.codec.ofJsonText (Utf8.encode (k.codec.toJsonText x).toList) = .ok x := by
  rw [Codec.ofJsonText_toJsonText k.codec (k.returns h).writable, (k.returns h).read_write]

/-- An entry with marks and a control character in a text, the least and the greatest integer
of 64 bits, and an optional member of each kind. -/
def sampleEntry : Entry where
  time := 12.5
  request := { method := "GET", url := "/\u0001?q=\"\u00e9\"", bodySize := -2 ^ 63 }
  response := { status := 404, error := some "gone", headersSize := 2 ^ 63 - 1 }
  timings := { wait := 0.1, comment := some "" }
  serverIPAddress := some "127.0.0.1"

theorem sound_sampleEntry : sampleEntry.Sound where
  time := by decide +kernel
  request := ⟨by simp [IsWord, sampleEntry], by simp [IsWord, sampleEntry]⟩
  response := ⟨by simp [sampleEntry], ⟨by simp [IsWord, sampleEntry], by simp [sampleEntry]⟩,
    by simp [IsWord, sampleEntry], by simp [IsWord, sampleEntry]⟩
  timings := by constructor <;> decide +kernel

theorem ofJsonText_written_entry :
    Sound .entry sampleEntry ∧
      Entry.codec.ofJsonText (Utf8.encode (Entry.codec.toJsonText sampleEntry).toList)
        = .ok sampleEntry :=
  ⟨sound_sampleEntry, ofJsonText_written .entry sampleEntry sound_sampleEntry⟩

end RecordKind

end ExchangeArchive.Archive
