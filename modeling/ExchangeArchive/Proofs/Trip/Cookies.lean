import ExchangeArchive.Proofs.Text.Trimming
import ExchangeArchive.Proofs.Time.Rfc2822
import ExchangeArchive.Trip.Report
import Mathlib.Data.List.Forall2
/-
**Cookies are recorded as headers say them.**

The value of a Cookie or Set-Cookie header is made of parts with semicolons between them, and a part
is a key, maybe with a value behind an `=`; white space may stand around either. This is said the
way round in which headers are written (`CookiePart.WrittenAs`, `JoinedAs`), and a part is written
in just one such way (`writtenAs_iff`). What is read from it is what it was written from
(`cookiePair?_eq`): trimming the part before it is cut, and its key and value after, takes away no
more than what stands around them.

The cookies of a request are the parts with a value, in order. A response has a cookie for each
Set-Cookie header whose first part has a value; of its attributes the last of each kind counts, so
only the order within a kind matters. The work is in `setAttribute_cookie`: one more attribute does
to the cookie what it does to the last of its kind.
-/

set_option autoImplicit false

namespace ExchangeArchive.Trip

open ExchangeArchive.Archive ExchangeArchive.Http ExchangeArchive.Text ExchangeArchive.Time

/-! ## Parts -/

/-- What stands between two semicolons: a key, and a value if there is an `=`. -/
structure CookiePart where
  key : List Char
  value? : Option (List Char)
  deriving DecidableEq

/-- How a part is written: with any white space around its key and around its value, and without
an `=` in the key. -/
inductive CookiePart.WrittenAs : CookiePart → List Char → Prop where
  | pair {key value k v : List Char} (hkey : Wrapped isBlank key k) (hequals : '=' ∉ key)
    (hvalue : Wrapped isBlank value v) : WrittenAs ⟨key, some value⟩ (k ++ '=' :: v)
  | alone {key k : List Char} (hkey : Wrapped isBlank key k) (hequals : '=' ∉ key) :
    WrittenAs ⟨key, none⟩ k

/-- How the value of a header is written: its parts have no semicolon, and are joined with them. -/
inductive JoinedAs (ps : List CookiePart) : List UInt8 → Prop where
  | intro {value : List UInt8} {written : List (List Char)}
    (hparts : List.Forall₂ CookiePart.WrittenAs ps written)
    (hsemicolon : ∀ w ∈ written, ';' ∉ w)
    (hvalue : value.map charOf = [';'].intercalate written) : JoinedAs ps value

variable {p : CookiePart} {ps : List CookiePart} {part : List Char} {value : List UInt8}

theorem isBlank_equals : isBlank '=' = false := by decide

/-- The part that a text is. -/
def CookiePart.ofText (part : List Char) : CookiePart :=
  match splitFirst? '=' part with
  | some (key, value) => ⟨trim key, some (trim value)⟩
  | none => ⟨trim part, none⟩

/-- **A text is one part**, however it is written: its first `=` is where the value begins, and the
white space around either does not count. -/
theorem writtenAs_iff : p.WrittenAs part ↔ CookiePart.ofText part = p := by
  constructor
  · intro h
    cases h with
    | pair hkey hequals hvalue =>
      have hk := mt (hkey.mem_iff isBlank_equals).mp hequals
      rw [CookiePart.ofText, splitFirst?_append hk, ← trim_eq_iff.mpr hkey,
        ← trim_eq_iff.mpr hvalue]
    | alone hkey hequals =>
      have hk := mt (hkey.mem_iff isBlank_equals).mp hequals
      rw [CookiePart.ofText, splitFirst?_of_not_mem hk, ← trim_eq_iff.mpr hkey]
  · rintro rfl
    by_cases hmem : '=' ∈ part
    · obtain ⟨k, v, rfl, hk⟩ := List.eq_append_cons_of_mem hmem
      have hkey : Wrapped isBlank (trim k) k := trim_eq_iff.mp rfl
      rw [CookiePart.ofText, splitFirst?_append hk]
      exact .pair hkey (mt (hkey.mem_iff isBlank_equals).mpr hk) (trim_eq_iff.mp rfl)
    · have hkey : Wrapped isBlank (trim part) part := trim_eq_iff.mp rfl
      rw [CookiePart.ofText, splitFirst?_of_not_mem hmem]
      exact .alone hkey (mt (hkey.mem_iff isBlank_equals).mpr hmem)

/-- **A part is read as what it is.** It is trimmed before it is split, and both halves again after
that, which comes to the same as trimming each of them once. -/
theorem cookiePair?_eq (part : List Char) :
    cookiePair? part
      = (CookiePart.ofText part).value?.map fun value => ((CookiePart.ofText part).key, value) := by
  -- Trimming takes white space away before the key and behind the value only.
  obtain ⟨before, after, hbefore, hafter, hpart⟩ := exists_trim part
  have hnot : ∀ l : List Char, (∀ c ∈ l, isBlank c = true) → '=' ∉ l := fun l hl hmem => by
    simpa [isBlank_equals] using hl '=' hmem
  rw [cookiePair?]
  by_cases hmem : '=' ∈ trim part
  · obtain ⟨key, value, hcore, hkey⟩ := List.eq_append_cons_of_mem hmem
    have hkey' : '=' ∉ before ++ key := by simp [hnot before hbefore, hkey]
    have hsplit : splitFirst? '=' part = some (before ++ key, value ++ after) := by
      rw [hpart, hcore]
      simpa using splitFirst?_append hkey' (value ++ after)
    have htrimKey : trim (before ++ key) = trim key := by
      simpa using trim_append hbefore (List.forall_mem_nil _) key
    have htrimValue : trim (value ++ after) = trim value := by
      simpa using trim_append (List.forall_mem_nil _) hafter value
    rw [hcore, splitFirst?_append hkey, CookiePart.ofText, hsplit]
    simp [htrimKey, htrimValue]
  · have hnone : '=' ∉ part := by
      rw [hpart]
      simp [hnot before hbefore, hnot after hafter, hmem]
    rw [splitFirst?_of_not_mem hmem, CookiePart.ofText, splitFirst?_of_not_mem hnone]
    rfl

/-- A part has a value if there is an `=` in it. -/
theorem CookiePart.WrittenAs.isSome_value? (h : p.WrittenAs part) :
    p.value?.isSome = true ↔ '=' ∈ part := by
  cases h with
  | pair _ _ _ => simp
  | alone hkey hequals => simpa [hkey.mem_iff isBlank_equals] using hequals

theorem cookiePair?_of_writtenAs (h : p.WrittenAs part) :
    cookiePair? part = p.value?.map fun value => (p.key, value) := by
  rw [cookiePair?_eq, writtenAs_iff.mp h]

theorem attributePair_of_writtenAs (h : p.WrittenAs part) :
    attributePair part = (p.key, p.value?.getD []) := by
  rw [attributePair, cookiePair?_of_writtenAs h]
  cases h with
  | pair _ _ _ => rfl
  | alone hkey _ => rw [trim_eq_iff.mpr hkey]; rfl

/-! ## Values of headers -/

/-- Whether a value of a header is visible ASCII. -/
def isText (value : List UInt8) : Bool := (Headers.text? value).isSome

/-- The texts of a header are its values of visible ASCII; the others are passed over, as no cookie
is looked for in them. -/
theorem headerTexts_eq (h : Headers) (name : String) :
    headerTexts h name = ((h.values name).filter isText).map ofAscii := by
  rw [headerTexts]
  induction h.values name with
  | nil => rfl
  | cons value values ih =>
    by_cases htext : isText value = true
    · have hvalue : Headers.text? value = some (ofAscii value) := by
        rw [isText, Headers.text?] at htext
        rw [Headers.text?]
        split at htext
        · next hvisible => exact if_pos hvisible
        · cases htext
      rw [List.filterMap_cons_some hvalue, List.filter_cons_of_pos htext, ih]
      rfl
    · have hvalue : Headers.text? value = none := by simpa [isText] using htext
      rw [List.filterMap_cons_none hvalue, List.filter_cons_of_neg htext, ih]

theorem cookieParts_eq (value : List UInt8) :
    cookieParts (ofAscii value) = (value.map charOf).splitOn ';' := by
  rw [cookieParts, parts_eq_splitOn]
  exact congrArg (List.splitOn ';') String.toList_ofList

/-- **A value that is joined is cut into its parts**; a value of no parts is one empty part. -/
theorem forall₂_cookieParts (h : JoinedAs ps value) (hne : ps ≠ []) :
    List.Forall₂ CookiePart.WrittenAs ps (cookieParts (ofAscii value)) := by
  obtain ⟨hparts, hsemicolon, hvalue⟩ := h
  rename_i written
  have hwritten : written ≠ [] := by
    rintro rfl
    cases hparts
    exact hne rfl
  rw [cookieParts_eq, hvalue, List.splitOn_intercalate ';' hsemicolon hwritten]
  exact hparts

/-- The parts that a value is joined from. -/
def partsOf (value : List UInt8) : List CookiePart :=
  ((value.map charOf).splitOn ';').map CookiePart.ofText

theorem joinedAs_partsOf (value : List UInt8) : JoinedAs (partsOf value) value := by
  refine .intro (List.forall₂_map_left_iff.mpr (List.forall₂_same.mpr fun _ _ => ?_))
    (fun _ hw => not_mem_of_mem_splitOn hw) (List.intercalate_splitOn ';').symm
  exact writtenAs_iff.mpr rfl

theorem forall₂_partsOf (values : List (List UInt8)) :
    List.Forall₂ JoinedAs (values.map partsOf) values :=
  List.forall₂_map_left_iff.mpr (List.forall₂_same.mpr fun value _ => joinedAs_partsOf value)

/-- Every value is joined from parts, of which there is a first. -/
theorem exists_joinedAs (value : List UInt8) : ∃ p ps, JoinedAs (p :: ps) value := by
  obtain ⟨part, more, hparts⟩ := List.exists_cons_of_ne_nil
    (List.splitOn_ne_nil ';' (value.map charOf))
  have hjoined := joinedAs_partsOf value
  rw [partsOf, hparts, List.map_cons] at hjoined
  exact ⟨_, _, hjoined⟩

/-! ## Requests -/

/-- The cookie that a part of a Cookie header stands for: none if it has no value. -/
def CookiePart.cookie? (p : CookiePart) : Option Cookie :=
  p.value?.map fun value => { name := String.ofList p.key, value := String.ofList value }

theorem requestCookie?_of_writtenAs (h : p.WrittenAs part) : requestCookie? part = p.cookie? := by
  rw [requestCookie?, cookiePair?_of_writtenAs h, CookiePart.cookie?, Option.map_map]
  rfl

theorem filterMap_requestCookie? (h : JoinedAs ps value) :
    (cookieParts (ofAscii value)).filterMap requestCookie? = ps.filterMap CookiePart.cookie? := by
  have hall : ∀ {ps : List CookiePart} {written : List (List Char)},
      List.Forall₂ CookiePart.WrittenAs ps written →
        written.filterMap requestCookie? = ps.filterMap CookiePart.cookie? := by
    intro ps written hparts
    induction hparts with
    | nil => rfl
    | cons hfirst _ ih =>
      rw [List.filterMap_cons, List.filterMap_cons, requestCookie?_of_writtenAs hfirst, ih]
  -- A value of no parts is cut into one that is empty, which is no cookie either.
  by_cases hne : ps = []
  · obtain ⟨hparts, -, hvalue⟩ := h
    subst hne
    cases hparts
    rw [cookieParts_eq, hvalue]
    rfl
  · exact hall (forall₂_cookieParts h hne)

theorem requestCookies_eq (h : Headers) {headers : List (List CookiePart)}
    (hjoined : List.Forall₂ JoinedAs headers ((h.values "cookie").filter isText)) :
    requestCookies h = headers.flatMap fun ps => ps.filterMap CookiePart.cookie? := by
  rw [requestCookies, headerTexts_eq]
  generalize (h.values "cookie").filter isText = values at hjoined
  induction hjoined with
  | nil => rfl
  | cons hfirst _ ih =>
    rw [List.map_cons, List.flatMap_cons, List.filterMap_append, filterMap_requestCookie? hfirst,
      ih, List.flatMap_cons]

/-- **The cookies of a request are those of its Cookie headers**, part by part and header by
header, with nothing but their names and values. Parts without an `=` are passed over, and so are
headers that are not visible ASCII. -/
theorem request_cookies_recorded (r : Report) (now : Nat) :
    let values := (r.request.headers.values "cookie").filter isText
    (∃ headers, List.Forall₂ JoinedAs headers values) ∧
      ∀ headers, List.Forall₂ JoinedAs headers values →
        (r.toEntry now).request.cookies
          = headers.flatMap fun ps => ps.filterMap CookiePart.cookie? :=
  ⟨⟨_, forall₂_partsOf _⟩, fun _ hjoined => requestCookies_eq r.request.headers hjoined⟩

/-- Two Cookie headers: a value with an `=` of its own and white space around, a part without an
`=`, and a name without a value. -/
theorem request_cookies_recorded_two_headers :
    let octets (text : String) : List UInt8 := Utf8.encode text.toList
    let headers : Headers :=
      ⟨[("cookie", octets " a=b=c\t; loose;d="), ("host", octets "h"), ("cookie", octets "a=")]⟩
    let r : Report :=
      ⟨.new { started := 0 }, none, ⟨"GET", ⟨some "http", some "h", "/", none⟩, .http11, headers⟩,
        none, none, none, none⟩
    (r.toEntry 0).request.cookies
      = [{ name := "a", value := "b=c" }, { name := "d", value := "" },
          { name := "a", value := "" }] := by
  intro octets headers r
  have hvalues : (r.request.headers.values "cookie").filter isText
      = [octets " a=b=c\t; loose;d=", octets "a="] := by decide +kernel
  have hparts : ((r.request.headers.values "cookie").filter isText).map partsOf
      = [[⟨['a'], some "b=c".toList⟩, ⟨"loose".toList, none⟩, ⟨['d'], some []⟩],
          [⟨['a'], some []⟩]] := by
    rw [hvalues]
    decide +kernel
  exact (request_cookies_recorded r 0).2 _ (hparts ▸ forall₂_partsOf _)

/-! ## Responses -/

/-- A cookie that is set, with its attributes in their order. -/
structure SetCookie where
  name : List Char
  value : List Char
  attributes : List CookiePart

namespace SetCookie

/-- How a cookie is set by the value of a header: quotation marks may stand around its value,
within the white space. -/
inductive WrittenAs (s : SetCookie) : List UInt8 → Prop where
  | intro {quoted : List Char} {value : List UInt8} (hquotes : Wrapped (· == '"') s.value quoted)
    (hjoined : JoinedAs (⟨s.name, some quoted⟩ :: s.attributes) value) : WrittenAs s value

/-- The attributes of a kind, which are told by their keys in any letter case. There may be several;
most of what is recorded looks at the last. -/
def ofKind (s : SetCookie) (kind : String) : List CookiePart :=
  s.attributes.filter fun a => String.ofList (a.key.map Char.toLower) == kind

/-- The value of the last attribute of a kind; it is empty without an `=`. An attribute that is
there without a value still takes the place of one before it. -/
def last? (s : SetCookie) (kind : String) : Option (List Char) :=
  (s.ofKind kind).getLast?.map fun a => a.value?.getD []

/-- True if there is an attribute of a kind. -/
def flag? (s : SetCookie) (kind : String) : Option Bool :=
  if (s.ofKind kind).isEmpty then none else some true

/-- The record of a cookie. -/
def cookie (s : SetCookie) : Cookie where
  name := String.ofList s.name
  value := String.ofList s.value
  path := (s.last? "path").map String.ofList
  domain := (s.last? "domain").map String.ofList
  expires := (s.last? "expires").bind expiry?
  httpOnly := s.flag? "httponly"
  secure := s.flag? "secure"

variable {s : SetCookie} {a : CookiePart} {kind : String}

/-- The cookie with one more attribute. -/
def concat (s : SetCookie) (a : CookiePart) : SetCookie :=
  { s with attributes := s.attributes ++ [a] }

theorem ofKind_concat (s : SetCookie) (a : CookiePart) (kind : String) :
    (s.concat a).ofKind kind = s.ofKind kind
      ++ if String.ofList (a.key.map Char.toLower) = kind then [a] else [] := by
  rw [ofKind, concat, List.filter_append, ← ofKind]
  congr 1
  by_cases h : String.ofList (a.key.map Char.toLower) = kind
  · rw [if_pos h, List.filter_cons_of_pos (by simpa using h)]
    rfl
  · rw [if_neg h, List.filter_cons_of_neg (by simpa using h)]
    rfl

theorem last?_concat (s : SetCookie) (a : CookiePart) (kind : String) :
    (s.concat a).last? kind = if String.ofList (a.key.map Char.toLower) = kind
      then some (a.value?.getD []) else s.last? kind := by
  rw [last?, ofKind_concat]
  split
  · rw [List.getLast?_concat]
    rfl
  · rw [List.append_nil]
    rfl

theorem flag?_concat (s : SetCookie) (a : CookiePart) (kind : String) :
    (s.concat a).flag? kind = if String.ofList (a.key.map Char.toLower) = kind
      then some true else s.flag? kind := by
  rw [flag?, ofKind_concat]
  split
  · rw [if_neg (by simp)]
  · rw [List.append_nil]
    rfl

/-- **One more attribute** is the last of its kind, and leaves the other kinds as they are. -/
theorem setAttribute_cookie (s : SetCookie) {part : List Char} (h : a.WrittenAs part) :
    setAttribute s.cookie part = (s.concat a).cookie := by
  rw [setAttribute, attributePair_of_writtenAs h, cookie, cookie, last?_concat, last?_concat,
    last?_concat, flag?_concat, flag?_concat]
  dsimp only [concat]
  generalize String.ofList (a.key.map Char.toLower) = kind
  -- A key is of one kind at most, so at most one of the last attributes is another now.
  split
  all_goals simp_all

/-- What all attributes do together, one after the other. The reader goes from left to right and
overwrites; the record says the same of the whole list at once. -/
theorem foldl_setAttribute {attributes : List CookiePart} {written : List (List Char)}
    (h : List.Forall₂ CookiePart.WrittenAs attributes written) (s : SetCookie) :
    written.foldl setAttribute s.cookie
      = { s with attributes := s.attributes ++ attributes : SetCookie }.cookie := by
  induction h generalizing s with
  | nil => rw [List.append_nil, List.foldl_nil]
  | @cons a part attributes written ha _ ih =>
    rw [List.foldl_cons, setAttribute_cookie s ha, ih, concat, List.append_assoc,
      List.singleton_append]

/-- **A cookie that is set is read as it was written**, whatever white space and quotation marks
stand around its parts. -/
theorem setCookie?_of_writtenAs {value : List UInt8} (h : s.WrittenAs value) :
    setCookie? (ofAscii value) = some s.cookie := by
  obtain ⟨hquotes, hjoined⟩ := h
  have hparts := forall₂_cookieParts hjoined (List.cons_ne_nil _ _)
  rw [setCookie?]
  generalize cookieParts (ofAscii value) = written at hparts
  obtain - | ⟨hfirst, hattributes⟩ := hparts
  dsimp only
  rw [cookiePair?_of_writtenAs hfirst]
  dsimp only [Option.map_some]
  rw [strip_eq_iff.mpr hquotes]
  exact congrArg some (foldl_setAttribute hattributes { s with attributes := [] })

end SetCookie

/-- Whether the first part of a value has an `=`. -/
def namesCookie (value : List UInt8) : Bool :=
  ((value.map charOf).takeWhile (· != ';')).contains '='

/-- The first part of a value is what stands before its first semicolon. -/
theorem namesCookie_iff (h : JoinedAs (p :: ps) value) :
    namesCookie value = true ↔ p.value?.isSome = true := by
  obtain ⟨hparts, hsemicolon, hvalue⟩ := h
  obtain - | ⟨hfirst, hrest⟩ := hparts
  rename_i first written
  have hfirst' : ∀ c ∈ first, (c != ';') = true := fun c hc =>
    bne_iff_ne.mpr fun heq => hsemicolon first List.mem_cons_self (heq ▸ hc)
  have htake : (value.map charOf).takeWhile (· != ';') = first := by
    rw [hvalue]
    -- Behind the first part there is nothing, or a semicolon.
    cases written with
    | nil => rw [List.intercalate_singleton, List.takeWhile_eq_self_iff.mpr hfirst']
    | cons w written =>
      rw [List.intercalate_cons_cons, List.append_assoc, List.takeWhile_append_of_pos hfirst']
      simp
  rw [namesCookie, htake, List.contains_iff_mem, hfirst.isSome_value?]

theorem setCookie?_of_alone (h : JoinedAs (p :: ps) value) (hnone : p.value? = none) :
    setCookie? (ofAscii value) = none := by
  have hparts := forall₂_cookieParts h (List.cons_ne_nil _ _)
  rw [setCookie?]
  generalize cookieParts (ofAscii value) = written at hparts
  obtain - | ⟨hfirst, hattributes⟩ := hparts
  dsimp only
  rw [cookiePair?_of_writtenAs hfirst, hnone]
  rfl

theorem exists_setCookie (h : namesCookie value = true) : ∃ s : SetCookie, s.WrittenAs value := by
  obtain ⟨p, ps, hjoined⟩ := exists_joinedAs value
  obtain ⟨quoted, hquoted⟩ := Option.isSome_iff_exists.mp ((namesCookie_iff hjoined).mp h)
  have hp : p = ⟨p.key, some quoted⟩ := by rw [← hquoted]
  rw [hp] at hjoined
  exact ⟨⟨p.key, strip '"' quoted, ps⟩, .intro (strip_eq_iff.mp rfl) hjoined⟩

theorem setCookie?_of_nameless (h : namesCookie value = false) :
    setCookie? (ofAscii value) = none := by
  obtain ⟨p, ps, hjoined⟩ := exists_joinedAs value
  refine setCookie?_of_alone hjoined ?_
  by_contra hsome
  rw [(namesCookie_iff hjoined).mpr (Option.isSome_iff_ne_none.mpr hsome)] at h
  cases h

/-- What is said of a cookie by the value that sets it: the value is that of a cookie with its
attributes, and of whichever it is, this is the record. -/
def SetBy (value : List UInt8) (c : Cookie) : Prop :=
  (∃ s : SetCookie, s.WrittenAs value) ∧ ∀ s : SetCookie, s.WrittenAs value → c = s.cookie

theorem responseCookies_setBy (h : Headers) :
    List.Forall₂ SetBy
      ((h.values "set-cookie").filter fun value => isText value && namesCookie value)
      (responseCookies h) := by
  have hall : ∀ values : List (List UInt8), List.Forall₂ SetBy (values.filter namesCookie)
      ((values.map ofAscii).filterMap setCookie?) := by
    intro values
    induction values with
    | nil => exact .nil
    | cons value values ih =>
      by_cases hnames : namesCookie value = true
      · -- However the value was written, it is read as one cookie.
        obtain ⟨s, hs⟩ := exists_setCookie hnames
        have hread := SetCookie.setCookie?_of_writtenAs hs
        rw [List.filter_cons_of_pos hnames, List.map_cons, List.filterMap_cons_some hread]
        refine .cons ⟨⟨s, hs⟩, fun s' hs' => ?_⟩ ih
        exact Option.some.inj (hread.symm.trans (SetCookie.setCookie?_of_writtenAs hs'))
      · rw [List.filter_cons_of_neg hnames, List.map_cons,
          List.filterMap_cons_none (setCookie?_of_nameless (by simpa using hnames))]
        exact ih
  rw [responseCookies, headerTexts_eq, ← List.filter_filter, List.filter_comm]
  exact hall _

/-- **The cookies of a response are those that its Set-Cookie headers set**, in order: one for each
that is visible ASCII and has an `=` in its first part. A cookie is recorded with the last path and
domain, with the last expiry if that is a date, as the point in time whatever its zone, and with a
flag if it is there at all; attributes of different kinds may change places. -/
theorem response_cookies_recorded (r : Report) (now : Nat) {head : ResponseHead}
    (hresponse : r.response = some head) :
    List.Forall₂ SetBy
        ((head.headers.values "set-cookie").filter fun value => isText value && namesCookie value)
        (r.toEntry now).response.cookies
      ∧ (∀ (s : SetCookie) (t : Timestamp) (date : List Char), s.last? "expires" = some date →
        MailDate t date → s.cookie.expires = some t)
      ∧ ∀ (s s' : SetCookie) (value value' : List UInt8), s.WrittenAs value →
        s'.WrittenAs value' → s'.name = s.name → s'.value = s.value →
        (∀ kind, s'.ofKind kind = s.ofKind kind) →
          setCookie? (ofAscii value') = setCookie? (ofAscii value) := by
  refine ⟨?_, ?_, ?_⟩
  · have hcookies : (r.toEntry now).response.cookies = responseCookies head.headers := by
      rw [Report.toEntry, hresponse]
      rfl
    rw [hcookies]
    exact responseCookies_setBy head.headers
  · intro s t date hlast hdate
    rw [SetCookie.cookie, hlast]
    show (readRfc2822 date).toOption = some t
    rw [readRfc2822_of_mailDate hdate]
    rfl
  · intro s s' value value' hs hs' hname hvalue hkinds
    have hcookie : s'.cookie = s.cookie := by
      simp only [SetCookie.cookie, SetCookie.last?, SetCookie.flag?, hkinds, hname, hvalue]
    rw [SetCookie.setCookie?_of_writtenAs hs, SetCookie.setCookie?_of_writtenAs hs', hcookie]

/-- A quoted value, an expiry, two paths of which the later has no value, a flag in another letter
case and with a value, and an attribute that is not known; and a header without a name. -/
theorem response_cookies_recorded_attributes :
    let octets (text : String) : List UInt8 := Utf8.encode text.toList
    let set := octets
      "id=\"a=b\" ;EXPIRES = Wed, 21 Oct 2015 09:28:00 +0200;path=/a; x=1;SECURE=0;Path"
    let head : ResponseHead :=
      { status := 200, version := .http11,
        headers := ⟨[("set-cookie", octets "nameless; path=/"), ("set-cookie", set)]⟩ }
    let r : Report :=
      ⟨.new { started := 0 }, none, ⟨"GET", ⟨some "http", some "h", "/", none⟩, .http11, .empty⟩,
        none, some head, none, none⟩
    ∃ c, (r.toEntry 0).response.cookies = [c] ∧ c.name = "id" ∧ c.value = "a=b" ∧ c.path = some ""
      ∧ c.domain = none ∧ c.expires = some ⟨1445412480, 0, by decide +kernel⟩
      ∧ c.secure = some true ∧ c.httpOnly = none := by
  intro octets set head r
  let date := "Wed, 21 Oct 2015 09:28:00 +0200".toList
  let s : SetCookie :=
    ⟨"id".toList, "a=b".toList,
      [⟨"EXPIRES".toList, some date⟩, ⟨"path".toList, some "/a".toList⟩, ⟨['x'], some ['1']⟩,
        ⟨"SECURE".toList, some ['0']⟩, ⟨"Path".toList, none⟩]⟩
  have hs : s.WrittenAs set := by
    have hparts : partsOf set = ⟨s.name, some "\"a=b\"".toList⟩ :: s.attributes := by
      decide +kernel
    exact .intro (strip_eq_iff.mp (by decide)) (hparts ▸ joinedAs_partsOf set)
  have hvalues : ((head.headers.values "set-cookie").filter fun value =>
      isText value && namesCookie value) = [set] := by decide +kernel
  obtain ⟨hset, hexpires, -⟩ := response_cookies_recorded r 0 rfl
  rw [hvalues] at hset
  generalize (r.toEntry 0).response.cookies = cookies at hset
  obtain - | ⟨⟨-, hcookie⟩, hnone⟩ := hset
  obtain - | - := hnone
  have hdate : MailDate ⟨1445412480, 0, by decide +kernel⟩ date := by
    -- The clock is two hours ahead.
    let clock : Timestamp := ⟨1445419680, 0, by decide +kernel⟩
    have hshows : Shows clock (offsetSeconds false 2 0) ⟨1445412480, 0, by decide +kernel⟩ :=
      ⟨by decide +kernel, rfl, by decide⟩
    have htext : date = mailText clock
        ((if false then '-' else '+') :: (Timestamp.padded 2 2 ++ Timestamp.padded 2 0)) := by
      decide +kernel
    rw [htext]
    exact .offset (by decide) (by decide) hshows (by decide) (by decide +kernel)
  refine ⟨s.cookie, by rw [hcookie s hs], rfl, rfl, ?_, ?_, ?_, ?_, ?_⟩
  · decide +kernel
  · decide +kernel
  · exact hexpires s _ date (by decide +kernel) hdate
  · decide +kernel
  · decide +kernel

end ExchangeArchive.Trip
