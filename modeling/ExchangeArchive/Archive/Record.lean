import ExchangeArchive.Time.Timestamp
/-
The records of the HTTP Archive format, version 1.2.

Only what a recorder fills in is there, and `_error`, the extension that carries the
failure of a transport. Times are milliseconds; a phase that does not apply has the
time -1. Each record has a default, which is what a recorder starts from.
-/

set_option autoImplicit false

namespace ExchangeArchive.Archive

open ExchangeArchive.Time

/-- The time of a phase that does not apply. -/
def notApplicable : Float := -1.0

/-- A name and a value with a comment: a header, or a parameter of a query. -/
structure NamedValue where
  name : String := ""
  value : String := ""
  comment : Option String := none
  deriving BEq

instance : Inhabited NamedValue := ⟨{}⟩

/-- The application that created an archive, or the browser that made the requests. -/
structure Agent where
  name : String := ""
  version : String := ""
  comment : Option String := none
  deriving BEq

instance : Inhabited Agent := ⟨{}⟩

/-- Offsets in milliseconds from the start of a page. -/
structure PageTimings where
  onContentLoaded : Float := notApplicable
  onLoad : Float := notApplicable
  deriving BEq

instance : Inhabited PageTimings := ⟨{}⟩

/-- A page groups entries, which refer to it by its id. -/
structure Page where
  startedDateTime : Timestamp := .epoch
  id : String := ""
  title : String := ""
  pageTimings : PageTimings := {}
  comment : Option String := none
  deriving BEq

instance : Inhabited Page := ⟨{}⟩

/-- A cookie, as sent or as set. -/
structure Cookie where
  name : String := ""
  value : String := ""
  path : Option String := none
  domain : Option String := none
  expires : Option Timestamp := none
  httpOnly : Option Bool := none
  secure : Option Bool := none
  comment : Option String := none
  deriving BEq

instance : Inhabited Cookie := ⟨{}⟩

/-- The body of a request. A body that is no UTF-8 is in Base64. -/
structure PostData where
  mimeType : String := ""
  text : String := ""
  comment : Option String := none
  deriving BEq

instance : Inhabited PostData := ⟨{}⟩

/-- The body of a response. A body that is no UTF-8 is in Base64. -/
structure Content where
  size : Int := 0
  compression : Option Int := none
  mimeType : String := ""
  text : Option String := none
  comment : Option String := none
  deriving BEq

instance : Inhabited Content := ⟨{}⟩

/-- A request. The header block ends with its blank line; a size that is not known is -1. -/
structure Request where
  method : String := ""
  url : String := ""
  httpVersion : String := ""
  cookies : List Cookie := []
  headers : List NamedValue := []
  queryString : List NamedValue := []
  postData : Option PostData := none
  headersSize : Int := 0
  bodySize : Int := 0
  comment : Option String := none
  deriving BEq

instance : Inhabited Request := ⟨{}⟩

/-- A response, or the error that prevented it. -/
structure Response where
  status : Nat := 0
  statusText : String := ""
  httpVersion : String := ""
  cookies : List Cookie := []
  headers : List NamedValue := []
  content : Content := {}
  redirectURL : String := ""
  headersSize : Int := 0
  bodySize : Int := 0
  comment : Option String := none
  error : Option String := none
  deriving BEq

instance : Inhabited Response := ⟨{}⟩

/-- What a cache did. Viewers want the record even if it is empty. -/
structure Cache where
  comment : Option String := none
  deriving BEq

instance : Inhabited Cache := ⟨{}⟩

/-- The phases of an entry in milliseconds. Those of getting a connection need not apply. -/
structure Timings where
  blocked : Float := notApplicable
  dns : Float := notApplicable
  connect : Float := notApplicable
  send : Float := 0.0
  wait : Float := 0.0
  receive : Float := 0.0
  ssl : Float := notApplicable
  comment : Option String := none
  deriving BEq

instance : Inhabited Timings := ⟨{}⟩

/-- One request and its response. -/
structure Entry where
  pageref : Option String := none
  startedDateTime : Timestamp := .epoch
  time : Float := 0.0
  request : Request := {}
  response : Response := {}
  cache : Cache := {}
  timings : Timings := {}
  serverIPAddress : Option String := none
  connection : Option String := none
  comment : Option String := none
  deriving BEq

instance : Inhabited Entry := ⟨{}⟩

/-- Everything recorded in a session. -/
structure Log where
  version : String := ""
  creator : Agent := {}
  browser : Option Agent := none
  pages : List Page := []
  entries : List Entry := []
  comment : Option String := none
  deriving BEq

instance : Inhabited Log := ⟨{}⟩

/-- The document of an archive. -/
structure HttpArchive where
  log : Log := {}
  deriving BEq

instance : Inhabited HttpArchive := ⟨{}⟩

/-- What a recorder says of itself to a receiver: the version of the format, its own name
and its own version. -/
structure Version where
  harVersion : String := "1.2"
  creator : String := "har-recorder"
  version : String := "0.1.0"
  deriving BEq, DecidableEq

instance : Inhabited Version := ⟨{}⟩

/-- The recorder as the creator of an archive. -/
def Version.agent (v : Version) : Agent := { name := v.creator, version := v.version }

end ExchangeArchive.Archive
