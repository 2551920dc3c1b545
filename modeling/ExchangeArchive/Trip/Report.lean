import ExchangeArchive.Body.Observed
import ExchangeArchive.Http.Message
import ExchangeArchive.Http.Reason
import ExchangeArchive.Text.Base64
import ExchangeArchive.Text.FormUrlencoded
import ExchangeArchive.Trip.Cookies
import ExchangeArchive.Trip.Tracker
/-
The report of one request, and the entry made of it.

A report gathers what is known of a request from its start until its entry is due: its
timing, its head, what was observed of its bodies, and the response or the error. The
entry says what was observed and nothing else.
-/

set_option autoImplicit false

namespace ExchangeArchive.Trip

open ExchangeArchive.Archive ExchangeArchive.Body ExchangeArchive.Http ExchangeArchive.Text

/-! ## Bodies and headers as texts -/

/-- The text of a body: itself if it is UTF-8, and Base64 if it is not. -/
def encodeBody (octets : List UInt8) : String :=
  String.ofList (match Utf8.decode? octets with
    | some cs => cs
    | none => Base64.encode octets)

/-- The header fields as records. -/
def headerRecords (h : Headers) : List NamedValue :=
  h.fields.map fun (name, value) =>
    { name := name, value := String.ofList (Utf8.decodeLossy value) }

/-- The text of the first value of a header, empty if it is missing or not visible ASCII. -/
def headerText (h : Headers) (name : String) : String :=
  ((h.get? name).bind Headers.text?).getD ""

/-! ## Reports -/

/-- What is known of a request. A body without a capture was not observed, and there is no response
as long as there is none or if the transport failed. -/
structure Report where
  tracker : Tracker
  pageRef : Option String
  request : RequestHead
  requestBody : Option Capture
  response : Option ResponseHead
  responseBody : Option Capture
  error : Option String

/-- The parameters of a query. -/
def queryRecords (u : Uri) : List NamedValue :=
  match u.query with
  | none => []
  | some q => (FormUrlencoded.parse (Utf8.encode q.toList)).map fun (name, value) =>
    { name := name, value := value }

/-- How many octets of a body were observed. -/
def sizeOf (body : Option Capture) : Int :=
  match body with
  | some c => c.size
  | none => 0

/-- The record of a request. -/
def requestRecord (head : RequestHead) (body : Option Capture) : Request where
  method := head.method
  url := head.uri.toText
  httpVersion := head.version.name
  cookies := requestCookies head.headers
  headers := headerRecords head.headers
  queryString := queryRecords head.uri
  postData := body.map fun c =>
    { mimeType := headerText head.headers "content-type", text := encodeBody c.octets }
  headersSize := head.headers.blockSize
  bodySize := sizeOf body

/-- The record of a response, or of the error that prevented it. -/
def responseRecord (head : Option ResponseHead) (body : Option Capture)
    (error : Option String) : Response :=
  match head with
  | none => { headersSize := -1, bodySize := -1, error := error }
  | some head => {
      status := head.status
      statusText := reason head.status
      httpVersion := head.version.name
      cookies := responseCookies head.headers
      headers := headerRecords head.headers
      content := {
        size := sizeOf body
        mimeType := headerText head.headers "content-type"
        text := body.map fun c => encodeBody c.octets }
      redirectURL := headerText head.headers "location"
      headersSize := head.headers.blockSize
      bodySize := sizeOf body
      error := error }

/-- The entry of a report that is finished now. The time is the one until now; the phases are what
was reported of them, whether or not they add up to it. -/
def Report.toEntry (r : Report) (now : Nat) : Entry where
  pageref := r.pageRef
  startedDateTime := r.tracker.startedDateTime
  time := r.tracker.time now
  request := requestRecord r.request r.requestBody
  response := responseRecord r.response r.responseBody r.error
  timings := r.tracker.timings
  serverIPAddress := r.tracker.serverIPAddress
  connection := r.tracker.connection

end ExchangeArchive.Trip
