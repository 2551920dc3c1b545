import ExchangeArchive.Archive.Record
import ExchangeArchive.Document.Codec
import ExchangeArchive.Json.Text
/-
The documents of the archive's records.

A record is one list of fields. Members are named as in the format: they differ from
the names of the fields only for a response's error. What may be missing is written
only when it is there, except that a log always has its pages and entries.
-/

set_option autoImplicit false

namespace ExchangeArchive.Archive

open ExchangeArchive.Document

/-- The shape of a named value; headers and query parameters differ in name only. -/
def NamedValue.shape (name : String) : Shape NamedValue where
  name := name
  fields := [
    .required "name" text (·.name) (fun v r => { r with name := v }),
    .required "value" text (·.value) (fun v r => { r with value := v }),
    .maybe "comment" text (·.comment) (fun v r => { r with comment := v })]
  blank := {}
  strict := false

/-- Headers. -/
def header : Codec NamedValue := (NamedValue.shape "struct Header").codec

/-- Parameters of a query. -/
def queryParameter : Codec NamedValue := (NamedValue.shape "struct QueryString").codec

def Agent.shape : Shape Agent where
  name := "struct Agent"
  fields := [
    .required "name" text (·.name) (fun v r => { r with name := v }),
    .required "version" text (·.version) (fun v r => { r with version := v }),
    .maybe "comment" text (·.comment) (fun v r => { r with comment := v })]
  blank := {}
  strict := false

def Agent.codec : Codec Agent := Agent.shape.codec

def PageTimings.shape : Shape PageTimings where
  name := "struct PageTimings"
  fields := [
    .required "onContentLoaded" double (·.onContentLoaded)
      (fun v r => { r with onContentLoaded := v }),
    .required "onLoad" double (·.onLoad) (fun v r => { r with onLoad := v })]
  blank := {}
  strict := false

def PageTimings.codec : Codec PageTimings := PageTimings.shape.codec

def Page.shape : Shape Page where
  name := "struct Page"
  fields := [
    .required "startedDateTime" timestamp (·.startedDateTime)
      (fun v r => { r with startedDateTime := v }),
    .required "id" text (·.id) (fun v r => { r with id := v }),
    .required "title" text (·.title) (fun v r => { r with title := v }),
    .required "pageTimings" PageTimings.codec (·.pageTimings)
      (fun v r => { r with pageTimings := v }),
    .maybe "comment" text (·.comment) (fun v r => { r with comment := v })]
  blank := {}
  strict := false

def Page.codec : Codec Page := Page.shape.codec

def Cookie.shape : Shape Cookie where
  name := "struct Cookie"
  fields := [
    .required "name" text (·.name) (fun v r => { r with name := v }),
    .required "value" text (·.value) (fun v r => { r with value := v }),
    .maybe "path" text (·.path) (fun v r => { r with path := v }),
    .maybe "domain" text (·.domain) (fun v r => { r with domain := v }),
    .maybe "expires" timestamp (·.expires) (fun v r => { r with expires := v }),
    .maybe "httpOnly" boolean (·.httpOnly) (fun v r => { r with httpOnly := v }),
    .maybe "secure" boolean (·.secure) (fun v r => { r with secure := v }),
    .maybe "comment" text (·.comment) (fun v r => { r with comment := v })]
  blank := {}
  strict := false

def Cookie.codec : Codec Cookie := Cookie.shape.codec

def PostData.shape : Shape PostData where
  name := "struct PostData"
  fields := [
    .required "mimeType" Document.text (·.mimeType) (fun v r => { r with mimeType := v }),
    .required "text" Document.text (·.text) (fun v r => { r with text := v }),
    .maybe "comment" Document.text (·.comment) (fun v r => { r with comment := v })]
  blank := {}
  strict := false

def PostData.codec : Codec PostData := PostData.shape.codec

def Content.shape : Shape Content where
  name := "struct Content"
  fields := [
    .required "size" int64 (·.size) (fun v r => { r with size := v }),
    .maybe "compression" int64 (·.compression) (fun v r => { r with compression := v }),
    .required "mimeType" Document.text (·.mimeType) (fun v r => { r with mimeType := v }),
    .maybe "text" Document.text (·.text) (fun v r => { r with text := v }),
    .maybe "comment" Document.text (·.comment) (fun v r => { r with comment := v })]
  blank := {}
  strict := false

def Content.codec : Codec Content := Content.shape.codec

def Request.shape : Shape Request where
  name := "struct Request"
  fields := [
    .required "method" text (·.method) (fun v r => { r with method := v }),
    .required "url" text (·.url) (fun v r => { r with url := v }),
    .required "httpVersion" text (·.httpVersion) (fun v r => { r with httpVersion := v }),
    .required "cookies" (list Cookie.codec) (·.cookies) (fun v r => { r with cookies := v }),
    .required "headers" (list header) (·.headers) (fun v r => { r with headers := v }),
    .required "queryString" (list queryParameter) (·.queryString)
      (fun v r => { r with queryString := v }),
    .maybe "postData" PostData.codec (·.postData) (fun v r => { r with postData := v }),
    .required "headersSize" int64 (·.headersSize) (fun v r => { r with headersSize := v }),
    .required "bodySize" int64 (·.bodySize) (fun v r => { r with bodySize := v }),
    .maybe "comment" text (·.comment) (fun v r => { r with comment := v })]
  blank := {}
  strict := false

def Request.codec : Codec Request := Request.shape.codec

def Response.shape : Shape Response where
  name := "struct Response"
  fields := [
    .required "status" nat16 (·.status) (fun v r => { r with status := v }),
    .required "statusText" text (·.statusText) (fun v r => { r with statusText := v }),
    .required "httpVersion" text (·.httpVersion) (fun v r => { r with httpVersion := v }),
    .required "cookies" (list Cookie.codec) (·.cookies) (fun v r => { r with cookies := v }),
    .required "headers" (list header) (·.headers) (fun v r => { r with headers := v }),
    .required "content" Content.codec (·.content) (fun v r => { r with content := v }),
    .required "redirectURL" text (·.redirectURL) (fun v r => { r with redirectURL := v }),
    .required "headersSize" int64 (·.headersSize) (fun v r => { r with headersSize := v }),
    .required "bodySize" int64 (·.bodySize) (fun v r => { r with bodySize := v }),
    .maybe "comment" text (·.comment) (fun v r => { r with comment := v }),
    .maybe "_error" text (·.error) (fun v r => { r with error := v })]
  blank := {}
  strict := false

def Response.codec : Codec Response := Response.shape.codec

def Cache.shape : Shape Cache where
  name := "struct Cache"
  fields := [.maybe "comment" text (·.comment) (fun v r => { r with comment := v })]
  blank := {}
  strict := false

def Cache.codec : Codec Cache := Cache.shape.codec

def Timings.shape : Shape Timings where
  name := "struct Timings"
  fields := [
    .required "blocked" double (·.blocked) (fun v r => { r with blocked := v }),
    .required "dns" double (·.dns) (fun v r => { r with dns := v }),
    .required "connect" double (·.connect) (fun v r => { r with connect := v }),
    .required "send" double (·.send) (fun v r => { r with send := v }),
    .required "wait" double (·.wait) (fun v r => { r with wait := v }),
    .required "receive" double (·.receive) (fun v r => { r with receive := v }),
    .required "ssl" double (·.ssl) (fun v r => { r with ssl := v }),
    .maybe "comment" text (·.comment) (fun v r => { r with comment := v })]
  blank := {}
  strict := false

def Timings.codec : Codec Timings := Timings.shape.codec

def Entry.shape : Shape Entry where
  name := "struct Entry"
  fields := [
    .maybe "pageref" text (·.pageref) (fun v r => { r with pageref := v }),
    .required "startedDateTime" timestamp (·.startedDateTime)
      (fun v r => { r with startedDateTime := v }),
    .required "time" double (·.time) (fun v r => { r with time := v }),
    .required "request" Request.codec (·.request) (fun v r => { r with request := v }),
    .required "response" Response.codec (·.response) (fun v r => { r with response := v }),
    .required "cache" Cache.codec (·.cache) (fun v r => { r with cache := v }),
    .required "timings" Timings.codec (·.timings) (fun v r => { r with timings := v }),
    .maybe "serverIPAddress" text (·.serverIPAddress)
      (fun v r => { r with serverIPAddress := v }),
    .maybe "connection" text (·.connection) (fun v r => { r with connection := v }),
    .maybe "comment" text (·.comment) (fun v r => { r with comment := v })]
  blank := {}
  strict := false

def Entry.codec : Codec Entry := Entry.shape.codec

def Log.shape : Shape Log where
  name := "struct Log"
  fields := [
    .required "version" text (·.version) (fun v r => { r with version := v }),
    .required "creator" Agent.codec (·.creator) (fun v r => { r with creator := v }),
    .maybe "browser" Agent.codec (·.browser) (fun v r => { r with browser := v }),
    .withDefault "pages" (list Page.codec) [] (·.pages) (fun v r => { r with pages := v }),
    .withDefault "entries" (list Entry.codec) [] (·.entries)
      (fun v r => { r with entries := v }),
    .maybe "comment" text (·.comment) (fun v r => { r with comment := v })]
  blank := {}
  strict := false

def Log.codec : Codec Log := Log.shape.codec

def HttpArchive.shape : Shape HttpArchive where
  name := "struct HttpArchive"
  fields := [.required "log" Log.codec (·.log) (fun v r => { r with log := v })]
  blank := {}
  strict := false

def HttpArchive.codec : Codec HttpArchive := HttpArchive.shape.codec

def Version.shape : Shape Version where
  name := "struct Version"
  fields := [
    .required "harVersion" text (·.harVersion) (fun v r => { r with harVersion := v }),
    .required "creator" text (·.creator) (fun v r => { r with creator := v }),
    .required "version" text (·.version) (fun v r => { r with version := v })]
  blank := {}
  strict := false

def Version.codec : Codec Version := Version.shape.codec

end ExchangeArchive.Archive
