import ExchangeArchive.Archive.Record
import ExchangeArchive.Http.Headers
import ExchangeArchive.Text.Blank
import ExchangeArchive.Time.Reader
/-
The cookies of a message.

A request's cookies are the `name=value` parts of its Cookie headers. A response has at
most one cookie in each Set-Cookie header: the first part names it, the others are
attributes, of which the last one of a kind counts. White space around parts, names and
values does not count; values that are not visible ASCII are passed over.
-/

set_option autoImplicit false

namespace ExchangeArchive.Trip

open ExchangeArchive.Archive ExchangeArchive.Http ExchangeArchive.Text ExchangeArchive.Time

/-- The parts of a header value between its semicolons. -/
def cookieParts (value : String) : List (List Char) := parts ';' value.toList

/-- The name and value of a part, trimmed; none if it has no `=`. -/
def cookiePair? (part : List Char) : Option (List Char × List Char) :=
  (splitFirst? '=' (trim part)).map fun (name, value) => (trim name, trim value)

/-- The texts of a header's values. -/
def headerTexts (h : Headers) (name : String) : List String :=
  (h.values name).filterMap Headers.text?

/-- The cookie of a part of a Cookie header. -/
def requestCookie? (part : List Char) : Option Cookie :=
  (cookiePair? part).map fun (name, value) =>
    { name := String.ofList name, value := String.ofList value }

/-- The cookies of a request. -/
def requestCookies (h : Headers) : List Cookie :=
  ((headerTexts h "cookie").flatMap cookieParts).filterMap requestCookie?

/-! ## Attributes -/

/-- The key and the value of an attribute, trimmed; the value is empty without an `=`. -/
def attributePair (part : List Char) : List Char × List Char :=
  (cookiePair? part).getD (trim part, [])

/-- The UTC time of an expiry date. -/
def expiry? (value : List Char) : Option Timestamp := (readRfc2822 value).toOption

/-- The cookie with one more attribute. -/
def setAttribute (c : Cookie) (part : List Char) : Cookie :=
  let (key, value) := attributePair part
  match String.ofList (key.map Char.toLower) with
  | "path" => { c with path := some (String.ofList value) }
  | "domain" => { c with domain := some (String.ofList value) }
  | "expires" => { c with expires := expiry? value }
  | "secure" => { c with secure := some true }
  | "httponly" => { c with httpOnly := some true }
  | _ => c

/-- The cookie of a Set-Cookie header. -/
def setCookie? (value : String) : Option Cookie :=
  match cookieParts value with
  | [] => none
  | first :: attributes =>
    (cookiePair? first).map fun (name, value) =>
      attributes.foldl setAttribute
        { name := String.ofList name, value := String.ofList (strip '"' value) }

/-- The cookies of a response. -/
def responseCookies (h : Headers) : List Cookie :=
  (headerTexts h "set-cookie").filterMap setCookie?

end ExchangeArchive.Trip
