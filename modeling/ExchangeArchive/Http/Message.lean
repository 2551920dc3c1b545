import ExchangeArchive.Http.Headers
import ExchangeArchive.Http.Uri
/-
The heads of requests and responses.

A head is made of octets that come from outside; making it checks each part, and the
first part that is refused names the refusal.
-/

set_option autoImplicit false

namespace ExchangeArchive.Http

/-- The versions of the protocol. -/
inductive Version where
  | http09
  | http10
  | http11
  | http2
  | http3
  deriving DecidableEq, Repr

/-- The name of a version. -/
def Version.name : Version → String
  | .http09 => "HTTP/0.9"
  | .http10 => "HTTP/1.0"
  | .http11 => "HTTP/1.1"
  | .http2 => "HTTP/2.0"
  | .http3 => "HTTP/3.0"

/-- The version with a name. -/
def Version.ofName? (s : String) : Option Version :=
  [.http09, .http10, .http11, .http2, .http3].find? fun v => Version.name v == s

/-- What a request says of itself before its body. -/
structure RequestHead where
  method : String
  uri : Uri
  version : Version
  headers : Headers
  deriving DecidableEq, Repr

/-- What a response says of itself before its body. -/
structure ResponseHead where
  status : Nat
  version : Version
  headers : Headers
  /-- Values that come with the response without being sent, by the names of their kinds. -/
  extensions : List (String × String) := []
  deriving DecidableEq, Repr

/-! ## Refusals -/

/-- Why octets are no part of a message. -/
inductive Refusal where
  | uri (fault : UriFault)
  | method
  | headerName
  | headerValue
  | status
  deriving DecidableEq, Repr

/-- The wording of a refusal. -/
def Refusal.message : Refusal → String
  | .uri fault => fault.message
  | .method => "invalid HTTP method"
  | .headerName => "invalid HTTP header name"
  | .headerValue => "failed to parse header value"
  | .status => "invalid status code"

/-! ## Making heads -/

/-- The method that octets stand for. -/
def methodOf (bs : List UInt8) : Except Refusal String :=
  if Headers.isToken bs then .ok (Text.ofAscii bs) else .error .method

/-- The header map of fields, in their order. -/
def headersOf (fields : List (List UInt8 × List UInt8)) : Except Refusal Headers :=
  fields.foldlM (fun h (name, value) =>
    match Headers.name? name with
    | none => .error .headerName
    | some n => if Headers.isValue value then .ok (h.append n value) else .error .headerValue)
    .empty

/-- The head of a request. -/
def RequestHead.make (method uri : List UInt8) (version : Version)
    (fields : List (List UInt8 × List UInt8)) : Except Refusal RequestHead := do
  let method ← methodOf method
  let uri ← (Uri.read uri).mapError Refusal.uri
  let headers ← headersOf fields
  return ⟨method, uri, version, headers⟩

/-- The head of a response. -/
def ResponseHead.make (status : Nat) (version : Version)
    (fields : List (List UInt8 × List UInt8)) : Except Refusal ResponseHead := do
  if status < 100 ∨ 1000 ≤ status then throw .status
  let headers ← headersOf fields
  return { status, version, headers }

end ExchangeArchive.Http
