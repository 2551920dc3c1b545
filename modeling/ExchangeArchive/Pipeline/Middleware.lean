import ExchangeArchive.Pipeline.Sink
import ExchangeArchive.Text.Blank
/-
Middleware.

A step of a pipeline changes a record and forwards it, rejects it, drops it without a
word, or forwards it twice; `toEntryMiddleware` and `toPageMiddleware` are the middleware that
does this. `redactHeader` is the step that hides the values of a header. A middleware may
also note on the state that it has seen a record.
-/

set_option autoImplicit false

namespace ExchangeArchive.Pipeline

open ExchangeArchive.Archive

/-- What a middleware does with a record. -/
inductive Step (α : Type) where
  /-- Forwards the record changed. -/
  | change (f : α → α)
  /-- Fails without forwarding. -/
  | reject (message : String)
  /-- Succeeds without forwarding. -/
  | drop
  /-- Forwards a copy, and then the record unless that failed. -/
  | twice

namespace Step

variable {σ : Type}

/-- The middleware of entries that does a step. -/
def toEntryMiddleware : Step Entry → EntryMiddleware σ
  | .change f, next => fun e => next (f e)
  | .reject message, _ => fun _ => pure (.error (.middleware message))
  | .drop, _ => fun _ => pure (.ok ())
  | .twice, next => fun e => do
    match ← next e with
    | .error failure => return .error failure
    | .ok () => next e

/-- The middleware of pages that does a step; there is nothing to reject a page with. -/
def toPageMiddleware : Step Page → PageMiddleware σ
  | .change f, next => fun p => next (f p)
  | .reject _, _ => fun _ => pure ()
  | .drop, _ => fun _ => pure ()
  | .twice, next => fun p => do next p; next p

end Step

/-- The middleware that first notes on the state that it has seen a record. -/
def noting {σ α β : Type} (note : σ → σ) (middleware : (α → StateM σ β) → α → StateM σ β) :
    (α → StateM σ β) → α → StateM σ β :=
  fun next x => do modify note; middleware next x

/-! ## Hiding the values of a header -/

/-- Whether a header has the given name, letter case aside. -/
def isNamed (name : String) (h : NamedValue) : Bool :=
  Text.sameIgnoringCase h.name.toList name.toList

/-- The header with another value if it has the given name. -/
def redactValue (name value : String) (h : NamedValue) : NamedValue :=
  if isNamed name h then { h with value := value } else h

/-- The entry with the values of all headers of a name replaced. What was derived from the headers,
like cookies and media types, keeps the values that it had. -/
def redactEntry (name value : String) (e : Entry) : Entry :=
  { e with
    request := { e.request with headers := e.request.headers.map (redactValue name value) }
    response := { e.response with headers := e.response.headers.map (redactValue name value) } }

/-- The step that replaces the values of all headers of a name. -/
def redactHeader (name value : String) : Step Entry := .change (redactEntry name value)

end ExchangeArchive.Pipeline
