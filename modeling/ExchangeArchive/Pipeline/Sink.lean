import ExchangeArchive.Archive.Record
import ExchangeArchive.Error
/-
The way of records to a receiver.

A sink takes a record, acts on a state, and for entries says whether that went well. A
middleware makes a sink out of the next one. A pipeline is the receiver's sinks inside
all the middleware: the middleware given first is outermost and sees each record first.
-/

set_option autoImplicit false

namespace ExchangeArchive.Pipeline

open ExchangeArchive.Archive

/-- Takes a finished entry. What it says of how that went gets back to whoever delivered it,
through all the middleware. -/
abbrev EntrySink (σ : Type) := Entry → StateM σ (Except Error Unit)

/-- Takes a finished page; it cannot fail, or cannot say so. -/
abbrev PageSink (σ : Type) := Page → StateM σ Unit

/-- Makes a sink of entries out of the next one. -/
abbrev EntryMiddleware (σ : Type) := EntrySink σ → EntrySink σ

/-- Makes a sink of pages out of the next one. -/
abbrev PageMiddleware (σ : Type) := PageSink σ → PageSink σ

/-- A sink inside middleware, the first of which is outermost. -/
def compose {τ : Type} (middleware : List (τ → τ)) (sink : τ) : τ :=
  middleware.foldr (fun m next => m next) sink

/-- A pipeline of more middleware is one pipeline built over another. -/
theorem compose_append {τ : Type} (m n : List (τ → τ)) (sink : τ) :
    compose (m ++ n) sink = compose m (compose n sink) := by
  simp [compose, List.foldr_append]

end ExchangeArchive.Pipeline

namespace ExchangeArchive

open ExchangeArchive.Archive ExchangeArchive.Pipeline

/-- The sinks through which records reach a receiver. -/
structure Pipeline (σ : Type) where
  sendEntry : EntrySink σ
  sendPage : PageSink σ

namespace Pipeline

/-- The pipeline to a receiver's sinks. -/
def new {σ : Type} (entry : EntrySink σ) (page : PageSink σ)
    (entryMiddleware : List (EntryMiddleware σ)) (pageMiddleware : List (PageMiddleware σ)) :
    Pipeline σ :=
  ⟨compose entryMiddleware entry, compose pageMiddleware page⟩

end Pipeline

end ExchangeArchive
