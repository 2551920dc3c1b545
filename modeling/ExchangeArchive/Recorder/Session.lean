import ExchangeArchive.Page.Registry
import ExchangeArchive.Pipeline.Middleware
import ExchangeArchive.Receiver.Receiver
/-
The state that all calls of a recorder share.

A session has the clock, the disk, the receiver and the pages under way, and it knows
which numbered middleware have seen a record. Its sinks hand records to the receiver.
-/

set_option autoImplicit false

namespace ExchangeArchive

open ExchangeArchive.Archive ExchangeArchive.Pipeline ExchangeArchive.Storage
  ExchangeArchive.Time

/-- The shared state of a recorder. -/
structure Session where
  clock : Clock
  disk : Disk := {}
  receiver : Receiver := .memory {}
  pages : Page.Registry := {}
  /-- The numbers of the middleware that saw a record, in order. -/
  noted : List Nat := []

namespace Session

/-- The nanoseconds since the clock was started. -/
def now (s : Session) : Nat := s.clock.elapsed

/-- Lets time pass. -/
def advance (nanos : Nat) (s : Session) : Session := { s with clock := s.clock.advance nanos }

/-- Notes that a middleware saw a record. -/
def note (number : Nat) (s : Session) : Session := { s with noted := s.noted ++ [number] }

/-- The session after an operation of its receiver, and whether that went well. The receiver and the
disk are kept as they are then, also if it did not. -/
def after (s : Session) (o : Receiver.Outcome Receiver) : Except Error Unit × Session :=
  (o.result, { s with receiver := o.receiver, disk := o.disk })

/-- Hands an entry to the receiver. -/
def receiveEntry : EntrySink Session := fun e s =>
  s.after (s.receiver.entry s.clock e s.disk)

/-- Hands a page to the receiver, which has no way to say that it could not take it. -/
def receivePage : PageSink Session := fun p s =>
  ((), (s.after (s.receiver.page s.clock p s.disk)).2)

/-- Prepares the receiver. -/
def start (v : Version) : StateM Session (Except Error Unit) := fun s =>
  s.after (s.receiver.start v s.disk)

/-- Flushes the receiver. -/
def flush : StateM Session (Except Error Unit) := fun s =>
  s.after (s.receiver.flush s.clock s.disk)

/-- Closes the receiver. -/
def close : StateM Session (Except Error Unit) := fun s => s.after (s.receiver.close s.disk)

/-- The pipeline to the receiver of a session. -/
def pipeline (entryMiddleware : List (EntryMiddleware Session))
    (pageMiddleware : List (PageMiddleware Session)) : Pipeline Session :=
  .new receiveEntry receivePage entryMiddleware pageMiddleware

/-- Ends a page now: takes it out of the registry and then sends it through a pipeline, if it
was registered. Middleware that looks for the page meanwhile does not find it any more. -/
def finalizePage (p : Pipeline Session) (id : String) (s : Session) : Session :=
  match s.pages.take s.now id with
  | (_, none) => s
  | (pages, some page) => (p.sendPage page { s with pages := pages }).2

end Session

end ExchangeArchive
