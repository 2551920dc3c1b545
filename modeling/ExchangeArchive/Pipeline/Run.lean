import ExchangeArchive.Pipeline.Middleware
/-
Pipelines, run from the first step to the last.

A run takes a record through a list of steps and hands what comes out to the receiver:
the first step sees the record first, and each later step sees what the one before
forwarded. It says the same as the nested sinks of a pipeline, without sinks inside
sinks.
-/

set_option autoImplicit false

namespace ExchangeArchive.Pipeline

open ExchangeArchive.Archive

variable {σ : Type}

/-- Takes an entry through steps to the receiver. -/
def runEntry (receive : EntrySink σ) : List (Step Entry) → EntrySink σ
  | [], e => receive e
  | .change f :: rest, e => runEntry receive rest (f e)
  | .reject message :: _, _ => pure (.error (.middleware message))
  | .drop :: _, _ => pure (.ok ())
  | .twice :: rest, e => do
    match ← runEntry receive rest e with
    | .error failure => return .error failure
    | .ok () => runEntry receive rest e

/-- Takes a page through steps to the receiver. -/
def runPage (receive : PageSink σ) : List (Step Page) → PageSink σ
  | [], p => receive p
  | .change f :: rest, p => runPage receive rest (f p)
  | .reject _ :: _, _ => pure ()
  | .drop :: _, _ => pure ()
  | .twice :: rest, p => do runPage receive rest p; runPage receive rest p

end ExchangeArchive.Pipeline
