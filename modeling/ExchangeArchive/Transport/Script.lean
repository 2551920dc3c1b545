import ExchangeArchive.Body.Script
import ExchangeArchive.Http.Message
import ExchangeArchive.Trace.Event
/-
Transports as scripts.

What a transport does with one request is a list of actions and then a response or a
failure. It can let time pass, read the request body, keep the body or drop it, and
report events.
-/

set_option autoImplicit false

namespace ExchangeArchive.Transport

open ExchangeArchive.Body ExchangeArchive.Http ExchangeArchive.Trace

/-- One thing that a transport does. -/
inductive Action where
  | wait (nanos : Nat)
  /-- Polls the request body so many times. -/
  | read (polls : Nat)
  /-- Drains the request body, and fails if that ends in an error. -/
  | readAll
  /-- Drops the request body. -/
  | dropBody
  /-- Keeps the request body beyond the call. -/
  | holdBody
  | report (event : Event)

/-- What a transport does with a request: its actions, and then the response with its body
or the text of a failure. -/
structure Reply where
  actions : List Action
  answer : Except String (ResponseHead × Script)

end ExchangeArchive.Transport
