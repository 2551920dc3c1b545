/-
The events of one request's way over the network, as its transport reports them.
-/

set_option autoImplicit false

namespace ExchangeArchive.Trace

/-- An event on a request's way. -/
inductive Event where
  /-- A connection to a host and port is about to be obtained. -/
  | getConnection (hostPort : String)
  /-- A connection was obtained, freshly dialed or reused. -/
  | gotConnection (reused : Bool)
  | dnsStart (host : String)
  | dnsDone
  /-- Dialing an address, a host with a port, has begun. -/
  | connectStart (address : String)
  | connectDone
  | tlsStart
  | tlsDone
  /-- The whole request has been written, its body included. -/
  | wroteRequest
  | firstResponseByte
  deriving DecidableEq, Repr

end ExchangeArchive.Trace
