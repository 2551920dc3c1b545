import ExchangeArchive.Text.Quoted
import ExchangeArchive.Transport.Address
import ExchangeArchive.Transport.Stream
/-
The transport that opens a connection for each request.

It finds out the addresses of the host, tries them one after the other, and sends the
request over the first connection that it gets. What it does is reported on the way:
looking for a connection, the lookup unless the host is an address itself, each attempt
to connect, and the connection. The request is sent with its path and query only, and it
names its host in a header.
-/

set_option autoImplicit false

namespace ExchangeArchive.Transport

open ExchangeArchive.Http ExchangeArchive.Trace

/-- A connection: what happens to a request on it. -/
abbrev Connection := RequestHead → Exchange

/-- The network as a transport sees it for one request. What becomes of an attempt to connect is
settled by the address alone, so a host that has an address twice cannot be refused there first and
get a connection later; and the addresses of a network have no zones, by which two IPv6 addresses
with the same groups could differ. -/
structure Network where
  /-- The addresses of a host. -/
  lookup : String → Except IoFault (List Ip)
  /-- Connects to an address. -/
  connect : Address → Except IoFault Connection

namespace Http1

/-- Why there is no connection for a request. -/
inductive Fault where
  | noHost
  | badScheme (scheme : String)
  /-- The lookup of a host failed. -/
  | unresolved (host : String) (cause : IoFault)
  /-- A host has no addresses. -/
  | noAddress (hostPort : String)
  /-- An address cannot be connected to. -/
  | unconnected (address : Address) (cause : IoFault)
  deriving DecidableEq, Repr

/-- The wording of a fault. -/
def Fault.message : Fault → String
  | .noHost => "request URI has no host"
  | .badScheme scheme => "unsupported URI scheme " ++ Text.quoted scheme
  | .unresolved host cause => s!"failed to resolve {host}: {cause.message}"
  | .noAddress hostPort => s!"{hostPort} resolved to no addresses"
  | .unconnected address cause => s!"failed to connect to {address.toText}: {cause.message}"

/-! ## Connecting -/

/-- The port of a target that names none. -/
def defaultPort : Nat := 80

/-- A host with a port. -/
def hostPort (host : String) (port : Nat) : String := s!"{host}:{port}"

/-- The text without opening brackets before it and closing ones after it. -/
def withoutBrackets (host : String) : String :=
  let cs := host.toList.dropWhile (· == '[')
  String.ofList (cs.reverse.dropWhile (· == ']')).reverse

/-- The addresses of a host with a port, and what is reported. -/
def addresses (net : Network) (host : String) (port : Nat) :
    List Event × Except Fault (List Address) :=
  match Ip.read? (withoutBrackets host) with
  | some ip => ([], .ok [⟨ip, port⟩])
  | none =>
    let found := match net.lookup host with
      | .ok ips => .ok (ips.map fun ip => ⟨ip, port⟩)
      | .error cause => .error (.unresolved host cause)
    ([.dnsStart host, .dnsDone], found)

/-- Tries addresses up to the first that can be connected to; if none can, the last fault
counts. -/
def connectFirst (net : Network) : (fault : Fault) → List Address →
    List Event × Except Fault Connection
  | fault, [] => ([], .error fault)
  | _, a :: rest =>
    match net.connect a with
    | .ok connection => ([.connectStart a.toText, .connectDone], .ok connection)
    | .error cause =>
      let (events, result) := connectFirst net (.unconnected a cause) rest
      (.connectStart a.toText :: .connectDone :: events, result)

/-- Gets a connection to a host, new each time: what is reported of it, and the connection or the
fault. -/
def dial (net : Network) (host : String) (port : Nat) :
    List Event × Except Fault Connection :=
  match addresses net host port with
  | (events, .error fault) => (events, .error fault)
  | (events, .ok as) =>
    let (more, result) := connectFirst net (.noAddress (hostPort host port)) as
    (events ++ more, result)

/-! ## The request -/

/-- The name of the header that names the host. -/
def hostName : String := "host"

/-- The value that names the host of a target, with the port if the target has one. -/
def hostValue (host : String) (u : Uri) : String :=
  match u.port? with
  | some port => hostPort host port
  | none => host

/-- The request as it is sent to a host: with its path and query as the target, and with the header
that names the host unless the caller has set it. -/
def prepare (host : String) (head : RequestHead) : RequestHead where
  method := head.method
  uri := ⟨none, none, head.uri.shownPath, head.uri.query⟩
  version := head.version
  headers :=
    if head.headers.contains hostName then head.headers
    else head.headers.append hostName (Text.Utf8.encode (hostValue host head.uri).toList)

/-- The host of a target that this transport can serve. -/
def hostOf (u : Uri) : Except Fault String :=
  if u.scheme != some "http" then .error (.badScheme (u.scheme.getD ""))
  else match u.host? with
    | some host => .ok host
    | none => .error .noHost

/-- What this transport does with a request. -/
def reply (net : Network) (head : RequestHead) : Reply :=
  match hostOf head.uri with
  | .error fault => ⟨[], .error fault.message⟩
  | .ok host =>
    let port := head.uri.port?.getD defaultPort
    let (events, dialed) := dial net host port
    let dialing := (.getConnection (hostPort host port) :: events).map Action.report
    match dialed with
    | .error fault => ⟨dialing, .error fault.message⟩
    | .ok connection =>
      let exchange := connection (prepare host head)
      ⟨dialing ++ .report (.gotConnection false) :: actions {} exchange.moments,
        exchange.answer⟩

end Http1

end ExchangeArchive.Transport
