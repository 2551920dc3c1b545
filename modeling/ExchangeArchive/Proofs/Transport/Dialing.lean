import ExchangeArchive.Proofs.Decimal.Digits
import ExchangeArchive.Proofs.Http.Target
import ExchangeArchive.Proofs.Transport.Literals
import ExchangeArchive.Proofs.Transport.Reported
/-
Getting a connection.

What the dialing transport reports before it has a connection is said here by whom it tries:
the addresses of the host up to the first that connects (`tried`). The loop over the addresses
carries the last fault along; `connectFirst_eq` says that its result is that of the last address
tried, whether or not there is one that connects, so the fault that it starts with counts only
if there is nothing to try.

An address is reported as a text and the tracker takes it apart again. The last colon is that
before the port, since a port is written in digits, and it does not matter how many more there
are (`splitHostPort_toText`).
-/

set_option autoImplicit false

namespace ExchangeArchive.Transport

open ExchangeArchive.Decimal ExchangeArchive.Http ExchangeArchive.Text ExchangeArchive.Trace
  ExchangeArchive.Trip

/-! ## Texts of addresses -/

/-- What stands before the port of an address. Around an IPv6 address there are brackets, since it
has colons of its own. -/
def Address.hostText (a : Address) : String :=
  match a.ip with
  | .v4 _ => a.ip.toText
  | .v6 _ => "[" ++ a.ip.toText ++ "]"

/-- The port of an address as it is written. -/
def Address.portText (a : Address) : String := toString a.port

theorem toText_eq (a : Address) : a.toText = a.hostText ++ ":" ++ a.portText := by
  rw [Address.toText, Address.hostText]
  cases a.ip with
  | v4 octets => rfl
  | v6 groups =>
    have hbracket : "]:" = "]" ++ ":" := rfl
    show "[" ++ _ ++ "]:" ++ a.portText = _
    rw [hbracket]
    simp only [String.append_assoc]
    rfl

/-- **The text of an address falls apart at its port**, whatever colons there are before it. -/
theorem splitHostPort_toText (a : Address) :
    splitHostPort a.toText = (a.hostText, a.portText) := by
  have hdigits : ':' ∉ a.portText.toList := by
    intro hmem
    exact absurd (isDigit_natDigits (n := a.port) hmem) (by decide)
  have htext : a.toText.toList = a.hostText.toList ++ ':' :: a.portText.toList := by
    rw [toText_eq]
    simp
  rw [splitHostPort, htext, splitLast?_append _ hdigits]
  simp

/-- A port is written with one digit at least, so the text of an address never ends in its colon. -/
theorem portText_isEmpty (a : Address) : a.portText.isEmpty = false := by
  have hne : a.portText.toList ≠ [] := natDigits_ne_nil a.port
  rw [Bool.eq_false_iff]
  intro hempty
  rw [String.isEmpty_iff] at hempty
  exact hne (by rw [hempty]; rfl)

namespace Http1

/-! ## Trying addresses -/

/-- The addresses that are tried: up to the first that connects. -/
def tried (net : Network) (addresses : List Address) : List Address :=
  addresses.take ((addresses.takeWhile fun a => !(net.connect a).isOk).length + 1)

/-- What is reported of trying an address. It is the same whether or not it connects. -/
def attempt (a : Address) : List Event := [.connectStart a.toText, .connectDone]

/-- What comes of the addresses tried: what the last of them does, or a fault if there is none. -/
def outcome (net : Network) (fault : Fault) (tried : List Address) : Except Fault Connection :=
  match tried.getLast? with
  | none => .error fault
  | some a => (net.connect a).mapError (Fault.unconnected a)

section Trying

variable {net : Network} {a : Address} {rest : List Address}

theorem tried_of_connects (h : (net.connect a).isOk = true) : tried net (a :: rest) = [a] := by
  simp [tried, h]

theorem tried_of_not_connects (h : (net.connect a).isOk = false) :
    tried net (a :: rest) = a :: tried net rest := by
  simp [tried, h]

/-- The outcome is that of the last address also if more were tried before. -/
theorem outcome_cons (fault : Fault) {cause : IoFault} (h : net.connect a = .error cause)
    (tried : List Address) :
    outcome net fault (a :: tried) = outcome net (.unconnected a cause) tried := by
  cases tried with
  | nil =>
    show (net.connect a).mapError _ = _
    rw [h]
    rfl
  | cons b tried =>
    obtain ⟨last, hlast⟩ : ∃ last, (b :: tried).getLast? = some last :=
      ⟨_, List.getLast?_eq_some_getLast (List.cons_ne_nil b tried)⟩
    rw [outcome, outcome, List.getLast?_cons_cons, hlast]

/-- **The addresses are tried up to the first that connects**, and what comes of it is what the
last of them does. -/
theorem connectFirst_eq (net : Network) (fault : Fault) (addresses : List Address) :
    connectFirst net fault addresses
      = ((tried net addresses).flatMap attempt, outcome net fault (tried net addresses)) := by
  induction addresses generalizing fault with
  | nil => rfl
  | cons a rest ih =>
    rw [connectFirst]
    cases hconnect : net.connect a with
    | ok connection =>
      have hok : (net.connect a).isOk = true := by
        rw [hconnect]
        rfl
      rw [tried_of_connects hok, outcome]
      show _ = ([a].flatMap attempt, (net.connect a).mapError _)
      rw [hconnect]
      rfl
    | error cause =>
      have hok : (net.connect a).isOk = false := by
        rw [hconnect]
        rfl
      -- Its fault counts unless another address is tried, and so it goes along as the fault so far.
      rw [tried_of_not_connects hok, outcome_cons fault hconnect]
      dsimp only
      rw [ih]
      rfl

/-- One of the addresses tried connects just if the outcome is a connection, and it is the last
of them. -/
theorem outcome_eq_ok_iff {fault : Fault} {connection : Connection} {addresses : List Address} :
    outcome net fault addresses = .ok connection
      ↔ ∃ a, addresses.getLast? = some a ∧ net.connect a = .ok connection := by
  unfold outcome
  cases hlast : addresses.getLast? with
  | none => simp
  | some a =>
    simp only [Option.some.injEq, exists_eq_left']
    cases net.connect a <;> simp [Except.mapError]

end Trying

/-! ## Getting a connection -/

/-- The addresses that a host stands for or is found to have, with a port. -/
def resolved (net : Network) (host : String) (port : Nat) : Except Fault (List Address) :=
  match Ip.read? (withoutBrackets host) with
  | some ip => .ok [⟨ip, port⟩]
  | none =>
    match net.lookup host with
    | .ok ips => .ok (ips.map fun ip => ⟨ip, port⟩)
    | .error cause => .error (.unresolved host cause)

/-- Whether the host of a target is looked up: it is not if it is an address itself, in brackets or
without. -/
def looksUp (host : String) : Bool := (Ip.read? (withoutBrackets host)).isNone

/-- The addresses tried for a host; there are none if it is not found. -/
def triedFor (net : Network) (host : String) (port : Nat) : List Address :=
  match resolved net host port with
  | .ok addresses => tried net addresses
  | .error _ => []

/-- **A host that is an address is not looked up**, in brackets or without, and that address is
the one that is tried. -/
theorem triedFor_of_read? (net : Network) {text host : String} {ip : Ip}
    (hread : Ip.read? text = some ip) (hhost : host = text ∨ host = "[" ++ text ++ "]")
    (port : Nat) : looksUp host = false ∧ triedFor net host port = [⟨ip, port⟩] := by
  have hip := withoutBrackets_of_read? hread hhost
  have hresolved : resolved net host port = .ok [⟨ip, port⟩] := by
    rw [resolved, hip]
  refine ⟨by rw [looksUp, hip]; rfl, ?_⟩
  rw [triedFor, hresolved]
  -- The one address is tried whether or not it connects.
  cases hconnects : (net.connect ⟨ip, port⟩).isOk with
  | true => exact tried_of_connects hconnects
  | false => exact tried_of_not_connects hconnects

/-- What getting a connection to a host comes to: the fault that it is not found, or what the last
address tried does. -/
def connection (net : Network) (host : String) (port : Nat) : Except Fault Connection :=
  match resolved net host port with
  | .ok addresses => outcome net (.noAddress (hostPort host port)) (tried net addresses)
  | .error fault => .error fault

/-- A connection is one to the last address tried. -/
theorem connection_eq_ok {net : Network} {host : String} {port : Nat} {made : Connection}
    (h : connection net host port = .ok made) :
    ∃ a, (triedFor net host port).getLast? = some a ∧ net.connect a = .ok made := by
  rw [connection] at h
  rw [triedFor]
  cases hresolved : resolved net host port with
  | error fault =>
    rw [hresolved] at h
    cases h
  | ok addresses =>
    rw [hresolved] at h
    exact outcome_eq_ok_iff.mp h

/-- What is reported until there is a connection, or until there is none: the lookup if there is
one, and then each address tried. -/
def dialing (net : Network) (host : String) (port : Nat) : List Event :=
  .getConnection (hostPort host port)
    :: (if looksUp host then [.dnsStart host, .dnsDone] else [])
    ++ (triedFor net host port).flatMap attempt
    ++ if (connection net host port).isOk then [.gotConnection false] else []

theorem addresses_eq (net : Network) (host : String) (port : Nat) :
    addresses net host port
      = (if looksUp host then [.dnsStart host, .dnsDone] else [], resolved net host port) := by
  rw [addresses, looksUp, resolved]
  cases Ip.read? (withoutBrackets host) with
  | some ip => rfl
  | none => rfl

theorem dial_eq (net : Network) (host : String) (port : Nat) :
    dial net host port
      = ((if looksUp host then [.dnsStart host, .dnsDone] else [])
          ++ (triedFor net host port).flatMap attempt,
        connection net host port) := by
  rw [dial, addresses_eq, triedFor, connection]
  cases resolved net host port with
  | error fault => simp
  | ok found =>
    dsimp only
    rw [connectFirst_eq]

/-- The port that a connection for a target is made to. -/
def portOf (u : Uri) : Nat := u.port?.getD defaultPort

variable {head : RequestHead} {host : String}

theorem hostOf_eq_ok_iff {u : Uri} :
    hostOf u = .ok host ↔ u.scheme = some "http" ∧ u.host? = some host := by
  rw [hostOf]
  by_cases hscheme : u.scheme = some "http"
  · rw [if_neg (by simp [hscheme])]
    cases u.host? <;> simp [hscheme]
  · rw [if_pos (by simpa using hscheme)]
    simp [hscheme]

/-- A target of another scheme is served by nothing: it is refused before anything is reported or
tried. -/
theorem reply_of_scheme (net : Network) (hscheme : head.uri.scheme ≠ some "http") :
    reply net head = ⟨[], .error (Fault.badScheme (head.uri.scheme.getD "")).message⟩ := by
  have hhost : hostOf head.uri = .error (.badScheme (head.uri.scheme.getD "")) := by
    rw [hostOf, if_pos (by simpa using hscheme)]
  rw [reply, hhost]

/-- The addresses tried for a request; there are none if its target cannot be served, for want of a
host or because of its scheme. -/
def triedOf (net : Network) (u : Uri) : List Address :=
  match hostOf u with
  | .ok host => triedFor net host (portOf u)
  | .error _ => []

/-- What the transport does with a request to a host: it gets a connection, and what else happens
is up to the connection. -/
def served (net : Network) (host : String) (head : RequestHead) : Reply :=
  let reports := (dialing net host (portOf head.uri)).map Action.report
  match connection net host (portOf head.uri) with
  | .error fault => ⟨reports, .error fault.message⟩
  | .ok connection =>
    let exchange := connection (prepare host head)
    ⟨reports ++ actions {} exchange.moments, exchange.answer⟩

/-- **A request is served by trying the addresses of its host.** -/
theorem reply_eq (net : Network) (hscheme : head.uri.scheme = some "http")
    (hhost : head.uri.host? = some host) : reply net head = served net host head := by
  have hserved : hostOf head.uri = .ok host := hostOf_eq_ok_iff.mpr ⟨hscheme, hhost⟩
  have hport : head.uri.port?.getD defaultPort = portOf head.uri := rfl
  rw [reply, hserved, served]
  dsimp only
  rw [hport, dial_eq, dialing]
  cases hconnection : connection net host (portOf head.uri) with
  | error fault => simp [Except.isOk, Except.toBool]
  | ok connection => simp [Except.isOk, Except.toBool]

end Http1

end ExchangeArchive.Transport
