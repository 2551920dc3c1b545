import ExchangeArchive.Proofs.Transport.Dialing
/-
Where a request goes, and what is sent there.

A request is sent to the host and to the port that its target names, with the path and the query
alone, and with the host and the port in a header unless it has that header. The host and the port
are taken from the authority for the connection and again for the header; both times they are those
of the one way in which it has its parts (`Authority.Of`).

Two things are put together from texts on the way, the header and the new target, and both could
be refused. `assemble` builds the request with these refusals. They never happen for a target that
was read (`assemble_eq_ok`): an authority is of visible ASCII, and a path and a query are read again
from their octets.

Where the text of a port is no number, the transport goes on as if there were none.
-/

set_option autoImplicit false

namespace ExchangeArchive.Transport.Http1

open ExchangeArchive.Decimal ExchangeArchive.Http ExchangeArchive.Text ExchangeArchive.Trace

/-! ## Where a request is to go -/

/-- The port that an authority names: the default if nothing is written for one, and none if
what is written is no number below `2 ^ 16`. -/
def namedPort? (p : Authority) : Option Nat :=
  match p.portText? with
  | none => some defaultPort
  | some [] => some defaultPort
  | some cs => Uri.portNumber? cs

/-- An address that a host stands for or is found to have. A host that is an address has just that,
and is not looked up. -/
def IsAddressOf (net : Network) (host : String) (ip : Ip) : Prop :=
  Ip.read? (withoutBrackets host) = some ip ∨
    (looksUp host = true ∧ ∃ ips, net.lookup host = .ok ips ∧ ip ∈ ips)

/-- What a transport does that sends a request to a port of a host: it gets a connection, and what
else happens, to the body too, is up to the connection. -/
def sendTo (net : Network) (host : String) (port : Nat) (request : RequestHead) : Reply :=
  let reports := (dialing net host port).map Action.report
  match connection net host port with
  | .error fault => ⟨reports, .error fault.message⟩
  | .ok connection =>
    let exchange := connection request
    ⟨reports ++ actions {} exchange.moments, exchange.answer⟩

/-- Before anything else it is reported where the connection is to go. -/
theorem begins_sendTo (net : Network) (host : String) (port : Nat) (request : RequestHead) :
    ∃ later, (sendTo net host port request).actions
      = .report (.getConnection (hostPort host port)) :: later := by
  rw [sendTo]
  cases connection net host port with
  | error fault => exact ⟨_, rfl⟩
  | ok connection => exact ⟨_, rfl⟩

theorem served_eq (net : Network) (host : String) (head : RequestHead) :
    served net host head = sendTo net host (portOf head.uri) (prepare host head) := by
  cases hconnection : connection net host (portOf head.uri) with
  | error fault => simp only [served, sendTo, hconnection]
  | ok connection => simp only [served, sendTo, hconnection]

/-- The addresses that are tried are those of the host, with the port. -/
theorem address_of_triedFor {net : Network} {host : String} {port : Nat} {a : Address}
    (h : a ∈ triedFor net host port) : a.port = port ∧ IsAddressOf net host a.ip := by
  rw [triedFor, resolved] at h
  cases hip : Ip.read? (withoutBrackets host) with
  | some ip =>
    rw [hip] at h
    obtain rfl : a = ⟨ip, port⟩ := by simpa using List.mem_of_mem_take h
    exact ⟨rfl, .inl hip⟩
  | none =>
    rw [hip] at h
    cases hlookup : net.lookup host with
    | error cause =>
      rw [hlookup] at h
      cases h
    | ok ips =>
      rw [hlookup] at h
      obtain ⟨ip, hip', rfl⟩ := List.mem_map.mp (List.mem_of_mem_take h)
      exact ⟨rfl, .inr ⟨by rw [looksUp, hip]; rfl, ips, hlookup, hip'⟩⟩

section Named

variable {u : Uri} {authority : String} {p : Authority}

theorem port?_eq (hauthority : u.authority = some authority) (h : p.Of authority) :
    u.port? = p.port? := by
  rw [Uri.port?, hauthority]
  exact Authority.port?_of h

/-- The port of a connection is the one that is named, or the default if there is none. -/
theorem portOf_eq (hauthority : u.authority = some authority) (h : p.Of authority) :
    portOf u = (namedPort? p).getD defaultPort := by
  rw [portOf, port?_eq hauthority h, Authority.port?, namedPort?]
  cases p.portText? with
  | none => rfl
  | some cs =>
    cases cs with
    | nil => rfl
    | cons c cs => rfl

end Named

/-! ## The target that is sent -/

/-- The path and the query of a target, the path being a slash if it is empty. This is the form in
which a target is sent to an origin. -/
def originForm (u : Uri) : String := (if u.path.isEmpty then "/" else u.path) ++ u.shownQuery

/-- The path and the query of a target as one text. -/
def pathAndQuery (u : Uri) : String :=
  if (u.path ++ u.shownQuery).isEmpty then "/" else u.path ++ u.shownQuery

/-- What could be refused when a request is built. It is proved that nothing is. -/
inductive Unbuilt where
  /-- The text for the header that names the host. -/
  | hostHeader
  /-- The text of the path and the query. -/
  | target (fault : UriFault)

/-- The request as it is built for a host, each part being read from its text. The transport does
this in one step; here each part could be refused by itself. -/
def assemble (host : String) (head : RequestHead) : Except Unbuilt RequestHead := do
  let value := Utf8.encode (hostValue host head.uri).toList
  let headers ←
    if head.headers.contains hostName then .ok head.headers
    else if (Headers.text? value).isSome then .ok (head.headers.append hostName value)
    else .error .hostHeader
  let (path, query) ← (Uri.readPathAndQuery (Utf8.encode (pathAndQuery head.uri).toList)).mapError
    Unbuilt.target
  return { head with uri := ⟨none, none, path, query⟩, headers }

section Sent

variable {u : Uri} {host : String} {head : RequestHead}

theorem toText_path (path : String) (query : Option String) :
    (⟨none, none, path, query⟩ : Uri).toText
      = (if path.isEmpty && query.isSome then "/" else path)
        ++ (⟨none, none, path, query⟩ : Uri).shownQuery := by
  simp [Uri.toText, Uri.shownPath]

/-- What is sent for a target is its path and its query. -/
theorem toText_prepare (hscheme : head.uri.scheme = some "http") :
    (prepare host head).uri.toText = originForm head.uri := by
  have hpath : head.uri.shownPath = if head.uri.path.isEmpty then "/" else head.uri.path := by
    rw [Uri.shownPath, hscheme]
    simp
  rw [prepare, toText_path, originForm, hpath]
  split
  · rfl
  · next hpath => simp [hpath, Uri.shownQuery]

/-- A target begins with a slash if its path does, if there is one. -/
theorem slash_of_path (h : u.path = "" ∨ ∃ more, u.path.toList = '/' :: more) :
    ∃ more, (originForm u).toList = '/' :: more := by
  rw [originForm, String.toList_append]
  rcases h with hpath | ⟨more, hpath⟩
  · rw [hpath]
    exact ⟨_, rfl⟩
  · have hsome : u.path.isEmpty = false := by
      rw [Bool.eq_false_iff, ne_eq, String.isEmpty_iff]
      intro hempty
      rw [hempty] at hpath
      cases hpath
    rw [if_neg (by simp [hsome]), hpath]
    exact ⟨_, rfl⟩

/-- **The target is built again from its text.** What was read once as the path and query of a
target is read again, though it is now without the scheme and the authority before it. -/
theorem target_again {bs : List UInt8}
    (h : Uri.readPathAndQuery bs = .ok (u.path, u.query)) :
    ∃ path query, Uri.readPathAndQuery (Utf8.encode (pathAndQuery u).toList) = .ok (path, query) ∧
      (⟨none, none, path, query⟩ : Uri).toText = originForm u := by
  rw [pathAndQuery]
  split
  · next hempty =>
    -- There is neither, and a slash is read instead.
    have htext : u.path ++ u.shownQuery = "" := String.isEmpty_iff.mp hempty
    obtain ⟨hpath, hquery⟩ : u.path = "" ∧ u.shownQuery = "" := by simpa using htext
    refine ⟨"/", none, by decide +kernel, ?_⟩
    rw [originForm, hpath, hquery]
    rfl
  · next hmore =>
    refine ⟨u.path, u.query, Uri.readPathAndQuery_again h, ?_⟩
    rw [toText_path, originForm]
    have hshown : (⟨none, none, u.path, u.query⟩ : Uri).shownQuery = u.shownQuery := rfl
    rw [hshown]
    cases hquery : u.query with
    | none =>
      -- There is a path, since there is something.
      have hpath : u.path.isEmpty = false := by
        rw [Uri.shownQuery, hquery] at hmore
        simpa using hmore
      simp [hpath]
    | some query => simp

end Sent

/-! ## The header that names the host -/

/-- The value of a header may be a visible text, which a host and a port always are. -/
theorem text?_encode {cs : List Char} (h : ∀ c ∈ cs, IsGraphic c) :
    (Headers.text? (Utf8.encode cs)).isSome = true := by
  have hoctets : Utf8.encode cs = cs.map fun c => UInt8.ofNat c.toNat :=
    Utf8.encode_ascii fun c hc => Nat.le_of_lt (h c hc).2
  have hall : ∀ b ∈ Utf8.encode cs, ((0x20 ≤ b && b < 0x7F) || b == 0x09) = true := by
    rw [hoctets]
    intro b hb
    obtain ⟨c, hc, rfl⟩ := List.mem_map.mp hb
    obtain ⟨hlow, hhigh⟩ := h c hc
    have hb : (UInt8.ofNat c.toNat).toNat = c.toNat := Utf8.toNat_ofNat (by omega)
    simp only [Bool.or_eq_true, Bool.and_eq_true, decide_eq_true_eq, UInt8.le_iff_toNat_le,
      UInt8.lt_iff_toNat_lt, hb]
    exact .inl ⟨Nat.le_of_lt hlow, hhigh⟩
  rw [Headers.text?, if_pos (List.all_eq_true.mpr hall)]
  rfl

theorem isGraphic_hostPort {host : String} (h : ∀ c ∈ host.toList, IsGraphic c) (port : Nat) :
    ∀ c ∈ (hostPort host port).toList, IsGraphic c := by
  have htext : (hostPort host port).toList = host.toList ++ ':' :: natDigits port := by
    simp [hostPort, natDigits_eq]
    rfl
  rw [htext]
  intro c hc
  rcases List.mem_append.mp hc with hc | hc
  · exact h c hc
  · rcases List.mem_cons.mp hc with rfl | hc
    · decide
    · have hdigit := toNat_of_isDigit (isDigit_natDigits hc)
      exact ⟨by omega, by omega⟩

/-- A header that is not there is put at the end. -/
theorem append_of_not_contains {h : Headers} {name : String} (hnot : h.contains name = false)
    (value : List UInt8) : h.append name value = ⟨h.fields ++ [(name, value)]⟩ := by
  obtain ⟨fields⟩ := h
  rw [Headers.contains, List.any_eq_false] at hnot
  rw [Headers.append, Headers.mk.injEq]
  dsimp only at hnot ⊢
  induction fields with
  | nil => rfl
  | cons field fields ih =>
    -- It goes behind every field that has another name.
    obtain ⟨hfirst, hrest⟩ := List.forall_mem_cons.mp hnot
    rw [Headers.place, if_neg (by simp [hfirst]), ih hrest]
    rfl

/-! ## The request that is sent -/

/-- A request as it is sent to a host, with its port if it has one: the target loses its scheme and
its authority, and the headers name the host unless they did already. -/
structure Sent (head : RequestHead) (host : String) (port? : Option Nat) (sent : RequestHead) :
    Prop where
  method : sent.method = head.method
  version : sent.version = head.version
  target : sent.uri.toText = originForm head.uri
  headers : sent.headers =
    if head.headers.contains hostName then head.headers
    else ⟨head.headers.fields ++ [(hostName, Utf8.encode
      (match port? with
        | some port => hostPort host port
        | none => host).toList)]⟩

section Building

variable {head : RequestHead} {host : String}

theorem sent_prepare (hscheme : head.uri.scheme = some "http") :
    Sent head host head.uri.port? (prepare host head) where
  method := rfl
  version := rfl
  target := toText_prepare hscheme
  headers := by
    rw [prepare]
    cases hcontains : head.headers.contains hostName with
    | true => rfl
    | false =>
      dsimp only
      rw [append_of_not_contains hcontains]
      rfl

/-- **Building the request never fails**, and what is built is what is sent. -/
theorem assemble_eq_ok {bs : List UInt8} (hscheme : head.uri.scheme = some "http")
    (htail : Uri.readPathAndQuery bs = .ok (head.uri.path, head.uri.query))
    (hhost : ∀ c ∈ host.toList, IsGraphic c) :
    ∃ built, assemble host head = .ok built ∧ Sent head host head.uri.port? built := by
  have hvalue : (Headers.text? (Utf8.encode (hostValue host head.uri).toList)).isSome = true := by
    apply text?_encode
    rw [hostValue]
    split
    · exact isGraphic_hostPort hhost _
    · exact hhost
  obtain ⟨path, query, hread, htext⟩ := target_again htail
  have hprepared : Sent head host head.uri.port? (prepare host head) := sent_prepare hscheme
  refine ⟨{ prepare host head with uri := ⟨none, none, path, query⟩ }, ?_,
    { hprepared with target := htext }⟩
  rw [assemble, hread]
  cases hcontains : head.headers.contains hostName with
  | true => simp [prepare, hcontains]; rfl
  | false => simp [prepare, hcontains, hvalue]; rfl

end Building

/-! ## Requests to targets -/

/-- **A request goes where its target says.** A target of the scheme `http` has an authority, which
has its parts in one way. The connection is to the host among them and to the port that they name;
where what is written for the port is no number, the request is not refused and the default port is
taken. Only addresses of that host are tried, with that port.

What is sent has the path and the query as its target, beginning with a slash, and the header that
names the host: that of the request if it has one, and otherwise with the host and with the port if
one is written that is a number, which is then the port of the connection. The method, the version
and the other headers are those of the request. It can always be built. -/
theorem sent_where_target_says (net : Network) {octets : List UInt8} {head : RequestHead}
    (hread : Uri.read octets = .ok head.uri) (hscheme : head.uri.scheme = some "http") :
    ∃ text, ∃ authority : Authority, head.uri.authority = some text ∧ authority.Of text
      ∧ (∀ other : Authority, other.Of text → other = authority)
      ∧ let host := String.ofList authority.host
        let port := (namedPort? authority).getD defaultPort
        reply net head = sendTo net host port (prepare host head)
          ∧ (∃ later, (reply net head).actions
            = .report (.getConnection (hostPort host port)) :: later)
          ∧ (∀ a ∈ triedFor net host port, a.port = port ∧ IsAddressOf net host a.ip)
          ∧ Sent head host authority.port? (prepare host head)
          ∧ (∀ shown, authority.port? = some shown → shown = port)
          ∧ (∃ more, (originForm head.uri).toList = '/' :: more)
          ∧ ∃ built, assemble host head = .ok built ∧ Sent head host authority.port? built := by
  obtain ⟨rest, octets, hwith⟩ := Uri.readWith_of_read hread hscheme
  -- Everything that is taken from the authority is said by its parts from here on.
  obtain ⟨⟨authority, hof⟩, hgraphic⟩ := Uri.parts_of_readAuthority hwith.front
  have hauthority : head.uri.authority = some (ofAscii octets) := by
    rw [hwith.parts]
  have hhost : head.uri.host? = some (String.ofList authority.host) := by
    rw [Uri.host?, hauthority, Option.map_some, Authority.hostOf_of hof]
  have hport := port?_eq hauthority hof
  have hdialed := portOf_eq hauthority hof
  have hreply : reply net head = sendTo net (String.ofList authority.host)
      ((namedPort? authority).getD defaultPort) (prepare (String.ofList authority.host) head) := by
    rw [reply_eq net hscheme hhost, ← hdialed, served_eq]
  refine ⟨ofAscii octets, authority, hauthority, hof, fun other hother => hother.unique hof, hreply,
    ?_, ?_, ?_, ?_, ?_, ?_⟩
  · rw [hreply]
    exact begins_sendTo net _ _ _
  · intro a ha
    exact address_of_triedFor ha
  · rw [← hport]
    exact sent_prepare hscheme
  · intro shown hshown
    rw [← hdialed, portOf, hport, hshown]
    rfl
  · exact slash_of_path hwith.path
  · rw [← hport]
    refine assemble_eq_ok hscheme hwith.tail fun c hc => hgraphic c ?_
    rw [String.toList_ofList] at hc
    rw [hof.text]
    exact List.mem_append_right _ (List.mem_append_left _ hc)

/-- A target with user information, an IPv6 address, a port and a query, but without a path. -/
theorem sent_where_target_says_ipv6 :
    let head : RequestHead :=
      ⟨"GET", ⟨some "http", some "u:1@[::1]:8080", "", some "q=1"⟩, .http11, .empty⟩
    let net : Network := ⟨fun _ => .ok [], fun _ => .error (.system .refused)⟩
    Uri.read (Utf8.encode "http://u:1@[::1]:8080?q=1".toList) = .ok head.uri
      ∧ reply net head = sendTo net "[::1]" 8080 (prepare "[::1]" head)
      ∧ (prepare "[::1]" head).uri.toText = "/?q=1"
      ∧ (prepare "[::1]" head).headers = ⟨[("host", Utf8.encode "[::1]:8080".toList)]⟩ := by
  intro head net
  have hread : Uri.read (Utf8.encode "http://u:1@[::1]:8080?q=1".toList) = .ok head.uri := by
    decide +kernel
  let parts : Authority := ⟨"u:1@".toList, "[::1]".toList, ":8080".toList⟩
  have hof : parts.Of "u:1@[::1]:8080" :=
    ⟨by decide, .inr ⟨"u:1".toList, rfl⟩, by decide, .inl ⟨"::1".toList, rfl, by decide⟩⟩
  obtain ⟨text, authority, htext, -, hunique, hreply, -, -, hsent, -⟩ :=
    sent_where_target_says net hread rfl
  obtain rfl : "u:1@[::1]:8080" = text := Option.some.inj htext
  obtain rfl : parts = authority := hunique parts hof
  exact ⟨hread, hreply, hsent.target, hsent.headers⟩

/-- A target whose port is no number is not refused: a connection to the default port is tried, as
if no port were written. -/
theorem invalid_port_is_dialed :
    let head : RequestHead :=
      ⟨"GET", ⟨some "http", some "127.0.0.1:99999", "/", none⟩, .http11, .empty⟩
    let authority : Authority := ⟨[], "127.0.0.1".toList, ":99999".toList⟩
    let net : Network :=
      ⟨fun _ => .ok [], fun _ => .error (.system .networkUnreachable)⟩
    Uri.read (Utf8.encode "http://127.0.0.1:99999/".toList) = .ok head.uri
      ∧ authority.Of "127.0.0.1:99999"
      ∧ authority.portText? = some "99999".toList ∧ namedPort? authority = none
      ∧ reply net head = ⟨[.report (.getConnection "127.0.0.1:80"),
          .report (.connectStart "127.0.0.1:80"), .report .connectDone],
        .error "failed to connect to 127.0.0.1:80: Network is unreachable (os error 101)"⟩ := by
  intro head authority net
  have hof : authority.Of "127.0.0.1:99999" :=
    ⟨by decide, .inl rfl, by decide, .inr ⟨by decide, by decide, .inr ⟨_, rfl⟩⟩⟩
  refine ⟨by decide +kernel, hof, by decide +kernel, by decide +kernel, ?_⟩
  have hdialing : dialing net "127.0.0.1" (portOf head.uri)
      = [.getConnection "127.0.0.1:80", .connectStart "127.0.0.1:80", .connectDone] := by
    decide +kernel
  have hconnection : connection net "127.0.0.1" (portOf head.uri)
      = .error (.unconnected ⟨.v4 #v[127, 0, 0, 1], 80⟩ (.system .networkUnreachable)) := rfl
  have hmessage : (Fault.unconnected ⟨.v4 #v[127, 0, 0, 1], 80⟩
      (.system .networkUnreachable)).message
      = "failed to connect to 127.0.0.1:80: Network is unreachable (os error 101)" := by
    decide +kernel
  rw [reply_eq net rfl (show head.uri.host? = some "127.0.0.1" by decide +kernel), served,
    hconnection, hdialing]
  dsimp only
  rw [hmessage]
  rfl

end ExchangeArchive.Transport.Http1
