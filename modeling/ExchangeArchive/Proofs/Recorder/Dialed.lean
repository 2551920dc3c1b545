import ExchangeArchive.Proofs.Recorder.Observation
import ExchangeArchive.Proofs.Transport.Dialing
/-
The address in an entry.

An entry names the address that was dialed last. What was dialed last is settled by the events
that the turns of the call have reported, and only by them (`dial_played`); so the question is
which events the transport has reported by the time that an entry is due.

An entry is not due before the transport has given its answer, and a transport that has given
its answer has taken all its turns. Those of getting a connection all come first, and a report
cannot fail; so they are all there, whatever becomes of the request after them
(`events_turns`). What comes after them on a connection is no dialing.
-/

set_option autoImplicit false

namespace ExchangeArchive

open ExchangeArchive.Archive ExchangeArchive.Http ExchangeArchive.Recorder ExchangeArchive.Time
  ExchangeArchive.Trace ExchangeArchive.Transport ExchangeArchive.Trip

namespace Recorder

/-! ## What a call has of its dialing -/

/-- The address and the connection that a tracker has. Both come from the text of one address, and
nothing but the beginning of a connection sets them. -/
def dialOf (t : Tracker) : Option String × Option String := (t.serverIPAddress, t.connection)

/-- The history of the events of a call, from its moves. -/
def eventsOf (own : List (State × Move)) : History :=
  own.filterMap fun m => m.2.event?.map fun e => (m.1.session.clock.elapsed, .event e)

variable {r : Recorder} {call : Call} {s : Session} {st : State} {n : Nat} {c : Clock}
  {t : Turn} {e : Entry} {moves : List (Clock × Move)}

/-- Notices about the response leave alone what was dialed: they mark times and nothing else. -/
theorem dialOf_response (t : Tracker) (now : Nat) :
    dialOf (t.responseHeaders now) = dialOf t ∧ dialOf (t.responseRead now) = dialOf t := by
  refine ⟨?_, rfl⟩
  rw [Tracker.responseHeaders, Tracker.noteResponse]
  split <;> rfl

theorem tracker_readTimes (k : Nat) (c : Clock) (call : Call) :
    (Call.readTimes k c call).2.2.tracker = call.tracker := by
  induction k generalizing c call with
  | zero => rfl
  | succ k ih => exact ih _ _

/-- A turn that reports nothing leaves alone what was dialed. It goes by the cases of the turn, and
in each of them the tracker is as it was or has noted something about the response. -/
theorem dialOf_turned (h : t.event? = none) (call : Call) (c : Clock) :
    dialOf (call.turned c t).tracker = dialOf call.tracker := by
  have hclosed : dialOf (call.closed c).tracker = dialOf call.tracker := by
    rw [Call.closed]
    split
    · rfl
    · split <;> rfl
  cases t with
  | act a =>
    cases a with
    | report e => cases h
    | read k =>
      rw [Call.turned, Call.act]
      split
      · exact congrArg dialOf (tracker_readTimes k c call)
      · rfl
    | readAll =>
      rw [Call.turned, Call.act]
      split <;> rfl
    | _ => rfl
  | settle answer =>
    rw [Call.turned]
    split
    · rw [Call.settled.eq_def]
      split
      · rfl
      · rfl
      · rfl
      · exact (dialOf_response call.tracker c.elapsed).1
    · rfl
  | poll =>
    rw [Call.turned, Call.polled]
    split
    · rfl
    · split <;> rfl
  | close => exact hclosed
  | drop =>
    rw [Call.turned]
    split
    · rfl
    · exact hclosed
  | pollRequest =>
    rw [Call.turned]
    split <;> rfl

/-- What a recorded call is told of an event goes to its tracker. -/
theorem dialOf_report (hrec : call.isRecorded = true) (c : Clock) (e : Event) :
    dialOf (call.turned c (.act (.report e))).tracker
      = dialOf (call.tracker.note (c.elapsed, .event e)) := by
  show dialOf (call.see c.elapsed e).tracker = _
  rw [Call.see, Call.observer?, hrec]
  cases call.traced <;> rfl

/-- **What a call has of its dialing** is what the events of its own moves say. The induction is on
the moves of the call, so that what other calls dial does not come into it. -/
theorem dial_played (hcall : (played r ⟨s, []⟩ moves).calls[n]? = some call)
    (hrec : call.isRecorded = true) :
    dialOf call.tracker = (eventsOf (movesOf r ⟨s, []⟩ moves n)).dialed := by
  refine movesOf_induction (motive := fun own call =>
    call.isRecorded = true → dialOf call.tracker = (eventsOf own).dialed) ?_ ?_ hcall hrec
  · intro st o _
    rfl
  · intro st t own call _ ih hrec
    -- Whether the call is recorded was so before the turn, and there the hypothesis applies.
    rw [(sameCall_turned call st.session.clock t).isRecorded] at hrec
    have hdial := ih hrec
    rw [eventsOf, List.filterMap_append]
    cases he : t.event? with
    | none =>
      have hnone : (Move.turn n t).event? = none := he
      rw [dialOf_turned he, hdial]
      simp [eventsOf, hnone]
    | some e =>
      obtain rfl : t = .act (.report e) := by
        cases t with
        | act a => cases a <;> first | (cases he; rfl) | cases he
        | _ => cases he
      rw [dialOf_report hrec]
      exact Tracker.dialed_note hdial (st.session.clock.elapsed, .event e)

/-- An entry that is due has what its call has of the dialing, and the turn at which it is due adds
nothing to that. -/
theorem dial_of_due (h : call.due? c t = some e) :
    (e.serverIPAddress, e.connection) = dialOf call.tracker ∧ t.event? = none := by
  obtain ⟨hquiet, t', now, hnone, rfl⟩ := due?_reported h
  exact ⟨dialOf_turned hnone call c, hquiet⟩

/-! ## The turns of a transport -/

/-- Whether a turn is one that a transport takes. -/
def Turn.isTransports : Turn → Bool
  | .act _ => true
  | .settle _ => true
  | _ => false

/-- The turn of a move, if a transport takes it. -/
def transportTurn? : State × Move → Option Turn
  | (_, .turn _ t) => if t.isTransports then some t else none
  | _ => none

/-- The transport of a call with these moves does what a reply says, as far as it has got. Only
what its actions come to, and so where it fails, depends on the call. -/
def Transports (reply : Reply) (own : List (State × Move)) : Prop :=
  ∃ c call, own.filterMap transportTurn? <+: turns c call reply.answer reply.actions

/-- The address that an event says is dialed. -/
def dialed? : Event → Option String
  | .connectStart address => some address
  | _ => none

/-- Reports come before all else that a transport does, and then the transport has failed or
has answered. -/
theorem turns_report (c : Clock) (call : Call) (answer : Except String (ResponseHead × Body.Script))
    (events : List Event) (rest : List Action) :
    ∃ call', turns c call answer (events.map Action.report ++ rest)
      = events.map (fun e => Turn.act (.report e)) ++ turns c call' answer rest := by
  induction events generalizing call with
  | nil => exact ⟨call, rfl⟩
  | cons e events ih =>
    obtain ⟨call', hmore⟩ := ih (call.see c.elapsed e)
    exact ⟨call', congrArg (Turn.act (.report e) :: ·) hmore⟩

/-- A transport is done with its call once, at its end. Where that is depends on which of its
actions fails first, if one does. -/
theorem turns_concat (c : Clock) (call : Call) (answer : Except String (ResponseHead × Body.Script))
    (actions : List Action) :
    ∃ done final, done <+: actions
      ∧ turns c call answer actions = done.map Turn.act ++ [.settle final] := by
  induction actions generalizing c call with
  | nil => exact ⟨[], answer, List.nil_prefix, rfl⟩
  | cons a rest ih =>
    rw [turns]
    rcases Call.act c call a with ⟨readings, result, c', call'⟩
    cases result with
    | error text => exact ⟨[a], .error text, ⟨rest, rfl⟩, rfl⟩
    | ok _ =>
      obtain ⟨done, final, hdone, hturns⟩ := ih c' call'
      exact ⟨a :: done, final, (List.prefix_cons_inj a).mpr hdone,
        congrArg (Turn.act a :: ·) hturns⟩

/-- **What a transport reports before all else is reported**, whatever becomes of it after. -/
theorem events_turns (c : Clock) (call : Call) (answer : Except String (ResponseHead × Body.Script))
    (events : List Event) (rest : List Action) :
    ∃ done, done <+: rest
      ∧ (turns c call answer (events.map Action.report ++ rest)).filterMap Turn.event?
        = events ++ done.filterMap Action.event? := by
  obtain ⟨call', hreports⟩ := turns_report c call answer events rest
  obtain ⟨done, final, hdone, hturns⟩ := turns_concat c call' answer rest
  have hact : Turn.event? ∘ Turn.act = Action.event? := by
    funext a
    cases a <;> rfl
  have hevents : (events.map fun e => Turn.act (.report e)).filterMap Turn.event? = events := by
    rw [List.filterMap_map]
    exact List.filterMap_some
  refine ⟨done, hdone, ?_⟩
  rw [hreports, hturns, List.filterMap_append, hevents, List.filterMap_append, List.filterMap_map,
    hact]
  exact congrArg (events ++ ·) (List.append_nil _)

/-- The events of a call are those of its transport's turns: no one else reports any. -/
theorem event?_transportTurn (own : List (State × Move)) :
    own.filterMap (·.2.event?) = (own.filterMap transportTurn?).filterMap Turn.event? := by
  rw [List.filterMap_filterMap]
  congr 1
  funext m
  obtain ⟨st, m⟩ := m
  cases m with
  | turn n t => cases t <;> rfl
  | _ => rfl

/-- A transport that has given its answer has taken all its turns, for the answer is the last of
them and no other turn is one. -/
theorem Transports.eq {reply : Reply} {own : List (State × Move)} (h : Transports reply own)
    {answer : Except String (ResponseHead × Body.Script)}
    (hsettled : .settle answer ∈ own.filterMap transportTurn?) :
    ∃ c call, own.filterMap transportTurn? = turns c call reply.answer reply.actions := by
  obtain ⟨c, call, hturns⟩ := h
  refine ⟨c, call, ?_⟩
  obtain ⟨done, final, -, hconcat⟩ := turns_concat c call reply.answer reply.actions
  rw [hconcat] at hturns ⊢
  rcases List.prefix_concat_iff.mp hturns with hall | hpart
  · exact hall
  · obtain ⟨a, -, ha⟩ := List.mem_map.mp (hpart.subset hsettled)
    cases ha

/-! ## What the dialing transport dials -/

theorem dialed?_of_kind {e : Event} (h : (Notice.event e).kind ≠ .connectStart) :
    dialed? e = none := by
  cases e <;> first | rfl | exact absurd rfl h

/-- Nothing is dialed on a connection that is silent about it, as far as the exchange gets. -/
theorem dialed_actions {t : TracedStream} {moments : List Moment}
    (hsilent : ∀ m ∈ moments, m.IsSilent) {done : List Action}
    (hdone : done <+: Transport.actions t moments) :
    (done.filterMap Action.event?).filterMap dialed? = [] := by
  rw [List.filterMap_eq_nil_iff]
  intro e he
  apply dialed?_of_kind
  have hkind : (Notice.event e).kind ∈ reportedKinds (Transport.actions t moments) :=
    List.mem_map_of_mem ((hdone.filterMap Action.event?).subset he)
  obtain ⟨writes, bytes, hkinds⟩ := reportedKinds_actions (t := t) hsilent
  rw [hkinds, List.mem_append, List.mem_replicate, List.mem_replicate] at hkind
  rcases hkind with ⟨-, hkind⟩ | ⟨-, hkind⟩ <;> simp [hkind]

theorem dialed_dialing (net : Network) (host : String) (port : Nat) :
    (Http1.dialing net host port).filterMap dialed?
      = (Http1.triedFor net host port).map Address.toText := by
  have htried : ∀ tried : List Address,
      (tried.flatMap Http1.attempt).filterMap dialed? = tried.map Address.toText := by
    intro tried
    induction tried with
    | nil => rfl
    | cons a tried ih =>
      rw [List.flatMap_cons, List.filterMap_append, ih]
      rfl
  have hlookup : (if Http1.looksUp host then [.dnsStart host, .dnsDone] else []).filterMap dialed?
      = [] := by
    split <;> rfl
  have hgot : (if (Http1.connection net host port).isOk then [.gotConnection false]
      else []).filterMap dialed? = [] := by
    split <;> rfl
  rw [Http1.dialing, List.filterMap_append, hgot, List.append_nil, List.cons_append,
    List.filterMap_cons_none rfl, List.filterMap_append, hlookup, htried, List.nil_append]

/-- What the transport does with a request begins with getting a connection, and dials nothing
after that. -/
theorem actions_reply {net : Network} (hsilent : net.IsSilent) {head : RequestHead}
    {host : String} (hhost : Http1.hostOf head.uri = .ok host) :
    ∃ rest, (Http1.reply net head).actions
        = (Http1.dialing net host (Http1.portOf head.uri)).map Action.report ++ rest
      ∧ ∀ done, done <+: rest → (done.filterMap Action.event?).filterMap dialed? = [] := by
  obtain ⟨hscheme, hhost⟩ := Http1.hostOf_eq_ok_iff.mp hhost
  rw [Http1.reply_eq net hscheme hhost, Http1.served]
  cases hconnection : Http1.connection net host (Http1.portOf head.uri) with
  | error fault =>
    refine ⟨[], (List.append_nil _).symm, ?_⟩
    intro done hdone
    rw [List.prefix_nil.mp hdone]
    rfl
  | ok connection =>
    obtain ⟨a, -, hconnect⟩ := Http1.connection_eq_ok hconnection
    exact ⟨_, rfl, fun done => dialed_actions (hsilent a connection hconnect _)⟩

/-- **A transport that is done has dialed the addresses tried**, in their order. -/
theorem dialed_transports {net : Network} (hsilent : net.IsSilent) {head : RequestHead}
    {own : List (State × Move)} (h : Transports (Http1.reply net head) own)
    {answer : Except String (ResponseHead × Body.Script)}
    (hsettled : Turn.settle answer ∈ own.filterMap transportTurn?) :
    (own.filterMap (·.2.event?)).filterMap dialed?
      = (Http1.triedOf net head.uri).map Address.toText := by
  obtain ⟨c, call, hown⟩ := h.eq hsettled
  rw [event?_transportTurn, hown, Http1.triedOf]
  cases hhost : Http1.hostOf head.uri with
  | error fault =>
    have hreply : Http1.reply net head = ⟨[], .error fault.message⟩ := by
      rw [Http1.reply, hhost]
    rw [hreply]
    rfl
  | ok host =>
    obtain ⟨rest, hactions, hrest⟩ := actions_reply hsilent hhost
    obtain ⟨done, hdone, hevents⟩ := events_turns c call (Http1.reply net head).answer
      (Http1.dialing net host (Http1.portOf head.uri)) rest
    rw [hactions, hevents, List.filterMap_append, dialed_dialing, hrest done hdone,
      List.append_nil]

/-! ## Entries -/

/-- What was dialed last, as the history of a call's events has it, without the times in it. -/
theorem lastDialed?_eventsOf (own : List (State × Move)) :
    (eventsOf own).lastDialed? = ((own.filterMap (·.2.event?)).filterMap dialed?).getLast? := by
  rw [History.lastDialed?, eventsOf, List.filterMap_filterMap, List.filterMap_filterMap]
  congr 2
  funext m
  cases m.2.event? with
  | none => rfl
  | some e => cases e <;> rfl

/-- An entry names an address: what it has of the server and of the connection is the text of
the address with the colon before the port left out. Without an address it has neither. -/
def Names (e : Entry) : Option Address → Prop
  | none => e.serverIPAddress = none ∧ e.connection = none
  | some a => ∃ server connection, e.serverIPAddress = some server
    ∧ e.connection = some connection ∧ server ++ ":" ++ connection = a.toText

theorem names_of_dialed {h : History} {a : Option Address}
    (hlast : h.lastDialed? = a.map Address.toText)
    (he : (e.serverIPAddress, e.connection) = h.dialed) : Names e a := by
  rw [History.dialed, hlast] at he
  cases a with
  | none => exact Prod.mk.inj he
  | some a =>
    have hdialed : (e.serverIPAddress, e.connection) = (some a.hostText, some a.portText) := by
      rw [he]
      simp only [Option.map_some, splitHostPort_toText, portText_isEmpty]
      rfl
    obtain ⟨hserver, hconnection⟩ := Prod.mk.inj hdialed
    exact ⟨a.hostText, a.portText, hserver, hconnection, (toText_eq a).symm⟩

/-- A transport whose answer was taken has taken that turn. An answer that nobody waited for is
not among the answers of a call, and so does not count here. -/
theorem settled_of_answer {answer : Except String (ResponseHead × Body.Script)}
    (h : answer? (turnsOf r st moves n) = some answer) :
    Turn.settle answer ∈ (movesOf r st moves n).filterMap transportTurn? := by
  obtain ⟨⟨t, sight⟩, hmem, hanswer⟩ := List.exists_of_findSome?_eq_some h
  obtain rfl : t = .settle answer := by
    unfold Turn.answer? at hanswer
    split at hanswer
    · next first result heq =>
      cases heq
      cases hanswer
      rfl
    · cases hanswer
  obtain ⟨⟨found, m⟩, hm, hseen⟩ := List.mem_filterMap.mp hmem
  refine List.mem_filterMap.mpr ⟨(found, m), hm, ?_⟩
  cases m with
  | turn k t =>
    cases hseen
    rfl
  | _ => cases hseen

/-- **An entry names the address that its connection was made to**, or the last one tried. -/
theorem names_of_hands {net : Network} (hsilent : net.IsSilent) {head : RequestHead}
    (hands : Hands r ((played r ⟨s, []⟩ moves).at c) (.turn n t) e)
    (hnet : Transports (Http1.reply net head)
      (movesOf r ⟨s, []⟩ (moves ++ [(c, .turn n t)]) n)) :
    Names e (Http1.triedOf net head.uri).getLast? := by
  obtain ⟨call, hcall, hdue⟩ := hands_turn_iff.mp hands
  obtain ⟨hdial, hquiet⟩ := dial_of_due hdue
  -- By the time that an entry is due the transport has given its answer.
  obtain ⟨o', ho', hkept⟩ := kept_played hcall
  have hrec := hkept.isRecorded_of_due hdue
  obtain ⟨-, answer, hanswer, -⟩ := hkept.says (r := r) (n := n) hdue
  rw [← turnsOf_turn hcall] at hanswer
  have hdialed := dialed_transports hsilent hnet (settled_of_answer hanswer)
  -- The turn at which it is due reports nothing itself.
  have hevents : (movesOf r ⟨s, []⟩ (moves ++ [(c, .turn n t)]) n).filterMap (·.2.event?)
      = (movesOf r ⟨s, []⟩ moves n).filterMap (·.2.event?) := by
    have hnone : (Move.turn n t).event? = none := hquiet
    rw [movesOf_concat]
    split <;> simp [hnone]
  rw [hevents] at hdialed
  apply names_of_dialed (h := eventsOf (movesOf r ⟨s, []⟩ moves n))
  · rw [lastDialed?_eventsOf, hdialed, List.getLast?_map]
  · rw [hdial]
    exact dial_played hcall hrec

/-- **What the dialing transport reports, and what an entry has of it.** Let a transport get its
connections over any network. A target of another scheme than its own is refused, and nothing is
reported; any other target has a host. Then the lookup is reported if there is one, and a pair of
events for each of the addresses up to the first that connects; and if one connects, that there
is a connection. A host that is an address itself, in brackets or without, is not looked up, and
that address is tried. If none connects, the fault is that of the last address tried, or that
there was none to try. Only what happens on the connection is reported after that.

So an entry of a call that such a transport serves names the last address tried, which is the
one that the connection was made to if there is one, whatever has happened to it and to other
calls. -/
theorem dialing_reported (net : Network) (hsilent : net.IsSilent) :
    (∀ head : RequestHead, head.uri.scheme ≠ some "http" →
      Http1.reply net head
        = ⟨[], .error (Http1.Fault.badScheme (head.uri.scheme.getD "")).message⟩)
    ∧ (∀ octets u, Uri.read octets = .ok u → u.scheme = some "http" → u.host?.isSome = true)
    ∧ (∀ (head : RequestHead) host, head.uri.scheme = some "http" → head.uri.host? = some host →
      Http1.reply net head = Http1.served net host head)
    ∧ (∀ text ip host port, Ip.read? text = some ip →
      host = text ∨ host = "[" ++ text ++ "]" →
        Http1.looksUp host = false ∧ Http1.triedFor net host port = [⟨ip, port⟩])
    ∧ (∀ host port connection, Http1.connection net host port = .ok connection →
      ∃ a, (Http1.triedFor net host port).getLast? = some a ∧ net.connect a = .ok connection)
    ∧ ∀ (r : Recorder) (s : Session) (moves : List (Clock × Move)) (c : Clock) (n : Nat)
      (t : Turn) (e : Entry) (head : RequestHead),
      Hands r ((played r ⟨s, []⟩ moves).at c) (.turn n t) e →
      Transports (Http1.reply net head) (movesOf r ⟨s, []⟩ (moves ++ [(c, .turn n t)]) n) →
        Names e (Http1.triedOf net head.uri).getLast? := by
  refine ⟨?_, ?_, ?_, ?_, ?_, ?_⟩
  · intro head hscheme
    exact Http1.reply_of_scheme net hscheme
  · intro octets u hread hscheme
    apply host_of_scheme hread
    rw [hscheme]
    rfl
  · intro head host hscheme hhost
    exact Http1.reply_eq net hscheme hhost
  · intro text ip host port hread hhost
    exact Http1.triedFor_of_read? net hread hhost port
  · intro host port connection hconnection
    exact Http1.connection_eq_ok hconnection
  · intro r s moves c n t e head hands hnet
    exact names_of_hands hsilent hands hnet

/-- The first address of a host refuses, the second is an IPv6 address and connects; then the
exchange fails. As a host the second address, in brackets, is not looked up. -/
theorem dialing_reported_second_address :
    let first : Address := ⟨.v4 #v[10, 0, 0, 1], 80⟩
    let second : Address := ⟨.v6 #v[0, 0, 0, 0, 0, 0, 0, 1], 80⟩
    let net : Network := {
      lookup := fun _ => .ok [first.ip, second.ip]
      connect := fun a => match a.ip with
        | .v4 _ => .error (.other "refused")
        | .v6 _ => .ok fun _ => ⟨[], .error "reset"⟩ }
    let r : Recorder := ⟨{}, true, Session.pipeline [] []⟩
    let s : Session := { clock := { started := 0 } }
    let c := s.clock
    let head : RequestHead := ⟨"GET", ⟨some "http", some "h", "/", none⟩, .http11, .empty⟩
    let events : List Event := [.getConnection "h:80", .dnsStart "h", .dnsDone]
      ++ Http1.attempt first ++ Http1.attempt second ++ [.gotConnection false]
    let moves : List (Clock × Move) := (c, .begin ⟨head, ⟨[], none, true⟩, {}, false⟩)
      :: events.map fun e => (c, .turn 0 (.act (.report e)))
    net.IsSilent ∧ Http1.reply net head = ⟨events.map Action.report, .error "reset"⟩
      ∧ ∃ e, Hands r ((played r ⟨s, []⟩ moves).at c) (.turn 0 (.settle (.error "reset"))) e
        ∧ Names e (some second)
        ∧ Http1.looksUp "[::1]" = false ∧ Http1.triedFor net "[::1]" 80 = [second] := by
  intro first second net r s c head events moves
  have hsilent : net.IsSilent := by
    intro a connection hconnect head m hm
    obtain ⟨ip, port⟩ := a
    cases ip with
    | v4 octets => cases hconnect
    | v6 groups =>
      cases hconnect
      cases hm
  have hreply : Http1.reply net head = ⟨events.map Action.report, .error "reset"⟩ := by
    subst moves events head c s r net second first
    rfl
  have htried : Http1.triedOf net head.uri = [first, second] := by decide +kernel
  have hands : ∃ e, Hands r ((played r ⟨s, []⟩ moves).at c)
      (.turn 0 (.settle (.error "reset"))) e :=
    ⟨_, hands_turn_iff.mpr ⟨_, rfl, rfl⟩⟩
  obtain ⟨e, hands⟩ := hands
  have hliteral := (dialing_reported net hsilent).2.2.2.1 "::1" second.ip "[::1]" 80
    (by decide +kernel) (.inr rfl)
  refine ⟨hsilent, hreply, e, hands, ?_, hliteral⟩
  have hnames := (dialing_reported net hsilent).2.2.2.2.2 r s moves c 0
    (.settle (.error "reset")) e head hands ?_
  · rw [htried] at hnames
    exact hnames
  · let call := Call.begin true c ⟨head, ⟨[], none, true⟩, {}, false⟩
    have hturns : (movesOf r ⟨s, []⟩ (moves ++ [(c, .turn 0 (.settle (.error "reset")))])
        0).filterMap transportTurn? = turns c call (.error "reset") (events.map Action.report) := by
      subst call moves events head c s r second first
      rfl
    rw [hreply]
    exact ⟨c, call, [], (List.append_nil _).trans hturns⟩

end Recorder

end ExchangeArchive
