import ExchangeArchive.Proofs.Trip.Nesting
import ExchangeArchive.Transport.Http1
/-
What the dialing transport reports.

The order in which the phases of an exchange fit into its time is an assumption on the history
that a tracker is told (`History.exchange`). The transport that opens a connection for each
request keeps it: what it reports of a request that succeeds is the lookup, the dials up to the
one that succeeds, the connection, each flush of the request, and the first byte, after which
nothing of the stream is reported any more.
-/

set_option autoImplicit false

namespace ExchangeArchive.Transport

open ExchangeArchive.Body ExchangeArchive.Http ExchangeArchive.Trace ExchangeArchive.Trip

/-- The event that an action reports. Time that passes and octets that are taken report nothing. -/
def Action.event? : Action → Option Event
  | .report e => some e
  | _ => none

/-- The kinds of the events that actions report. -/
def reportedKinds (actions : List Action) : List Kind :=
  (actions.filterMap Action.event?).map fun e => (Notice.event e).kind

/-- The kinds of events. -/
def eventKinds (events : List Event) : List Kind := events.map fun e => (Notice.event e).kind

theorem reportedKinds_append (before after : List Action) :
    reportedKinds (before ++ after) = reportedKinds before ++ reportedKinds after := by
  simp [reportedKinds]

theorem reportedKinds_report (events : List Event) :
    reportedKinds (events.map Action.report) = eventKinds events := by
  have hevents : (events.map Action.report).filterMap Action.event? = events := by
    rw [List.filterMap_map]
    exact List.filterMap_some
  rw [reportedKinds, hevents, eventKinds]

/-! ## Streams -/

/-- Operations on a stream, and actions that report nothing themselves. -/
def Moment.IsSilent : Moment → Prop
  | .act a => a.event? = none
  | .io _ _ => True

variable {t : TracedStream} {moments : List Moment}

/-- All that an operation on a stream can report, and when: nothing, the request as written, or the
first byte, which changes what can come afterwards. -/
theorem step_cases (t : TracedStream) (call : StreamCall) (inner : StreamOutcome) :
    ((t.step call inner).2.1 = [] ∧ (t.step call inner).2.2.didRead = t.didRead)
      ∨ (t.didRead = false ∧ (t.step call inner).2.1 = [.wroteRequest]
          ∧ (t.step call inner).2.2.didRead = false)
      ∨ (t.didRead = false ∧ (t.step call inner).2.1 = [.firstResponseByte]
          ∧ (t.step call inner).2.2.didRead = true) := by
  cases inner with
  | done count =>
    cases call with
    | read =>
      by_cases hfirst : (!t.didRead && 0 < count) = true
      · right; right
        simp_all [TracedStream.step]
      · left
        simp [TracedStream.step, hfirst]
    | flush =>
      by_cases hwrote : (t.wrote && !t.didRead) = true
      · right; left
        simp_all [TracedStream.step]
      · left
        simp [TracedStream.step, hwrote]
    | _ => exact .inl ⟨rfl, rfl⟩
  | _ => cases call <;> exact .inl ⟨rfl, rfl⟩

theorem reportedKinds_io (t : TracedStream) (call : StreamCall) (inner : StreamOutcome)
    (rest : List Moment) :
    reportedKinds (actions t (.io call inner :: rest))
      = eventKinds (t.step call inner).2.1
        ++ reportedKinds (actions (t.step call inner).2.2 rest) := by
  rw [actions, reportedKinds_append, reportedKinds_report]

theorem reportedKinds_act {a : Action} (ha : a.event? = none) (rest : List Moment) :
    reportedKinds (actions t (.act a :: rest)) = reportedKinds (actions t rest) := by
  rw [actions, reportedKinds, List.filterMap_cons_none ha, ← reportedKinds]

/-- Once the response has begun a stream reports nothing more. -/
theorem reportedKinds_of_didRead (hread : t.didRead = true)
    (hsilent : ∀ m ∈ moments, m.IsSilent) : reportedKinds (actions t moments) = [] := by
  induction moments generalizing t with
  | nil => rfl
  | cons m rest ih =>
    obtain ⟨hm, hrest⟩ := List.forall_mem_cons.mp hsilent
    cases m with
    | act a => rw [reportedKinds_act hm, ih hread hrest]
    | io call inner =>
      rw [reportedKinds_io]
      rcases step_cases t call inner with ⟨hnone, hsame⟩ | ⟨hnot, -⟩ | ⟨hnot, -⟩
      · rw [hnone, ih (hsame.trans hread) hrest]
        rfl
      · rw [hread] at hnot
        cases hnot
      · rw [hread] at hnot
        cases hnot

/-- What is reported of a stream: each flush of the request, and then the first byte of the
response, if there is one. -/
theorem reportedKinds_actions (hsilent : ∀ m ∈ moments, m.IsSilent) :
    ∃ writes bytes, reportedKinds (actions t moments)
      = List.replicate writes .wroteRequest ++ List.replicate bytes .firstByte := by
  induction moments generalizing t with
  | nil => exact ⟨0, 0, rfl⟩
  | cons m rest ih =>
    obtain ⟨hm, hrest⟩ := List.forall_mem_cons.mp hsilent
    cases m with
    | act a =>
      rw [reportedKinds_act hm]
      exact ih hrest
    | io call inner =>
      rw [reportedKinds_io]
      rcases step_cases t call inner with ⟨hnone, -⟩ | ⟨-, hwrote, -⟩ | ⟨-, hfirst, hread⟩
      · rw [hnone]
        exact ih hrest
      · obtain ⟨writes, bytes, hmore⟩ := ih (t := (t.step call inner).2.2) hrest
        rw [hwrote, hmore]
        exact ⟨writes + 1, bytes, rfl⟩
      · -- After the first byte nothing more is reported, so it is the last.
        rw [hfirst, reportedKinds_of_didRead hread hrest]
        exact ⟨0, 1, rfl⟩

/-! ## Dials -/

theorem kinds_addresses (net : Network) (host : String) (port : Nat) :
    ∃ looksUp : Bool, eventKinds (Http1.addresses net host port).1
      = if looksUp then [.dnsStart, .dnsDone] else [] := by
  rw [Http1.addresses]
  split
  · exact ⟨false, rfl⟩
  · exact ⟨true, rfl⟩

/-- Every dial but the last has failed, since the first that connects ends the dialing. -/
theorem kinds_connectFirst {net : Network} {fault : Http1.Fault} {addresses : List Address}
    {connection : Connection}
    (h : (Http1.connectFirst net fault addresses).2 = .ok connection) :
    (∃ failed, eventKinds (Http1.connectFirst net fault addresses).1
        = (List.replicate (failed + 1) [.connectStart, .connectDone]).flatten)
      ∧ ∃ a, net.connect a = .ok connection := by
  induction addresses generalizing fault with
  | nil => cases h
  | cons a rest ih =>
    rw [Http1.connectFirst] at h ⊢
    cases hconnect : net.connect a with
    | ok first =>
      rw [hconnect] at h
      obtain rfl : first = connection := Except.ok.inj h
      exact ⟨⟨0, rfl⟩, a, hconnect⟩
    | error cause =>
      rw [hconnect] at h
      obtain ⟨⟨failed, hfailed⟩, hconnects⟩ := ih h
      refine ⟨⟨failed + 1, ?_⟩, hconnects⟩
      rw [List.replicate_succ, List.flatten_cons, ← hfailed]
      rfl

theorem kinds_dial {net : Network} {host : String} {port : Nat} {connection : Connection}
    (h : (Http1.dial net host port).2 = .ok connection) :
    (∃ (looksUp : Bool) (failed : Nat), eventKinds (Http1.dial net host port).1
        = (if looksUp then [.dnsStart, .dnsDone] else [])
          ++ (List.replicate (failed + 1) [.connectStart, .connectDone]).flatten)
      ∧ ∃ a, net.connect a = .ok connection := by
  obtain ⟨looksUp, hlookup⟩ := kinds_addresses net host port
  rw [Http1.dial] at h ⊢
  rcases hfound : Http1.addresses net host port with ⟨events, found⟩
  rw [hfound] at h hlookup
  cases found with
  | error fault => cases h
  | ok found =>
    obtain ⟨⟨failed, hfailed⟩, hconnects⟩ := kinds_connectFirst h
    refine ⟨⟨looksUp, failed, ?_⟩, hconnects⟩
    rw [← hlookup, ← hfailed]
    exact List.map_append

/-! ## Requests -/

/-- Nothing but the use of its streams is reported on the connections of a network. What a server
sends may be anything, and time may pass. -/
def Network.IsSilent (net : Network) : Prop :=
  ∀ a connection, net.connect a = .ok connection →
    ∀ head, ∀ m ∈ (connection head).moments, m.IsSilent

/-- What a tracker is told of a transport's actions, and then of the response. -/
def notices (actions : List Action) : List Notice :=
  (actions.filterMap Action.event?).map .event ++ [.responseHeaders, .responseRead]

/-- **A request that succeeds is reported in the order of an exchange.** -/
theorem exchange_of_reply {net : Network} (hsilent : net.IsSilent) {head : RequestHead}
    {answer : ResponseHead × Script} (hanswer : (Http1.reply net head).answer = .ok answer)
    {h : History} (hnotices : h.map Prod.snd = notices (Http1.reply net head).actions) :
    ∃ looksUp failed writes more, h.kinds = History.exchange looksUp failed writes more := by
  have hkinds : h.kinds
      = reportedKinds (Http1.reply net head).actions ++ [.firstByte, .responseRead] := by
    have hmap : h.kinds = (h.map Prod.snd).map Notice.kind := by
      rw [List.map_map]
      rfl
    rw [hmap, hnotices, notices, List.map_append, List.map_map]
    rfl
  rw [hkinds]
  rw [Http1.reply] at hanswer ⊢
  cases hhost : Http1.hostOf head.uri with
  | error fault =>
    rw [hhost] at hanswer
    cases hanswer
  | ok host =>
    rw [hhost] at hanswer
    dsimp only at hanswer ⊢
    rcases hdial : Http1.dial net host (head.uri.port?.getD Http1.defaultPort)
      with ⟨events, dialed⟩
    rw [hdial] at hanswer
    cases dialed with
    | error fault => cases hanswer
    | ok connection =>
      obtain ⟨⟨looksUp, failed, hdialed⟩, a, hconnect⟩ := kinds_dial (congrArg Prod.snd hdial)
      rw [hdial] at hdialed
      obtain ⟨writes, bytes, hstream⟩ := reportedKinds_actions (t := {})
        (hsilent a connection hconnect (Http1.prepare host head))
      -- The headers of the response are one first byte more, behind those that the stream reports.
      refine ⟨looksUp, failed, writes, bytes, ?_⟩
      have hactions : ∀ (first : Event) (rest : List Action),
          reportedKinds
              ((first :: events).map Action.report ++ .report (.gotConnection false) :: rest)
            = eventKinds (first :: events) ++ .gotConnection :: reportedKinds rest := by
        intro first rest
        rw [reportedKinds_append, reportedKinds_report]
        rfl
      rw [hactions, hstream, History.exchange, List.replicate_succ' (n := bytes)]
      show Kind.getConnection :: eventKinds events ++ _ ++ _ = _
      rw [hdialed]
      simp

end ExchangeArchive.Transport
