import ExchangeArchive.Proofs.Trip.Spans
import Mathlib.Data.List.Basic
/-
How the phases of a request lie in its time.

No phase is longer than the whole, whatever is reported. That the phases do not overlap
needs notices in their proper order: those of a successful exchange over a new connection
are cut into pieces at the notices that matter, and the spans of the phases go from one cut
to another (`span_of_pieces`, `waiting_of_pieces`). That they lie next to one another is then
a matter of the order of the cuts.
-/

set_option autoImplicit false

namespace ExchangeArchive.Trip

open ExchangeArchive.Archive ExchangeArchive.Time ExchangeArchive.Trace

namespace History

/-! ## Pieces of a history -/

/-- The kinds of the notices of a history. -/
def kinds (h : History) : List Kind := h.map fun x => x.2.kind

/-- All that is in the history is of these kinds. -/
def Only (h : History) (ks : List Kind) : Prop := ∀ x ∈ h, x.2.kind ∈ ks

variable {h earlier later : History} {x : Nat × Notice} {started now : Nat}
  {begins ks only : List Kind} {ends : Kind}

theorem lacks_cons : Lacks (x :: later) ks ↔ x.2.kind ∉ ks ∧ later.Lacks ks :=
  List.forall_mem_cons

theorem only_nil : Only [] ks := fun _ hx => by cases hx

theorem only_cons : Only (x :: later) ks ↔ x.2.kind ∈ ks ∧ later.Only ks :=
  List.forall_mem_cons

theorem only_append : Only (earlier ++ later) ks ↔ earlier.Only ks ∧ later.Only ks :=
  List.forall_mem_append

theorem only_of_kinds (hkinds : ∀ k ∈ earlier.kinds, k ∈ only) : earlier.Only only :=
  fun _ hx => hkinds _ (List.mem_map_of_mem hx)

theorem Only.mono (honly : earlier.Only only) (hsub : ∀ k ∈ only, k ∈ ks) : earlier.Only ks :=
  fun x hx => hsub _ (honly x hx)

/-- A history of some kinds lacks all other kinds, so that what lists the kinds of a piece says also
what cannot be found in it. -/
theorem Only.lacks (honly : earlier.Only only) (hother : ∀ k ∈ only, k ∉ ks) :
    earlier.Lacks ks :=
  fun x hx => hother _ (honly x hx)

theorem lastTime?_append_of_lacks (hearlier : earlier.Lacks ks) :
    lastTime? ks (earlier ++ later) = later.lastTime? ks := by
  rw [lastTime?, last?_append, last?_eq_none_iff.mpr hearlier, lastTime?]
  cases last? ks later <;> rfl

/-- The last notice of some kinds is the one that no other follows. -/
theorem lastTime?_of_pieces (hx : x.2.kind ∈ ks) (hlater : later.Lacks ks) :
    lastTime? ks (earlier ++ x :: later) = some x.1 := by
  have hlast : last? ks (earlier ++ x :: later) = some (x.1, earlier) :=
    last?_eq_some_iff.mpr ⟨x.2, later, rfl, hx, hlater⟩
  rw [lastTime?, hlast]
  rfl

/-- The first notice of some kinds is the one that no other stands before. -/
theorem firstTime?_of_pieces (hx : x.2.kind ∈ ks) (hearlier : earlier.Lacks ks) :
    firstTime? ks (earlier ++ x :: later) = some x.1 := by
  have hfirst : first? ks (earlier ++ x :: later) = some (x.1, earlier) :=
    first?_eq_some_iff.mpr ⟨x.2, later, rfl, hx, hearlier⟩
  rw [firstTime?, hfirst]
  rfl

/-- A span is settled when what ends it does not come again. -/
theorem span_append_of_lacks (hlater : later.Lacks [ends]) :
    span (earlier ++ later) started begins ends = earlier.span started begins ends := by
  rw [span, last?_append, last?_eq_none_iff.mpr hlater]
  rfl

/-- A span stops at the last notice that ends it, and starts from the last that begins it before
that. -/
theorem span_of_pieces (hx : x.2.kind = ends) (hlater : later.Lacks [ends]) :
    span (earlier ++ x :: later) started begins ends
      = some ⟨(earlier.lastTime? begins).getD started, x.1⟩ := by
  rw [List.append_cons, span_append_of_lacks hlater, span_concat, if_pos hx]

/-- The waiting stops at the first byte. -/
theorem waiting_of_pieces (hx : x.2.kind = .firstByte) (hearlier : earlier.Lacks [.firstByte]) :
    waiting (earlier ++ x :: later) started
      = some ⟨((earlier.lastTime? [.wroteRequest]).or
          (earlier.lastTime? readying)).getD started, x.1⟩ := by
  have hfirst : first? [.firstByte] (earlier ++ x :: later) = some (x.1, earlier) :=
    first?_eq_some_iff.mpr ⟨x.2, later, rfl, by simp [hx], hearlier⟩
  rw [waiting, hfirst]
  rfl

/-! ## A successful exchange -/

/-- The kinds of what is noted, in this order, of a successful exchange over a connection
that is dialed for it: the lookup of the host unless it is an address, the dials, the last of
which succeeds, each time that the request is written, the first byte of the response from
the transport, from the headers, or from both, and that the response is read. -/
def exchange (looksUp : Bool) (failed writes more : Nat) : List Kind :=
  [.getConnection] ++ (if looksUp then [.dnsStart, .dnsDone] else [])
    ++ (List.replicate (failed + 1) [.connectStart, .connectDone]).flatten
    ++ [.gotConnection] ++ List.replicate writes .wroteRequest
    ++ List.replicate (more + 1) .firstByte ++ [.responseRead]

/-- A successful exchange, cut at the notices at which its phases start and end. Between the cuts
there may be any number of dials that failed and of writes that were tried again. -/
structure Pieces where
  asked : Nat × Notice
  lookup : History
  failed : History
  dialed : Nat × Notice
  connected : Nat × Notice
  got : Nat × Notice
  writes : History
  byte : Nat × Notice
  more : History
  read : Nat × Notice
  asked_kind : asked.2.kind = .getConnection
  lookup_kinds : lookup.kinds = [] ∨ lookup.kinds = [.dnsStart, .dnsDone]
  failed_only : failed.Only [.connectStart, .connectDone]
  dialed_kind : dialed.2.kind = .connectStart
  connected_kind : connected.2.kind = .connectDone
  got_kind : got.2.kind = .gotConnection
  writes_only : writes.Only [.wroteRequest]
  byte_kind : byte.2.kind = .firstByte
  more_only : more.Only [.firstByte]
  read_kind : read.2.kind = .responseRead

namespace Pieces

variable (p : Pieces)

/-- What comes of asking for the connection: the lookup, the dials that fail, and the one that
succeeds. -/
def dialing : History := p.lookup ++ (p.failed ++ [p.dialed, p.connected])

/-- What comes up to the connection. -/
def lead : History := p.asked :: (p.dialing ++ [p.got])

/-- What comes from the first byte on. -/
def tail : History := p.byte :: (p.more ++ [p.read])

/-- The pieces put together. -/
def history : History := p.lead ++ p.writes ++ p.tail

/-- When the request was written last, or else when the connection was there. -/
def written : Nat := (p.writes.lastTime? [.wroteRequest]).getD p.got.1

end Pieces

theorem pieces_of_exchange {looksUp : Bool} {failed writes more : Nat}
    (hkinds : h.kinds = exchange looksUp failed writes more) : ∃ p : Pieces, h = p.history := by
  -- The dial that succeeds is the last of them, and the byte that counts is the first.
  rw [exchange, List.replicate_succ', List.replicate_succ] at hkinds
  simp only [kinds, List.flatten_append, List.flatten_singleton, List.append_assoc,
    List.cons_append, List.nil_append, List.map_eq_append_iff, List.map_eq_cons_iff,
    List.map_eq_nil_iff] at hkinds
  obtain ⟨asked, _, rfl, hasked, lookup, _, rfl, hlookup, failed, _, rfl, hfailed, dialed, _, rfl,
    hdialed, connected, _, rfl, hconnected, got, _, rfl, hgot, writes, _, rfl, hwrites, byte, _,
    rfl, hbyte, more, _, rfl, hmore, read, _, rfl, hread, rfl⟩ := hkinds
  refine ⟨⟨asked, lookup, failed, dialed, connected, got, writes, byte, more, read, hasked, ?_,
    only_of_kinds fun k hk => ?_, hdialed, hconnected, hgot, only_of_kinds fun k hk => ?_,
    hbyte, only_of_kinds fun k hk => ?_, hread⟩, ?_⟩
  · rw [kinds, hlookup]
    cases looksUp <;> simp
  · rw [kinds, hfailed, List.mem_flatten] at hk
    obtain ⟨dial, hdial, hk⟩ := hk
    rwa [List.eq_of_mem_replicate hdial] at hk
  · rw [kinds, hwrites] at hk
    exact List.mem_singleton.mpr (List.eq_of_mem_replicate hk)
  · rw [kinds, hmore] at hk
    exact List.mem_singleton.mpr (List.eq_of_mem_replicate hk)
  · simp [Pieces.history, Pieces.lead, Pieces.dialing, Pieces.tail]

namespace Pieces

variable (p : Pieces)

theorem lookup_only : p.lookup.Only [.dnsStart, .dnsDone] := by
  apply only_of_kinds
  intro k hk
  rcases p.lookup_kinds with hnone | hboth
  · rw [hnone] at hk
    cases hk
  · rwa [hboth] at hk

theorem dialing_only : p.dialing.Only [.dnsStart, .dnsDone, .connectStart, .connectDone] := by
  rw [dialing, only_append, only_append, only_cons, only_cons, p.dialed_kind, p.connected_kind]
  exact ⟨p.lookup_only.mono (by decide), p.failed_only.mono (by decide), by decide, by decide,
    only_nil⟩

theorem lead_only : p.lead.Only
    [.getConnection, .dnsStart, .dnsDone, .connectStart, .connectDone, .gotConnection] := by
  rw [lead, only_cons, only_append, only_cons, p.asked_kind, p.got_kind]
  exact ⟨by decide, p.dialing_only.mono (by decide), by decide, only_nil⟩

theorem tail_only : p.tail.Only [.firstByte, .responseRead] := by
  rw [tail, only_cons, only_append, only_cons, p.byte_kind, p.read_kind]
  exact ⟨by decide, p.more_only.mono (by decide), by decide, only_nil⟩

theorem transfer_only :
    Only (p.writes ++ p.tail) [.wroteRequest, .firstByte, .responseRead] :=
  only_append.mpr ⟨p.writes_only.mono (by decide), p.tail_only.mono (by decide)⟩

theorem unanswered_only : Only (p.lead ++ p.writes) [.getConnection, .dnsStart, .dnsDone,
    .connectStart, .connectDone, .gotConnection, .wroteRequest] :=
  only_append.mpr ⟨p.lead_only.mono (by decide), p.writes_only.mono (by decide)⟩

/-- The cuts are in order, each no earlier than the one before it. Everything about how the phases
fit together is arithmetic with these. -/
theorem times (hclock : p.history.InOrder started now) :
    started ≤ p.asked.1 ∧ InOrder (p.lookup ++ p.failed) p.asked.1 p.dialed.1
      ∧ p.dialed.1 ≤ p.connected.1 ∧ p.connected.1 ≤ p.got.1
      ∧ InOrder p.writes p.got.1 p.byte.1 ∧ InOrder p.more p.byte.1 p.read.1
      ∧ p.read.1 ≤ now := by
  have heq : p.history = (p.asked :: (p.lookup ++ p.failed)) ++ p.dialed
      :: p.connected :: p.got :: (p.writes ++ p.byte :: (p.more ++ [p.read])) := by
    simp [history, lead, dialing, tail]
  rw [heq, inOrder_append_cons] at hclock
  obtain ⟨⟨hasked, hlookup⟩, hconnected, hgot, htransfer⟩ := hclock
  obtain ⟨hwrites, hmore⟩ := inOrder_append_cons.mp htransfer
  obtain ⟨hread, hnow⟩ := inOrder_append_cons.mp hmore
  exact ⟨hasked, hlookup, hconnected, hgot, hwrites, hread, hnow⟩

theorem written_between {stop : Nat} (hwrites : p.writes.InOrder p.got.1 stop) :
    p.got.1 ≤ p.written ∧ p.written ≤ stop := by
  rw [written]
  cases hlast : p.writes.lastTime? [.wroteRequest] with
  | none => exact ⟨Nat.le_refl _, hwrites.le⟩
  | some time => exact hwrites.lastTime? hlast

/-! ### The spans of the phases -/

/-- The time for the connection is from asking for it to having it, with the lookup and all dials
within. -/
theorem blocked_eq :
    p.history.span started [.getConnection] .gotConnection = some ⟨p.asked.1, p.got.1⟩ := by
  have heq : p.history = (p.asked :: p.dialing) ++ p.got :: (p.writes ++ p.tail) := by
    simp [history, lead]
  have hasked : lastTime? [.getConnection] ([] ++ p.asked :: p.dialing) = some p.asked.1 :=
    lastTime?_of_pieces (by simp [p.asked_kind]) (p.dialing_only.lacks (by decide))
  rw [List.nil_append] at hasked
  rw [heq, span_of_pieces p.got_kind (p.transfer_only.lacks (by decide)), hasked]
  rfl

/-- The last dial counts, whatever failed before it. -/
theorem connect_eq :
    p.history.span started [.connectStart] .connectDone = some ⟨p.dialed.1, p.connected.1⟩ := by
  have heq : p.history = (p.asked :: (p.lookup ++ p.failed) ++ [p.dialed])
      ++ p.connected :: (p.got :: (p.writes ++ p.tail)) := by
    simp [history, lead, dialing]
  have hlater : Lacks (p.got :: (p.writes ++ p.tail)) [.connectDone] :=
    lacks_cons.mpr ⟨by simp [p.got_kind], p.transfer_only.lacks (by decide)⟩
  rw [heq, span_of_pieces p.connected_kind hlater, lastTime?_concat]
  simp [p.dialed_kind]

/-- The lookup, if there is one, lies between asking for the connection and the dial. -/
theorem dns_le (hlookup : InOrder (p.lookup ++ p.failed) p.asked.1 p.dialed.1) :
    ((p.history.span started [.dnsStart] .dnsDone).map Span.length).getD 0
      ≤ p.dialed.1 - p.asked.1 := by
  have heq : p.history = (p.asked :: p.lookup)
      ++ (p.failed ++ p.dialed :: p.connected :: p.got :: (p.writes ++ p.tail)) := by
    simp [history, lead, dialing]
  have hlater : Only (p.failed ++ p.dialed :: p.connected :: p.got :: (p.writes ++ p.tail))
      [.connectStart, .connectDone, .gotConnection, .wroteRequest, .firstByte,
        .responseRead] := by
    rw [only_append, only_cons, only_cons, only_cons, p.dialed_kind, p.connected_kind, p.got_kind]
    exact ⟨p.failed_only.mono (by decide), by decide, by decide, by decide,
      p.transfer_only.mono (by decide)⟩
  rw [heq, span_append_of_lacks (hlater.lacks (by decide))]
  rcases p.lookup_kinds with hnone | hboth
  · -- A host that is not looked up takes no time to be found.
    rw [List.map_eq_nil_iff.mp hnone]
    simp [span, last?, p.asked_kind]
  · obtain ⟨asks, _, hasks, hkind, hknows⟩ := List.map_eq_cons_iff.mp hboth
    obtain ⟨knows, rfl, hkind'⟩ := List.map_eq_singleton_iff.mp hknows
    rw [hasks] at hlookup ⊢
    obtain ⟨hasked, hasks', hfailed⟩ := hlookup
    have hle := hfailed.le
    have hspan : span ([p.asked] ++ [asks] ++ [knows]) started [.dnsStart] .dnsDone
        = some ⟨asks.1, knows.1⟩ := by
      rw [span_concat, if_pos hkind', lastTime?_concat]
      simp [hkind]
    show ((span ([p.asked] ++ [asks] ++ [knows]) started _ _).map Span.length).getD 0 ≤ _
    rw [hspan]
    show knows.1 - asks.1 ≤ p.dialed.1 - p.asked.1
    omega

/-- Once the connection is there the request can be sent. -/
theorem lastTime?_readying (hlacks : later.Lacks readying) :
    lastTime? readying (p.lead ++ later) = some p.got.1 := by
  rw [lead, ← List.cons_append, List.append_assoc]
  exact lastTime?_of_pieces (by simp [readying, p.got_kind]) hlacks

/-- The request is sent from the connection on until it has been written. -/
theorem send_eq :
    ((p.history.span started readying .wroteRequest).map Span.length).getD 0
      = p.written - p.got.1 := by
  have honly := p.writes_only
  rw [history, span_append_of_lacks (p.tail_only.lacks (by decide)), written]
  rcases List.eq_nil_or_concat' p.writes with hnone | ⟨earlier, last, hsome⟩
  · -- Nothing was noted as written, and what was written counts from the connection as well.
    have hspan : p.lead.span started readying .wroteRequest = none := by
      rw [span, last?_eq_none_iff.mpr (p.lead_only.lacks (by decide))]
      rfl
    rw [hnone, List.append_nil, hspan]
    exact (Nat.sub_self _).symm
  · rw [hsome, only_append, only_cons] at honly
    rw [hsome, ← List.append_assoc, span_concat, if_pos (List.mem_singleton.mp honly.2.1),
      p.lastTime?_readying (honly.1.lacks (by decide)), lastTime?_concat, if_pos honly.2.1]
    rfl

/-- The waiting is from when the request has been written to the first byte. -/
theorem waiting_eq : p.history.waiting started = some ⟨p.written, p.byte.1⟩ := by
  rw [history, tail, waiting_of_pieces p.byte_kind (p.unanswered_only.lacks (by decide)),
    p.lastTime?_readying (p.writes_only.lacks (by decide)),
    lastTime?_append_of_lacks (p.lead_only.lacks (by decide)), written]
  cases p.writes.lastTime? [.wroteRequest] <;> rfl

/-- The response is read from its first byte on. -/
theorem receiving_eq : p.history.receiving = some ⟨p.byte.1, p.read.1⟩ := by
  have heq : p.history = (p.lead ++ p.writes ++ p.byte :: p.more) ++ [p.read] := by
    simp [history, tail]
  rw [heq, receiving_concat, if_pos p.read_kind,
    firstTime?_of_pieces (by simp [p.byte_kind]) (p.unanswered_only.lacks (by decide))]
  rfl

/-- The lookup and the dial lie within the time for the connection, and that and the phases
after it lie next to one another within the whole. -/
theorem phases_nested (hclock : p.history.InOrder started now) :
    let phases := (p.history.spans started).phases
    ∃ blocked connect, phases.blocked = some blocked ∧ phases.connect = some connect
      ∧ phases.dns.getD 0 + connect ≤ blocked
      ∧ blocked + phases.send + phases.wait + phases.receive ≤ now - started := by
  intro phases
  obtain ⟨hasked, hlookup, hdialed, hconnected, hwrites, hmore, hread⟩ := p.times hclock
  have hbetween := p.written_between hwrites
  have hdns : phases.dns.getD 0 ≤ p.dialed.1 - p.asked.1 := p.dns_le hlookup
  have hsend : phases.send = p.written - p.got.1 := p.send_eq
  have hwait : phases.wait = p.byte.1 - p.written := by
    show ((p.history.waiting started).map Span.length).getD 0 = _
    rw [p.waiting_eq]
    rfl
  have hreceive : phases.receive = p.read.1 - p.byte.1 := by
    show (p.history.receiving.map Span.length).getD 0 = _
    rw [p.receiving_eq]
    rfl
  -- Each phase is now a difference of two cuts, and the cuts are in order.
  have hlookup := hlookup.le
  have hmore := hmore.le
  refine ⟨p.got.1 - p.asked.1, p.connected.1 - p.dialed.1, ?_, ?_, ?_, ?_⟩
  · exact congrArg (Option.map Span.length) p.blocked_eq
  · exact congrArg (Option.map Span.length) p.connect_eq
  · omega
  · omega

end Pieces

end History

/-! ## The phases within the time -/

namespace Tracker

open History

variable {started now : Nat} {span : Option Span}

/-- The milliseconds of some stretch of the time from the start until now. That is as much as can be
said in milliseconds, where the sum of two phases is no longer exact. -/
def Stretch (started now : Nat) (ms : Float) : Prop :=
  ∃ s : Span, s.Within started now ∧ s.length ≤ now - started ∧ ms = millis s.length

theorem stretch_of_within {s : Span} (hs : s.Within started now) :
    Stretch started now (millis s.length) := by
  refine ⟨s, hs, ?_, rfl⟩
  have hstart := hs.started_le
  have hstop := hs.stop_le
  rw [Span.length]
  omega

/-- A phase of the connection does not apply unless it took place. -/
theorem applies_or_stretch (hspan : ∀ s, span = some s → s.Within started now) :
    Spans.lengthMillis notApplicable span = notApplicable
      ∨ Stretch started now (Spans.lengthMillis notApplicable span) := by
  cases span with
  | none => exact .inl rfl
  | some s => exact .inr (stretch_of_within (hspan s rfl))

/-- Any other phase has no length if it did not take place. -/
theorem stretch_of_phase (hle : started ≤ now)
    (hspan : ∀ s, span = some s → s.Within started now) :
    Stretch started now (Spans.lengthMillis 0.0 span) := by
  cases span with
  | none =>
    -- Zero milliseconds are those of a stretch without length, which there always is.
    have hempty : Span.Within ⟨now, now⟩ started now := ⟨hle, Nat.le_refl _, Nat.le_refl _⟩
    have hzero : Spans.lengthMillis 0.0 none = millis (Span.length ⟨now, now⟩) := by
      rw [Span.length, Nat.sub_self]
      exact (millis_length none).symm
    rw [hzero]
    exact stretch_of_within hempty
  | some s => exact stretch_of_within (hspan s rfl)

/-- **The phases lie within the time.** Whatever a tracker is told while the clock does not
go back, each phase that it reports is a stretch of the time that it reports, or does not
apply if it is one of the connection. Of a successful exchange the exact phases also fit
together: the lookup and the dial are part of the time for the connection, and this, the
sending, the waiting and the receiving take no longer than the whole. -/
theorem phases_within_time (c : Clock) (h : History) (now : Nat)
    (hclock : h.InOrder c.elapsed now) :
    let t := (new c).noteAll h
    t.time now = millis (now - c.elapsed)
      ∧ (∀ ms ∈ [t.timings.blocked, t.timings.dns, t.timings.connect, t.timings.ssl],
          ms = notApplicable ∨ Stretch c.elapsed now ms)
      ∧ (∀ ms ∈ [t.timings.send, t.timings.wait, t.timings.receive], Stretch c.elapsed now ms)
      ∧ ∀ looksUp failed writes more, h.kinds = exchange looksUp failed writes more →
          ∃ blocked connect, t.phases.blocked = some blocked ∧ t.phases.connect = some connect
            ∧ t.phases.dns.getD 0 + connect ≤ blocked
            ∧ blocked + t.phases.send + t.phases.wait + t.phases.receive
              ≤ now - c.elapsed := by
  intro t
  have hr : t.Remembers c h := remembers_noteAll c h
  have htimings : t.timings = (h.spans c.elapsed).timings := timings_of_phases hr.phases
  refine ⟨?_, ?_, ?_, ?_⟩
  · rw [time, hr.started]
  · rw [htimings]
    simp only [List.forall_mem_cons, List.not_mem_nil, false_imp_iff, implies_true, and_true]
    exact ⟨applies_or_stretch fun s hs => hclock.within_span hs,
      applies_or_stretch fun s hs => hclock.within_span hs,
      applies_or_stretch fun s hs => hclock.within_span hs,
      applies_or_stretch fun s hs => hclock.within_span hs⟩
  · rw [htimings]
    simp only [List.forall_mem_cons, List.not_mem_nil, false_imp_iff, implies_true, and_true]
    exact ⟨stretch_of_phase hclock.le fun s hs => hclock.within_span hs,
      stretch_of_phase hclock.le fun s hs => hclock.within_waiting hs,
      stretch_of_phase hclock.le fun s hs => hclock.within_receiving hs⟩
  · intro looksUp failed writes more hkinds
    obtain ⟨p, rfl⟩ := pieces_of_exchange hkinds
    rw [hr.phases]
    exact p.phases_nested hclock

/-- Two of three dials fail, the request is flushed twice, and both the transport and the
headers report the first byte. -/
theorem phases_within_time_redialed :
    let c : Clock := ⟨0, 5⟩
    let h : History := [(5, .event (.getConnection "h:80")), (6, .event (.dnsStart "h")),
      (9, .event .dnsDone), (10, .event (.connectStart "1.1.1.1:80")), (14, .event .connectDone),
      (14, .event (.connectStart "2.2.2.2:80")), (19, .event .connectDone),
      (20, .event (.connectStart "3.3.3.3:80")), (26, .event .connectDone),
      (27, .event (.gotConnection false)), (30, .event .wroteRequest), (32, .event .wroteRequest),
      (40, .event .firstResponseByte), (41, .responseHeaders), (50, .responseRead)]
    let t := (new c).noteAll h
    h.InOrder c.elapsed 50 ∧ h.kinds = exchange true 2 2 1
      ∧ t.phases = ⟨some 22, some 3, some 6, none, 5, 8, 10⟩
      ∧ ∃ blocked connect, t.phases.blocked = some blocked ∧ t.phases.connect = some connect
        ∧ t.phases.dns.getD 0 + connect ≤ blocked
        ∧ blocked + t.phases.send + t.phases.wait + t.phases.receive ≤ 50 - c.elapsed := by
  intro c h t
  have hclock : h.InOrder c.elapsed 50 := by decide
  have hkinds : h.kinds = exchange true 2 2 1 := by decide
  exact ⟨hclock, hkinds, by decide,
    (phases_within_time c h 50 hclock).2.2.2 true 2 2 1 hkinds⟩

end Tracker

end ExchangeArchive.Trip
