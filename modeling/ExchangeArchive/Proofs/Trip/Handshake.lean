import ExchangeArchive.Proofs.Trip.Nesting
/-
The time for a TLS handshake, and the time for connecting.

A transport dials, and negotiates over what it dialed, as often as it has to. What the
history has of this is a list of attempts, each of which goes as far as it gets
(`InAttempts`); what else is noted in between does not matter, for the two spans read only
these notices (`span_restrict`). The induction is over the attempts: the last dial that was
done either comes before the last handshake that was done, being of the same attempt, or
after it.

So nothing of the handshake is in the time for connecting, and either can be the longer one.
-/

set_option autoImplicit false

namespace ExchangeArchive.Trip

open ExchangeArchive.Archive ExchangeArchive.Time ExchangeArchive.Trace

namespace History

variable {h : History} {only begins ks : List Kind} {ends : Kind} {started now : Nat}

/-! ## What a span reads -/

/-- The notices of some kinds, with their times and in their order, and no others. -/
def restrict (only : List Kind) (h : History) : History := h.filter fun x => x.2.kind ∈ only

theorem kinds_restrict : (h.restrict only).kinds = h.kinds.filter (· ∈ only) := by
  rw [restrict, kinds, kinds, List.filter_map]
  rfl

theorem last?_restrict (hks : ∀ k ∈ ks, k ∈ only) :
    last? ks (h.restrict only) = (last? ks h).map fun y => (y.1, y.2.restrict only) := by
  induction h using List.reverseRecOn with
  | nil => rfl
  | append_singleton h x ih =>
    rw [restrict, List.filter_append, ← restrict, last?_concat]
    by_cases hx : x.2.kind ∈ ks
    · simp [hks _ hx, hx]
    · -- A notice that is not looked for may or may not be left.
      by_cases honly : x.2.kind ∈ only <;> simp [honly, hx, ih]

/-- A span reads nothing but the notices at which it starts and ends. -/
theorem span_restrict (hbegins : ∀ k ∈ begins, k ∈ only) (hends : ends ∈ only) :
    (h.restrict only).span started begins ends = h.span started begins ends := by
  have hends' : ∀ k ∈ [ends], k ∈ only := by simpa using hends
  rw [span, last?_restrict hends', span, Option.map_map]
  congr 1
  funext y
  show Span.mk ((lastTime? begins (y.2.restrict only)).getD started) y.1 = _
  rw [lastTime?, last?_restrict hbegins, Option.map_map]
  rfl

/-- What is in order is so from any earlier start until any later time: only the notices in between
matter. -/
theorem InOrder.mono {start stop : Nat} (hclock : h.InOrder started now) (hstart : start ≤ started)
    (hstop : now ≤ stop) : h.InOrder start stop := by
  induction h generalizing start started with
  | nil => exact Nat.le_trans hstart (Nat.le_trans hclock hstop)
  | cons x rest ih => exact ⟨Nat.le_trans hstart hclock.1, ih hclock.2 (Nat.le_refl _)⟩

theorem InOrder.restrict (hclock : h.InOrder started now) :
    (h.restrict only).InOrder started now := by
  induction h generalizing started with
  | nil => exact hclock
  | cons x rest ih =>
    obtain ⟨hx, hrest⟩ := hclock
    rw [History.restrict, List.filter_cons]
    split
    · exact ⟨hx, ih hrest⟩
    · exact ih (hrest.mono hx (Nat.le_refl _))

/-! ## Attempts -/

/-- What is noted of one attempt to connect and to negotiate, in its order. -/
def attempt : List Kind := [.connectStart, .connectDone, .tlsStart, .tlsDone]

/-- The notices of dials and handshakes are those of attempts, one after the other, each of
which may be given up on the way. -/
def InAttempts (h : History) : Prop :=
  ∃ attempts : List (List Kind), (∀ a ∈ attempts, a <+: attempt)
    ∧ h.kinds.filter (· ∈ attempt) = attempts.flatten

/-- If there is a handshake there is a dial, and they do not overlap. -/
def Apart (h : History) (started : Nat) : Prop :=
  ∀ handshake, h.span started [.tlsStart] .tlsDone = some handshake →
    ∃ dial, h.span started [.connectStart] .connectDone = some dial
      ∧ (dial.stop ≤ handshake.start ∨ handshake.stop ≤ dial.start)

variable {g a : History}

/-- How far an attempt gets: to no connection, to a connection, or to the end of a handshake
over it. -/
theorem attempt_cases (hattempt : a.kinds <+: attempt) :
    (a.Lacks [.connectDone] ∧ a.Lacks [.tlsDone])
      ∨ (∃ x y rest, a = x :: y :: rest ∧ x.2.kind = .connectStart ∧ y.2.kind = .connectDone
          ∧ Lacks rest [.connectDone] ∧ Lacks rest [.tlsDone])
      ∨ ∃ x y z w, a = [x, y, z, w] ∧ x.2.kind = .connectStart ∧ y.2.kind = .connectDone
          ∧ z.2.kind = .tlsStart ∧ w.2.kind = .tlsDone := by
  obtain ⟨rest, hrest⟩ := hattempt
  match a, hrest with
  | [], _ => exact .inl (by simp [Lacks])
  | [x], hrest =>
    obtain ⟨hx, -⟩ : x.2.kind = .connectStart ∧ _ := by simpa [kinds, attempt] using hrest
    exact .inl (by simp [Lacks, hx])
  | [x, y], hrest =>
    obtain ⟨hx, hy, -⟩ : x.2.kind = .connectStart ∧ y.2.kind = .connectDone ∧ _ := by
      simpa [kinds, attempt] using hrest
    exact .inr (.inl ⟨x, y, [], rfl, hx, hy, by simp [Lacks]⟩)
  -- A handshake that was started and given up is not in the time of anything.
  | [x, y, z], hrest =>
    obtain ⟨hx, hy, hz, -⟩ : x.2.kind = .connectStart ∧ y.2.kind = .connectDone
        ∧ z.2.kind = .tlsStart ∧ _ := by
      simpa [kinds, attempt] using hrest
    exact .inr (.inl ⟨x, y, [z], rfl, hx, hy, by simp [Lacks, hz]⟩)
  | [x, y, z, w], hrest =>
    obtain ⟨hx, hy, hz, hw, -⟩ : x.2.kind = .connectStart ∧ y.2.kind = .connectDone
        ∧ z.2.kind = .tlsStart ∧ w.2.kind = .tlsDone ∧ _ := by
      simpa [kinds, attempt] using hrest
    exact .inr (.inr ⟨x, y, z, w, rfl, hx, hy, hz, hw⟩)
  | _ :: _ :: _ :: _ :: _ :: _, hrest => simp [kinds, attempt] at hrest

theorem span_of_pair {x y : Nat × Notice} {rest : History} {starts : Kind}
    (hx : x.2.kind = starts) (hy : y.2.kind = ends) (hrest : rest.Lacks [ends]) :
    span (g ++ x :: y :: rest) started [starts] ends = some ⟨x.1, y.1⟩ := by
  rw [List.append_cons, span_of_pieces hy hrest, lastTime?_concat]
  simp [hx]

/-- **What one more attempt preserves.** Its own handshake comes after its own dial, and a
handshake of an earlier attempt comes before it. -/
theorem Apart.append (hapart : g.Apart started) (hclock : InOrder (g ++ a) started now)
    (hattempt : a.kinds <+: attempt) : Apart (g ++ a) started := by
  intro handshake htls
  rcases attempt_cases hattempt with ⟨hdial, hshake⟩ | ⟨x, y, rest, rfl, hx, hy, hdial, hshake⟩
    | ⟨x, y, z, w, rfl, hx, hy, hz, hw⟩
  · -- Without a connection the last dial and the last handshake are those of before.
    rw [span_append_of_lacks hshake] at htls
    rw [span_append_of_lacks hdial]
    exact hapart handshake htls
  · -- The dial is new and the handshake is not, so the handshake was over by then.
    refine ⟨⟨x.1, y.1⟩, span_of_pair hx hy hdial, .inr ?_⟩
    have hshake' : Lacks (x :: y :: rest) [.tlsDone] :=
      lacks_cons.mpr ⟨by simp [hx], lacks_cons.mpr ⟨by simp [hy], hshake⟩⟩
    rw [span_append_of_lacks hshake'] at htls
    obtain ⟨hearlier, -⟩ := inOrder_append_cons.mp hclock
    exact (hearlier.within_span htls).stop_le
  · -- Both are new, and the handshake started once the dial was done.
    refine ⟨⟨x.1, y.1⟩, span_of_pair hx hy (by simp [Lacks, hz, hw]), .inl ?_⟩
    have hshake : span (g ++ [x, y] ++ [z, w]) started [.tlsStart] .tlsDone = some ⟨z.1, w.1⟩ :=
      span_of_pair hz hw (by simp [Lacks])
    rw [List.append_assoc] at hshake
    obtain rfl := Option.some.inj (hshake.symm.trans htls)
    obtain ⟨-, -, hyz, -⟩ := inOrder_append_cons.mp hclock
    exact hyz

theorem InOrder.of_append (hclock : InOrder (g ++ a) started now) : g.InOrder started now := by
  cases a with
  | nil => rwa [List.append_nil] at hclock
  | cons x rest =>
    obtain ⟨hearlier, hlater⟩ := inOrder_append_cons.mp hclock
    exact hearlier.mono (Nat.le_refl _) hlater.le

theorem apart_of_attempts {attempts : List (List Kind)} (hall : ∀ a ∈ attempts, a <+: attempt)
    (hkinds : g.kinds = attempts.flatten) (hclock : g.InOrder started now) :
    g.Apart started := by
  induction attempts using List.reverseRecOn generalizing g now with
  | nil =>
    obtain rfl := List.map_eq_nil_iff.mp hkinds
    intro handshake htls
    cases htls
  | append_singleton attempts last ih =>
    rw [List.flatten_concat] at hkinds
    obtain ⟨earlier, a, rfl, hearlier, rfl⟩ := List.map_eq_append_iff.mp hkinds
    have hapart : Apart earlier started :=
      ih (fun a ha => hall a (List.mem_append_left _ ha)) hearlier hclock.of_append
    exact hapart.append hclock (hall _ (List.mem_append_right _ (List.mem_singleton_self _)))

/-- **No handshake is in the time of a dial**: in a history of attempts the last of each do not
overlap. -/
theorem InAttempts.apart (horder : h.InAttempts) (hclock : h.InOrder started now) :
    h.Apart started := by
  obtain ⟨attempts, hall, hkinds⟩ := horder
  have hapart : (h.restrict attempt).Apart started :=
    apart_of_attempts hall (kinds_restrict.trans hkinds) hclock.restrict
  rw [Apart, span_restrict (by decide) (by decide), span_restrict (by decide) (by decide)] at hapart
  exact hapart

end History

namespace Tracker

open History

/-- **The time for connecting leaves out the handshake.** Let a history of attempts, at any times,
have a handshake that was done. What a tracker reports as the time for connecting is that of the
last dial that was done, from its start to its end, and what it reports as the time for the
handshake is that of the last handshake that was done; both are exact before they are turned into
milliseconds. The dial is over before the handshake starts, or starts after it is over. So the time
for connecting has nothing of the handshake in it, and is the shorter one whenever the dial took
less time. -/
theorem connect_leaves_out_tls (c : Clock) (h : History) (now : Nat)
    (hclock : h.InOrder c.elapsed now) (horder : h.InAttempts) (tls : Nat)
    (htls : ((new c).noteAll h).phases.tls = some tls) :
    let t := (new c).noteAll h
    ∃ dial handshake : Span,
      h.span c.elapsed [.connectStart] .connectDone = some dial
      ∧ h.span c.elapsed [.tlsStart] .tlsDone = some handshake
      ∧ dial.Within c.elapsed now ∧ handshake.Within c.elapsed now
      ∧ (dial.stop ≤ handshake.start ∨ handshake.stop ≤ dial.start)
      ∧ t.phases.connect = some dial.length ∧ tls = handshake.length
      ∧ t.timings.connect = millis dial.length ∧ t.timings.ssl = millis handshake.length := by
  intro t
  have hr : t.Remembers c h := remembers_noteAll c h
  rw [hr.phases] at htls
  obtain ⟨handshake, hspan, rfl⟩ := Option.map_eq_some_iff.mp htls
  obtain ⟨dial, hdial, hapart⟩ := horder.apart hclock handshake hspan
  have htimings : t.timings = (h.spans c.elapsed).timings := timings_of_phases hr.phases
  refine ⟨dial, handshake, hdial, hspan, hclock.within_span hdial, hclock.within_span hspan, hapart,
    ?_, rfl, ?_, ?_⟩
  · rw [hr.phases]
    exact congrArg (Option.map Span.length) hdial
  · rw [htimings]
    exact congrArg (Spans.lengthMillis notApplicable) hdial
  · rw [htimings]
    exact congrArg (Spans.lengthMillis notApplicable) hspan

/-- The first attempt is given up in its handshake; the handshake of the second takes 4 ns, and
its dial 2 ns. -/
theorem connect_leaves_out_tls_redialed :
    let c : Clock := ⟨0, 0⟩
    let h : History := [(1, .event (.getConnection "h:443")),
      (2, .event (.connectStart "1.1.1.1:443")), (5, .event .connectDone), (5, .event .tlsStart),
      (6, .event (.connectStart "2.2.2.2:443")), (8, .event .connectDone), (9, .event .tlsStart),
      (13, .event .tlsDone), (14, .event (.gotConnection false))]
    h.InOrder c.elapsed 14 ∧ h.InAttempts ∧ ((new c).noteAll h).phases.tls = some 4
      ∧ ((new c).noteAll h).phases.connect = some 2
      ∧ ((new c).noteAll h).timings.connect = millis 2
      ∧ ((new c).noteAll h).timings.ssl = millis 4 := by
  intro c h
  have hclock : h.InOrder c.elapsed 14 := by decide
  have horder : h.InAttempts := ⟨[attempt.take 3, attempt], by decide, by decide⟩
  obtain ⟨dial, handshake, hdial, hspan, -, -, -, hphase, -, hconnect, hssl⟩ :=
    connect_leaves_out_tls c h 14 hclock horder 4 (by decide)
  have hlast : h.span c.elapsed [.connectStart] .connectDone = some ⟨6, 8⟩ := by decide
  have hshake : h.span c.elapsed [.tlsStart] .tlsDone = some ⟨9, 13⟩ := by decide
  obtain rfl : dial = ⟨6, 8⟩ := Option.some.inj (hdial.symm.trans hlast)
  obtain rfl : handshake = ⟨9, 13⟩ := Option.some.inj (hspan.symm.trans hshake)
  exact ⟨hclock, horder, by decide, hphase, hconnect, hssl⟩

/-- A dial that takes no time, and a handshake of 20 ms over what was dialed: the time for
connecting is zero. -/
theorem handshake_outlasts_dial :
    let c : Clock := ⟨0, 0⟩
    let h : History := [(0, .event (.connectStart "93.184.216.34:443")), (0, .event .connectDone),
      (0, .event .tlsStart), (20000000, .event .tlsDone)]
    let t := (new c).noteAll h
    h.InOrder c.elapsed 20000000 ∧ h.InAttempts ∧ t.phases.tls = some 20000000
      ∧ t.phases.connect = some 0 ∧ ¬ t.timings.ssl ≤ t.timings.connect :=
  ⟨by decide, ⟨[attempt], by decide, by decide⟩, by decide, by decide, by decide +kernel⟩

end Tracker

end ExchangeArchive.Trip
