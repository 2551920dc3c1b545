import ExchangeArchive.Proofs.Recorder.Pages
/-
**Calls that are not recorded do not interfere.**

A recorder that does not record everything leaves out the requests without a marker. A run is
compared with the one in which their calls have never been: their moves are taken out, the
clock is kept, and the calls that are left are numbered anew.

`Beside` relates the two runs as they go: the sessions are the same but for the clock, and the
calls of the shorter run are those of the longer one that are recorded. `Beside.move` and
`Beside.skip` are the step lemmas. A move that is kept finds the same session and the same call
in both runs, so it shows and does the same. A move that is taken out has no deeds, and deeds
are all that a move does to the session (`move_session`).

That a call which is not recorded has no deeds is known of it already: no entry of it is ever
due, since an entry is due only to a call that has kept its response (`due?_unrecorded`). With
that the rest can be seen at each turn, and what the turn shows is what the transport or the
body gave (`attend_unrecorded`).
-/

set_option autoImplicit false

namespace ExchangeArchive

open ExchangeArchive.Archive ExchangeArchive.Body ExchangeArchive.Http ExchangeArchive.Page
  ExchangeArchive.Pipeline ExchangeArchive.Recorder ExchangeArchive.Time
  ExchangeArchive.Transport ExchangeArchive.Trip

namespace Recorder

/-! ## Filtered lists -/

section Filtered

variable {α : Type} {p : α → Bool} {l : List α} {n : Nat} {x y : α}

/-- A list around one of its elements. The lemmas on filters below speak of what is before the
element and what is after it. -/
theorem exists_around (h : l[n]? = some x) :
    ∃ before after, l = before ++ x :: after ∧ before.length = n := by
  obtain ⟨hn, rfl⟩ := List.getElem?_eq_some_iff.mp h
  refine ⟨l.take n, l.drop (n + 1), ?_, List.length_take_of_le (Nat.le_of_lt hn)⟩
  rw [← List.drop_eq_getElem_cons hn, List.take_append_drop]

/-- An element that stays has as many before it as stay of those before it. -/
theorem getElem?_filter (h : l[n]? = some x) (hx : p x = true) :
    (l.filter p)[(l.take n).countP p]? = some x := by
  obtain ⟨before, after, rfl, rfl⟩ := exists_around h
  rw [List.take_left, List.countP_eq_length_filter, List.filter_append,
    List.filter_cons_of_pos hx, List.getElem?_append_right (Nat.le_refl _), Nat.sub_self]
  rfl

theorem filter_set_of_pos (h : l[n]? = some x) (hx : p x = true) (hy : p y = true) :
    (l.set n y).filter p = (l.filter p).set ((l.take n).countP p) y := by
  obtain ⟨before, after, rfl, rfl⟩ := exists_around h
  rw [List.take_left, List.countP_eq_length_filter, List.filter_append,
    List.filter_cons_of_pos hx]
  simp [List.set_append_right, hy]

theorem filter_set_of_neg (h : l[n]? = some x) (hx : p x = false) (hy : p y = false) :
    (l.set n y).filter p = l.filter p := by
  obtain ⟨before, after, rfl, rfl⟩ := exists_around h
  simp [List.set_append_right, hx, hy]

/-- What comes to nothing may be left out beforehand: so the deeds of a run are those of its
moves without the unmarked calls. -/
theorem flatMap_filter {β : Type} {f : α → List β} (h : ∀ x ∈ l, p x = false → f x = []) :
    (l.filter p).flatMap f = l.flatMap f := by
  induction l with
  | nil => rfl
  | cons x l ih =>
    have hrest := ih fun y hy => h y (List.mem_cons_of_mem x hy)
    rw [List.flatMap_cons, ← hrest]
    cases hx : p x with
    | true => rw [List.filter_cons_of_pos hx, List.flatMap_cons]
    | false =>
      rw [List.filter_cons_of_neg (by simp [hx]), h x List.mem_cons_self hx, List.nil_append]

end Filtered

/-! ## Calls without a marker -/

/-- Whether the requests of a run are marked as to be recorded, in the order of their calls. -/
def marks (moves : List (Clock × Move)) : List Bool :=
  (requests moves).map (·.markers.isIncluded)

/-- The number of a call if only marked ones are counted: the number that it has in the run
without the others. -/
def rank (marks : List Bool) (n : Nat) : Nat := (marks.take n).count true

/-- A move of a call whose request is not marked: its beginning, or a turn of it. -/
def Move.isUnmarked (marks : List Bool) : Move → Bool
  | .begin o => !o.markers.isIncluded
  | .turn n _ => marks[n]? == some false
  | _ => false

/-- A move among those of marked calls only. -/
def Move.renumbered (marks : List Bool) : Move → Move
  | .turn n t => .turn (rank marks n) t
  | m => m

/-- What is seen of a move among those of marked calls only. -/
def Sight.renumbered (marks : List Bool) : Sight → Sight
  | .answered (.begun n) => .answered (.begun (rank marks n))
  | sight => sight

/-- The moves that are not of unmarked calls, at the times at which they were made. What they
are numbered by is the list of all marks, the same for each of them. -/
def markedOnly (marks : List Bool) (moves : List (Clock × Move)) : List (Clock × Move) :=
  (moves.filter fun m => !m.2.isUnmarked marks).map fun m => (m.1, m.2.renumbered marks)

/-- What a turn of a call shows if nobody records it: what the transport and the bodies give.
It takes no recorder and no session. -/
def Call.shows (c : Clock) (call : Call) : Turn → Sight
  | .act a => .acted (Call.act c call a).1 (Call.act c call a).2.1
  | .settle (.error text) =>
    if call.isWaiting then .settled (.error (.transport text)) else .answered .gone
  | .settle (.ok (head, _)) => if call.isWaiting then .settled (.ok head) else .answered .gone
  | .poll =>
    match call.responseBody with
    | some b => .answered (.polled b.poll.result)
    | none => .answered .gone
  | .close => .answered (if call.responseBody.isSome then .closed (.ok ()) else .gone)
  | .drop => .answered (.dropped (call.isWaiting || call.responseBody.isSome))
  | .pollRequest =>
    .answered (if call.custody = .held then .polled call.requestBody.poll.result else .gone)

/-- The calls of a run are those that have marks, as far as they have begun. The marks may go on
behind them, since a move can name a call that begins later. -/
def Numbered (marks : List Bool) (calls : List Call) : Prop :=
  calls.map (·.isRecorded) <+: marks

variable {r : Recorder} {call : Call} {s : Session} {whole own : State} {n : Nat} {c : Clock}
  {t : Turn} {m : Move} {o : Outgoing} {calls : List Call} {all : List Bool}
  {moves : List (Clock × Move)}

/-- The mark of a call says whether it is recorded, if nothing is recorded without a mark. -/
theorem Numbered.mark (h : Numbered all calls) (hcall : calls[n]? = some call) :
    all[n]? = some call.isRecorded := by
  have hmark : (calls.map (·.isRecorded))[n]? = some call.isRecorded := by
    rw [List.getElem?_map, hcall]
    rfl
  obtain ⟨hn, -⟩ := List.getElem?_eq_some_iff.mp hmark
  obtain ⟨rest, rfl⟩ := h
  rw [List.getElem?_append_left hn]
  exact hmark

/-- A call is counted after the recorded ones that are before it. -/
theorem Numbered.rank_eq (h : Numbered all calls) (hn : n ≤ calls.length) :
    rank all n = (calls.take n).countP (·.isRecorded) := by
  obtain ⟨rest, rfl⟩ := h
  rw [rank, List.take_append_of_le_length (by simpa using hn), ← List.map_take, List.count,
    List.countP_map]
  congr 1
  funext call
  simp

/-- What has not begun is counted after all that has. -/
theorem Numbered.le_rank (h : Numbered all calls) (hn : calls.length ≤ n) :
    (calls.filter (·.isRecorded)).length ≤ rank all n := by
  have hall := h.rank_eq (Nat.le_refl calls.length)
  rw [List.take_length, List.countP_eq_length_filter] at hall
  rw [← hall]
  exact (List.take_sublist_take_left hn).count_le true

/-! ## What is left of a run -/

/-- How a run goes with the one in which only the recorded calls are: what they share is the
same, and the calls are. The clocks are set alike first, because the one run may have spent time
on calls that the other does not have. -/
structure Beside (whole own : State) : Prop where
  session : ∀ c, (own.at c).session = (whole.at c).session
  calls : own.calls = whole.calls.filter (·.isRecorded)

/-- A move that is made in both runs finds the same session and leaves the same one, does the
same and shows the same, except for the numbers of the calls. -/
structure Agrees (r : Recorder) (marks : List Bool) (a b : State × Move) : Prop where
  move : b.2 = a.2.renumbered marks
  found : b.1.session = a.1.session
  deeds : deedsAt r b = deedsAt r a
  left : (r.move b.1 b.2).2.session = (r.move a.1 a.2).2.session
  sight : (r.move b.1 b.2).1 = (r.move a.1 a.2).1.renumbered marks

/-- A move of an unmarked call does nothing to what calls share, but for the time it takes; and
what a turn of it shows is what there is to see without a recorder. -/
structure Aside (r : Recorder) (m : State × Move) : Prop where
  deeds : deedsAt r m = []
  session : (r.move m.1 m.2).2.session = (m.1.at (reachedAt m)).session
  shows : ∀ n t call, m.2 = .turn n t → m.1.calls[n]? = some call →
    (r.move m.1 m.2).1 = call.shows m.1.session.clock t

/-! ## Steps -/

/-- A call has no use for its number: what a turn of it shows is the same under another one. -/
theorem renumbered_attend (k : Nat) :
    (r.attend k call s t).1.renumbered all = (r.attend n call s t).1 := by
  cases t with
  | act a => rfl
  | settle answer =>
    rw [attend, attend]
    split <;> rfl
  | poll =>
    show (Sight.answered (.ofPoll (r.pollBody call s).1)).renumbered all
      = .answered (.ofPoll (r.pollBody call s).1)
    cases (r.pollBody call s).1 <;> rfl
  | close =>
    show (Sight.answered (r.serve (.close k) call s).1).renumbered all
      = .answered (r.serve (.close n) call s).1
    unfold serve
    rcases r.closeBody call s with ⟨_ | result, call', s'⟩ <;> rfl
  | drop =>
    rw [attend, attend]
    split <;> rfl
  | pollRequest =>
    show (Sight.answered (.ofPoll (pollRequest call s).1)).renumbered all
      = .answered (.ofPoll (pollRequest call s).1)
    cases (pollRequest call s).1 <;> rfl

theorem beside_of_eq (hsession : own.session = whole.session)
    (hcalls : own.calls = whole.calls.filter (·.isRecorded)) : Beside whole own :=
  ⟨fun c => congrArg (fun s : Session => { s with clock := c }) hsession, hcalls⟩

/-- The same deeds at the same time leave the same session. This is why nothing about the
pipeline or the receiver is needed: `replay` looks at the deeds and the time only. -/
theorem Beside.left (h : Beside whole own) (c : Clock) (m m' : Move)
    (hreached : reachedAt (own.at c, m') = reachedAt (whole.at c, m))
    (hdeeds : deedsAt r (own.at c, m') = deedsAt r (whole.at c, m)) :
    (r.move (own.at c) m').2.session = (r.move (whole.at c) m).2.session := by
  have hsession := h.session (reachedAt (whole.at c, m))
  rw [move_session, move_session, replay, replay, hreached, hdeeds]
  exact congrArg (r.performAll · (deedsAt r (whole.at c, m))) hsession

/-- A recorded call has its rank as its number in the run of the recorded ones. -/
theorem Beside.getElem?_rank (h : Beside whole own) (hnum : Numbered all whole.calls)
    (hcall : whole.calls[n]? = some call) (hrec : call.isRecorded = true) :
    own.calls[rank all n]? = some call := by
  have hn : n < whole.calls.length := (List.getElem?_eq_some_iff.mp hcall).1
  rw [h.calls, hnum.rank_eq (Nat.le_of_lt hn)]
  exact getElem?_filter hcall hrec

/-- **What a turn preserves** of a call that is recorded. Both runs find the call in the same
state, the one at its number and the other at its rank. -/
theorem Beside.turn (h : Beside whole own) (hnum : Numbered all whole.calls) (c : Clock)
    (hcall : whole.calls[n]? = some call) (hrec : call.isRecorded = true) (t : Turn) :
    Beside (r.move (whole.at c) (.turn n t)).2 (r.move (own.at c) (.turn (rank all n) t)).2
      ∧ Agrees r all (whole.at c, .turn n t) (own.at c, .turn (rank all n) t) := by
  have hn : n < whole.calls.length := (List.getElem?_eq_some_iff.mp hcall).1
  have hat : (whole.at c).calls[n]? = some call := hcall
  have hat' : (own.at c).calls[rank all n]? = some call := h.getElem?_rank hnum hcall hrec
  have hreached : reachedAt (own.at c, .turn (rank all n) t)
      = reachedAt (whole.at c, .turn n t) := by
    simp only [reachedAt, hat, hat']
    rfl
  have hdeeds : deedsAt r (own.at c, .turn (rank all n) t)
      = deedsAt r (whole.at c, .turn n t) := by
    simp only [deedsAt, hat, hat']
    rfl
  have hleft := h.left c _ _ hreached hdeeds
  refine ⟨beside_of_eq hleft ?_, rfl, h.session c, hdeeds, hleft, ?_⟩
  -- To change the call and then leave out others is to leave them out and change it at its rank.
  · rw [calls_turn hat, calls_turn hat']
    show own.calls.set (rank all n) (call.turned c t)
      = (whole.calls.set n (call.turned c t)).filter (·.isRecorded)
    rw [h.calls, hnum.rank_eq (Nat.le_of_lt hn)]
    have hturned : (call.turned c t).isRecorded = true :=
      (sameCall_turned call c t).isRecorded.trans hrec
    exact (filter_set_of_pos hcall hrec hturned).symm
  · rw [move_of_call hat, move_of_call hat', h.session c]
    exact (renumbered_attend n).symm

/-- A turn of no call does nothing in either run. A number that is too great for all calls has a
rank that is too great for the recorded ones. -/
theorem Beside.turn_of_no_call (h : Beside whole own) (hnum : Numbered all whole.calls)
    (c : Clock) (hcall : whole.calls[n]? = none) (t : Turn) :
    Beside (r.move (whole.at c) (.turn n t)).2 (r.move (own.at c) (.turn (rank all n) t)).2
      ∧ Agrees r all (whole.at c, .turn n t) (own.at c, .turn (rank all n) t) := by
  have hat : (whole.at c).calls[n]? = none := hcall
  have hat' : (own.at c).calls[rank all n]? = none := by
    apply List.getElem?_eq_none
    show own.calls.length ≤ rank all n
    rw [h.calls]
    exact hnum.le_rank (List.getElem?_eq_none_iff.mp hcall)
  rw [move_of_no_call hat, move_of_no_call hat']
  refine ⟨⟨h.session, h.calls⟩, rfl, h.session c, ?_, ?_, ?_⟩
  · simp only [deedsAt, hat, hat']
  · rw [move_of_no_call hat, move_of_no_call hat']
    exact h.session c
  · rw [move_of_no_call hat, move_of_no_call hat']
    rfl

/-- A marked call begins in both runs, and in the shorter one gets the number that its rank will
be, since no call is behind it. -/
theorem Beside.begin (h : Beside whole own) (hnum : Numbered all whole.calls) (c : Clock)
    (hrec : Call.wants r.includeAll o = true) :
    Beside (r.move (whole.at c) (.begin o)).2 (r.move (own.at c) (.begin o)).2
      ∧ Agrees r all (whole.at c, .begin o) (own.at c, .begin o) := by
  have hleft := h.left (r := r) c (.begin o) (.begin o) rfl rfl
  refine ⟨beside_of_eq hleft ?_, rfl, h.session c, rfl, hleft, ?_⟩
  · have hbegun : [Call.begin r.includeAll c o].filter (·.isRecorded)
        = [Call.begin r.includeAll c o] := List.filter_cons_of_pos hrec
    rw [calls_begin, calls_begin, List.filter_append]
    show own.calls ++ [Call.begin r.includeAll c o]
      = whole.calls.filter (·.isRecorded) ++ [Call.begin r.includeAll c o].filter (·.isRecorded)
    rw [hbegun, h.calls]
  · show Sight.answered (.begun own.calls.length)
      = .answered (.begun (rank all whole.calls.length))
    rw [h.calls, hnum.rank_eq (Nat.le_refl _), List.take_length, List.countP_eq_length_filter]

/-- **What a move preserves** that is made in both runs at the same time. The moves that are not
of any call have the same deeds in whatever session, and a call is left to the lemmas above. -/
theorem Beside.move (h : Beside whole own) (hnum : Numbered all whole.calls)
    (hoff : r.includeAll = false) (c : Clock) (hm : m.isUnmarked all = false) :
    Beside (r.move (whole.at c) m).2 (r.move (own.at c) (m.renumbered all)).2
      ∧ Agrees r all (whole.at c, m) (own.at c, m.renumbered all) := by
  cases m with
  | begin o =>
    have hmarked : o.markers.isIncluded = true := by simpa [Move.isUnmarked] using hm
    apply h.begin hnum c
    rw [Call.wants, hoff, hmarked]
    rfl
  | turn n t =>
    cases hcall : whole.calls[n]? with
    | none => exact h.turn_of_no_call hnum c hcall t
    | some call =>
      have hrec : call.isRecorded = true := by
        simpa [Move.isUnmarked, hnum.mark hcall] using hm
      exact h.turn hnum c hcall hrec t
  | flush =>
    have hleft := h.left (r := r) c .flush .flush rfl rfl
    refine ⟨beside_of_eq hleft h.calls, rfl, h.session c, rfl, hleft, ?_⟩
    show Sight.answered (.done (Session.flush (own.at c).session).1) = _
    rw [h.session c]
    rfl
  | closeReceiver =>
    have hleft := h.left (r := r) c .closeReceiver .closeReceiver rfl rfl
    refine ⟨beside_of_eq hleft h.calls, rfl, h.session c, rfl, hleft, ?_⟩
    show Sight.answered (.done (Session.close (own.at c).session).1) = _
    rw [h.session c]
    rfl
  | advance nanos =>
    have hleft := h.left (r := r) c (.advance nanos) (.advance nanos) rfl rfl
    exact ⟨beside_of_eq hleft h.calls, rfl, h.session c, rfl, hleft, rfl⟩

/-! ## Calls that are left out -/

/-- No entry is ever due to a call that is not recorded: it takes a failure that is recorded, or
a response body that was kept. -/
theorem due?_unrecorded (hcall : (played r ⟨s, []⟩ moves).calls[n]? = some call)
    (hrec : call.isRecorded = false) (c : Clock) (t : Turn) : call.due? c t = none := by
  obtain ⟨o, -, hkept⟩ := kept_played hcall
  rw [Option.eq_none_iff_forall_ne_some]
  intro e hdue
  rw [hkept.isRecorded_of_due hdue] at hrec
  cases hrec

theorem deeds_unrecorded (hrec : call.isRecorded = false) (hdue : call.due? c t = none) :
    call.deeds c t = [] := by
  unfold Call.deeds
  rw [hdue, hrec]
  cases t <;> rfl

/-- The closing of a body at which nothing is due goes well: the only error that closing can have
is that of a delivery. -/
theorem closeBody_quiet (hdue : Call.due?.closing s.clock call = none) :
    (r.closeBody call s).1 = call.responseBody.map fun _ => .ok () := by
  cases hb : call.responseBody with
  | none => rw [closeBody_of_none hb, Option.map_none]
  | some b =>
    have hquiet : b.complete.2 = false := by simpa [Call.due?.closing, hb] using hdue
    rw [closeBody_of_not_due hb hquiet, Option.map_some]

/-- **What a turn shows of a call that is not recorded** is what there is to see without a
recorder. -/
theorem attend_unrecorded (hrec : call.isRecorded = false)
    (hdue : call.due? s.clock t = none) : (r.attend n call s t).1 = call.shows s.clock t := by
  cases t with
  | act a => rfl
  | settle answer =>
    rw [attend]
    cases answer with
    | error text =>
      simp only [settle, hrec, Call.shows]
      split <;> rfl
    | ok answer =>
      simp only [settle, hrec, Call.shows]
      split <;> rfl
  | poll =>
    show Sight.answered (.ofPoll (r.pollBody call s).1) = _
    cases hb : call.responseBody with
    | none =>
      rw [pollBody, hb, Call.shows, hb]
      rfl
    | some b =>
      have hquiet : b.poll.due = false := by simpa [Call.due?, hb] using hdue
      rw [pollBody_of_not_due hb hquiet, Call.shows, hb]
      rfl
  | close =>
    have hclosed := closeBody_quiet (r := r) hdue
    show Sight.answered (r.serve (.close n) call s).1 = _
    rw [serve, Call.shows]
    rcases hresult : r.closeBody call s with ⟨result, call', s'⟩
    rw [hresult] at hclosed
    obtain rfl : result = _ := hclosed
    cases call.responseBody <;> rfl
  | drop =>
    rw [attend, Call.shows]
    by_cases hw : call.isWaiting = true
    · rw [if_pos hw, hw, Bool.true_or]
    · have hclosing : Call.due?.closing s.clock call = none := by
        rw [Call.due?, if_neg hw] at hdue
        exact hdue
      have hclosed := closeBody_quiet (r := r) hclosing
      rw [if_neg hw, eq_false_of_ne_true hw, Bool.false_or, Sight.of, serve, drop, if_neg hw,
        dropBody]
      show Sight.answered (.dropped (r.closeBody call s).1.isSome) = _
      rw [hclosed, Option.isSome_map]
  | pollRequest =>
    show Sight.answered (.ofPoll (pollRequest call s).1) = _
    rw [pollRequest, Call.shows]
    cases call.custody <;> rfl

/-- **What a move of an unmarked call does**, whatever has happened before it. -/
theorem aside_played (hnum : Numbered all (played r ⟨s, []⟩ moves).calls)
    (hoff : r.includeAll = false) (c : Clock) (hm : m.isUnmarked all = true) :
    Aside r ((played r ⟨s, []⟩ moves).at c, m) := by
  -- Once it is known that there are no deeds, the rest is what a replay of none leaves.
  have hsession : deedsAt r ((played r ⟨s, []⟩ moves).at c, m) = [] →
      (r.move ((played r ⟨s, []⟩ moves).at c) m).2.session
        = (((played r ⟨s, []⟩ moves).at c).at
            (reachedAt ((played r ⟨s, []⟩ moves).at c, m))).session := by
    intro hdeeds
    rw [move_session, replay, hdeeds]
    rfl
  cases m with
  | begin o =>
    have hunmarked : o.markers.isIncluded = false := by simpa [Move.isUnmarked] using hm
    have hdeeds : deedsAt r ((played r ⟨s, []⟩ moves).at c, .begin o) = [] := by
      rw [deedsAt, Call.wants, hoff, hunmarked]
      rfl
    refine ⟨hdeeds, hsession hdeeds, ?_⟩
    intro n t call h
    cases h
  | turn n t =>
    have hmark : all[n]? = some false := by simpa [Move.isUnmarked] using hm
    -- The call of a number has the mark of the number.
    have hquiet : ∀ call, (played r ⟨s, []⟩ moves).calls[n]? = some call →
        call.isRecorded = false ∧ call.due? c t = none := by
      intro call hcall
      have hrec : call.isRecorded = false := by
        rw [hnum.mark hcall] at hmark
        exact Option.some.inj hmark
      exact ⟨hrec, due?_unrecorded hcall hrec c t⟩
    have hdeeds : deedsAt r ((played r ⟨s, []⟩ moves).at c, .turn n t) = [] := by
      rw [deedsAt]
      split
      · next call hcall =>
        obtain ⟨hrec, hdue⟩ := hquiet call hcall
        exact deeds_unrecorded hrec hdue
      · rfl
    refine ⟨hdeeds, hsession hdeeds, ?_⟩
    intro n' t' call h hcall
    cases h
    obtain ⟨hrec, hdue⟩ := hquiet call hcall
    rw [move_of_call hcall]
    exact attend_unrecorded hrec hdue
  | _ => cases hm

/-- **What a move preserves** of an unmarked call, which is left out of the other run. That stays
as it is, and so do the recorded calls of this one. -/
theorem Beside.skip (h : Beside whole own) (hnum : Numbered all whole.calls)
    (hoff : r.includeAll = false) (c : Clock) (hm : m.isUnmarked all = true)
    (haside : Aside r (whole.at c, m)) : Beside (r.move (whole.at c) m).2 own := by
  refine ⟨?_, ?_⟩
  · intro c'
    have hleft := congrArg (fun s : Session => { s with clock := c' }) haside.session
    exact (h.session c').trans hleft.symm
  · rw [h.calls]
    cases m with
    | begin o =>
      have hunmarked : o.markers.isIncluded = false := by simpa [Move.isUnmarked] using hm
      have hrec : ¬(Call.begin r.includeAll c o).isRecorded = true := by
        show ¬Call.wants r.includeAll o = true
        rw [Call.wants, hoff, hunmarked]
        exact Bool.false_ne_true
      have hbegun : [Call.begin r.includeAll c o].filter (·.isRecorded) = [] :=
        List.filter_cons_of_neg hrec
      rw [calls_begin, List.filter_append]
      show _ = whole.calls.filter (·.isRecorded)
        ++ [Call.begin r.includeAll c o].filter (·.isRecorded)
      rw [hbegun, List.append_nil]
    | turn n t =>
      cases hcall : whole.calls[n]? with
      | none =>
        have hat : (whole.at c).calls[n]? = none := hcall
        rw [move_of_no_call hat]
        rfl
      | some call =>
        have hat : (whole.at c).calls[n]? = some call := hcall
        have hrec : call.isRecorded = false := by
          simpa [Move.isUnmarked, hnum.mark hcall] using hm
        have hturned : (call.turned c t).isRecorded = false :=
          (sameCall_turned call c t).isRecorded.trans hrec
        rw [calls_turn hat]
        exact (filter_set_of_neg hcall hrec hturned).symm
    | _ => cases hm

/-! ## Runs -/

/-- A move keeps what is recorded, and settles it for a call that begins: no turn makes a call
recorded that was not, or the other way round. -/
theorem isRecorded_move (st : State) (c : Clock) (m : Move) :
    (r.move (st.at c) m).2.calls.map (·.isRecorded)
      = st.calls.map (·.isRecorded) ++ (requests [(c, m)]).map (Call.wants r.includeAll) := by
  cases m with
  | begin o =>
    rw [calls_begin, List.map_append]
    rfl
  | turn n t =>
    show _ = st.calls.map (·.isRecorded) ++ []
    rw [List.append_nil]
    cases hcall : (st.at c).calls[n]? with
    | none =>
      rw [move_of_no_call hcall]
      rfl
    | some call =>
      rw [calls_turn hcall]
      exact isRecorded_set hcall (sameCall_turned call (st.at c).session.clock t).isRecorded
  | _ => exact (List.append_nil _).symm

/-- The calls of a run are recorded as their requests ask for. -/
theorem isRecorded_played (s : Session) (moves : List (Clock × Move)) :
    (played r ⟨s, []⟩ moves).calls.map (·.isRecorded)
      = (requests moves).map (Call.wants r.includeAll) := by
  induction moves using List.reverseRecOn with
  | nil => rfl
  | append_singleton moves m ih =>
    obtain ⟨c, m⟩ := m
    rw [played_concat, isRecorded_move, ih, ← List.map_append]
    exact congrArg (List.map _) List.filterMap_append.symm

theorem numbered_played (hoff : r.includeAll = false) (hall : marks moves <+: all) :
    Numbered all (played r ⟨s, []⟩ moves).calls := by
  have hwants : Call.wants r.includeAll = fun o => o.markers.isIncluded := by
    funext o
    rw [Call.wants, hoff, Bool.false_or]
  rw [Numbered, isRecorded_played, hwants]
  exact hall

theorem markedOnly_concat (all : List Bool) (moves : List (Clock × Move)) (c : Clock) (m : Move) :
    markedOnly all (moves ++ [(c, m)])
      = markedOnly all moves ++ if m.isUnmarked all then [] else [(c, m.renumbered all)] := by
  unfold markedOnly
  rw [List.filter_append, List.map_append, List.filter_singleton]
  cases m.isUnmarked all <;> rfl

theorem moments_marked_concat (all : List Bool) (s : Session) (moves : List (Clock × Move))
    (c : Clock) (m : Move) :
    ((moments r ⟨s, []⟩ (moves ++ [(c, m)])).filter fun m => !m.2.isUnmarked all)
      = ((moments r ⟨s, []⟩ moves).filter fun m => !m.2.isUnmarked all)
        ++ if m.isUnmarked all then [] else [((played r ⟨s, []⟩ moves).at c, m)] := by
  rw [moments_concat, List.filter_append, List.filter_singleton]
  cases m.isUnmarked all <;> rfl

/-- **What a run preserves** that is made with the unmarked calls and without them. The marks are
those of a longer run, since a move may name a call that has not begun yet. -/
theorem beside_played (hoff : r.includeAll = false) (hall : marks moves <+: all) :
    Beside (played r ⟨s, []⟩ moves) (played r ⟨s, []⟩ (markedOnly all moves))
      ∧ List.Forall₂ (Agrees r all)
        ((moments r ⟨s, []⟩ moves).filter fun m => !m.2.isUnmarked all)
        (moments r ⟨s, []⟩ (markedOnly all moves))
      ∧ ∀ m ∈ moments r ⟨s, []⟩ moves, m.2.isUnmarked all = true → Aside r m := by
  induction moves using List.reverseRecOn with
  | nil => exact ⟨⟨fun _ => rfl, rfl⟩, .nil, by simp [moments]⟩
  | append_singleton moves m ih =>
    obtain ⟨c, m⟩ := m
    have hbefore : marks moves <+: all := by
      refine List.IsPrefix.trans ?_ hall
      unfold marks requests
      rw [List.filterMap_append, List.map_append]
      exact List.prefix_append ..
    obtain ⟨hbeside, hagrees, haside⟩ := ih hbefore
    have hnum := numbered_played (s := s) hoff hbefore
    -- What is said of unmarked moves is of the longer run alone and does not need the other one.
    have hlater : ∀ m' ∈ moments r ⟨s, []⟩ (moves ++ [(c, m)]), m'.2.isUnmarked all = true →
        Aside r m' := by
      intro m' hmem hunmarked
      rw [moments_concat] at hmem
      rcases List.mem_append.mp hmem with hmem | hmem
      · exact haside m' hmem hunmarked
      · obtain rfl := List.mem_singleton.mp hmem
        exact aside_played hnum hoff c hunmarked
    rw [played_concat, moments_marked_concat, markedOnly_concat]
    cases hm : m.isUnmarked all with
    | false =>
      obtain ⟨hmove, hagree⟩ := hbeside.move hnum hoff c hm
      rw [if_neg Bool.false_ne_true, if_neg Bool.false_ne_true, played_concat, moments_concat]
      exact ⟨hmove, List.rel_append hagrees (.cons hagree .nil), hlater⟩
    | true =>
      rw [if_pos rfl, if_pos rfl, List.append_nil, List.append_nil]
      exact ⟨hbeside.skip hnum hoff c hm (aside_played hnum hoff c hm), hagrees, hlater⟩

/-- All deeds of a run are those of its moves without the unmarked calls. So whatever the pipeline
and the receiver are given, they are given in the same order in both runs. -/
theorem deeds_markedOnly (hoff : r.includeAll = false) (hall : marks moves <+: all) :
    (moments r ⟨s, []⟩ (markedOnly all moves)).flatMap (deedsAt r)
      = (moments r ⟨s, []⟩ moves).flatMap (deedsAt r) := by
  obtain ⟨-, hagrees, haside⟩ := beside_played (s := s) hoff hall
  have hfilter := flatMap_filter (p := fun m => !m.2.isUnmarked all) fun m hm hunmarked =>
    (haside m hm (by simpa using hunmarked)).deeds
  rw [← hfilter, List.flatMap_def, List.flatMap_def]
  congr 1
  rw [← List.forall₂_eq_eq_eq, List.forall₂_map_left_iff, List.forall₂_map_right_iff]
  exact hagrees.flip.imp fun _ _ hagree => hagree.deeds

/-! ## What the transport finds -/

/-- A transport finds of a call what its caller sent, and with it the caller's own observer, or
none. At no time is there an observer of the recorder beside it. -/
structure Unobserved (o : Outgoing) (call : Call) : Prop where
  head : ∀ now, (call.received now).head = o.head
  markers : ∀ now, (call.received now).markers = o.markers
  traced : call.traced = o.traced
  observer : ∀ now, (call.received now).observer = if o.traced then some Call.caller else none

theorem unobserved_played (hoff : r.includeAll = false) (ho : (requests moves)[n]? = some o)
    (hunmarked : o.markers.isIncluded = false)
    (hcall : (played r ⟨s, []⟩ moves).calls[n]? = some call) : Unobserved o call := by
  obtain ⟨st, o', rest, hown, hsame⟩ : ∃ st o' rest,
      movesOf r ⟨s, []⟩ moves n = (st, .begin o') :: rest
        ∧ (Call.begin r.includeAll st.session.clock o').SameCall call := by
    refine movesOf_induction (motive := fun own call => ∃ st o' rest,
      own = (st, .begin o') :: rest
        ∧ (Call.begin r.includeAll st.session.clock o').SameCall call) ?_ ?_ hcall
    · intro st o'
      exact ⟨st, o', [], rfl, .refl _⟩
    · rintro st t own call - ⟨st₀, o', rest, rfl, hsame⟩
      exact ⟨st₀, o', rest ++ [(st, .turn n t)], rfl,
        hsame.trans (sameCall_turned call st.session.clock t)⟩
  obtain rfl : o = o' := Option.some.inj (ho.symm.trans (requests_of_movesOf hown))
  have hrec : call.isRecorded = false := by
    rw [hsame.isRecorded]
    show Call.wants r.includeAll o = false
    rw [Call.wants, hoff, hunmarked]
    rfl
  have htraced : call.traced = o.traced := hsame.traced
  refine ⟨fun _ => hsame.request, fun _ => hsame.markers, htraced, fun now => ?_⟩
  rw [Call.received, Call.observer?, hrec, htraced]
  cases o.traced <;> rfl

/-- **Calls that are not recorded do not interfere.** Let a recorder leave out the requests
without a marker, and let any moves have been made. Make them again, at the same times, without
those of the unmarked calls. Then what the calls share is the same in the end, the clock apart:
the receiver, the disk and the pages under way. The same has been done to it, one deed after the
other; and every move that is left finds it as it did before, leaves it as it did before, and
shows what it did before, except for the numbers of the calls.

An unmarked call does nothing to what the calls share, whatever markers it has, and whatever
becomes of its transport and its bodies. What its turns show is what there is to see without a
recorder, and so never the error of a delivery. Its transport finds the observer of the caller,
or none, and the caller sees all that the transport reports. -/
theorem unmarked_calls_do_not_interfere (r : Recorder) (hoff : r.includeAll = false)
    (s : Session) (moves : List (Clock × Move)) :
    Beside (played r ⟨s, []⟩ moves) (played r ⟨s, []⟩ (markedOnly (marks moves) moves))
      ∧ (moments r ⟨s, []⟩ (markedOnly (marks moves) moves)).flatMap (deedsAt r)
        = (moments r ⟨s, []⟩ moves).flatMap (deedsAt r)
      ∧ List.Forall₂ (Agrees r (marks moves))
        ((moments r ⟨s, []⟩ moves).filter fun m => !m.2.isUnmarked (marks moves))
        (moments r ⟨s, []⟩ (markedOnly (marks moves) moves))
      ∧ (∀ m ∈ moments r ⟨s, []⟩ moves, m.2.isUnmarked (marks moves) = true → Aside r m)
      ∧ ∀ n o call, (requests moves)[n]? = some o → o.markers.isIncluded = false →
        (played r ⟨s, []⟩ moves).calls[n]? = some call →
          Unobserved o call ∧ call.seen =
            if o.traced then (movesOf r ⟨s, []⟩ moves n).filterMap (·.2.event?) else [] := by
  obtain ⟨hbeside, hagrees, haside⟩ := beside_played (s := s) hoff (List.prefix_refl (marks moves))
  refine ⟨hbeside, deeds_markedOnly hoff (List.prefix_refl _), hagrees, haside, ?_⟩
  intro n o call ho hunmarked hcall
  have hfound := unobserved_played hoff ho hunmarked hcall
  refine ⟨hfound, ?_⟩
  rw [seen_played hcall, hfound.traced]

/-- A call without a marker starts a page and ends it, and fails while a marked one is under way,
which then fails as well. Only that has an entry. -/
theorem unmarked_calls_do_not_interfere_failed :
    let r : Recorder := ⟨{}, false, Session.pipeline [] []⟩
    let s : Session := { clock := { started := 0 } }
    let c := s.clock
    let head : RequestHead := ⟨"GET", ⟨none, none, "/", none⟩, .http11, .empty⟩
    let left : Outgoing := ⟨head, ⟨[], none, true⟩,
      { start := some (.new c "first" "" ""), endPage := some "first" }, true⟩
    let kept : Outgoing := ⟨head, ⟨[], none, true⟩, { isIncluded := true }, false⟩
    let moves : List (Clock × Move) := [(c, .begin left), (c, .begin kept),
      (c, .turn 0 (.act (.report (.getConnection "h:80")))),
      (c, .turn 0 (.settle (.error "refused"))), (c, .turn 1 (.settle (.error "reset")))]
    let own : List (Clock × Move) := [(c, .begin kept), (c, .turn 0 (.settle (.error "reset")))]
    r.includeAll = false ∧ markedOnly (marks moves) moves = own
      ∧ Beside (played r ⟨s, []⟩ moves) (played r ⟨s, []⟩ own)
      ∧ ∃ e, (moments r ⟨s, []⟩ own).flatMap (deedsAt r) = [.deliver e]
        ∧ (moments r ⟨s, []⟩ moves).flatMap (deedsAt r) = [.deliver e] := by
  intro r s c head left kept moves own
  have hown : markedOnly (marks moves) moves = own := rfl
  obtain ⟨hbeside, hdeeds, -⟩ := unmarked_calls_do_not_interfere r rfl s moves
  rw [hown] at hbeside hdeeds
  refine ⟨rfl, hown, hbeside, _, rfl, ?_⟩
  rw [← hdeeds]
  rfl

end Recorder

end ExchangeArchive
