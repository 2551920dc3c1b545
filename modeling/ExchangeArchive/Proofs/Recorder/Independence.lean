import ExchangeArchive.Proofs.Recorder.Moves
import Mathlib.Data.List.Forall2
/-
**Calls under way at the same time do not mix.**

A run of moves is compared with the run in which one of its calls is alone: the moves of
that call, at the times at which they were made, and nothing else. `Apart.move` and
`Apart.skip` are the step lemmas: a move that concerns the call does the same to it in both
runs, since a turn goes by the call and the time, and any other move leaves the call as it
is. So after any moves the call is the same in both runs, and at each of its moves the same
entry is due.

What the caller of a call sees is the list of the events of its own turns; of a recorded
call it sees each after the tracker has.
-/

set_option autoImplicit false

namespace ExchangeArchive

open ExchangeArchive.Archive ExchangeArchive.Recorder ExchangeArchive.Time
  ExchangeArchive.Trace ExchangeArchive.Transport

namespace Recorder

/-! ## The moves of one call -/

/-- Whether a move, in the state that it finds, concerns the call with a number: it begins
that call, or is a turn of it. -/
def concerns (n : Nat) : State × Move → Bool
  | (st, .begin _) => st.calls.length == n
  | (st, .turn m _) => m == n && n < st.calls.length
  | _ => false

/-- The moves of a run that concern a call, each with the state that it finds. The first of them
is its beginning, if there is any. -/
def movesOf (r : Recorder) (st : State) (moves : List (Clock × Move)) (n : Nat) :
    List (State × Move) :=
  (moments r st moves).filter (concerns n)

/-- The move as it is made when its call is the only one, and so has the number zero. -/
def Move.alone : Move → Move
  | .turn _ t => .turn 0 t
  | m => m

@[simp] theorem Move.alone_begin (o : Outgoing) : (Move.begin o).alone = .begin o := rfl

@[simp] theorem Move.alone_turn (n : Nat) (t : Turn) : (Move.turn n t).alone = .turn 0 t := rfl

/-- Moves by themselves, at the times at which they were made. -/
def alone (own : List (State × Move)) : List (Clock × Move) :=
  own.map fun m => (m.1.session.clock, m.2.alone)

/-- The event that a turn reports. -/
def Turn.event? : Turn → Option Event
  | .act (.report e) => some e
  | _ => none

/-- The event that a move reports. -/
def Move.event? : Move → Option Event
  | .turn _ t => t.event?
  | _ => none

variable {r : Recorder} {call : Call} {s s₀ : Session} {n : Nat} {c : Clock} {m : Move}
  {t : Turn} {st : State} {moves : List (Clock × Move)}

theorem concerns_begin_iff {o : Outgoing} :
    concerns n (st, .begin o) = true ↔ st.calls.length = n := by
  simp [concerns]

theorem concerns_turn_iff {k : Nat} :
    concerns n (st, .turn k t) = true ↔ k = n ∧ n < st.calls.length := by
  simp [concerns]

theorem movesOf_concat (st : State) (moves : List (Clock × Move)) (c : Clock) (m : Move)
    (n : Nat) :
    movesOf r st (moves ++ [(c, m)]) n = movesOf r st moves n ++
      if concerns n ((played r st moves).at c, m) then [((played r st moves).at c, m)] else [] := by
  rw [movesOf, moments_concat, List.filter_append, List.filter_singleton, movesOf]
  cases concerns n ((played r st moves).at c, m) <;> rfl

/-- A move that does not concern a call leaves it as it is, or leaves it out. -/
theorem call_of_not_concerns (h : concerns n (st, m) = false) :
    (r.move st m).2.calls[n]? = st.calls[n]? := by
  cases m with
  | begin o =>
    have hne : st.calls.length ≠ n := by simpa [concerns] using h
    rw [calls_begin]
    by_cases hn : n < st.calls.length
    · rw [List.getElem?_append_left hn]
    · have hlast : [Call.begin r.includeAll st.session.clock o][n - st.calls.length]? = none :=
        List.getElem?_eq_none (by rw [List.length_singleton]; omega)
      rw [List.getElem?_append_right (by omega), hlast, List.getElem?_eq_none (by omega)]
  | turn k t =>
    cases hk : st.calls[k]? with
    | none => rw [move_of_no_call hk]
    | some call =>
      have hlt : k < st.calls.length := (List.getElem?_eq_some_iff.mp hk).1
      have hne : k ≠ n := by
        rintro rfl
        simp [concerns, hlt] at h
      rw [calls_turn hk, List.getElem?_set_ne hne]
  | _ => rfl

/-- How the run of a call alone goes with the run that it is taken from: the call is the
same in both, and the only one of its own run. Nothing is said of the sessions, which may be
as different as they like: no turn goes by them. -/
structure Apart (whole own : State) (n : Nat) : Prop where
  call : whole.calls[n]? = own.calls[0]?
  only : own.calls.length ≤ 1

/-- **What a move preserves** that concerns the call, made in both runs at the same time. -/
theorem Apart.move {whole own : State} (h : Apart whole own n) (c : Clock)
    (hm : concerns n (whole.at c, m) = true) :
    Apart (r.move (whole.at c) m).2 (r.move (own.at c) m.alone).2 n := by
  cases m with
  | begin o =>
    have hn : (whole.at c).calls.length = n := concerns_begin_iff.mp hm
    have hnone : own.calls = [] := by
      have hget : own.calls[0]? = none := by
        rw [← h.call, ← hn]
        exact List.getElem?_eq_none (Nat.le_refl _)
      simpa using hget
    have hwhole := calls_begin (r := r) (whole.at c) o
    have hown : (r.move (own.at c) (.begin o)).2.calls = [Call.begin r.includeAll c o] := by
      rw [calls_begin]
      show own.calls ++ _ = _
      rw [hnone]
      rfl
    -- In the whole run the call comes last, in its own run it comes first.
    refine ⟨?_, by rw [Move.alone_begin, hown]; exact Nat.le_refl 1⟩
    rw [Move.alone_begin, hwhole, hown, ← hn]
    exact List.getElem?_concat_length
  | turn k t =>
    obtain ⟨rfl, hn⟩ : k = n ∧ n < (whole.at c).calls.length := concerns_turn_iff.mp hm
    obtain ⟨call, hcall⟩ : ∃ call, whole.calls[k]? = some call :=
      ⟨_, List.getElem?_eq_getElem hn⟩
    have hcall₀ : own.calls[0]? = some call := h.call ▸ hcall
    have hlength : 0 < own.calls.length := (List.getElem?_eq_some_iff.mp hcall₀).1
    have hat : (whole.at c).calls[k]? = some call := hcall
    have hat₀ : (own.at c).calls[0]? = some call := hcall₀
    have hwhole := calls_turn (r := r) (t := t) hat
    have hown := calls_turn (r := r) (t := t) hat₀
    refine ⟨?_, ?_⟩
    · rw [hwhole, Move.alone_turn, hown]
      exact (List.getElem?_set_self hn).trans (List.getElem?_set_self hlength).symm
    · rw [Move.alone_turn, hown, List.length_set]
      exact h.only
  | _ => cases hm

/-- **What a move preserves** that does not concern the call, and is left out of the call's own
run. -/
theorem Apart.skip {whole own : State} (h : Apart whole own n) (c : Clock)
    (hm : concerns n (whole.at c, m) = false) : Apart (r.move (whole.at c) m).2 own n :=
  ⟨(call_of_not_concerns hm).trans h.call, h.only⟩

/-- At a move that concerns the call the same entry is handed over in both runs. The beginning of
a call hands over nothing, so what is left is a turn of the same call at the same time. -/
theorem Apart.hands_iff {whole own : State} (h : Apart whole own n) (c : Clock)
    (hm : concerns n (whole.at c, m) = true) (e : Entry) :
    Hands r (whole.at c) m e ↔ Hands r (own.at c) m.alone e := by
  cases m with
  | turn k t =>
    obtain ⟨rfl, -⟩ : k = n ∧ n < (whole.at c).calls.length := concerns_turn_iff.mp hm
    rw [Move.alone_turn, hands_turn_iff, hands_turn_iff]
    show (∃ call, whole.calls[k]? = _ ∧ _) ↔ ∃ call, own.calls[0]? = _ ∧ _
    rw [h.call]
    rfl
  | begin o =>
    constructor
    · intro hands
      obtain ⟨k, t, hkt⟩ := hands.turn
      cases hkt
    · intro hands
      obtain ⟨k, t, hkt⟩ := hands.turn
      cases hkt
  | _ => cases hm

/-- **What a run preserves.** The call is the same after the whole run and after its own
moves alone, and these hand over the same entries one by one. -/
theorem apart_played (s s₀ : Session) (moves : List (Clock × Move)) (n : Nat) :
    Apart (played r ⟨s, []⟩ moves) (played r ⟨s₀, []⟩ (alone (movesOf r ⟨s, []⟩ moves n))) n ∧
      List.Forall₂ (fun a b => ∀ e, Hands r a.1 a.2 e ↔ Hands r b.1 b.2 e)
        (movesOf r ⟨s, []⟩ moves n)
        (moments r ⟨s₀, []⟩ (alone (movesOf r ⟨s, []⟩ moves n))) := by
  induction moves using List.reverseRecOn with
  | nil => exact ⟨⟨rfl, Nat.zero_le 1⟩, .nil⟩
  | append_singleton moves m ih =>
    obtain ⟨c, m⟩ := m
    obtain ⟨hapart, hhands⟩ := ih
    rw [played_concat, movesOf_concat]
    cases hm : concerns n ((played r ⟨s, []⟩ moves).at c, m) with
    | false =>
      rw [if_neg Bool.false_ne_true, List.append_nil]
      exact ⟨hapart.skip c hm, hhands⟩
    | true =>
      have halone : alone (movesOf r ⟨s, []⟩ moves n ++ [((played r ⟨s, []⟩ moves).at c, m)])
          = alone (movesOf r ⟨s, []⟩ moves n) ++ [(c, m.alone)] := List.map_append
      rw [if_pos rfl, halone, played_concat, moments_concat]
      exact ⟨hapart.move c hm, List.rel_append hhands (.cons (hapart.hands_iff c hm) .nil)⟩

/-! ## What the caller sees -/

/-- The observer of a recorded call's caller is told of an event after the tracker. -/
theorem see_of_recorded (hrec : call.isRecorded = true) (ht : call.traced = true) (now : Nat)
    (e : Event) : call.see now e = Call.caller.see e ((Call.timing now).see e call) := by
  rw [Call.see, Call.observer?, hrec, ht]
  rfl

/-- An event is seen by who wants to see it, and once, whether or not the call is recorded: the
tracker is told besides, and shows the caller nothing. -/
theorem seen_see (call : Call) (now : Nat) (e : Event) :
    (call.see now e).seen = call.seen ++ if call.traced then [e] else [] := by
  rw [Call.see, Call.observer?]
  cases call.isRecorded <;> cases call.traced
  · exact (List.append_nil _).symm
  · rfl
  · exact (List.append_nil _).symm
  · rfl

theorem seen_readTimes (k : Nat) (c : Clock) (call : Call) :
    (Call.readTimes k c call).2.2.seen = call.seen := by
  induction k generalizing c call with
  | zero => rfl
  | succ k ih => exact ih _ _

/-- A turn adds the event that it reports to what the caller has seen, and nothing else. -/
theorem seen_turned (call : Call) (c : Clock) (t : Turn) :
    (call.turned c t).seen = call.seen ++ if call.traced then t.event?.toList else [] := by
  -- Every turn but the report of an event leaves what was seen, and is closed by this.
  have hnone : call.seen = call.seen ++ if call.traced then [] else [] := by simp
  have hclosed : (call.closed c).seen = call.seen := by
    rw [Call.closed]
    split
    · rfl
    · split <;> rfl
  cases t with
  | act a =>
    cases a with
    | report e => exact seen_see call c.elapsed e
    | read k =>
      rw [Call.turned, Call.act]
      split
      · exact (seen_readTimes k c call).trans hnone
      · exact hnone
    | readAll =>
      rw [Call.turned, Call.act]
      split
      · exact hnone
      · exact hnone
    | _ => exact hnone
  | settle answer =>
    refine Eq.trans ?_ hnone
    rw [Call.turned]
    split
    · rw [Call.settled.eq_def]
      split <;> rfl
    · rfl
  | poll =>
    refine Eq.trans ?_ hnone
    rw [Call.turned, Call.polled]
    split
    · rfl
    · split <;> rfl
  | close => exact hclosed.trans hnone
  | drop =>
    refine Eq.trans ?_ hnone
    rw [Call.turned]
    split
    · rfl
    · exact hclosed
  | pollRequest =>
    refine Eq.trans ?_ hnone
    rw [Call.turned]
    split <;> rfl

/-- A call that has not begun has had no moves: turns that name its number are of no call yet, and
do not concern it. -/
theorem movesOf_eq_nil (h : (played r ⟨s, []⟩ moves).calls.length ≤ n) :
    movesOf r ⟨s, []⟩ moves n = [] := by
  induction moves using List.reverseRecOn with
  | nil => rfl
  | append_singleton moves m ih =>
    obtain ⟨c, m⟩ := m
    rw [played_concat] at h
    have hle := length_calls_le (r := r) ((played r ⟨s, []⟩ moves).at c) m
    have hold : (played r ⟨s, []⟩ moves).calls.length ≤ n := Nat.le_trans hle h
    have hm : concerns n ((played r ⟨s, []⟩ moves).at c, m) = false := by
      cases m with
      | begin o =>
        rw [calls_begin, List.length_append, List.length_singleton] at h
        refine eq_false_of_ne_true fun hm => ?_
        have hn := concerns_begin_iff.mp hm
        omega
      | turn k t =>
        refine eq_false_of_ne_true fun hm => ?_
        exact Nat.not_lt.mpr hold (concerns_turn_iff.mp hm).2
      | _ => rfl
    rw [movesOf_concat, ih hold, hm]
    rfl

/-- **Induction over the moves of one call.** What is true of a call when it begins, and stays
true with each of its turns, is true of it and of its moves in any run. -/
theorem movesOf_induction {motive : List (State × Move) → Call → Prop}
    (begins : ∀ st o, motive [(st, .begin o)] (Call.begin r.includeAll st.session.clock o))
    (turns : ∀ st t own call, st.calls[n]? = some call → motive own call →
      motive (own ++ [(st, .turn n t)]) (call.turned st.session.clock t))
    (hcall : (played r ⟨s, []⟩ moves).calls[n]? = some call) :
    motive (movesOf r ⟨s, []⟩ moves n) call := by
  induction moves using List.reverseRecOn generalizing call with
  | nil => cases hcall
  | append_singleton moves m ih =>
    obtain ⟨c, m⟩ := m
    rw [played_concat] at hcall
    rw [movesOf_concat]
    cases hm : concerns n ((played r ⟨s, []⟩ moves).at c, m) with
    | false =>
      rw [call_of_not_concerns hm] at hcall
      simpa using ih hcall
    | true =>
      rw [if_pos rfl]
      cases m with
      | begin o =>
        -- The call begins here, and has had no moves before.
        have hn := concerns_begin_iff.mp hm
        rw [calls_begin, ← hn, List.getElem?_concat_length] at hcall
        obtain rfl := Option.some.inj hcall
        rw [movesOf_eq_nil (by rw [← hn]; exact Nat.le_refl _), List.nil_append]
        exact begins ((played r ⟨s, []⟩ moves).at c) o
      | turn k t =>
        obtain ⟨rfl, hn⟩ := concerns_turn_iff.mp hm
        have hbefore := List.getElem?_eq_getElem hn
        rw [calls_turn hbefore, List.getElem?_set_self hn] at hcall
        obtain rfl := Option.some.inj hcall
        exact turns _ t _ _ hbefore (ih hbefore)
      | _ => cases hm

/-- **What a caller has seen** is what the moves of the call have reported, in their order. -/
theorem seen_played (hcall : (played r ⟨s, []⟩ moves).calls[n]? = some call) :
    call.seen =
      if call.traced then (movesOf r ⟨s, []⟩ moves n).filterMap (·.2.event?) else [] := by
  refine movesOf_induction (motive := fun own call =>
    call.seen = if call.traced then own.filterMap (·.2.event?) else []) ?_ ?_ hcall
  · -- Nothing has been reported to a call that only begins.
    intro st o
    simp [Move.event?, Call.begin]
  · intro st t own call _ ih
    rw [seen_turned, ih, (sameCall_turned call st.session.clock t).traced, List.filterMap_append]
    cases call.traced with
    | false => simp
    | true =>
      rw [if_pos rfl, if_pos rfl, if_pos rfl]
      cases he : t.event? <;> simp [Move.event?, he]

/-! ## A call by itself -/

/-- **Calls that are under way at the same time do not mix.** Let any moves have been made,
of any number of calls, in any order and at any times, and take out those that concern one of
them. If they are made by themselves, at the same times, in whatever session: each of them
hands over the same entry as in the whole run, or none in both; and the call is the same
in the end. What the caller has seen is what the moves of the call reported, all of it once
and in its order; and at each of these the observer of a recorded call's caller comes after
the tracker. Any entry of the call is handed over by one of its moves. -/
theorem call_alone (r : Recorder) (s s₀ : Session) (moves : List (Clock × Move)) (n : Nat) :
    List.Forall₂ (fun a b => ∀ e, Hands r a.1 a.2 e ↔ Hands r b.1 b.2 e)
        (movesOf r ⟨s, []⟩ moves n)
        (moments r ⟨s₀, []⟩ (alone (movesOf r ⟨s, []⟩ moves n))) ∧
      (played r ⟨s, []⟩ moves).calls[n]?
        = (played r ⟨s₀, []⟩ (alone (movesOf r ⟨s, []⟩ moves n))).calls[0]? ∧
      (∀ m ∈ moments r ⟨s, []⟩ moves, ∀ t e, m.2 = .turn n t → Hands r m.1 m.2 e →
        m ∈ movesOf r ⟨s, []⟩ moves n) ∧
      (∀ call, (played r ⟨s, []⟩ moves).calls[n]? = some call →
        call.seen =
          if call.traced then (movesOf r ⟨s, []⟩ moves n).filterMap (·.2.event?) else []) ∧
      ∀ m ∈ movesOf r ⟨s, []⟩ moves n, ∀ e call, m.2.event? = some e →
        m.1.calls[n]? = some call → call.isRecorded = true → call.traced = true →
        (r.move m.1 m.2).2.calls[n]? =
          some (Call.caller.see e ((Call.timing m.1.session.clock.elapsed).see e call)) := by
  obtain ⟨hapart, hhands⟩ := apart_played (r := r) s s₀ moves n
  refine ⟨hhands, hapart.call, ?_, fun call hcall => seen_played hcall, ?_⟩
  · -- An entry needs a call, and a turn of a call concerns it.
    rintro ⟨st, m⟩ hm t e rfl hands
    obtain ⟨call, hcall, -⟩ := hands_turn_iff.mp hands
    exact List.mem_filter.mpr ⟨hm, concerns_turn_iff.mpr
      ⟨rfl, (List.getElem?_eq_some_iff.mp hcall).1⟩⟩
  · -- Only a turn that reports an event shows one.
    rintro ⟨st, m⟩ hm e call he hcall hrec ht
    cases m with
    | turn k t =>
      obtain ⟨rfl, hn⟩ := concerns_turn_iff.mp (List.mem_filter.mp hm).2
      cases t with
      | act a =>
        cases a with
        | report e' =>
          obtain rfl : e' = e := Option.some.inj he
          rw [calls_turn hcall, List.getElem?_set_self hn, ← see_of_recorded hrec ht]
          rfl
        | _ => cases he
      | _ => cases he
    | _ => cases he

end Recorder

end ExchangeArchive
