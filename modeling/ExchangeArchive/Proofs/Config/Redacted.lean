import ExchangeArchive.Config.Config
import ExchangeArchive.Proofs.Pipeline.Course
import ExchangeArchive.Proofs.Recorder.Redaction
import ExchangeArchive.Proofs.Text.Order
/-
What a description redacts.

A description may name a header more than once, in different letter case. Each name has its
own middleware; the first is outermost, so the values of one are replaced by the next, and the
last name that a header has decides. Since names are kept in ascending order, that is the
greatest of them.

The statement is about single headers (`redactedHeader_redacted`), the induction being on the
names from the last: what comes before it has done its work on a header with the same name.
Everything else in an entry is left alone because it is put together from the old one.
-/

set_option autoImplicit false

namespace ExchangeArchive.Config

open ExchangeArchive.Archive ExchangeArchive.Pipeline ExchangeArchive.Text

/-! ## Headers and entries with their values replaced -/

/-- The name of the pair `p` is the greatest, octet by octet, of those names that the header `x`
has, letter case aside. -/
structure Decides (pairs : List (String × String)) (x : NamedValue) (p : String × String) :
    Prop where
  listed : p ∈ pairs
  named : isNamed p.1 x = true
  greatest : ∀ q ∈ pairs, isNamed q.1 x = true →
    q = p ∨ Utf8.encode q.1.toList < Utf8.encode p.1.toList

/-- What becomes of a header: it has the value of the pair that decides, or is as before if it
has none of the names. -/
inductive RedactedHeader (pairs : List (String × String)) (x : NamedValue) : NamedValue → Prop where
  | replaced {p : String × String} (h : Decides pairs x p) :
    RedactedHeader pairs x { x with value := p.2 }
  | kept (h : ∀ p ∈ pairs, isNamed p.1 x = false) : RedactedHeader pairs x x

/-- What becomes of an entry: each header of its request and of its response is redacted, and
the rest is as before. -/
inductive RedactedEntry (pairs : List (String × String)) (e : Entry) : Entry → Prop where
  | headers {request response : List NamedValue}
    (hrequest : List.Forall₂ (RedactedHeader pairs) e.request.headers request)
    (hresponse : List.Forall₂ (RedactedHeader pairs) e.response.headers response) :
    RedactedEntry pairs e (withHeaders e request response)

variable {pairs : List (String × String)} {x y z : NamedValue} {e e' e'' : Entry}

/-- Only one pair decides: of two that did, each name would be greater than the other. -/
theorem Decides.unique {p q : String × String} (hp : Decides pairs x p)
    (hq : Decides pairs x q) : p = q := by
  rcases hp.greatest q hq.listed hq.named with h | hlt
  · exact h.symm
  rcases hq.greatest p hp.listed hp.named with h | hgt
  · exact h
  · exact absurd hgt (List.lt_asymm hlt)

/-- A header is redacted in one way, so that `RedactedHeader` says all that there is to say. -/
theorem RedactedHeader.unique (hy : RedactedHeader pairs x y) (hz : RedactedHeader pairs x z) :
    y = z := by
  cases hy with
  | @replaced p hp =>
    cases hz with
    | replaced hq => rw [hp.unique hq]
    | kept hnone => exact absurd hp.named (by simp [hnone p hp.listed])
  | kept hnone =>
    cases hz with
    | @replaced q hq => exact absurd hq.named (by simp [hnone q hq.listed])
    | kept _ => rfl

/-- A redacted header stays as it is: its name is the same, so the same pair decides. -/
theorem RedactedHeader.again (hy : RedactedHeader pairs x y) : RedactedHeader pairs y y := by
  cases hy with
  | @replaced p hp =>
    have hsame : Decides pairs { x with value := p.2 } p :=
      ⟨hp.listed, hp.named, fun q hq hnamed => hp.greatest q hq hnamed⟩
    exact .replaced hsame
  | kept hnone => exact .kept hnone

theorem RedactedEntry.unique (he' : RedactedEntry pairs e e') (he'' : RedactedEntry pairs e e'') :
    e' = e'' := by
  have hheaders : ∀ {xs ys zs : List NamedValue}, List.Forall₂ (RedactedHeader pairs) xs ys →
      List.Forall₂ (RedactedHeader pairs) xs zs → ys = zs :=
    fun hys hzs => List.right_unique_forall₂' (fun _ _ _ hy hz => hy.unique hz) hys hzs
  cases he' with
  | headers hrequest' hresponse' =>
    cases he'' with
    | headers hrequest'' hresponse'' =>
      rw [hheaders hrequest' hrequest'', hheaders hresponse' hresponse'']

theorem redactedHeaders_again {xs ys : List NamedValue}
    (h : List.Forall₂ (RedactedHeader pairs) xs ys) :
    List.Forall₂ (RedactedHeader pairs) ys ys := by
  induction h with
  | nil => exact .nil
  | cons hfirst _ ih => exact .cons hfirst.again ih

theorem RedactedEntry.again (he : RedactedEntry pairs e e') : RedactedEntry pairs e' e' := by
  obtain ⟨hrequest, hresponse⟩ := he
  exact .headers (redactedHeaders_again hrequest) (redactedHeaders_again hresponse)

/-! ## One name after the other -/

/-- The header with the values of all pairs put in one after the other. The first pair is that of
the outermost middleware, which sees the header before the others. -/
def redacted (pairs : List (String × String)) (x : NamedValue) : NamedValue :=
  pairs.foldl (fun x p => redactValue p.1 p.2 x) x

/-- The entry with the values of all pairs put in one after the other. -/
def redactedEntry (pairs : List (String × String)) (e : Entry) : Entry :=
  pairs.foldl (fun e p => redactEntry p.1 p.2 e) e

/-- A further pair decides if the header has its name, which is the greatest so far. -/
theorem RedactedHeader.append {p : String × String} (hy : RedactedHeader pairs x y)
    (hgreatest : ∀ q ∈ pairs, q.1 < p.1) :
    RedactedHeader (pairs ++ [p]) x (redactValue p.1 p.2 y) := by
  have hvalue : redactValue p.1 p.2 y
      = if isNamed p.1 x then { x with value := p.2 } else y := by
    cases hy <;> rfl
  rw [hvalue]
  by_cases hnamed : isNamed p.1 x = true
  · -- All names before are smaller, so `p` decides, whatever was put in by then.
    rw [if_pos hnamed]
    refine .replaced ⟨List.mem_append_right pairs List.mem_cons_self, hnamed, fun q hq _ => ?_⟩
    rcases List.mem_append.mp hq with hq | hq
    · exact .inr (Utf8.encode_lt_of_lt (String.lt_iff.mp (hgreatest q hq)))
    · exact .inl (List.mem_singleton.mp hq)
  · rw [if_neg hnamed]
    -- Whoever decided still does, since `p` is not about this header.
    have hmem : ∀ q ∈ pairs ++ [p], isNamed q.1 x = true → q ∈ pairs := by
      intro q hq hq'
      rcases List.mem_append.mp hq with hq | hq
      · exact hq
      · rw [List.mem_singleton.mp hq] at hq'
        exact absurd hq' hnamed
    cases hy with
    | @replaced q hq =>
      exact .replaced ⟨List.mem_append_left [p] hq.listed, hq.named,
        fun q' hq' hnamed' => hq.greatest q' (hmem q' hq' hnamed') hnamed'⟩
    | kept hnone =>
      refine .kept fun q hq => ?_
      by_contra hq'
      rw [Bool.not_eq_false] at hq'
      exact absurd hq' (by rw [hnone q (hmem q hq hq')]; exact Bool.false_ne_true)

/-- **The greatest name decides**, if names are put in in ascending order. The induction is on
the names from the last. -/
theorem redactedHeader_redacted (hsorted : pairs.Pairwise fun p q => p.1 < q.1)
    (x : NamedValue) : RedactedHeader pairs x (redacted pairs x) := by
  induction pairs using List.reverseRecOn with
  | nil => exact .kept fun p hp => absurd hp List.not_mem_nil
  | append_singleton pairs p ih =>
    obtain ⟨hbefore, -, hlast⟩ := List.pairwise_append.mp hsorted
    rw [redacted, List.foldl_append, List.foldl_cons, List.foldl_nil]
    exact (ih hbefore).append fun q hq => hlast q hq p List.mem_cons_self

/-- Redaction is about the headers, each by itself, and about nothing else in an entry. -/
theorem redactedEntry_eq (pairs : List (String × String)) (e : Entry) :
    redactedEntry pairs e = withHeaders e (e.request.headers.map (redacted pairs))
      (e.response.headers.map (redacted pairs)) := by
  induction pairs generalizing e with
  | nil =>
    have hnone : redacted [] = id := rfl
    rw [hnone, List.map_id, List.map_id]
    rfl
  | cons p pairs ih =>
    rw [redactedEntry, List.foldl_cons, ← redactedEntry, ih]
    simp only [redactEntry, withHeaders, List.map_map]
    rfl

/-- **What the pairs make of an entry**, their names being in ascending order, as a description
keeps them. -/
theorem redactedEntry_redactedEntry (hsorted : pairs.Pairwise fun p q => p.1 < q.1) (e : Entry) :
    RedactedEntry pairs e (redactedEntry pairs e) := by
  have hheaders : ∀ xs : List NamedValue,
      List.Forall₂ (RedactedHeader pairs) xs (xs.map (redacted pairs)) := fun xs =>
    List.forall₂_map_right_iff.mpr
      (List.forall₂_same.mpr fun x _ => redactedHeader_redacted hsorted x)
  rw [redactedEntry_eq]
  exact .headers (hheaders _) (hheaders _)

/-! ## On the way to the receiver -/

/-- Middleware that redacts, the first outermost, hands on the entry with all values put in. -/
theorem compose_redactMiddleware (r : Redactions) (receive : EntrySink Session) (e : Entry) :
    compose (redactMiddleware r) receive e = receive (redactedEntry r.pairs e) := by
  have hsteps : redactMiddleware r
      = (r.pairs.map fun p => redactHeader p.1 p.2).map Step.toEntryMiddleware := by
    rw [List.map_map]
    rfl
  rw [hsteps, compose_entry_steps]
  generalize r.pairs = pairs
  induction pairs generalizing e with
  | nil => rfl
  | cons p pairs ih => exact ih (redactEntry p.1 p.2 e)

/-- A recorder sends entries through the pipeline that it was built from, and to its receiver. -/
theorem sendEntry_of_build {b : Recorder.Builder} {r : Recorder} {s s' : Session}
    (hbuild : b.build s = (.ok r, s')) :
    r.pipeline.sendEntry = compose b.entryMiddleware Session.receiveEntry := by
  rw [Recorder.Builder.build] at hbuild
  split at hbuild
  · cases hbuild
  · split at hbuild
    · cases hbuild
    · cases hbuild
      rfl

/-- **What a description redacts.** However a recorder of a description is started, an entry
that it sends gets to the receiver with this change only: each header of the request and of the
response that has one of the names, letter case aside, has the value for the greatest of those,
octet by octet. If it is sent once more, or if every name has its middleware twice, nothing
else gets there. -/
theorem greatest_name_decides (c : Config) (now : Nat) (e : Entry) {r : Recorder}
    {s s' : Session} (hbuild : (c.toBuilder now).build s = (.ok r, s')) :
    ∃ e', RedactedEntry c.redactHeaders.pairs e e' ∧
      (∀ e'', RedactedEntry c.redactHeaders.pairs e e'' → e'' = e') ∧
      r.pipeline.sendEntry e = Session.receiveEntry e' ∧
      r.pipeline.sendEntry e' = Session.receiveEntry e' ∧
      compose ((c.toBuilder now).entryMiddleware ++ (c.toBuilder now).entryMiddleware)
        Session.receiveEntry e = Session.receiveEntry e' := by
  have hsorted := c.redactHeaders.sorted
  have hsend : r.pipeline.sendEntry
      = compose (redactMiddleware c.redactHeaders) Session.receiveEntry := sendEntry_of_build hbuild
  have he := redactedEntry_redactedEntry hsorted e
  have hagain : redactedEntry c.redactHeaders.pairs (redactedEntry c.redactHeaders.pairs e)
      = redactedEntry c.redactHeaders.pairs e :=
    (redactedEntry_redactedEntry hsorted _).unique he.again
  refine ⟨_, he, fun e'' he'' => he''.unique he, ?_, ?_, ?_⟩
  · rw [hsend, compose_redactMiddleware]
  · rw [hsend, compose_redactMiddleware, hagain]
  · rw [compose_append]
    show compose (redactMiddleware c.redactHeaders)
      (compose (redactMiddleware c.redactHeaders) Session.receiveEntry) e = _
    rw [compose_redactMiddleware, compose_redactMiddleware, hagain]

/-- Cookies are named twice, and the name in lower case decides: its letters come after those in
upper case. -/
theorem greatest_name_decides_cookie :
    let cookies (value : String) : Entry :=
      { request := { headers := [⟨"COOKIE", value, some "kept"⟩, ⟨"host", "a", none⟩] }
        response := { headers := [⟨"x-cookie", "b", none⟩, ⟨"Cookie", value, none⟩] } }
    let c : Config :=
      { redactHeaders := (Redactions.empty.insert "cookie" "X").insert "Cookie" "Y"
        output := .file "a.har" }
    ∃ r s, (c.toBuilder 0).build { clock := ⟨0, 0⟩ } = (.ok r, s) ∧
      r.pipeline.sendEntry (cookies "a=1") = Session.receiveEntry (cookies "X") := by
  intro cookies c
  obtain ⟨r, s, hbuild⟩ : ∃ r s, (c.toBuilder 0).build { clock := ⟨0, 0⟩ } = (.ok r, s) :=
    ⟨_, _, rfl⟩
  obtain ⟨e', -, hunique, hsend, -⟩ := greatest_name_decides c 0 (cookies "a=1") hbuild
  have hcookies : redactedEntry c.redactHeaders.pairs (cookies "a=1") = cookies "X" := by
    have hpairs : c.redactHeaders.pairs = [("Cookie", "Y"), ("cookie", "X")] := by decide +kernel
    rw [hpairs]
    rfl
  have hredacted := redactedEntry_redactedEntry c.redactHeaders.sorted (cookies "a=1")
  rw [hcookies] at hredacted
  exact ⟨r, s, hbuild, by rw [hsend, hunique _ hredacted]⟩

end ExchangeArchive.Config
