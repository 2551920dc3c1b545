import ExchangeArchive.Http.Uri
import ExchangeArchive.Proofs.Text.Splitting
/-
The parts of an authority.

An authority is cut in three: the user information up to the last `@`, the host, and what
comes after the host. `Authority.Of` says where the cuts are without saying how to find them. Each
of the functions on an authority looks for its own cut in a text of its own, the port in the whole
authority; they find the parts all the same (`hostOf_of`, `port?_of`), since what follows a colon
in the user information or in brackets is no number.

Not every text has parts, for a host may begin with a bracket that is never closed. What was
scanned has them (`exists_of_closed`, `closed_of_foldlM`): the scan lets only one bracket open, and
it is closed after that.
-/

set_option autoImplicit false

namespace ExchangeArchive.Http

open ExchangeArchive.Decimal ExchangeArchive.Text

/-! ## Authorities in parts -/

/-- An authority in parts: the user information with its mark, the host, and the rest. -/
structure Authority where
  user : List Char
  host : List Char
  rest : List Char

namespace Authority

/-- The parts are those of a text. The user information ends with the last mark. The host is a
text in brackets if there is an opening one after that, and ends before the first colon
otherwise. -/
structure Of (p : Authority) (authority : String) : Prop where
  text : authority.toList = p.user ++ (p.host ++ p.rest)
  user : p.user = [] ∨ ∃ name, p.user = name ++ ['@']
  unmarked : '@' ∉ p.host ++ p.rest
  host : (∃ inner, p.host = '[' :: (inner ++ [']']) ∧ ']' ∉ inner) ∨
    ((p.host ++ p.rest).head? ≠ some '[' ∧ ':' ∉ p.host ∧
      (p.rest = [] ∨ ∃ more, p.rest = ':' :: more))

/-- The port as it is written: what follows the last colon after the host. -/
def portText? (p : Authority) : Option (List Char) := (splitLast? ':' p.rest).map Prod.snd

/-- The port, if it is a number. -/
def port? (p : Authority) : Option Nat := p.portText?.bind Uri.portNumber?

variable {p q : Authority} {authority : String}

theorem hostAndPort_of (h : p.Of authority) : Uri.hostAndPort authority = p.host ++ p.rest := by
  rw [Uri.hostAndPort, h.text]
  rcases h.user with huser | ⟨name, huser⟩
  · rw [huser, List.nil_append, splitLast?_of_not_mem h.unmarked]
  · rw [huser, List.append_assoc, List.singleton_append, splitLast?_append _ h.unmarked]

/-- **The host that is found is the host.** The function cuts off the user information first, and
then looks for the bracket or the colon. -/
theorem hostOf_of (h : p.Of authority) : Uri.hostOf authority = String.ofList p.host := by
  rw [Uri.hostOf, hostAndPort_of h]
  congr 1
  rcases h.host with ⟨inner, hhost, hinner⟩ | ⟨hopen, hcolon, hrest⟩
  · have hinside : ∀ c ∈ inner, (c != ']') = true := by
      intro c hc
      exact bne_iff_ne.mpr fun heq => hinner (heq ▸ hc)
    rw [hhost]
    show '[' :: ((inner ++ [']'] ++ p.rest).takeWhile (· != ']')) ++ [']'] = _
    rw [List.append_assoc, List.takeWhile_append_of_pos hinside, List.singleton_append,
      List.takeWhile_cons_of_neg (by simp), List.append_nil]
    rfl
  · split
    · next hbracket =>
      rw [hbracket] at hopen
      exact absurd rfl hopen
    · have hbefore : ∀ c ∈ p.host, (c != ':') = true := by
        intro c hc
        exact bne_iff_ne.mpr fun heq => hcolon (heq ▸ hc)
      rw [List.takeWhile_append_of_pos hbefore]
      rcases hrest with hrest | ⟨more, hrest⟩
      · rw [hrest, List.takeWhile_nil, List.append_nil]
      · rw [hrest, List.takeWhile_cons_of_neg (by simp), List.append_nil]

/-- An authority has its parts in one way only, so a statement about its parts is one about the
text. -/
theorem Of.unique (hp : p.Of authority) (hq : q.Of authority) : p = q := by
  -- The host is found in the text, and so is what begins with it; the rest is what is left over.
  have hhost : p.host = q.host :=
    String.ofList_injective ((hostOf_of hp).symm.trans (hostOf_of hq))
  have htail : p.host ++ p.rest = q.host ++ q.rest :=
    (hostAndPort_of hp).symm.trans (hostAndPort_of hq)
  have hrest : p.rest = q.rest := by
    rw [hhost] at htail
    exact List.append_cancel_left htail
  have huser : p.user = q.user := by
    have htext := hp.text.symm.trans hq.text
    rw [htail] at htext
    exact List.append_cancel_right htext
  obtain ⟨user, host, rest⟩ := p
  obtain ⟨user', host', rest'⟩ := q
  rw [Authority.mk.injEq]
  exact ⟨huser, hhost, hrest⟩

/-! ## The port -/

/-- A text with anything in it but digits and a plus sign is no port, however it begins. -/
theorem portNumber?_of_mem {cs : List Char} {c : Char} (hmem : c ∈ cs) (hdigit : c.isDigit = false)
    (hplus : c ≠ '+') : Uri.portNumber? cs = none := by
  have hnot : ∀ ds : List Char, c ∈ ds → (ds.isEmpty || !ds.all Char.isDigit) = true := by
    intro ds hds
    have hall : ds.all Char.isDigit = false := by
      rw [List.all_eq_false]
      exact ⟨c, hds, by simp [hdigit]⟩
    rw [hall, Bool.not_false, Bool.or_true]
  rw [Uri.portNumber?.eq_def]
  split
  · next ds =>
    have hds : c ∈ ds := (List.mem_cons.mp hmem).resolve_left hplus
    exact if_pos (hnot ds hds)
  · exact if_pos (hnot cs hmem)

/-- If there is no colon from some place on that no port can have, then there is no port. -/
theorem port_none {before rest : List Char} {c : Char} (hcolon : ':' ∉ c :: rest)
    (hdigit : c.isDigit = false) (hplus : c ≠ '+') :
    ((splitLast? ':' (before ++ c :: rest)).map Prod.snd).bind Uri.portNumber? = none := by
  rw [splitLast?_append_of_not_mem hcolon]
  cases splitLast? ':' before with
  | none => rfl
  | some split =>
    exact portNumber?_of_mem (List.mem_append_right split.2 List.mem_cons_self) hdigit hplus

/-- **The port that is found is the port**, though it is looked for in the user information and
in the host as well. -/
theorem port?_of (h : p.Of authority) :
    (Uri.portOf? authority).bind Uri.portNumber? = p.port? := by
  rw [Uri.portOf?, port?, portText?, h.text, ← List.append_assoc]
  by_cases hrest : ':' ∈ p.rest
  · rw [splitLast?_append_of_mem _ hrest]
  · rw [splitLast?_of_not_mem hrest]
    show _ = none
    rcases h.host with ⟨inner, hhost, -⟩ | ⟨-, hcolon, hempty⟩
    · -- What follows the last colon goes on past the closing bracket.
      have hsplit : p.user ++ p.host ++ p.rest = (p.user ++ '[' :: inner) ++ ']' :: p.rest := by
        rw [hhost]
        simp
      rw [hsplit]
      exact port_none (by simp [hrest]) (by decide) (by decide)
    · have hnil : p.rest = [] := by
        rcases hempty with hnil | ⟨more, hmore⟩
        · exact hnil
        · exact absurd (hmore ▸ List.mem_cons_self) hrest
      rw [hnil, List.append_nil]
      rcases h.user with huser | ⟨name, huser⟩
      · rw [huser, List.nil_append, splitLast?_of_not_mem hcolon]
        rfl
      · -- What follows the last colon goes on past the mark.
        rw [huser, List.append_assoc, List.singleton_append]
        exact port_none (by simp [hcolon]) (by decide) (by decide)

/-! ## Finding the parts -/

/-- A text has parts if each opening bracket in it is closed later. -/
theorem exists_of_closed (hclosed : ∀ before after,
    authority.toList = before ++ '[' :: after → ']' ∈ after) :
    ∃ p : Authority, p.Of authority := by
  obtain ⟨user, tail, htext, huser, htail⟩ : ∃ user tail, authority.toList = user ++ tail ∧
      (user = [] ∨ ∃ name, user = name ++ ['@']) ∧ '@' ∉ tail := by
    rcases last_or_not_mem '@' authority.toList with hnone | ⟨name, tail, htext, htail⟩
    · exact ⟨[], _, rfl, .inl rfl, hnone⟩
    · exact ⟨name ++ ['@'], tail, by rw [htext]; simp, .inr ⟨name, rfl⟩, htail⟩
  by_cases hopen : tail.head? = some '['
  · -- The host ends with the first closing bracket after the opening one.
    obtain ⟨more, rfl⟩ := List.head?_eq_some_iff.mp hopen
    obtain ⟨inner, rest, rfl, hinner⟩ := List.eq_append_cons_of_mem (hclosed user more htext)
    have hsame : '[' :: (inner ++ ']' :: rest) = '[' :: (inner ++ [']']) ++ rest := by simp
    rw [hsame] at htext htail
    exact ⟨⟨user, _, rest⟩, htext, huser, htail, .inl ⟨inner, rfl, hinner⟩⟩
  · -- The host ends before the first colon, or with the text.
    by_cases hcolon : ':' ∈ tail
    · obtain ⟨host, more, rfl, hhost⟩ := List.eq_append_cons_of_mem hcolon
      exact ⟨⟨user, host, ':' :: more⟩, htext, huser, htail, .inr ⟨hopen, hhost, .inr ⟨more, rfl⟩⟩⟩
    · refine ⟨⟨user, tail, []⟩, ?_, huser, ?_, .inr ⟨?_, hcolon, .inl rfl⟩⟩
      · rw [List.append_nil]
        exact htext
      · rw [List.append_nil]
        exact htail
      · rw [List.append_nil]
        exact hopen

end Authority

/-! ## Scanning -/

/-- Whether a character is of visible ASCII, as all are that an authority can have. -/
def IsGraphic (c : Char) : Prop := 0x20 < c.toNat ∧ c.toNat < 0x7F

instance (c : Char) : Decidable (IsGraphic c) := inferInstanceAs (Decidable (_ ∧ _))

namespace Uri

theorem toNat_charOf (b : UInt8) : (charOf b).toNat = b.toNat := by
  have hb : b.toNat < 256 := b.toNat_lt
  rw [charOf, Char.ofNat, dif_pos (.inl (by omega))]
  rfl

theorem isGraphic_of_isAlphanumeric {b : UInt8} (h : isAlphanumeric b = true) :
    IsGraphic (charOf b) := by
  simp only [isAlphanumeric, Bool.or_eq_true, Bool.and_eq_true, decide_eq_true_eq,
    UInt8.le_iff_toNat_le, UInt8.reduceToNat] at h
  rw [IsGraphic, toNat_charOf]
  omega

theorem isGraphic_of_isAuthorityMark {c : Char} (h : isAuthorityMark c = true) : IsGraphic c := by
  have hall : ("!$&'()*+,-.;=_~".toList.all fun c => 0x20 < c.toNat && c.toNat < 0x7F) = true := by
    decide +kernel
  rw [isAuthorityMark, List.contains_iff_mem] at h
  simpa [IsGraphic] using List.all_eq_true.mp hall c h

namespace AuthorityScan

/-- What a character does to a scan: brackets are noted, and an opening one comes only once,
before any closing one. -/
structure Takes (s : AuthorityScan) (c : Char) (s' : AuthorityScan) : Prop where
  graphic : IsGraphic c
  opened : s'.opened = true ↔ s.opened = true ∨ c = '['
  closed : s'.closed = true ↔ s.closed = true ∨ c = ']'
  first : c = '[' → s.opened = false
  later : c = ']' → s.opened = true

variable {s s' : AuthorityScan}

theorem takes_of_step {b : UInt8} (h : s.step b = .ok s') : s.Takes (charOf b) s' := by
  -- The cases are `:`, `[`, `]`, `@` and `%`, and the characters without further meaning.
  rw [step.eq_def] at h
  split at h
  · next hc =>
    rw [hc]
    split at h
    · cases h
    · cases h
      exact ⟨by decide, by simp, by simp, by simp, by simp⟩
  · next hc =>
    rw [hc]
    split at h
    · cases h
    · next hnot =>
      cases h
      rw [Bool.or_eq_true, not_or, Bool.not_eq_true, Bool.not_eq_true] at hnot
      exact ⟨by decide, by simp, by simp, fun _ => hnot.2, by simp⟩
  · next hc =>
    rw [hc]
    split at h
    · cases h
    · next hnot =>
      cases h
      rw [Bool.or_eq_true, not_or, Bool.not_eq_true, Bool.not_eq_eq_eq_not, Bool.not_false] at hnot
      exact ⟨by decide, by simp, by simp, by simp, fun _ => hnot.1⟩
  · next hc =>
    rw [hc]
    cases h
    exact ⟨by decide, by simp, by simp, by simp, by simp⟩
  · next hc =>
    rw [hc]
    cases h
    exact ⟨by decide, by simp, by simp, by simp, by simp⟩
  · next hopen hclose _ _ =>
    split at h
    · next hmeant =>
      cases h
      refine ⟨?_, (or_iff_left hopen).symm, (or_iff_left hclose).symm, fun hc => absurd hc hopen,
        fun hc => absurd hc hclose⟩
      rcases Bool.or_eq_true_iff.mp hmeant with hmeant | hmeant
      · exact isGraphic_of_isAlphanumeric hmeant
      · exact isGraphic_of_isAuthorityMark hmeant
    · cases h

/-- A scan that goes well takes the first octet and then the rest. -/
theorem foldlM_cons_eq_ok {b : UInt8} {bs : List UInt8}
    (h : (b :: bs).foldlM step s = .ok s') :
    ∃ next, s.Takes (charOf b) next ∧ bs.foldlM step next = .ok s' := by
  rw [List.foldlM_cons] at h
  cases hstep : s.step b with
  | error fault =>
    rw [hstep] at h
    cases h
  | ok next =>
    rw [hstep] at h
    exact ⟨next, takes_of_step hstep, h⟩

variable {bs : List UInt8}

/-- What a scan has taken is visible. -/
theorem isGraphic_of_foldlM (h : bs.foldlM step s = .ok s') : ∀ c ∈ bs.map charOf, IsGraphic c := by
  induction bs generalizing s with
  | nil => exact fun c hc => absurd hc List.not_mem_nil
  | cons b bs ih =>
    obtain ⟨next, htakes, hrest⟩ := foldlM_cons_eq_ok h
    exact List.forall_mem_cons.mpr ⟨htakes.graphic, ih hrest⟩

/-- What was opened stays so, and what is closed in the end has been or is closed on the way. -/
theorem brackets_of_foldlM (h : bs.foldlM step s = .ok s') :
    (s.opened = true → s'.opened = true) ∧
      (s'.closed = true → s.closed = true ∨ ']' ∈ bs.map charOf) := by
  induction bs generalizing s with
  | nil =>
    cases h
    exact ⟨id, .inl⟩
  | cons b bs ih =>
    obtain ⟨next, htakes, hrest⟩ := foldlM_cons_eq_ok h
    obtain ⟨hopened, hclosed⟩ := ih hrest
    refine ⟨fun hs => hopened (htakes.opened.mpr (.inl hs)), fun hs => ?_⟩
    rw [List.map_cons, List.mem_cons]
    rcases hclosed hs with hnext | hmem
    · rcases htakes.closed.mp hnext with hs | hb
      · exact .inl hs
      · exact .inr (.inl hb.symm)
    · exact .inr (.inr hmem)

/-- **A scan that ends well has closed the bracket that it opened.** The induction is on the
octets; all along nothing is closed that was not opened. -/
theorem closed_of_foldlM (h : bs.foldlM step s = .ok s') (hsound : s'.opened = s'.closed)
    (hs : s.closed = true → s.opened = true) {before after : List Char}
    (hsplit : bs.map charOf = before ++ '[' :: after) : ']' ∈ after := by
  induction bs generalizing s before with
  | nil => exact absurd hsplit.symm (List.append_ne_nil_of_right_ne_nil _ (List.cons_ne_nil _ _))
  | cons b bs ih =>
    obtain ⟨next, htakes, hrest⟩ := foldlM_cons_eq_ok h
    rw [List.map_cons] at hsplit
    cases before with
    | nil =>
      obtain ⟨hb, rfl⟩ := List.cons_eq_cons.mp hsplit
      have hopen : next.opened = true := htakes.opened.mpr (.inr hb)
      obtain ⟨hopened, hclosed⟩ := brackets_of_foldlM hrest
      rcases hclosed (hsound ▸ hopened hopen) with hnext | hmem
      · -- The bracket is the first, so nothing is closed before.
        rcases htakes.closed.mp hnext with hs' | hb'
        · exact absurd (hs hs') (by rw [htakes.first hb]; exact Bool.false_ne_true)
        · exact absurd (hb.symm.trans hb') (by decide)
      · exact hmem
    | cons c before =>
      obtain ⟨-, hsplit⟩ := List.cons_eq_cons.mp hsplit
      refine ih hrest (fun hnext => htakes.opened.mpr ?_) hsplit
      rcases htakes.closed.mp hnext with hs' | hb
      · exact .inl (hs hs')
      · exact .inl (htakes.later hb)

end AuthorityScan

end Uri

end ExchangeArchive.Http
