import ExchangeArchive.Proofs.Http.Authority
import ExchangeArchive.Proofs.Text.Decoding
import Mathlib.Data.List.TakeWhile
/-
Targets with a scheme.

Such a target is a scheme, an authority that is not empty, and a path with a query, each read
from the octets that the one before leaves (`readWith_of_readFull`). The authority ends where one
of `/?#` comes, so a path begins with a slash if it is not empty.

The path and the query are texts, and they are read again from their octets
(`readPathAndQuery_again`), since reading UTF-8 loses nothing: what is read is all that comes before
the fragment.
-/

set_option autoImplicit false

namespace ExchangeArchive.Http

open ExchangeArchive.Text

theorem ok_of_bind {ε α β : Type} {x : Except ε α} {f : α → Except ε β} {b : β}
    (h : x.bind f = .ok b) : ∃ a, x = .ok a ∧ f a = .ok b := by
  cases x with
  | error e => cases h
  | ok a => exact ⟨a, rfl, h⟩

/-- What is left of a list after its first part. -/
theorem drop_length_takeWhile {α : Type} (p : α → Bool) (l : List α) :
    l.drop (l.takeWhile p).length = l.dropWhile p := by
  have hsplit : l.takeWhile p ++ l.drop (l.takeWhile p).length = l.takeWhile p ++ l.dropWhile p :=
    (List.prefix_iff_eq_append.mp (List.takeWhile_prefix p)).trans
      List.takeWhile_append_dropWhile.symm
  exact List.append_cancel_left hsplit

namespace Uri

variable {u : Uri} {bs : List UInt8}

/-! ## The authority -/

/-- An authority that is read goes up to its end, and its scan ends well. -/
theorem readAuthority_eq_ok {authority : List UInt8} (h : readAuthority bs = .ok authority) :
    authority = bs.takeWhile (fun b => !endsAuthority b) ∧
      ∃ s : AuthorityScan, authority.foldlM AuthorityScan.step {} = .ok s ∧ s.isSound = true := by
  rw [readAuthority.eq_def] at h
  split at h
  · cases h
  · simp only [bind, pure, Except.pure] at h
    obtain ⟨-, -, h⟩ := ok_of_bind h
    obtain ⟨s, hscan, h⟩ := ok_of_bind h
    split at h
    · next hsound =>
      cases h
      exact ⟨rfl, s, hscan, (Bool.and_eq_true_iff.mp hsound).1⟩
    · cases h

theorem toList_ofAscii (bs : List UInt8) : (ofAscii bs).toList = bs.map charOf :=
  String.toList_ofList

/-- An authority that is read has parts, and is of visible ASCII. -/
theorem parts_of_readAuthority {authority : List UInt8} (h : readAuthority bs = .ok authority) :
    (∃ p : Authority, p.Of (ofAscii authority)) ∧
      ∀ c ∈ (ofAscii authority).toList, IsGraphic c := by
  obtain ⟨-, s, hscan, hsound⟩ := readAuthority_eq_ok h
  rw [toList_ofAscii]
  refine ⟨Authority.exists_of_closed fun before after hsplit => ?_,
    AuthorityScan.isGraphic_of_foldlM hscan⟩
  rw [toList_ofAscii] at hsplit
  refine AuthorityScan.closed_of_foldlM hscan ?_ nofun hsplit
  rw [AuthorityScan.isSound, Bool.and_eq_true, Bool.and_eq_true] at hsound
  exact eq_of_beq hsound.1.1

/-! ## The target -/

/-- What a target with a scheme was read from: an authority, and a path and a query in what is
left after it. -/
structure ReadWith (u : Uri) (scheme : String) (rest authority : List UInt8) : Prop where
  front : readAuthority rest = .ok authority
  tail : readPathAndQuery (rest.drop authority.length) = .ok (u.path, u.query)
  parts : u = ⟨some scheme, some (ofAscii authority), u.path, u.query⟩

theorem readWith_of_readFull {scheme : String} (h : readFull bs = .ok u)
    (hscheme : u.scheme = some scheme) : ∃ rest authority, u.ReadWith scheme rest authority := by
  simp only [readFull, bind] at h
  obtain ⟨⟨scheme?, rest⟩, -, h⟩ := ok_of_bind h
  obtain ⟨authority, hauthority, h⟩ := ok_of_bind h
  cases scheme? with
  | none =>
    dsimp only at h
    split at h
    · cases h
      cases hscheme
    · cases h
  | some scheme' =>
    dsimp only at h
    split at h
    · cases h
    · obtain ⟨⟨path, query⟩, htail, h⟩ := ok_of_bind h
      cases h
      cases hscheme
      exact ⟨rest, authority, hauthority, htail, rfl⟩

/-- **A target with a scheme has an authority.** The other forms of a target are a path alone, an
asterisk, or an authority alone, and none of these has a scheme. -/
theorem readWith_of_read {scheme : String} (h : read bs = .ok u)
    (hscheme : u.scheme = some scheme) : ∃ rest authority, u.ReadWith scheme rest authority := by
  rw [read.eq_def] at h
  split at h
  · cases h
  -- Of the forms of a target, those that are told by their first octets have no scheme.
  split at h
  · cases h
  · cases h
    cases hscheme
  · split at h
    · cases h
      cases hscheme
    · simp only [bind] at h
      obtain ⟨authority, -, h⟩ := ok_of_bind h
      split at h
      · cases h
      · cases h
        cases hscheme
  · simp only [bind] at h
    obtain ⟨⟨path, query⟩, -, h⟩ := ok_of_bind h
    cases h
    cases hscheme
  · exact readWith_of_readFull h hscheme

/-! ## The path and the query -/

/-- The octets of a query with its mark. -/
theorem encode_shownQuery (u : Uri) :
    Utf8.encode u.shownQuery.toList
      = match u.query with
        | none => []
        | some query => 0x3F :: Utf8.encode query.toList := by
  rw [shownQuery]
  cases u.query with
  | none => rfl
  | some query =>
    have hmark : ("?" ++ query).toList = '?' :: query.toList := by simp
    dsimp only
    rw [hmark, Utf8.encode_cons]
    rfl

theorem encode_of_utf8Text {s : String} (h : utf8Text bs = .ok s) :
    Utf8.encode s.toList = bs := by
  rw [utf8Text] at h
  split at h
  · next cs hdecode =>
    cases h
    rw [String.toList_ofList]
    exact Utf8.encode_of_decode? hdecode
  · cases h

/-- The path is what comes before the mark of the query, and the query what comes after it. The
first mark counts; others are part of the query. -/
theorem encode_of_readPathAndQuery (h : readPathAndQuery bs = .ok (u.path, u.query)) :
    Utf8.encode u.path.toList = (withoutFragment bs).takeWhile (· != 0x3F) ∧
      Utf8.encode (u.path ++ u.shownQuery).toList = withoutFragment bs := by
  rw [String.toList_append, Utf8.encode_append, encode_shownQuery]
  rw [readPathAndQuery.eq_def] at h
  generalize withoutFragment bs = bs at h ⊢
  have hsplit : bs.takeWhile (· != 0x3F) ++ bs.dropWhile (· != 0x3F) = bs :=
    List.takeWhile_append_dropWhile
  dsimp only at h
  rw [drop_length_takeWhile] at h
  split at h
  · cases h
  simp only [bind, pure, Except.pure] at h
  split at h
  · next hrest =>
    -- There is no query.
    obtain ⟨path, hpath, h⟩ := ok_of_bind h
    injection h with h
    obtain ⟨rfl, hquery⟩ := Prod.mk.inj h
    rw [hrest] at hsplit
    rw [← hquery, encode_of_utf8Text hpath]
    exact ⟨rfl, hsplit⟩
  · next mark query hrest =>
    -- There is one, and what stands before it is its mark.
    split at h
    · cases h
    obtain ⟨path, hpath, h⟩ := ok_of_bind h
    obtain ⟨text, htext, h⟩ := ok_of_bind h
    injection h with h
    obtain ⟨rfl, hquery⟩ := Prod.mk.inj h
    have hmark : mark = 0x3F := by
      have hhead := List.head?_dropWhile_not (· != 0x3F) bs
      rw [hrest] at hhead
      simpa using hhead
    rw [hrest, hmark] at hsplit
    rw [← hquery, encode_of_utf8Text hpath]
    dsimp only
    rw [encode_of_utf8Text htext]
    exact ⟨rfl, hsplit⟩

/-- **A path and a query are read again from their octets.** So what a target is written as on the
wire is read as the same path and the same query. -/
theorem readPathAndQuery_again (h : readPathAndQuery bs = .ok (u.path, u.query)) :
    readPathAndQuery (Utf8.encode (u.path ++ u.shownQuery).toList) = .ok (u.path, u.query) := by
  have hsame : withoutFragment (withoutFragment bs) = withoutFragment bs := List.takeWhile_idem
  rw [(encode_of_readPathAndQuery h).2, readPathAndQuery, hsame, ← readPathAndQuery]
  exact h

/-- A text begins with the character that its octets begin with. -/
theorem cons_of_encode {cs : List Char} {octets : List UInt8}
    (h : Utf8.encode cs = 0x2F :: octets) : ∃ more, cs = '/' :: more := by
  cases cs with
  | nil => cases h
  | cons c cs =>
    obtain ⟨b, more, hoctets, hhead⟩ := Utf8.head_encodeChar c (Utf8.encode cs)
    rw [Utf8.encode_cons, hoctets, List.cons_append] at h
    obtain ⟨rfl, -⟩ := List.cons_eq_cons.mp h
    have hslash : Utf8.head 0x2F (more ++ Utf8.encode cs) = .char '/' 1 := rfl
    rw [hslash] at hhead
    injection hhead with hc
    exact ⟨cs, by rw [hc]⟩

/-- **The path after an authority begins with a slash**, if there is one. -/
theorem ReadWith.path {scheme : String} {rest authority : List UInt8}
    (h : u.ReadWith scheme rest authority) :
    u.path = "" ∨ ∃ more, u.path.toList = '/' :: more := by
  have hpath := (encode_of_readPathAndQuery h.tail).1
  rw [(readAuthority_eq_ok h.front).1, drop_length_takeWhile] at hpath
  have hhead := List.head?_dropWhile_not (fun b => !endsAuthority b) rest
  generalize rest.dropWhile (fun b => !endsAuthority b) = tail at hpath hhead
  have hempty : Utf8.encode u.path.toList = [] → u.path = "" := by
    intro hnil
    have hdecode := Utf8.decode?_encode u.path.toList
    rw [hnil, Utf8.decode?] at hdecode
    exact String.toList_inj.mp (Option.some.inj hdecode).symm
  cases tail with
  | nil => exact .inl (hempty hpath)
  | cons b tail =>
    -- A path begins here, or a query or a fragment does, and then there is no path.
    have hends : endsAuthority b = true := by simpa using hhead
    simp only [endsAuthority, Bool.or_eq_true, beq_iff_eq] at hends
    rcases hends with (rfl | rfl) | rfl
    · exact .inr (cons_of_encode hpath)
    · exact .inl (hempty hpath)
    · exact .inl (hempty hpath)

end Uri

/-- A target that has a scheme has a host too. -/
theorem host_of_scheme {bs : List UInt8} {u : Uri} (h : Uri.read bs = .ok u)
    (hscheme : u.scheme.isSome = true) : u.host?.isSome = true := by
  obtain ⟨scheme, hscheme⟩ := Option.isSome_iff_exists.mp hscheme
  obtain ⟨rest, authority, hread⟩ := Uri.readWith_of_read h hscheme
  rw [hread.parts]
  rfl

end ExchangeArchive.Http
