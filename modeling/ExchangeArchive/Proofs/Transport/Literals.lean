import ExchangeArchive.Proofs.Text.Trimming
import ExchangeArchive.Transport.Http1
/-
Hosts that are addresses themselves.

The reader of addresses takes a text apart at points and colons and reads what is between them
as digits. So nothing else is in the text of an address (`isLiteral_of_read?`), and above all no
bracket. That is why brackets around an address can be taken away without asking where they end:
what is left is the text of the address, whether it has stood in brackets or not.
-/

set_option autoImplicit false

namespace ExchangeArchive.Transport

open ExchangeArchive.Text

/-- Whether a character may be in the text of an address: the separators, and all digits. That it
leaves out the brackets is all that is used of it in the end. -/
def IsLiteral (c : Char) : Prop := c = '.' ∨ c = ':' ∨ (Hex.value? c).isSome = true

instance (c : Char) : Decidable (IsLiteral c) :=
  inferInstanceAs (Decidable (c = '.' ∨ c = ':' ∨ (Hex.value? c).isSome = true))

/-! ## What is read as an address -/

namespace Ip

variable {cs : List Char} {c : Char}

/-- A decimal digit is a hexadecimal one, so there is one condition for the octets of an IPv4
address and the groups of an IPv6 address. -/
theorem isLiteral_of_isDigit (h : c.isDigit = true) : IsLiteral c := by
  have hdigit : '0' ≤ c ∧ c ≤ '9' := by
    simpa [Char.isDigit, Char.le_def] using h
  refine .inr (.inr ?_)
  rw [Hex.value?, if_pos hdigit]
  rfl

theorem isLiteral_of_octet? {n : Nat} (h : octet? cs = some n) : ∀ c ∈ cs, IsLiteral c := by
  intro c hc
  unfold octet? at h
  split at h
  · cases h
  · next hshape =>
    obtain ⟨-, hdigits⟩ : (¬cs = [] ∧ cs.length ≤ 3) ∧ ∀ c ∈ cs, c.isDigit = true := by
      simpa using hshape
    exact isLiteral_of_isDigit (hdigits c hc)

theorem isLiteral_of_group? {n : Nat} (h : group? cs = some n) : ∀ c ∈ cs, IsLiteral c := by
  -- The number so far has no part in which digits there are.
  have hfold : ∀ (cs : List Char) (m n : Nat),
      cs.foldlM (fun n c => (Hex.value? c).map fun d => n * 16 + d) m = some n →
        ∀ c ∈ cs, (Hex.value? c).isSome = true := by
    intro cs
    induction cs with
    | nil => exact fun _ _ _ => nofun
    | cons d cs ih =>
      intro m n h
      rw [List.foldlM_cons] at h
      obtain ⟨m', hd, hcs⟩ := Option.bind_eq_some_iff.mp h
      obtain ⟨value, hvalue, -⟩ := Option.map_eq_some_iff.mp hd
      rw [List.forall_mem_cons, hvalue]
      exact ⟨rfl, ih m' n hcs⟩
  unfold group? at h
  split at h
  · cases h
  · exact fun c hc => .inr (.inr (hfold cs 0 n h c hc))

/-- What is so of whatever is read is so of everything in a list that is read, since a list is read
only if each of its elements is. -/
theorem forall_of_mapM {α β : Type} {read : α → Option β} {P : α → Prop}
    (hread : ∀ a b, read a = some b → P a) {as : List α} {bs : List β}
    (h : as.mapM read = some bs) : ∀ a ∈ as, P a := by
  induction as generalizing bs with
  | nil => exact nofun
  | cons a as ih =>
    rw [List.mapM_cons] at h
    obtain ⟨b, hb, h⟩ := Option.bind_eq_some_iff.mp h
    obtain ⟨bs', hbs, -⟩ := Option.bind_eq_some_iff.mp h
    exact List.forall_mem_cons.mpr ⟨hread a b hb, ih hbs⟩

/-- A text is made of such characters if its parts between such separators are. The cut loses only
separators. -/
theorem isLiteral_of_parts {sep : Char} (hsep : IsLiteral sep)
    (h : ∀ part ∈ parts sep cs, ∀ c ∈ part, IsLiteral c) : ∀ c ∈ cs, IsLiteral c := by
  intro c hc
  rcases mem_part_of_mem sep hc with rfl | ⟨part, hpart, hc⟩
  · exact hsep
  · exact h part hpart c hc

theorem isLiteral_of_octets? {v : Vector Nat 4} (h : octets? cs = some v) :
    ∀ c ∈ cs, IsLiteral c := by
  unfold octets? at h
  split at h
  · next hmap =>
    exact isLiteral_of_parts (.inl rfl) (forall_of_mapM (fun _ _ => isLiteral_of_octet?) hmap)
  · cases h

theorem isLiteral_of_groups? {ps : List (List Char)} {gs : List Nat} (h : groups? ps = some gs) :
    ∀ p ∈ ps, ∀ c ∈ p, IsLiteral c := by
  induction ps using groups?.induct generalizing gs with
  | case1 => exact nofun
  | case2 p v hv => simpa using isLiteral_of_octets? hv
  | case3 p hnone =>
    rw [groups?, hnone] at h
    obtain ⟨n, hn, -⟩ := Option.map_eq_some_iff.mp h
    simpa using isLiteral_of_group? hn
  | case4 p rest hrest ih =>
    rw [groups?.eq_3 p rest hrest] at h
    obtain ⟨g, hg, h⟩ := Option.bind_eq_some_iff.mp h
    obtain ⟨gs', hgs, -⟩ := Option.bind_eq_some_iff.mp h
    exact List.forall_mem_cons.mpr ⟨isLiteral_of_group? hg, ih hgs⟩

theorem isLiteral_of_pieces (h : ∀ p ∈ pieces cs, ∀ c ∈ p, IsLiteral c) :
    ∀ c ∈ cs, IsLiteral c := by
  unfold pieces at h
  split at h
  · next hempty =>
    rw [List.isEmpty_iff.mp hempty]
    exact nofun
  · exact isLiteral_of_parts (.inr (.inl rfl)) h

/-- A gap is two colons between what is before it and what is after it, which are read each by
itself. -/
theorem eq_of_splitGap? {before after : List Char} (h : splitGap? cs = some (before, after)) :
    cs = before ++ ':' :: ':' :: after := by
  induction cs using splitGap?.induct generalizing before with
  | case1 rest => cases h; rfl
  | case2 c rest hne ih =>
    rw [splitGap?.eq_2 c rest hne] at h
    obtain ⟨⟨before', after'⟩, hrest, heq⟩ := Option.map_eq_some_iff.mp h
    obtain ⟨rfl, rfl⟩ := Prod.mk.inj heq
    rw [ih hrest]
    rfl
  | case3 => cases h

theorem isLiteral_of_readV6? {ip : Ip} (h : readV6? cs = some ip) : ∀ c ∈ cs, IsLiteral c := by
  unfold readV6? at h
  split at h
  · obtain ⟨gs, hgs, -⟩ := Option.bind_eq_some_iff.mp h
    exact isLiteral_of_pieces (isLiteral_of_groups? hgs)
  · next before after hgap =>
    obtain ⟨head, hhead, h⟩ := Option.bind_eq_some_iff.mp h
    obtain ⟨tail, htail, -⟩ := Option.bind_eq_some_iff.mp h
    have hbefore := isLiteral_of_pieces (forall_of_mapM (fun _ _ => isLiteral_of_group?) hhead)
    have hafter := isLiteral_of_pieces (isLiteral_of_groups? htail)
    rw [eq_of_splitGap? hgap, List.forall_mem_append, List.forall_mem_cons, List.forall_mem_cons]
    exact ⟨hbefore, .inr (.inl rfl), .inr (.inl rfl), hafter⟩

/-- **The text of an address has only digits, points and colons in it.** Both forms are read part by
part, so it is enough to know it of an octet and of a group. -/
theorem isLiteral_of_read? {s : String} {ip : Ip} (h : read? s = some ip) :
    ∀ c ∈ s.toList, IsLiteral c := by
  unfold read? at h
  split at h
  · next hv => exact isLiteral_of_octets? hv
  · exact isLiteral_of_readV6? h

end Ip

/-! ## Brackets -/

namespace Http1

/-- Brackets that are not in a text are not taken from it, and those around it are. Of brackets that
it begins or ends with, more would be taken than were put around it. -/
theorem withoutBrackets_of_not_mem {s : String} (hopening : '[' ∉ s.toList)
    (hclosing : ']' ∉ s.toList) :
    withoutBrackets s = s ∧ withoutBrackets ("[" ++ s ++ "]") = s := by
  have hdrop : ∀ (bracket : Char) (cs : List Char), bracket ∉ cs →
      cs.dropWhile (· == bracket) = cs := by
    intro bracket cs hnot
    cases cs with
    | nil => rfl
    | cons c cs =>
      rw [List.mem_cons, not_or] at hnot
      exact List.dropWhile_cons_of_neg (by simpa using Ne.symm hnot.1)
  have htake : ∀ (bracket : Char) (cs : List Char),
      (bracket :: cs).dropWhile (· == bracket) = cs.dropWhile (· == bracket) :=
    fun bracket cs => List.dropWhile_cons_of_pos (by simp)
  have hbehind : (s.toList.reverse.dropWhile (· == ']')).reverse = s.toList := by
    rw [hdrop ']' s.toList.reverse (by simpa using hclosing), List.reverse_reverse]
  unfold withoutBrackets
  constructor
  · rw [hdrop '[' s.toList hopening]
    dsimp only
    rw [hbehind, String.ofList_toList]
  · have htext : ("[" ++ s ++ "]").toList = '[' :: (s.toList ++ [']']) := by simp
    have hbefore : ('[' :: (s.toList ++ [']'])).dropWhile (· == '[') = s.toList ++ [']'] := by
      rw [htake, hdrop '[' _ (by simp [hopening])]
    rw [htext, hbefore]
    dsimp only
    rw [List.reverse_append, List.reverse_singleton, List.singleton_append, htake, hbehind,
      String.ofList_toList]

/-- **A host that is an address is read as that address**, in brackets or without. The text of an
address has no brackets of its own that taking them off could touch. -/
theorem withoutBrackets_of_read? {s host : String} {ip : Ip} (h : Ip.read? s = some ip)
    (hhost : host = s ∨ host = "[" ++ s ++ "]") : Ip.read? (withoutBrackets host) = some ip := by
  have hnot : ∀ bracket : Char, ¬IsLiteral bracket → bracket ∉ s.toList := fun bracket hno hmem =>
    hno (Ip.isLiteral_of_read? h bracket hmem)
  obtain ⟨hbare, hbracketed⟩ := withoutBrackets_of_not_mem (hnot '[' (by decide))
    (hnot ']' (by decide))
  rcases hhost with rfl | rfl
  · rw [hbare]
    exact h
  · rw [hbracketed]
    exact h

end Http1

end ExchangeArchive.Transport
