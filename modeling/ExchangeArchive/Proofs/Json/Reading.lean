import ExchangeArchive.Json.Text
import ExchangeArchive.Proofs.Json.Scanning
/-
A written value is read as its document.

The scanner and the tree builder are taken in turn. The first turns the compact text of a
value into the value's tokens (`scans_render`): commas, colons and brackets are tokens of one
octet, and they end a number that stands before them. The second takes the tokens of a value
wherever a value may stand and puts its document there (`place_tokens`). Together, the text of
a value is the document of the value, with nothing after it (`document_render`).
-/

set_option autoImplicit false

namespace ExchangeArchive.Document.Node

theorem ofItems_eq_map (items : List Json) : ofItems items = items.map ofJson := by
  induction items with
  | nil => rfl
  | cons v items ih => rw [ofItems, ih, List.map_cons]

theorem ofMembers_eq_map (members : List (String × Json)) :
    ofMembers members = members.map fun m => (.atom (.text m.1), ofJson m.2) := by
  induction members with
  | nil => rfl
  | cons m members ih => rw [ofMembers, ih, List.map_cons]

end ExchangeArchive.Document.Node

namespace ExchangeArchive.Json

open ExchangeArchive.Document ExchangeArchive.Text

/-- A value all of whose atoms have tokens of their own. Not every double has one, for instance, and
not every integer fits into a word. -/
inductive Writable : Json → Prop where
  | atom {a : Atom} (h : Token.Writable a) : Writable (.atom a)
  | list {items : List Json} (h : ∀ v ∈ items, Writable v) : Writable (.list items)
  | object {members : List (String × Json)} (h : ∀ m ∈ members, Writable m.2) :
    Writable (.object members)

mutual

/-- The tokens of a value, in the order in which they stand in its compact text. -/
def tokens : Json → List Token
  | .atom a => [.atom a]
  | .list items => .openList :: itemTokens items ++ [.closeList]
  | .object members => .openObject :: memberTokens members ++ [.closeObject]

/-- The tokens of items, with commas between them. -/
def itemTokens : List Json → List Token
  | [] => []
  | [v] => tokens v
  | v :: rest => tokens v ++ .comma :: itemTokens rest

/-- The tokens of members, with commas between them. -/
def memberTokens : List (String × Json) → List Token
  | [] => []
  | [(k, v)] => .atom (.text k) :: .colon :: tokens v
  | (k, v) :: rest => .atom (.text k) :: .colon :: tokens v ++ .comma :: memberTokens rest

end

/-! ## The scanner -/

namespace Token

/-- The octets are scanned as the tokens, up to what follows, and what follows is scanned as if it
stood alone. -/
def Scans (written : List UInt8) (ts : List Token) (rest : List UInt8) : Prop :=
  ∀ fuel acc, (written ++ rest).length ≤ fuel → ∃ fuel', rest.length ≤ fuel' ∧
    scanAll fuel acc (written ++ rest) = scanAll fuel' (ts.reverse ++ acc) rest

theorem Scans.nil (rest : List UInt8) : Scans [] [] rest :=
  fun fuel _ h => ⟨fuel, h, rfl⟩

theorem Scans.append {written written' rest : List UInt8} {ts ts' : List Token}
    (h : Scans written ts (written' ++ rest)) (h' : Scans written' ts' rest) :
    Scans (written ++ written') (ts ++ ts') rest := by
  intro fuel acc hfuel
  rw [List.append_assoc] at hfuel ⊢
  obtain ⟨fuel', hfuel', hscan⟩ := h fuel acc hfuel
  obtain ⟨fuel'', hfuel'', hscan'⟩ := h' fuel' (ts.reverse ++ acc) hfuel'
  exact ⟨fuel'', hfuel'', by rw [hscan, hscan', List.reverse_append, List.append_assoc]⟩

/-- One token takes one step. -/
theorem IsToken.scans {written rest : List UInt8} {t : Token} (h : IsToken written t rest) :
    Scans written [t] rest := by
  obtain ⟨b, more, rfl, hspace, hone⟩ := h
  intro fuel acc hfuel
  cases fuel with
  | zero => cases hfuel
  | succ fuel =>
    refine ⟨fuel, ?_, ?_⟩
    · simp only [List.cons_append, List.length_cons, List.length_append] at hfuel
      omega
    · rw [List.cons_append, scanAll, hspace]
      simp [hone]

/-- A bracket, a comma or a colon is a token by itself, whatever stands behind it. -/
theorem Scans.mark {b : UInt8} {t : Token} {written rest : List UInt8} {ts : List Token}
    (hspace : isSpace b = false) (hone : ∀ rest, scanOne b rest = (t, rest))
    (h : Scans written ts rest) : Scans (b :: written) (t :: ts) rest := by
  have hmark : Scans [b] [t] (written ++ rest) :=
    IsToken.scans ⟨b, [], rfl, hspace, hone (written ++ rest)⟩
  exact hmark.append h

theorem ends_cons {b : UInt8} (h : isDigit b = false ∧ b ≠ 0x2E ∧ b ≠ 0x65 ∧ b ≠ 0x45)
    (rest : List UInt8) : Ends (b :: rest) := by
  rintro b' hb'
  cases hb'
  exact h

/-- A value that is scanned as its tokens, whatever ends it. Only a number needs an end; a list, an
object or a text has one of its own. -/
def ScansValue (v : Json) : Prop :=
  ∀ rest, Ends rest → Scans (Utf8.encode v.render) (tokens v) rest

theorem encode_mark {c : Char} {b : UInt8} (h : String.utf8EncodeChar c = [b]) (cs : List Char) :
    Utf8.encode (c :: cs) = b :: Utf8.encode cs := by
  rw [Utf8.encode_cons, h, List.singleton_append]

/-- After an item stands a comma or the end of the list, and either ends a number. -/
theorem scans_items {items : List Json} (h : ∀ v ∈ items, ScansValue v) {rest : List UInt8}
    (hrest : Ends rest) : Scans (Utf8.encode (renderItems items)) (itemTokens items) rest := by
  induction items with
  | nil => exact .nil rest
  | cons v items ih =>
    have hv := h v List.mem_cons_self
    cases items with
    | nil => exact hv rest hrest
    | cons w items =>
      have hitems := ih fun u hu => h u (List.mem_cons_of_mem _ hu)
      show Scans (Utf8.encode (v.render ++ ',' :: renderItems (w :: items)))
        (tokens v ++ .comma :: itemTokens (w :: items)) rest
      rw [Utf8.encode_append, encode_mark (b := 0x2C) rfl]
      exact .append (hv _ (ends_cons (by decide) _)) (.mark (by decide) (fun _ => rfl) hitems)

theorem scans_member (k : String) {v : Json} (hv : ScansValue v) {rest : List UInt8}
    (hrest : Ends rest) :
    Scans (Utf8.encode (renderText k ++ ':' :: v.render)) (.atom (.text k) :: .colon :: tokens v)
      rest := by
  have hname : ∀ more, Scans (Utf8.encode (renderText k)) [.atom (.text k)] more :=
    fun more => (isToken_text k more).scans
  rw [Utf8.encode_append, encode_mark (b := 0x3A) rfl]
  exact (hname _).append (.mark (by decide) (fun _ => rfl) (hv rest hrest))

theorem scans_members {members : List (String × Json)} (h : ∀ m ∈ members, ScansValue m.2)
    {rest : List UInt8} (hrest : Ends rest) :
    Scans (Utf8.encode (renderMembers members)) (memberTokens members) rest := by
  induction members with
  | nil => exact .nil rest
  | cons m members ih =>
    obtain ⟨k, v⟩ := m
    have hv : ScansValue v := h (k, v) List.mem_cons_self
    cases members with
    | nil => exact scans_member k hv hrest
    | cons m members =>
      have hmembers := ih fun u hu => h u (List.mem_cons_of_mem _ hu)
      show Scans
        (Utf8.encode ((renderText k ++ ':' :: v.render) ++ ',' :: renderMembers (m :: members)))
        ((.atom (.text k) :: .colon :: tokens v) ++ .comma :: memberTokens (m :: members)) rest
      rw [Utf8.encode_append, encode_mark (b := 0x2C) rfl]
      exact .append (scans_member k hv (ends_cons (by decide) _))
        (.mark (by decide) (fun _ => rfl) hmembers)

/-- **The compact text of a value is scanned as the tokens of the value.** The induction is on the
value; of a number it needs that what follows ends it. -/
theorem scans_render {v : Json} (h : v.Writable) : ScansValue v := by
  induction h with
  | atom h => exact fun rest hrest => (isToken_renderAtom h hrest).scans
  | @list items _ ih =>
    intro rest hrest
    show Scans (Utf8.encode ('[' :: (renderItems items ++ [']'])))
      (.openList :: (itemTokens items ++ [.closeList])) rest
    rw [encode_mark (b := 0x5B) rfl, Utf8.encode_append]
    exact .mark (by decide) (fun _ => rfl) (.append (scans_items ih (ends_cons (by decide) _))
      (.mark (by decide) (fun _ => rfl) (.nil rest)))
  | @object members _ ih =>
    intro rest hrest
    show Scans (Utf8.encode ('\x7b' :: (renderMembers members ++ ['\x7d'])))
      (.openObject :: (memberTokens members ++ [.closeObject])) rest
    rw [encode_mark (b := 0x7B) rfl, Utf8.encode_append]
    exact .mark (by decide) (fun _ => rfl) (.append (scans_members ih (ends_cons (by decide) _))
      (.mark (by decide) (fun _ => rfl) (.nil rest)))

theorem ofOctets_render {v : Json} (h : v.Writable) :
    ofOctets (Utf8.encode v.render) = tokens v := by
  obtain ⟨fuel, -, hscan⟩ := scans_render h [] (by intro b hb; cases hb)
    (Utf8.encode v.render).length [] (by rw [List.append_nil])
  rw [List.append_nil, List.append_nil] at hscan
  rw [ofOctets, hscan]
  cases fuel <;> simp [scanAll]

end Token

/-! ## The tree builder -/

namespace Tree

/-- Where a value may stand, it is taken as if nothing else could. A list or an object may be closed
where its first part would stand, and no value begins with that. -/
theorem foldl_tokens_from (v : Json) {need : Need} {stack stack' : List Frame}
    (h : ∀ t, t ≠ .closeList → step (.within need stack) t = begin stack' t) :
    (tokens v).foldl step (.within need stack) = (tokens v).foldl step (.within .value stack') := by
  have hfirst : ∃ t ts, tokens v = t :: ts ∧ t ≠ .closeList := by
    cases v with
    | atom a => exact ⟨_, _, rfl, by simp⟩
    | list items => exact ⟨_, _, rfl, by simp⟩
    | object members => exact ⟨_, _, rfl, by simp⟩
  obtain ⟨t, ts, htokens, hne⟩ := hfirst
  rw [htokens, List.foldl_cons, List.foldl_cons, h t hne]
  rfl

/-- A value whose tokens are put in place as its document, wherever it stands. -/
def Places (v : Json) : Prop :=
  ∀ stack, (tokens v).foldl step (.within .value stack) = place (Node.ofJson v) stack

/-- Items that follow others, up to the end of their list. The induction is on the items; those that
are done are kept in reverse, the last one first. -/
theorem foldl_itemTokens {items : List Json} (h : ∀ v ∈ items, Places v) (hne : items ≠ [])
    (done : List Node) (need : Need) (stack : List Frame)
    (hneed : ∀ t, t ≠ .closeList → step (.within need stack) t = begin (.list done :: stack) t) :
    (itemTokens items).foldl step (.within need stack)
      = .within (.moreItems ((Node.ofItems items).reverse ++ done)) stack := by
  induction items generalizing done need with
  | nil => exact absurd rfl hne
  | cons v items ih =>
    have hv : (tokens v).foldl step (.within need stack)
        = .within (.moreItems (Node.ofJson v :: done)) stack :=
      (foldl_tokens_from v hneed).trans (h v List.mem_cons_self _)
    cases items with
    | nil => exact hv
    | cons w items =>
      -- After the comma the items that are done are those before it and this one.
      have hitems := ih (fun u hu => h u (List.mem_cons_of_mem _ hu)) (by simp)
        (Node.ofJson v :: done) (.nextItem (Node.ofJson v :: done))
        (fun t ht => by cases t <;> first | rfl | exact absurd rfl ht)
      show (tokens v ++ .comma :: itemTokens (w :: items)).foldl step _ = _
      rw [List.foldl_append, hv, List.foldl_cons]
      refine hitems.trans ?_
      simp [Node.ofItems_eq_map]

/-- Members that follow others, up to the end of their object. Each takes a name, a colon and a
value, and the name waits for the value. -/
theorem foldl_memberTokens {members : List (String × Json)} (h : ∀ m ∈ members, Places m.2)
    (hne : members ≠ []) (done : List (Node × Node)) (need : Need) (stack : List Frame)
    (hneed : ∀ k, step (.within need stack) (.atom (.text k))
      = .within .colon (.object done (.atom (.text k)) :: stack)) :
    (memberTokens members).foldl step (.within need stack)
      = .within (.moreMembers ((Node.ofMembers members).reverse ++ done)) stack := by
  induction members generalizing done need with
  | nil => exact absurd rfl hne
  | cons m members ih =>
    obtain ⟨k, v⟩ := m
    have hv : (Token.atom (.text k) :: .colon :: tokens v).foldl step (.within need stack)
        = .within (.moreMembers ((.atom (.text k), Node.ofJson v) :: done)) stack := by
      rw [List.foldl_cons, hneed]
      exact h (k, v) List.mem_cons_self _
    cases members with
    | nil => exact hv
    | cons m members =>
      have hmembers := ih (fun u hu => h u (List.mem_cons_of_mem _ hu)) (by simp)
        ((.atom (.text k), Node.ofJson v) :: done)
        (.nextKey ((.atom (.text k), Node.ofJson v) :: done)) (fun _ => rfl)
      show ((.atom (.text k) :: .colon :: tokens v) ++ .comma :: memberTokens (m :: members)).foldl
        step _ = _
      rw [List.foldl_append, hv, List.foldl_cons]
      refine hmembers.trans ?_
      simp [Node.ofMembers_eq_map]

/-- **The tokens of a value are put in place as its document**, wherever a value may stand. The two
lemmas before it do the work for what is in a list and in an object. -/
theorem place_tokens {v : Json} (h : v.Writable) : Places v := by
  induction h with
  | atom h => exact fun stack => rfl
  | @list items _ ih =>
    intro stack
    show (.openList :: (itemTokens items ++ [.closeList])).foldl step _ = _
    rw [List.foldl_cons, List.foldl_append]
    -- Only the list without items is closed where its first item may stand.
    by_cases hnone : items = []
    · subst hnone
      rfl
    · have hitems := foldl_itemTokens ih hnone [] .firstItem stack
        (fun t ht => by cases t <;> first | rfl | exact absurd rfl ht)
      refine (congrArg (List.foldl step · _) hitems).trans ?_
      rw [Node.ofJson, List.append_nil]
      show place (.list (Node.ofItems items).reverse.reverse .closed) stack = _
      rw [List.reverse_reverse]
  | @object members _ ih =>
    intro stack
    show (.openObject :: (memberTokens members ++ [.closeObject])).foldl step _ = _
    rw [List.foldl_cons, List.foldl_append]
    by_cases hnone : members = []
    · subst hnone
      rfl
    · have hmembers := foldl_memberTokens ih hnone [] .firstKey stack (fun _ => rfl)
      refine (congrArg (List.foldl step · _) hmembers).trans ?_
      rw [Node.ofJson, List.append_nil]
      show place (.object (Node.ofMembers members).reverse.reverse .closed) stack = _
      rw [List.reverse_reverse]

end Tree

/-! ## The whole text -/

/-- **The compact text of a value is the document of the value, and nothing else.** No flaw is found
in it, and nothing is left behind it. -/
theorem document_render {v : Json} (h : v.Writable) :
    document (Utf8.encode v.render) = (Node.ofJson v, none) := by
  rw [document, Token.ofOctets_render h, ofTokens, Tree.place_tokens h []]
  rfl

end ExchangeArchive.Json

namespace ExchangeArchive.Document.Codec

open ExchangeArchive.Text

/-- Reading JSON text that was written is reading the document of what was written. From here on
records are read from values and not from octets. -/
theorem ofJsonText_toJsonText {α : Type} (c : Codec α) {x : α} (h : (c.write x).Writable) :
    c.ofJsonText (Utf8.encode (c.toJsonText x).toList)
      = c.read .jsonText (Node.ofJson (c.write x)) := by
  rw [toJsonText, Json.toText, String.toList_ofList, ofJsonText, Json.document_render h]
  simp only [Node.raise]
  cases c.read .jsonText (Node.ofJson (c.write x)) <;> rfl

end ExchangeArchive.Document.Codec
