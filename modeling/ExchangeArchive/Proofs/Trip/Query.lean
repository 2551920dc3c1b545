import ExchangeArchive.Proofs.Text.Urlencoded
import ExchangeArchive.Trip.Report
import Mathlib.Data.List.Forall2
/-
**Queries are recorded pair by pair.**

Each segment of a query that is not empty is one pair, with its name before its first `=`, and
nothing else is a pair (`pair_standsFor`). The pairs that a query was written of are all recorded,
since none is written as an empty segment, and each as it was.
-/

set_option autoImplicit false

namespace ExchangeArchive.Trip

open ExchangeArchive.Archive ExchangeArchive.Http ExchangeArchive.Text
open ExchangeArchive.Text.FormUrlencoded (Unescapes)

/-- What a segment of a query stands for: a name and a value with the first `=` between them, or a
name alone. Octets that are no UTF-8 become U+FFFD. -/
inductive StandsFor : List UInt8 → NamedValue → Prop where
  | pair {name value nameOctets valueOctets : List UInt8} (hequals : 0x3D ∉ name)
    (hname : Unescapes name nameOctets) (hvalue : Unescapes value valueOctets) :
    StandsFor (name ++ 0x3D :: value)
      { name := String.ofList (Utf8.decodeLossy nameOctets)
        value := String.ofList (Utf8.decodeLossy valueOctets) }
  | alone {name nameOctets : List UInt8} (hequals : 0x3D ∉ name)
    (hname : Unescapes name nameOctets) :
    StandsFor name { name := String.ofList (Utf8.decodeLossy nameOctets), value := "" }

/-- The record of a pair, without a comment, which no query can give. -/
def pairRecord (p : String × String) : NamedValue := { name := p.1, value := p.2 }

theorem pair_standsFor (segment : List UInt8) :
    StandsFor segment (pairRecord (FormUrlencoded.pair segment)) := by
  rw [FormUrlencoded.pair]
  by_cases hmem : 0x3D ∈ segment
  · obtain ⟨name, value, rfl, hequals⟩ := List.eq_append_cons_of_mem hmem
    rw [FormUrlencoded.splitPair_append hequals]
    exact .pair hequals (FormUrlencoded.unescapes_iff.mpr rfl)
      (FormUrlencoded.unescapes_iff.mpr rfl)
  · rw [FormUrlencoded.splitPair_of_not_mem hmem]
    dsimp only [pairRecord]
    rw [FormUrlencoded.text_nil]
    exact .alone hmem (FormUrlencoded.unescapes_iff.mpr rfl)

theorem queryRecords_eq (u : Uri) :
    queryRecords u
      = (FormUrlencoded.parse (Utf8.encode (u.query.getD "").toList)).map pairRecord := by
  rw [queryRecords]
  cases u.query with
  | none => rfl
  | some q => rfl

/-- **The parameters of a query are recorded in order, one for each segment that is not empty.**
They are the pairs that the query was written of, whatever characters these have in them. -/
theorem query_recorded (r : Report) (now : Nat) :
    let query := Utf8.encode (r.request.uri.query.getD "").toList
    (∀ pairs : List (String × String), query = FormUrlencoded.render pairs →
      (r.toEntry now).request.queryString
        = pairs.map fun (name, value) => { name := name, value := value }) ∧
    List.Forall₂ StandsFor ((query.splitOn 0x26).filter fun segment => !segment.isEmpty)
      (r.toEntry now).request.queryString := by
  intro query
  have hrecords : (r.toEntry now).request.queryString
      = (FormUrlencoded.parse query).map pairRecord := queryRecords_eq r.request.uri
  rw [hrecords]
  constructor
  · intro pairs hquery
    rw [hquery, FormUrlencoded.parse_render]
    rfl
  · rw [FormUrlencoded.parse, FormUrlencoded.segments_eq_splitOn, List.map_map]
    rw [List.forall₂_map_right_iff, List.forall₂_same]
    exact fun segment _ => pair_standsFor segment

/-- Names and values with every mark of the format, with a letter beyond ASCII, and empty ones. -/
theorem query_recorded_marks :
    let pairs := [("", ""), ("a&b=", "1+1 %41"), ("é", ""), ("", "é"), ("é", "")]
    let target := "http://h/?=&a%26b%3D=1%2B1+%2541&%C3%A9=&=%C3%A9&%C3%A9="
    ∃ u, Uri.read (Utf8.encode target.toList) = .ok u ∧
      let r : Report := ⟨.new { started := 0 }, none, ⟨"GET", u, .http11, .empty⟩,
        none, none, none, none⟩
      (r.toEntry 0).request.queryString
        = pairs.map fun (name, value) => { name := name, value := value } := by
  intro pairs target
  refine ⟨⟨some "http", some "h", "/", some "=&a%26b%3D=1%2B1+%2541&%C3%A9=&=%C3%A9&%C3%A9="⟩,
    by decide +kernel, ?_⟩
  intro r
  exact (query_recorded r 0).1 pairs (by decide +kernel)

-- Segments that no pair is written as: empty ones, a percent sign without digits, a second `=`, and
-- an octet that is no UTF-8.
example : FormUrlencoded.parse (Utf8.encode "&%zz=%&&a==+&%FF".toList)
    = [("%zz", "%"), ("a", "= "), ("\uFFFD", "")] := by decide +kernel

end ExchangeArchive.Trip
