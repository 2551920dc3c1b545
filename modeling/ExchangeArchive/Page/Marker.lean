import ExchangeArchive.Time.Clock
/-
Markers: what a request says about its recording.

A marker can start a page, name the page that the request belongs to, end a page, or ask
for the request to be recorded. Starting and ending a page also make the request part of
it. The markers of one request are independent of one another, and of each kind the
last one counts.
-/

set_option autoImplicit false

namespace ExchangeArchive.Page

open ExchangeArchive.Time

/-- The start of a page. Its loading time counts from when the marker was made. -/
structure Start where
  id : String
  title : String
  comment : String
  started : Nat
  startedDateTime : Timestamp

/-- The start of a page, made now. -/
def Start.new (c : Clock) (id title comment : String) : Start :=
  ⟨id, title, comment, c.elapsed, c.timestamp⟩

/-- The markers of a request. -/
structure Markers where
  start : Option Start := none
  pageRef : Option String := none
  endPage : Option String := none
  isIncluded : Bool := false
  /-- Values of other kinds that come with the request without being sent, by the names of
  their kinds; they mark nothing. -/
  others : List (String × String) := []

namespace Markers

/-- Starts a page with the request. -/
def withStart (s : Start) (m : Markers) : Markers :=
  { m with start := some s, pageRef := some s.id }

/-- Makes the request part of a page. -/
def withPage (id : String) (m : Markers) : Markers := { m with pageRef := some id }

/-- Ends a page with the request. -/
def withEnd (id : String) (m : Markers) : Markers :=
  { m with pageRef := some id, endPage := some id }

/-- Asks for the request to be recorded. -/
def included (m : Markers) : Markers := { m with isIncluded := true }

end Markers

end ExchangeArchive.Page
