import ExchangeArchive.Archive.Record
import ExchangeArchive.Page.Marker
import ExchangeArchive.Time.Millis
/-
The pages that have started and not yet ended.

Starting a page under an id that is in use replaces the page. Taking out a page that ends
sets its loading time; a page that is not there cannot be taken out.
-/

set_option autoImplicit false

namespace ExchangeArchive.Page

open ExchangeArchive.Archive ExchangeArchive.Time

/-- The started pages, each with the time at which it started. -/
structure Registry where
  pages : List (String × Nat × Archive.Page) := []

namespace Registry

/-- The page that a marker starts. Its loading time is not known yet, and an empty comment is
none. -/
def pageOf (s : Start) : Archive.Page where
  startedDateTime := s.startedDateTime
  id := s.id
  title := s.title
  comment := if s.comment.isEmpty then none else some s.comment

/-- The registry without the page of an id. -/
def erase (r : Registry) (id : String) : Registry :=
  ⟨r.pages.filter fun p => p.1 != id⟩

/-- Registers the page of a marker. A page of the same id is replaced, and will never be sent. -/
def start (r : Registry) (s : Start) : Registry :=
  ⟨(s.id, s.started, pageOf s) :: (r.erase s.id).pages⟩

/-- The start and the page of an id. -/
def find? (r : Registry) (id : String) : Option (Nat × Archive.Page) := r.pages.lookup id

/-- The page of an id. -/
def get? (r : Registry) (id : String) : Option Archive.Page := (r.find? id).map Prod.snd

/-- How many pages are registered. -/
def size (r : Registry) : Nat := r.pages.length

/-- The page with its loading time, which ends now. -/
def loaded (started now : Nat) (p : Archive.Page) : Archive.Page :=
  { p with pageTimings := { p.pageTimings with onLoad := millis (now - started) } }

/-- Takes a page out: the registry without it, and the page as it is sent. -/
def take (r : Registry) (now : Nat) (id : String) : Registry × Option Archive.Page :=
  match r.find? id with
  | none => (r, none)
  | some (started, p) => (r.erase id, some (loaded started now p))

end Registry

end ExchangeArchive.Page
