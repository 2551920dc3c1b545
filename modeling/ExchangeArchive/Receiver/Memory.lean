import ExchangeArchive.Archive.Record
/-
A receiver that keeps what it is given and never writes it down.
-/

set_option autoImplicit false

namespace ExchangeArchive.Receiver

open ExchangeArchive.Archive

/-- The records received, oldest first, and the version of the last start. -/
structure Memory where
  version : Option Version := none
  pages : List Page := []
  entries : List Entry := []

namespace Memory

/-- Prepares to receive records. -/
def start (v : Version) (m : Memory) : Memory := { m with version := some v }

/-- Accepts an entry. -/
def entry (e : Entry) (m : Memory) : Memory := { m with entries := m.entries ++ [e] }

/-- Accepts a page. -/
def page (p : Page) (m : Memory) : Memory := { m with pages := m.pages ++ [p] }

end Memory

end ExchangeArchive.Receiver
