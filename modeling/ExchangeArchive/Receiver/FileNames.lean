import ExchangeArchive.Error
import ExchangeArchive.Storage.Path
import ExchangeArchive.Time.Clock
/-
The names of a sequence of files.

Names are made of the time of day and a count that goes up with each name, so no name
comes twice whatever the clock does; or they are listed one by one, a listed name being
possibly an error, until the list is used up.
-/

set_option autoImplicit false

namespace ExchangeArchive.Receiver

open ExchangeArchive.Storage ExchangeArchive.Time

/-- Where the names of files come from. -/
inductive FileNames where
  /-- A directory, how names begin, and how many names there have been. The count has no bound;
  a counter of 64 bits would come to its end after `2 ^ 64` names. -/
  | timestamps (directory beginning : String) (count : Nat)
  /-- The names that are left. -/
  | listed (names : List (Except String String))

namespace FileNames

/-- The name with a time and a count. -/
def timestampName (beginning : String) (t : Timestamp) (count : Nat) : String :=
  beginning ++ String.ofList t.fileText ++ "-" ++ toString count ++ ".har"

/-- The path of the next file. The count goes up before the name is made, so the first name has a
one; a listed name is used up also if it is an error. -/
def next (c : Clock) : FileNames → Except Error String × FileNames
  | .timestamps directory beginning count =>
    (.ok (Path.join directory (timestampName beginning c.timestamp (count + 1))),
      .timestamps directory beginning (count + 1))
  | .listed [] => (.error (.fileName "out of names"), .listed [])
  | .listed (.ok path :: rest) => (.ok path, .listed rest)
  | .listed (.error message :: rest) => (.error (.fileName message), .listed rest)

end FileNames

end ExchangeArchive.Receiver
