import ExchangeArchive.Json.Value
/-
JSON values laid over one another.

Where both values are objects the members of the upper one are laid over those of the
lower one; anywhere else the upper value replaces the lower. The members of an object are
kept in ascending order here, each name once.
-/

set_option autoImplicit false

namespace ExchangeArchive.Json

/-- The members with the value of a name set. -/
def putMember (name : String) (value : Json) : List (String × Json) → List (String × Json)
  | [] => [(name, value)]
  | (n, v) :: rest =>
    if name < n then (name, value) :: (n, v) :: rest
    else if name = n then (name, value) :: rest
    else (n, v) :: putMember name value rest

mutual

/-- The value with the members of its objects in ascending order; of members with one name
the last counts. -/
def sorted : Json → Json
  | .atom a => .atom a
  | .list items => .list (sortedItems items)
  | .object members => .object (sortedMembers [] members)

/-- The items with the members of their objects in order. -/
def sortedItems : List Json → List Json
  | [] => []
  | v :: rest => sorted v :: sortedItems rest

/-- The members in order, together with some that came before. -/
def sortedMembers (before : List (String × Json)) :
    List (String × Json) → List (String × Json)
  | [] => before
  | (k, v) :: rest => sortedMembers (putMember k (sorted v) before) rest

end

mutual

/-- The value with another laid over it. -/
def overlay (base : Json) : Json → Json
  | .object members =>
    match base with
    | .object before => .object (overlayMembers before members)
    | _ => .object members
  | upper => upper

/-- The members with others laid over them. -/
def overlayMembers (before : List (String × Json)) :
    List (String × Json) → List (String × Json)
  | [] => before
  | (k, v) :: rest =>
    let v := match before.lookup k with
      | some old => overlay old v
      | none => v
    overlayMembers (putMember k v before) rest

end

end ExchangeArchive.Json
