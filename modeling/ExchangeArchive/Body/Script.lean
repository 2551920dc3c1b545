import ExchangeArchive.Http.Headers
/-
Message bodies as scripts.

A body is what it does when it is polled, poll after poll: data, trailers, an error, an
end, or nothing yet; time may pass before. When the script is over the body has ended
and stays so. An error or an end in the script does not stop it, so a script can go on
where a reader should not.
-/

set_option autoImplicit false

namespace ExchangeArchive.Body

open ExchangeArchive.Http

/-- What a poll of a body gives; `ε` is what goes wrong. -/
inductive Poll (ε : Type) where
  | pending
  | ended
  | data (octets : List UInt8)
  | trailers (fields : Headers)
  | failed (error : ε)

namespace Poll

variable {ε : Type}

/-- Whether a reader who drains a body stops here. -/
def isLast : Poll ε → Bool
  | .ended => true
  | .failed _ => true
  | _ => false

/-- The data of a poll, none unless it gives data. -/
def octets : Poll ε → List UInt8
  | .data octets => octets
  | _ => []

/-- The poll with its error changed. -/
def mapError {δ : Type} (f : ε → δ) : Poll ε → Poll δ
  | .pending => .pending
  | .ended => .ended
  | .data octets => .data octets
  | .trailers fields => .trailers fields
  | .failed error => .failed (f error)

end Poll

/-- One line of a script: a poll's answer, or time that passes before the next one. -/
inductive Cue where
  | answer (poll : Poll String)
  | wait (nanos : Nat)

/-- The least size of a body, and the greatest if there is a bound. -/
structure SizeHint where
  lower : Nat
  upper : Option Nat
  deriving DecidableEq, Repr

/-- A body that follows a script. Its size hint may be fixed, and it may hide that the
script is over. -/
structure Script where
  cues : List Cue
  hint : Option SizeHint := none
  knowsEnd : Bool := true

namespace Script

/-- The answer of a script's cues, after how many nanoseconds, and the cues left. -/
def pollCues : (waited : Nat) → List Cue → Nat × Poll String × List Cue
  | waited, [] => (waited, .ended, [])
  | waited, .wait nanos :: rest => pollCues (waited + nanos) rest
  | waited, .answer p :: rest => (waited, p, rest)

/-- Polls a body: how many nanoseconds pass, what it gives, and the body after that. The script goes
on behind an error or an end, where a reader may still poll. -/
def poll (s : Script) : Nat × Poll String × Script :=
  let (waited, p, cues) := pollCues 0 s.cues
  (waited, p, { s with cues := cues })

/-- Whether a body says that it has ended. -/
def isEndStream (s : Script) : Bool := s.knowsEnd && s.cues.isEmpty

/-- The size of the data that a cue gives. -/
def Cue.size : Cue → Nat
  | .answer p => p.octets.length
  | .wait _ => 0

/-- The size hint: the fixed one, its bounds in order, or else exactly what is left. -/
def sizeHint (s : Script) : SizeHint :=
  match s.hint with
  | some ⟨lower, upper⟩ => ⟨lower, upper.map (max lower)⟩
  | none =>
    let size := s.cues.foldl (fun n c => n + Cue.size c) 0
    ⟨size, some size⟩

end Script

end ExchangeArchive.Body
