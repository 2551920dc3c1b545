import ExchangeArchive.Body.Observed
/-
Observed bodies with someone who waits for their completion.

The one who waits is told what was captured, at the operation at which the completion is
due; the outcome of that takes the place of the operation's own result, and is lost when
the body is dropped. What was told is kept, oldest first.
-/

set_option autoImplicit false

namespace ExchangeArchive.Body

/-- An observed body with the outcome of telling whoever waits for its completion. -/
structure Watch where
  body : Observed
  outcome : Except Error Unit := .ok ()
  /-- The octets that were captured at each completion. -/
  told : List (List UInt8) := []
  dropped : Bool := false

namespace Watch

/-- An operation on an observed body. -/
inductive Operation where
  | poll
  | close
  | drop
  | isEndStream
  | sizeHint
  deriving DecidableEq, Repr

/-- What an operation gives. -/
inductive Answer where
  | polled (result : Poll Error)
  | closed (result : Except Error Unit)
  | dropped
  | ended (isEnded : Bool)
  | hint (h : SizeHint)
  /-- The body has been dropped. -/
  | gone

/-- The capture; an empty one if there is none. -/
def capture (w : Watch) : Capture := w.body.capture.getD {}

/-- The body after an operation, and whoever waits told if that is due. -/
def tell (w : Watch) (body : Observed) (due : Bool) : Watch :=
  let w := { w with body }
  if due then { w with told := w.told ++ [w.capture.octets] } else w

/-- Does an operation. -/
def step (w : Watch) : Operation → Answer × Watch
  | .drop =>
    if w.dropped then (.dropped, w)
    else
      let (body, due) := w.body.complete
      (.dropped, { w.tell body due with dropped := true })
  | op =>
    if w.dropped then (.gone, w)
    else match op with
      | .poll =>
        let p := w.body.poll
        let result := match p.due, w.outcome with
          | true, .error e => .failed e
          | _, _ => p.result
        (.polled result, w.tell p.body p.due)
      | .close =>
        let (body, due) := w.body.complete
        (.closed (if due then w.outcome else .ok ()), w.tell body due)
      | .isEndStream => (.ended w.body.isEndStream, w)
      | .sizeHint => (.hint w.body.sizeHint, w)
      | .drop => (.dropped, w)

/-- Does operations one after the other. -/
def steps : Watch → List Operation → List Answer × Watch
  | w, [] => ([], w)
  | w, op :: rest =>
    let (answer, w) := w.step op
    let (more, w) := steps w rest
    (answer :: more, w)

/-- Polls a body so many times at most, up to its end or the first error. -/
def repeatPoll : (fuel : Nat) → Watch → List (Poll Error) × Watch
  | 0, w => ([], w)
  | fuel + 1, w =>
    match w.step .poll with
    | (.polled p, w) =>
      if p.isLast then ([p], w)
      else
        let (more, w) := repeatPoll fuel w
        (p :: more, w)
    | (_, w) => ([], w)

/-- Polls a body up to its end or the first error. -/
def drain (w : Watch) : List (Poll Error) × Watch := w.repeatPoll w.body.length

end Watch

end ExchangeArchive.Body
