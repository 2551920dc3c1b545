import ExchangeArchive.Trace.Event
/-
Observers of events.

An observer is what an event does to a state. Observers are chained: the first sees
each event first, then the second. The observer that does nothing is neutral, and
chaining is associative, so it does not matter how a chain is nested.
-/

set_option autoImplicit false

namespace ExchangeArchive.Trace

/-- What is done when an event is reported. -/
structure Observer (σ : Type) where
  see : Event → σ → σ

namespace Observer

variable {σ : Type}

/-- The observer that does nothing. -/
def idle : Observer σ := ⟨fun _ s => s⟩

/-- Reports each event to the first observer and then to the next. -/
def chain (first next : Observer σ) : Observer σ := ⟨fun e s => next.see e (first.see e s)⟩

/-- Reports events one after the other. -/
def seeAll (o : Observer σ) (events : List Event) (s : σ) : σ :=
  events.foldl (fun s e => o.see e s) s

/-- The observer that does nothing can be left out before another. -/
theorem idle_chain (o : Observer σ) : idle.chain o = o := rfl

/-- The observer that does nothing can be left out after another. -/
theorem chain_idle (o : Observer σ) : o.chain idle = o := rfl

/-- The nesting of a chain does not matter. -/
theorem chain_assoc (a b c : Observer σ) : (a.chain b).chain c = a.chain (b.chain c) := rfl

end Observer

/-- The observer that writes down under a name what it sees. -/
def recordingAs (name : String) : Observer (List (String × Event)) :=
  ⟨fun e seen => seen ++ [(name, e)]⟩

/-- The text that describes any observer. -/
def observerText : String := "ClientTrace"

end ExchangeArchive.Trace
