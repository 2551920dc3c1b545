import ExchangeArchive.Error
import ExchangeArchive.Storage.Disk
/-
The outcome of an operation of a receiver: whether it went well, and the receiver and
the disk after it. An operation that fails may have changed both.
-/

set_option autoImplicit false

namespace ExchangeArchive.Receiver

open ExchangeArchive.Storage

/-- What an operation of a receiver comes to. -/
structure Outcome (ρ : Type) where
  result : Except Error Unit
  receiver : ρ
  disk : Disk

namespace Outcome

variable {ρ τ : Type}

/-- An operation that went well and left the disk alone. -/
def ok (r : ρ) (d : Disk) : Outcome ρ := ⟨.ok (), r, d⟩

/-- An operation that failed and left the disk alone. -/
def fail (e : Error) (r : ρ) (d : Disk) : Outcome ρ := ⟨.error e, r, d⟩

/-- The outcome for a receiver that has the other one inside. -/
def map (f : ρ → τ) (o : Outcome ρ) : Outcome τ := ⟨o.result, f o.receiver, o.disk⟩

/-- The outcome with its error changed. -/
def mapError (f : Error → Error) (o : Outcome ρ) : Outcome ρ :=
  { o with result := o.result.mapError f }

end Outcome

end ExchangeArchive.Receiver
