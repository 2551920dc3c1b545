import ExchangeArchive.Receiver.Checkpoint
import ExchangeArchive.Receiver.Memory
/-
Receivers: where finished records go.
-/

set_option autoImplicit false

namespace ExchangeArchive

open ExchangeArchive.Archive ExchangeArchive.Receiver ExchangeArchive.Storage
  ExchangeArchive.Time

/-- A receiver of any kind. -/
inductive Receiver where
  | memory (m : Memory)
  | file (f : HarFile)
  | checkpoint (c : Checkpoint)

namespace Receiver

/-- Prepares to receive records. -/
def start (v : Version) (r : Receiver) (d : Disk) : Outcome Receiver :=
  match r with
  | .memory m => .ok (.memory (m.start v)) d
  | .file f => (f.start v d).map .file
  | .checkpoint k => (k.start v d).map .checkpoint

/-- Accepts an entry. -/
def entry (c : Clock) (e : Entry) (r : Receiver) (d : Disk) : Outcome Receiver :=
  match r with
  | .memory m => .ok (.memory (m.entry e)) d
  | .file f => (f.entry e d).map .file
  | .checkpoint k => (k.entry c e d).map .checkpoint

/-- Accepts a page; that it may be lost is not told. -/
def page (c : Clock) (p : Page) (r : Receiver) (d : Disk) : Outcome Receiver :=
  match r with
  | .memory m => .ok (.memory (m.page p)) d
  | .file f => .ok (.file (f.page p)) d
  | .checkpoint k => (k.page c p d).map .checkpoint

/-- Makes the records that were accepted durable. -/
def flush (c : Clock) (r : Receiver) (d : Disk) : Outcome Receiver :=
  match r with
  | .memory m => .ok (.memory m) d
  | .file f => (f.flush d).map .file
  | .checkpoint k => (k.flush c d).map .checkpoint

/-- Makes the records durable, and accepts no more. -/
def close (r : Receiver) (d : Disk) : Outcome Receiver :=
  match r with
  | .memory m => .ok (.memory m) d
  | .file f => (f.close d).map .file
  | .checkpoint k => (k.close d).map .checkpoint

end Receiver

end ExchangeArchive
