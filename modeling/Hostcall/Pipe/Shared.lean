import Hostcall.Fault
import Hostcall.Pipe.Device

/-!
# Pipes

A pipe is a device under a lock that all its handles share.  A device that gives
way while the lock is held poisons it: from then on every transfer through any
handle is a trap and the device is left alone.

* `Cell` is a device under its lock, with the transfers `Cell.read`, `Cell.write`
  and `Cell.flush`;
* `Shared` is a cell with the handles and the other references that share it, and
  `Shared.reclaim` takes the device back from the last one;
* `Pipe` is one of either direction, with the transfers of a stream.
-/

namespace Hostcall

/-- A device under its lock. -/
structure Cell (δ : Type) where
  device : δ
  poisoned : Bool
  deriving Repr, Inhabited

namespace Cell

/-- A device under a fresh lock. -/
def new {δ : Type} (device : δ) : Cell δ := ⟨device, false⟩

/-- The device is left as the transfer left it, and the lock poisoned if the device
gave way. -/
def settle {δ α : Type} : Reply α × δ → Outcome α × Cell δ
  | (.done a, device) => (.ok a, ⟨device, false⟩)
  | (.failed e, device) => (.error (.ofHost e), ⟨device, false⟩)
  | (.crashed, device) => (.error .crash, ⟨device, true⟩)

/-- Reads into buffers of the given sizes. -/
def read (c : Cell Reader) (sizes : List Nat) : Outcome Bytes × Cell Reader :=
  if c.poisoned then (.error (.trapText "pipe reader poisoned"), c)
  else settle (c.device.read sizes)

/-- Writes buffers in order. -/
def write (c : Cell Writer) (buffers : List Bytes) : Outcome Nat × Cell Writer :=
  if c.poisoned then (.error (.trapText "pipe writer poisoned"), c)
  else settle (c.device.write buffers)

/-- Hands on what the device holds back. -/
def flush (c : Cell Writer) : Outcome Unit × Cell Writer :=
  if c.poisoned then (.error (.trapText "pipe writer poisoned"), c)
  else settle c.device.flush

end Cell

/-- A cell with everything that refers to its lock: the handles, which are all
alike, and references from outside. -/
structure Shared (δ : Type) where
  cell : Cell δ
  handles : Nat
  outside : Nat
  deriving Repr, Inhabited

namespace Shared

variable {δ : Type}

/-- A cell with one handle. -/
def new (device : δ) (outside : Nat) : Shared δ := ⟨.new device, 1, outside⟩

/-- How many references there are. -/
def references (s : Shared δ) : Nat := s.handles + s.outside

/-- One handle more. -/
def clone (s : Shared δ) : Shared δ := { s with handles := s.handles + 1 }

/-- One handle less. -/
def drop (s : Shared δ) : Shared δ := { s with handles := s.handles - 1 }

/-- Drops the references from outside. -/
def release (s : Shared δ) : Shared δ := { s with outside := 0 }

/-- Some holder of the lock gave way. -/
def poison (s : Shared δ) : Shared δ := { s with cell := { s.cell with poisoned := true } }

/-- Gives one handle for the device.  It succeeds only for the last reference; else
the handle stays. -/
def reclaim (s : Shared δ) : Option δ × Shared δ :=
  if s.handles = 1 ∧ s.outside = 0 then (some s.cell.device, s.drop) else (none, s)

/-- Reads through a handle. -/
def read (s : Shared Reader) (sizes : List Nat) : Outcome Bytes × Shared Reader :=
  let (outcome, cell) := s.cell.read sizes
  (outcome, { s with cell })

/-- Writes through a handle. -/
def write (s : Shared Writer) (buffers : List Bytes) : Outcome Nat × Shared Writer :=
  let (outcome, cell) := s.cell.write buffers
  (outcome, { s with cell })

/-- Flushes through a handle. -/
def flush (s : Shared Writer) : Outcome Unit × Shared Writer :=
  let (outcome, cell) := s.cell.flush
  (outcome, { s with cell })

end Shared

/-! ## Pipes of either direction -/

/-- The fault of a transfer that a stream does not have. -/
def refused : Fault := .ofErrno .badFileDescriptor

/-- A pipe that is read or one that is written. -/
inductive Pipe where
  | reading (s : Shared Reader)
  | writing (s : Shared Writer)
  deriving Repr, Inhabited

namespace Pipe

/-- Reads, unless the pipe is written. -/
def read : Pipe → List Nat → Outcome Bytes × Pipe
  | .reading s, sizes => let (outcome, s) := s.read sizes; (outcome, .reading s)
  | .writing s, _ => (.error refused, .writing s)

/-- Writes, unless the pipe is read. -/
def write : Pipe → List Bytes → Outcome Nat × Pipe
  | .reading s, _ => (.error refused, .reading s)
  | .writing s, buffers => let (outcome, s) := s.write buffers; (outcome, .writing s)

/-- Flushes; a pipe that is read has nothing to hand on. -/
def flush : Pipe → Outcome Unit × Pipe
  | .reading s => (.ok (), .reading s)
  | .writing s => let (outcome, s) := s.flush; (outcome, .writing s)

/-- How many handles there are. -/
def handles : Pipe → Nat
  | .reading s => s.handles
  | .writing s => s.handles

/-- One handle more. -/
def clone : Pipe → Pipe
  | .reading s => .reading s.clone
  | .writing s => .writing s.clone

/-- One handle less. -/
def drop : Pipe → Pipe
  | .reading s => .reading s.drop
  | .writing s => .writing s.drop

/-- Drops the references from outside. -/
def release : Pipe → Pipe
  | .reading s => .reading s.release
  | .writing s => .writing s.release

/-- Some holder of the lock gave way. -/
def poison : Pipe → Pipe
  | .reading s => .reading s.poison
  | .writing s => .writing s.poison

/-- Gives one handle for the device. -/
def reclaim : Pipe → Option (Reader ⊕ Writer) × Pipe
  | .reading s => let (device, s) := s.reclaim; (device.map .inl, .reading s)
  | .writing s => let (device, s) := s.reclaim; (device.map .inr, .writing s)

/-- The bytes of a pipe into memory. -/
def contents? : Pipe → Option Bytes
  | .reading _ => none
  | .writing s => s.cell.device.contents?

end Pipe

end Hostcall
