import Hostcall.Flags

/-!
# Times and clocks

A host time is a whole number of nanoseconds from the epoch, before it or after;
a guest timestamp is an unsigned 64-bit count of them.

* `timestamp` tells a host time to a guest;
* `TimeRequest` is the pair of updates a guest asks for, `TimeRequest.updates`
  reads its flags;
* `ClockId` names the clocks, and `ClockReading.asNanos` totals a reading.
-/

namespace Hostcall

/-- Nanoseconds from the epoch. -/
abbrev HostTime := Int

/-- Nanoseconds in a second. -/
def nanosPerSecond : Nat := 1000000000

/-- Tells a host time to a guest.  A missing time and one before the epoch read as
zero. -/
def timestamp : Option HostTime → Outcome UInt64
  | none => .ok 0
  | some t => if t < 0 then .ok 0 else wordOf t.toNat

/-- What an update does to one timestamp of a node. -/
inductive TimeUpdate where
  | unchanged
  /-- The host's own time when the update is applied. -/
  | now
  | absolute (t : HostTime)
  deriving DecidableEq, Repr, Inhabited

/-- The timestamp after an update at the time `present`. -/
def TimeUpdate.apply (update : TimeUpdate) (present old : HostTime) : HostTime :=
  match update with
  | .unchanged => old
  | .now => present
  | .absolute t => t

/-- An update of the access time and one of the modification time. -/
structure TimeUpdates where
  accessed : TimeUpdate
  modified : TimeUpdate
  deriving DecidableEq, Repr, Inhabited

/-- Two timestamps and the flags that say what to do with them. -/
structure TimeRequest where
  accessed : UInt64
  modified : UInt64
  flags : TimeFlags
  deriving Repr

namespace TimeRequest

/-- The update of one timestamp. -/
def update (set : Bool) (t : UInt64) (now : Bool) : Outcome TimeUpdate :=
  if set && now then .error (.because .invalidArgument "timestamp is both absolute and now")
  else if set then .ok (.absolute t.toNat)
  else if now then .ok .now
  else .ok .unchanged

/-- Both updates, or the fault of a timestamp that is set and now at once. -/
def updates (r : TimeRequest) : Outcome TimeUpdates :=
  let asks := r.flags.contains
  match update (asks TimeFlags.accessed) r.accessed (asks TimeFlags.accessedNow),
      update (asks TimeFlags.modified) r.modified (asks TimeFlags.modifiedNow) with
  | .error fault, _ => .error fault
  | .ok _, .error fault => .error fault
  | .ok accessed, .ok modified => .ok ⟨accessed, modified⟩

end TimeRequest

/-! ## Clocks -/

/-- The clocks of snapshot preview 1. -/
inductive ClockId where
  | realtime
  | monotonic
  | processCputime
  | threadCputime
  deriving DecidableEq, Repr, Inhabited

/-- The name of a clock. -/
def ClockId.name : ClockId → String
  | .realtime => "Realtime"
  | .monotonic => "Monotonic"
  | .processCputime => "ProcessCputime"
  | .threadCputime => "ThreadCputime"

/-- The clock with a given number. -/
def ClockId.ofRaw (id : UInt32) : Outcome ClockId :=
  match id.toNat with
  | 0 => .ok .realtime
  | 1 => .ok .monotonic
  | 2 => .ok .processCputime
  | 3 => .ok .threadCputime
  | n => .error (.because .invalidArgument ("unknown clock id " ++ toString n))

/-- One sample of a clock.  The nanoseconds may exceed a second. -/
structure ClockReading where
  id : ClockId
  seconds : Int64
  nanoseconds : UInt32
  deriving DecidableEq, Repr

namespace ClockReading

/-- A reading of so many nanoseconds. -/
def ofNanoseconds (id : ClockId) (n : Nat) : Outcome ClockReading :=
  let seconds := n / nanosPerSecond
  if seconds < Int64.size / 2 then
    .ok ⟨id, Int64.ofNat seconds, UInt32.ofNat (n % nanosPerSecond)⟩
  else .error .overflow

/-- The reading as a guest timestamp. -/
def asNanos (r : ClockReading) : Outcome UInt64 :=
  if r.seconds < 0 then .error .overflow
  else wordOf (r.seconds.toInt.toNat * nanosPerSecond + r.nanoseconds.toNat)

end ClockReading

/-- The host's clocks at one moment, each in nanoseconds from its own start. -/
structure Clocks where
  realtime : Nat
  monotonic : Nat
  processCputime : Nat
  threadCputime : Nat
  /-- The nanoseconds between two ticks of any clock. -/
  resolution : Nat
  deriving Repr, Inhabited

namespace Clocks

/-- What a clock shows. -/
def elapsed (c : Clocks) : ClockId → Nat
  | .realtime => c.realtime
  | .monotonic => c.monotonic
  | .processCputime => c.processCputime
  | .threadCputime => c.threadCputime

/-- Samples a clock. -/
def read (c : Clocks) (id : ClockId) : Outcome ClockReading :=
  ClockReading.ofNanoseconds id (c.elapsed id)

end Clocks

end Hostcall
