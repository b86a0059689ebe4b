import Hostcall.World

/-!
# Calls on the guest's surroundings

Arguments, environment, clocks, random bytes and the end of the guest.
-/

namespace Hostcall

namespace World

/-! ## Arguments and environment -/

/-- The arguments, each followed by a NUL, in a buffer, and where each begins. -/
def argsGet (w : World) (buffer : Bytes) : Outcome (List UInt32) × Bytes :=
  w.context.args.writeTo buffer

/-- The number of arguments and the bytes they take. -/
def argsSizesGet (w : World) : Nat × Nat := (w.context.args.count, w.context.args.cumulativeSize)

/-- The environment, each variable followed by a NUL, in a buffer, and where each
begins. -/
def environGet (w : World) (buffer : Bytes) : Outcome (List UInt32) × Bytes :=
  w.context.env.writeTo buffer

/-- The number of variables and the bytes they take. -/
def environSizesGet (w : World) : Nat × Nat := (w.context.env.count, w.context.env.cumulativeSize)

/-! ## Clocks -/

/-- The nanoseconds between two ticks of a clock. -/
def clockResGet (w : World) (id : UInt32) : Outcome UInt64 := do
  let _ ← ClockId.ofRaw id
  wordOf w.host.clocks.resolution

/-- What a clock shows.  The precision is a hint, which changes nothing. -/
def clockTimeGet (w : World) (id : UInt32) (_precision : UInt64) : Outcome UInt64 := do
  let reading ← w.host.clocks.read (← ClockId.ofRaw id)
  reading.asNanos

/-! ## Random bytes and the end -/

/-- Fills a buffer with random bytes. -/
def randomGet (w : World) (buffer : Bytes) : Outcome Unit × Bytes × World :=
  let (outcome, filled, random) := fillBuffer w.context.random buffer
  (outcome, filled, { w with context := { w.context with random } })

/-- So many random bytes. -/
def fillRandom (w : World) (count : Nat) : Step Bytes :=
  let (outcome, random) := Hostcall.fillRandom w.context.random count
  (outcome, { w with context := { w.context with random } })

/-- The guest's request to end.  Its status is unsigned; the host keeps the bits. -/
def procExit (status : UInt32) : Exit := ⟨status.toInt32⟩

end World

end Hostcall
