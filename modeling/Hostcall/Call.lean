import Hostcall.Call.Descriptors
import Hostcall.Call.Paths
import Hostcall.Call.Surroundings

/-!
# Calls of snapshot preview 1

* `Call` is a guest's request with its arguments, `Answer` what it gets back;
* `World.call` carries a call out, `World.run` a list of them.

Buffers of the guest are arguments of a call, and the answer holds them as the call
left them.
-/

namespace Hostcall

/-- A request of a guest. -/
inductive Call where
  | argsGet (buffer : Bytes)
  | argsSizesGet
  | environGet (buffer : Bytes)
  | environSizesGet
  | clockResGet (id : UInt32)
  | clockTimeGet (id : UInt32) (precision : UInt64)
  | fdClose (fd : Nat)
  | fdDatasync (fd : Nat)
  | fdFdstatGet (fd : Nat)
  | fdFdstatSetFlags (fd : Nat) (flags : FdFlags)
  | fdFilestatGet (fd : Nat)
  | fdFilestatSetSize (fd : Nat) (size : UInt64)
  | fdFilestatSetTimes (fd : Nat) (request : TimeRequest)
  | fdPread (fd : Nat) (buffers : List Bytes) (offset : UInt64)
  | fdPrestatGet (fd : Nat)
  | fdPrestatDirName (fd : Nat) (buffer : Bytes)
  | fdPwrite (fd : Nat) (buffers : List Bytes) (offset : UInt64)
  | fdRead (fd : Nat) (buffers : List Bytes)
  | fdReaddir (fd : Nat) (buffer : Bytes) (cookie : UInt64)
  | fdRenumber (source target : Nat)
  | fdSeek (fd : Nat) (offset : Int64) (whence : Whence)
  | fdSync (fd : Nat)
  | fdTell (fd : Nat)
  | fdWrite (fd : Nat) (buffers : List Bytes)
  | pathCreateDirectory (dirfd : Nat) (path : String)
  | pathFilestatGet (dirfd : Nat) (lookup : LookupFlags) (path : String)
  | pathFilestatSetTimes (dirfd : Nat) (lookup : LookupFlags) (path : String)
      (request : TimeRequest)
  | pathOpen (dirfd : Nat) (lookup : LookupFlags) (path : String) (flags : OpenFlags)
      (rights inheriting : Rights) (fdFlags : FdFlags)
  | pathRemoveDirectory (dirfd : Nat) (path : String)
  | pathUnlinkFile (dirfd : Nat) (path : String)
  | procExit (status : UInt32)
  | randomGet (buffer : Bytes)
  deriving Repr

/-- What a guest gets back. -/
inductive Answer where
  | done
  /-- A count and the bytes it takes. -/
  | sizes (count total : Nat)
  /-- Where each string begins, and the buffer that holds them. -/
  | strings (offsets : List UInt32) (buffer : Bytes)
  | time (t : UInt64)
  | fdstat (s : Fdstat)
  | filestat (s : Filestat)
  | prestat (length : UInt32)
  | buffer (b : Bytes)
  /-- How much was written. -/
  | written (count : UInt32)
  /-- How much was read, and the buffers it was read into. -/
  | taken (count : UInt32) (buffers : List Bytes)
  /-- How much of a buffer a listing fills, and the buffer. -/
  | listed (count : UInt32) (buffer : Bytes)
  | position (p : UInt64)
  | descriptor (fd : Nat)
  | exit (e : Exit)
  deriving Repr

namespace World

/-- A call that changes nothing. -/
def asking {α : Type} (w : World) (answer : α → Answer) (outcome : Outcome α) : Step Answer :=
  (outcome.map answer, w)

/-- A call that may change the world. -/
def changing {α : Type} (answer : α → Answer) (step : Step α) : Step Answer :=
  (step.1.map answer, step.2)

/-- Carries a call out. -/
def call (w : World) : Call → Step Answer
  | .argsGet buffer =>
    let (outcome, buffer) := w.argsGet buffer
    w.asking (Answer.strings · buffer) outcome
  | .argsSizesGet => (.ok (.sizes w.argsSizesGet.1 w.argsSizesGet.2), w)
  | .environGet buffer =>
    let (outcome, buffer) := w.environGet buffer
    w.asking (Answer.strings · buffer) outcome
  | .environSizesGet => (.ok (.sizes w.environSizesGet.1 w.environSizesGet.2), w)
  | .clockResGet id => w.asking .time (w.clockResGet id)
  | .clockTimeGet id precision => w.asking .time (w.clockTimeGet id precision)
  | .fdClose fd => changing (fun _ => .done) (w.fdClose fd)
  | .fdDatasync fd => w.asking (fun _ => .done) (w.fdDatasync fd)
  | .fdFdstatGet fd => w.asking .fdstat (w.fdFdstatGet fd)
  | .fdFdstatSetFlags fd flags => changing (fun _ => .done) (w.fdFdstatSetFlags fd flags)
  | .fdFilestatGet fd => w.asking .filestat (w.fdFilestatGet fd)
  | .fdFilestatSetSize fd size => changing (fun _ => .done) (w.fdFilestatSetSize fd size)
  | .fdFilestatSetTimes fd request =>
    changing (fun _ => .done) (w.fdFilestatSetTimes fd request)
  | .fdPread fd buffers offset =>
    w.asking (fun (count, buffers) => .taken count buffers) (w.fdPread fd buffers offset)
  | .fdPrestatGet fd => w.asking .prestat (w.fdPrestatGet fd)
  | .fdPrestatDirName fd buffer =>
    let (outcome, buffer) := w.fdPrestatDirName fd buffer
    w.asking (fun _ => .buffer buffer) outcome
  | .fdPwrite fd buffers offset => changing .written (w.fdPwrite fd buffers offset)
  | .fdRead fd buffers =>
    changing (fun (count, buffers) => .taken count buffers) (w.fdRead fd buffers)
  | .fdReaddir fd buffer cookie =>
    w.asking (fun (count, buffer) => .listed count buffer) (w.fdReaddir fd buffer cookie)
  | .fdRenumber source target => changing (fun _ => .done) (w.fdRenumber source target)
  | .fdSeek fd offset whence => changing .position (w.fdSeek fd offset whence)
  | .fdSync fd => w.asking (fun _ => .done) (w.fdSync fd)
  | .fdTell fd => changing .position (w.fdTell fd)
  | .fdWrite fd buffers => changing .written (w.fdWrite fd buffers)
  | .pathCreateDirectory dirfd path =>
    changing (fun _ => .done) (w.pathCreateDirectory dirfd path)
  | .pathFilestatGet dirfd lookup path =>
    w.asking .filestat (w.pathFilestatGet dirfd lookup path)
  | .pathFilestatSetTimes dirfd lookup path request =>
    changing (fun _ => .done) (w.pathFilestatSetTimes dirfd lookup path request)
  | .pathOpen dirfd lookup path flags rights inheriting fdFlags =>
    changing .descriptor (w.pathOpen dirfd lookup path flags rights inheriting fdFlags)
  | .pathRemoveDirectory dirfd path =>
    changing (fun _ => .done) (w.pathRemoveDirectory dirfd path)
  | .pathUnlinkFile dirfd path => changing (fun _ => .done) (w.pathUnlinkFile dirfd path)
  | .procExit status => (.ok (.exit (procExit status)), w)
  | .randomGet buffer =>
    let (outcome, filled, w) := w.randomGet buffer
    (outcome.map fun _ => .buffer filled, w)

/-- Carries calls out one after another. -/
def run (w : World) : List Call → World
  | [] => w
  | c :: rest => (w.call c).2.run rest

end World

end Hostcall
