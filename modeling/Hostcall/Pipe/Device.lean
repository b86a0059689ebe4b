import Hostcall.Bytes
import Hostcall.HostError

/-!
# Devices behind pipes

A pipe delegates its transfers to a device, which the embedder chooses.  A device
answers a transfer, fails it, or gives way and unwinds the call.

* `Reader` is a device that is read: bytes with a position, a script, or nothing;
* `Writer` is a device that is written: growing memory, a fixed array, a script, or
  a sink;
* `Reader.read`, `Writer.write` and `Writer.flush` give the answer and the device
  afterwards, and `Writer.cut` says how much an array still takes.
-/

namespace Hostcall

/-- How a device ends one transfer. -/
inductive Reply (α : Type) where
  | done (a : α)
  | failed (e : HostError)
  | crashed
  deriving Repr

/-- The answers a scripted device gives, in order. -/
abbrev Script (α : Type) := List (Reply α)

/-- The first size that is not zero, or zero. -/
def firstRoom : List Nat → Nat
  | [] => 0
  | 0 :: rest => firstRoom rest
  | (n + 1) :: _ => n + 1

/-- The first buffer that is not empty, or an empty one. -/
def firstNonempty : List Bytes → Bytes
  | [] => []
  | [] :: rest => firstNonempty rest
  | b :: _ => b

/-! ## Reading -/

/-- A device that is read. -/
inductive Reader where
  /-- Bytes, of which those before the position have been read. -/
  | cursor (data : Bytes) (position : Nat)
  /-- Offers the bytes of the next item to the first buffer that has room; what
  does not fit is lost.  After its script it is at its end. -/
  | scripted (reads : Script Bytes)
  /-- Always at its end. -/
  | empty
  deriving Repr, Inhabited

namespace Reader

/-- Reads into buffers of the given sizes.  The bytes fill them in order. -/
def read : Reader → List Nat → Reply Bytes × Reader
  | .cursor data position, sizes =>
    let taken := (data.drop position).take (totalSize sizes)
    (.done taken, .cursor data (position + taken.length))
  | .scripted [], _ => (.done [], .scripted [])
  | .scripted (.done offered :: rest), sizes =>
    (.done (offered.take (firstRoom sizes)), .scripted rest)
  | .scripted (.failed e :: rest), _ => (.failed e, .scripted rest)
  | .scripted (.crashed :: rest), _ => (.crashed, .scripted rest)
  | .empty, _ => (.done [], .empty)

end Reader

/-! ## Writing -/

/-- A device that is written. -/
inductive Writer where
  /-- Everything written so far. -/
  | memory (data : Bytes)
  /-- An array of a fixed size, which held zeros at first: the pieces written to it in
  order, and how many bytes they are. -/
  | fixed (pieces : List Bytes) (position size : Nat)
  /-- Accepts from the first buffer that is not empty as many bytes as the next item
  says.  After its scripts it accepts that buffer whole, and flushes. -/
  | scripted (writes : Script Nat) (flushes : Script Unit)
  /-- Accepts everything and keeps nothing. -/
  | sink
  deriving Repr, Inhabited

namespace Writer

/-- An array of zeros of a given size, nothing written. -/
def ofSize (size : Nat) : Writer := .fixed [] 0 size

/-- The bytes of an array that pieces were written to. -/
def arrayBytes (pieces : List Bytes) (position size : Nat) : Bytes :=
  gather pieces ++ List.replicate (size - position) 0

/-- As much of some buffers as there is space for, and how many bytes it is. -/
def cut : Nat → List Bytes → Nat × List Bytes
  | _, [] => (0, [])
  | space, b :: rest =>
    let length := b.length
    if length ≤ space then
      let (count, pieces) := cut (space - length) rest
      (length + count, b :: pieces)
    else (space, [b.take space])

/-- Writes buffers in order.  The count tells how many bytes were accepted. -/
def write : Writer → List Bytes → Reply Nat × Writer
  | .memory data, buffers =>
    let written := gather buffers
    (.done written.length, .memory (data ++ written))
  | .fixed pieces position size, buffers =>
    let (count, written) := cut (size - position) buffers
    (.done count, .fixed (pieces ++ written) (position + count) size)
  | .scripted [] flushes, buffers => (.done (firstNonempty buffers).length, .scripted [] flushes)
  | .scripted (.done most :: rest) flushes, buffers =>
    (.done (min most (firstNonempty buffers).length), .scripted rest flushes)
  | .scripted (.failed e :: rest) flushes, _ => (.failed e, .scripted rest flushes)
  | .scripted (.crashed :: rest) flushes, _ => (.crashed, .scripted rest flushes)
  | .sink, buffers => (.done (room buffers), .sink)

/-- Hands on what the device holds back. -/
def flush : Writer → Reply Unit × Writer
  | .scripted writes [] => (.done (), .scripted writes [])
  | .scripted writes (item :: rest) => (item, .scripted writes rest)
  | device => (.done (), device)

/-- The bytes a device in memory holds. -/
def contents? : Writer → Option Bytes
  | .memory data => some data
  | _ => none

end Writer

end Hostcall
