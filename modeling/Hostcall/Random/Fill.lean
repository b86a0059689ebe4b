import Hostcall.Fault
import Hostcall.Random.KeyStream

/-!
# Filling buffers with random bytes

A source of random bytes is asked for one slice at a time, and no slice is longer
than `maxFill`.  A buffer is cut into such slices in order, so every byte of it
comes from the source, and a source that fails ends the call with a trap.

* `RandomSource` is what a source offers;
* `fillBuffer` fills a buffer, `fillRandom` makes one;
* `KeyStream` is a source that never fails, `NumberedSource` one whose slices show
  which request filled them.
-/

namespace Hostcall

/-- What a source did to a slice: how the request ended, the slice afterwards and
the source afterwards. -/
structure Filled (σ : Type) where
  outcome : Except String Unit
  slice : Bytes
  source : σ

/-- A source of random bytes. -/
class RandomSource (σ : Type) where
  /-- Fills a slice, or fails with a message. -/
  tryFill : σ → Bytes → Filled σ

/-- The longest slice a source is asked to fill. -/
def maxFill : Nat := 65536

/-- The fault of a source that failed. -/
def sourceFailed (message : String) : Fault :=
  .trap ⟨["random source failed"], .text message⟩

/-- Fills a buffer slice by slice.  After a failure the slices before the failing
one are filled and those behind it are as they were. -/
def fillBuffer {σ : Type} [RandomSource σ] (source : σ) (buffer : Bytes) :
    Outcome Unit × Bytes × σ :=
  match buffer with
  | [] => (.ok (), [], source)
  | first :: later =>
    let buffer := first :: later
    let filled := RandomSource.tryFill source (buffer.take maxFill)
    match filled.outcome with
    | .error message =>
      (.error (sourceFailed message), filled.slice ++ buffer.drop maxFill, filled.source)
    | .ok () =>
      let (outcome, rest, last) := fillBuffer filled.source (buffer.drop maxFill)
      (outcome, filled.slice ++ rest, last)
termination_by buffer.length
decreasing_by
  simp only [List.length_drop, List.length_cons, maxFill]
  omega

/-- So many random bytes. -/
def fillRandom {σ : Type} [RandomSource σ] (source : σ) (count : Nat) : Outcome Bytes × σ :=
  match fillBuffer source (List.replicate count 0) with
  | (.ok (), buffer, last) => (.ok buffer, last)
  | (.error fault, _, last) => (.error fault, last)

instance : RandomSource KeyStream where
  tryFill stream slice :=
    let (bytes, rest) := stream.take slice.length
    ⟨.ok (), bytes, rest⟩

/-- A source whose k-th slice is filled with the byte k, and which may fail at one
request.  It keeps the lengths it was asked for. -/
structure NumberedSource where
  requests : List Nat
  failAt : Option Nat
  message : String
  deriving Repr

instance : RandomSource NumberedSource where
  tryFill source slice :=
    let next := { source with requests := source.requests ++ [slice.length] }
    let k := next.requests.length
    if source.failAt = some k then ⟨.error source.message, slice, next⟩
    else ⟨.ok (), List.replicate slice.length (UInt8.ofNat k), next⟩

end Hostcall
