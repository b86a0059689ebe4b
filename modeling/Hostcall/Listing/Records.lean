import Hostcall.Call.Descriptors

/-!
# Reading a listing back

What a guest makes of the buffers it gets: it takes the complete records out of each
and asks again behind the last of them, until a buffer is not filled.

* `Record` is a record as the guest reads it, `Record.parse` takes them out of bytes;
* `Walk.run` is the guest's loop, and `World.walkDirectory` that loop over a descriptor.
-/

namespace Hostcall

/-- A complete record. -/
structure Record where
  next : Nat
  inode : Nat
  kind : UInt8
  name : Bytes
  deriving DecidableEq, Repr, Inhabited

namespace Record

/-- The number that bytes are the little-endian form of. -/
def number (b : Bytes) : Nat := b.foldr (fun x n => x.toNat + 256 * n) 0

/-- The complete records at the front of some bytes, and what is left behind them. -/
def parse (b : Bytes) : List Record × Bytes :=
  let nameLength := number ((b.drop 16).take 4)
  if Dirent.size + nameLength ≤ b.length then
    let record : Record :=
      { next := number (b.take 8)
        inode := number ((b.drop 8).take 8)
        kind := b.getD 20 0
        name := (b.drop Dirent.size).take nameLength }
    let (records, tail) := parse (b.drop (Dirent.size + nameLength))
    (record :: records, tail)
  else ([], b)
termination_by b.length
decreasing_by
  have : 0 < Dirent.size := by decide
  simp only [List.length_drop]
  omega

end Record

/-- What a walk through a directory found. -/
structure Walk where
  records : List Record
  /-- Some buffer was filled without holding a complete record. -/
  stuck : Bool
  deriving DecidableEq, Repr, Inhabited

namespace Walk

/-- Asks for the listing from a cookie on, again and again behind the last complete
record, until a buffer of the given size is not filled.  So many times it asks at
most. -/
def run (read : Nat → Outcome Bytes) (size : Nat) : Nat → Nat → Outcome Walk
  | 0, _ => .ok ⟨[], false⟩
  | times + 1, cookie => do
    let used ← read cookie
    let records := (Record.parse used).1
    if used.length < size then return ⟨records, false⟩
    match records.getLast? with
    | none => return ⟨[], true⟩
    | some last =>
      let later ← run read size times last.next
      return ⟨records ++ later.records, later.stuck⟩

end Walk

/-- Walks through the directory at an id with buffers of a given size.  Every buffer
that is filled and holds a record moves the cookie on, so there are no more requests
than entries and one behind them. -/
def World.walkDirectory (w : World) (fd size : Nat) : Outcome Walk := do
  let dir ← w.table.getDirectory fd
  let buffer := List.replicate size 0
  let read (cookie : Nat) : Outcome Bytes := do
    let (count, filled) ← w.fdReaddir fd buffer (UInt64.ofNat cookie)
    return filled.take count.toNat
  Walk.run read size ((w.volume.entries dir.ino).length + 3) 0

end Hostcall
