import Hostcall.Descriptor

/-!
# Directory listings

A guest is told the entries of a directory as records in a buffer: `.` and `..`, then
the host's entries in the host's order.  A cookie says at which entry to begin, and
each entry carries the cookie of the one after it.

* `Entity` is one entry as it is told, `Listing.entities` all of a directory;
* `Entity.encode` is the record of an entry, its fixed part and then its name;
* `Listing.pack` is the front of the records that fits a buffer.
-/

namespace Hostcall

/-- One entry of a directory as a guest is told of it. -/
structure Entity where
  /-- The cookie of the entry behind it. -/
  next : UInt64
  inode : UInt64
  name : String
  fileType : FileType
  deriving DecidableEq, Repr, Inhabited

/-- The record of an entry.  It fails when the length of the name does not fit. -/
def Entity.encode (e : Entity) : Outcome Bytes := do
  let length ← countOf e.name.utf8ByteSize
  return Dirent.toBytes ⟨e.next, e.inode, length, e.fileType⟩ ++ utf8 e.name

namespace Listing

/-- What is listed of an entry, or why it cannot be told. -/
abbrev Entry := Outcome Entity

/-- An entry of the host.  A name that is no text cannot be told. -/
def hostEntry (v : Volume) (entry : Name × Ino) (next : UInt64) : Entry :=
  match text? entry.1 with
  | none => .error (.because .illegalByteSequence "filename")
  | some name =>
    let a := v.attributes entry.2
    .ok ⟨next, a.inode, name, a.fileType⟩

/-- The entry of the directory itself under one of its two own names. -/
def dotEntry (v : Volume) (dir : Ino) (name : String) (next : UInt64) : Entry :=
  .ok ⟨next, (v.attributes dir).inode, name, .directory⟩

/-- What a directory lists, in order. -/
def listed (v : Volume) (dir : Ino) : List (UInt64 → Entry) :=
  dotEntry v dir "." :: dotEntry v dir ".." :: (v.entries dir).map (hostEntry v)

/-- The entries of a directory from a cookie on. -/
def entities (v : Volume) (dir : Ino) (cookie : Nat) : List Entry :=
  ((listed v dir).mapIdx fun i entry => entry (UInt64.ofNat (i + 1))).drop cookie

/-- The entries of a directory from a cookie on, if all of them can be told. -/
def collect (v : Volume) (dir : Ino) (cookie : Nat) : Outcome (List Entity) :=
  (entities v dir cookie).mapM id

/-- The front of the records of entries that fits a room.  An entry that cannot be told
is a fault only if the listing reaches it. -/
def pack : Nat → List Entry → Outcome Bytes
  | _, [] => .ok []
  | room, entry :: rest => do
    let record ← (← entry).encode
    if record.length ≤ room then
      return record ++ (← pack (room - record.length) rest)
    else return record.take room

end Listing

end Hostcall
