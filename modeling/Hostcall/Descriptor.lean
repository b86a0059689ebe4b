import Hostcall.Host.Entries
import Hostcall.Path
import Hostcall.Stdio
import Hostcall.Table

/-!
# Descriptors

What a guest holds under an id: an open file, an open directory or a standard stream.

* `FileEntry` is a handle under the access the guest was given, which may be less than
  the handle has, and its transfers check that access first;
* `Directory` is an open directory and its place beneath a preopen;
* `Preopen` is a root the embedder granted; preopens outlive their descriptors;
* `getFile` and `getDirectory` look up an id and refuse the other kinds.
-/

namespace Hostcall

/-- What the host answers, told as a fault where it failed. -/
def fromHost {α : Type} : Except HostError α → Outcome α
  | .ok a => .ok a
  | .error e => .error (.ofHost e)

/-! ## Files -/

/-- An open file in a table. -/
structure FileEntry where
  handle : Handle
  access : Access
  deriving DecidableEq, Repr

namespace FileEntry

/-- Refuses what the guest was not given. -/
def require (e : FileEntry) (mode : Access) : Outcome Unit :=
  if e.access.contains mode then .ok ()
  else .error (.because .badFileDescriptor ("descriptor not opened for " ++ mode.debug))

/-- The file with another handle. -/
def withHandle (e : FileEntry) (handle : Handle) : FileEntry := { e with handle }

/-- Reads from the cursor on. -/
def read (e : FileEntry) (v : Volume) (ends : Ends) (sizes : List Nat) :
    Outcome (Bytes × FileEntry × Volume) := do
  e.require Access.read
  let (taken, handle, v) ← fromHost (e.handle.read v ends sizes)
  return (taken, e.withHandle handle, v)

/-- Reads from an offset on. -/
def readAt (e : FileEntry) (v : Volume) (sizes : List Nat) (offset : UInt64) : Outcome Bytes := do
  e.require Access.read
  fromHost (e.handle.readAt v sizes offset.toNat)

/-- Writes at the cursor. -/
def write (e : FileEntry) (v : Volume) (ends : Ends) (buffers : List Bytes) :
    Outcome (Nat × FileEntry × Volume) := do
  e.require Access.write
  let (count, handle, v) ← fromHost (e.handle.write v ends buffers)
  return (count, e.withHandle handle, v)

/-- Writes at an offset. -/
def writeAt (e : FileEntry) (v : Volume) (buffers : List Bytes) (offset : UInt64) :
    Outcome (Nat × Volume) := do
  e.require Access.write
  fromHost (e.handle.writeAt v buffers offset.toNat)

/-- Cuts the file to a size or extends it with zeros. -/
def setSize (e : FileEntry) (v : Volume) (size : UInt64) : Outcome Volume := do
  e.require Access.write
  fromHost (e.handle.setSize v size.toNat)

/-- Moves the cursor. -/
def seek (e : FileEntry) (v : Volume) (whence : Whence) (offset : Int64) :
    Outcome (Nat × FileEntry) := do
  let (position, handle) ← fromHost (e.handle.seek v whence offset.toInt)
  return (position, e.withHandle handle)

/-- Puts flags in force.  Synchronised I/O cannot be had. -/
def setFlags (e : FileEntry) (flags : FdFlags) : Outcome FileEntry :=
  if flags.intersects FdFlags.syncFamily then
    .error (.because .invalidArgument "cannot set DSYNC, SYNC, or RSYNC flag")
  else .ok (e.withHandle (e.handle.setFlags flags))

end FileEntry

/-! ## Directories -/

/-- An open directory in a table. -/
structure Directory where
  /-- The number of the preopen it lies beneath. -/
  preopen : Nat
  /-- The names from the root of that preopen down to it. -/
  relative : List String
  /-- The name the guest knows it by, for roots only. -/
  guestName : Option Bytes
  ino : Ino
  deriving DecidableEq, Repr

/-- The descriptor of a preopen's root. -/
def Directory.root (preopen : Nat) (guest : Bytes) (ino : Ino) : Directory :=
  ⟨preopen, [], some guest, ino⟩

/-- The descriptor of a directory opened beneath a preopen. -/
def Directory.nested (preopen : Nat) (relative : List String) (ino : Ino) : Directory :=
  ⟨preopen, relative, none, ino⟩

/-- A host directory granted to the guest. -/
structure Preopen where
  /-- The id it was first installed at. -/
  fd : Nat
  /-- The name the guest sees. -/
  guest : Bytes
  /-- Where it is on the host. -/
  host : String
  root : Ino
  deriving DecidableEq, Repr

/-! ## Descriptors -/

/-- An open resource. -/
inductive Descriptor where
  | file (e : FileEntry)
  | directory (d : Directory)
  | stdio (e : StdioEntry)
  deriving DecidableEq, Repr

namespace Descriptor

/-- The word for a kind of resource. -/
def kind : Descriptor → String
  | file _ => "file"
  | directory _ => "directory"
  | stdio _ => "stdio"

/-- A descriptor as text. -/
def debug (d : Descriptor) : String := "Descriptor(" ++ quoted d.kind ++ ")"

/-- The handle of a file. -/
def handle? : Descriptor → Option Handle
  | file e => some e.handle
  | _ => none

end Descriptor

/-- The open resources of a guest. -/
abbrev DescriptorTable := Table Descriptor

namespace DescriptorTable

/-- The fault of an id that holds a resource of another kind. -/
def wrongKind (e : Errno) (fd : Nat) (d : Descriptor) : Fault :=
  .because e ("descriptor " ++ toString fd ++ " is a " ++ d.kind)

/-- The file at an id. -/
def getFile (t : DescriptorTable) (fd : Nat) : Outcome FileEntry := do
  match ← t.get fd with
  | .file e => return e
  | other => throw (wrongKind .badFileDescriptor fd other)

/-- The directory at an id. -/
def getDirectory (t : DescriptorTable) (fd : Nat) : Outcome Directory := do
  match ← t.get fd with
  | .directory d => return d
  | other => throw (wrongKind .notDirectory fd other)

/-- The handles of all open files. -/
def handles (t : DescriptorTable) : List Handle :=
  t.toList.filterMap fun entry => entry.2.handle?

end DescriptorTable

end Hostcall
