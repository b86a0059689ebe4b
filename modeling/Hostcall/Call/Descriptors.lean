import Hostcall.Listing
import Hostcall.World

/-!
# Calls on descriptors

* `World.fdClose` and `World.fdRenumber` change which ids are open; a standard stream
  leaves the table only after it was flushed;
* `World.fdRead`, `World.fdPread`, `World.fdWrite` and `World.fdPwrite` transfer bytes,
  and `World.fdSeek` moves the cursor;
* the others read or set what is known of a descriptor, or list a directory.
-/

namespace Hostcall

namespace World

/-! ## Closing and renumbering -/

/-- Flushes what leaves the table, if it is a stream. -/
def flushed (w : World) : Descriptor → Step Unit
  | .stdio e =>
    let (outcome, streams) := w.host.streams.flush e.stream
    (outcome, w.withStreams streams)
  | _ => (.ok (), w)

/-- Closes an id.  If the flush fails it stays open. -/
def fdClose (w : World) (fd : Nat) : Step Unit :=
  match w.table.get fd with
  | .error fault => (.error fault, w)
  | .ok d =>
    (w.flushed d).andThen fun _ w =>
      let (outcome, table) := w.table.close fd
      (outcome.map fun _ => (), w.withTable table)

/-- Flushes what a renumbering displaces. -/
def flushedTarget (w : World) (source target : Nat) : Step Unit :=
  if source ≠ target ∧ w.table.contains source then
    match w.table.get? target with
    | some d => w.flushed d
    | none => (.ok (), w)
  else (.ok (), w)

/-- Moves a resource to another id, whose own resource it displaces. -/
def fdRenumber (w : World) (source target : Nat) : Step Unit :=
  (w.flushedTarget source target).andThen fun _ w =>
    let (outcome, table) := w.table.renumber source target
    (outcome.map fun _ => (), w.withTable table)

/-! ## Transfers -/

/-- The fault of a transfer on a directory. -/
def noTransfer : Fault := .ofErrno .badFileDescriptor

/-- The fault of a position on a stream. -/
def noPosition : Fault := .ofErrno .seekPipe

/-- Bytes that were read, in the guest's buffers and with their count. -/
def inBuffers (buffers : List Bytes) (taken : Bytes) : Outcome (UInt32 × List Bytes) :=
  (countOf taken.length).map (·, scatter buffers taken)

/-- Reads from the cursor on. -/
def fdRead (w : World) (fd : Nat) (buffers : List Bytes) : Step (UInt32 × List Bytes) :=
  let sizes := buffers.map List.length
  match w.table.get fd with
  | .error fault => (.error fault, w)
  | .ok (.directory _) => (.error noTransfer, w)
  | .ok (.stdio e) =>
    let (outcome, streams) := e.read w.host.streams sizes
    (outcome.bind (inBuffers buffers), w.withStreams streams)
  | .ok (.file e) =>
    match e.read w.volume (w.ends e.handle.ino) sizes with
    | .error fault => (.error fault, w)
    | .ok (taken, e, volume) =>
      (inBuffers buffers taken, (w.update fd (.file e)).withVolume volume)

/-- Reads from an offset on. -/
def fdPread (w : World) (fd : Nat) (buffers : List Bytes) (offset : UInt64) :
    Outcome (UInt32 × List Bytes) := do
  match ← w.table.get fd with
  | .file e => inBuffers buffers (← e.readAt w.volume (buffers.map List.length) offset)
  | .stdio _ => throw noPosition
  | .directory _ => throw noTransfer

/-- Writes at the cursor. -/
def fdWrite (w : World) (fd : Nat) (buffers : List Bytes) : Step UInt32 :=
  match w.table.get fd with
  | .error fault => (.error fault, w)
  | .ok (.directory _) => (.error noTransfer, w)
  | .ok (.stdio e) =>
    let (outcome, streams) := e.write w.host.streams buffers
    (outcome.bind countOf, w.withStreams streams)
  | .ok (.file e) =>
    match e.write w.volume (w.ends e.handle.ino) buffers with
    | .error fault => (.error fault, w)
    | .ok (count, e, volume) => (countOf count, (w.update fd (.file e)).withVolume volume)

/-- Writes at an offset. -/
def fdPwrite (w : World) (fd : Nat) (buffers : List Bytes) (offset : UInt64) : Step UInt32 :=
  match w.table.get fd with
  | .error fault => (.error fault, w)
  | .ok (.directory _) => (.error noTransfer, w)
  | .ok (.stdio _) => (.error noPosition, w)
  | .ok (.file e) =>
    match e.writeAt w.volume buffers offset with
    | .error fault => (.error fault, w)
    | .ok (count, volume) => (countOf count, w.withVolume volume)

/-- Moves the cursor. -/
def fdSeek (w : World) (fd : Nat) (offset : Int64) (whence : Whence) : Step UInt64 :=
  if whence = .set ∧ offset < 0 then
    (.error (.because .invalidArgument "negative seek offset"), w)
  else
    match w.table.get fd with
    | .error fault => (.error fault, w)
    | .ok (.stdio _) => (.error noPosition, w)
    | .ok (.directory _) => (.error noTransfer, w)
    | .ok (.file e) =>
      match e.seek w.volume whence offset with
      | .error fault => (.error fault, w)
      | .ok (position, e) => (.ok (UInt64.ofNat position), w.update fd (.file e))

/-- Where the cursor is. -/
def fdTell (w : World) (fd : Nat) : Step UInt64 := w.fdSeek fd 0 .current

/-! ## Files -/

/-- Waits until the contents of a file are stored. -/
def fdDatasync (w : World) (fd : Nat) : Outcome Unit := do
  let e ← w.table.getFile fd
  fromHost (e.handle.sync w.volume)

/-- Waits until a file is stored. -/
def fdSync (w : World) (fd : Nat) : Outcome Unit := do
  let e ← w.table.getFile fd
  fromHost (e.handle.sync w.volume)

/-- Cuts a file to a size or extends it with zeros. -/
def fdFilestatSetSize (w : World) (fd : Nat) (size : UInt64) : Step Unit :=
  w.changed do
    let e ← w.table.getFile fd
    e.setSize w.volume size

/-- Puts the flags of a file in force. -/
def fdFdstatSetFlags (w : World) (fd : Nat) (flags : FdFlags) : Step Unit :=
  match w.table.getFile fd with
  | .error fault => (.error fault, w)
  | .ok e =>
    match e.setFlags flags with
    | .error fault => (.error fault, w)
    | .ok e => (.ok (), w.update fd (.file e))

/-! ## What is known of a descriptor -/

/-- What a guest is told of an open descriptor. -/
def fdFdstatGet (w : World) (fd : Nat) : Outcome Fdstat := do
  match ← w.table.get fd with
  | .file e =>
    return ⟨(w.volume.attributes e.handle.ino).fileType, e.handle.flags, .ofAccess e.access, .empty⟩
  | .directory _ =>
    return ⟨.directory, .empty, Rights.directoryBase, Rights.directoryInheriting⟩
  | .stdio e => return ⟨e.stream.fileType, .empty, .ofAccess e.kind.access, .empty⟩

/-- The attributes of what an id holds. -/
def attributes (w : World) : Descriptor → Attributes
  | .file e => w.volume.attributes e.handle.ino
  | .directory d => w.volume.attributes d.ino
  | .stdio e => e.attributes

/-- What a guest is told of the node behind an id. -/
def fdFilestatGet (w : World) (fd : Nat) : Outcome Filestat := do
  Filestat.ofAttributes (w.attributes (← w.table.get fd))

/-- Sets the times of the node behind an id. -/
def fdFilestatSetTimes (w : World) (fd : Nat) (request : TimeRequest) : Step Unit :=
  w.changed do
    let updates ← request.updates
    match ← w.table.get fd with
    | .file e => return w.volume.setTimes e.handle.ino updates
    | .directory d => return w.volume.setTimes d.ino updates
    | .stdio _ => throw (.because .badFileDescriptor "stdio has no timestamps")

/-! ## Directories -/

/-- Lists a directory from a cookie on into a buffer.  A count that equals the length
of the buffer means that there may be more. -/
def fdReaddir (w : World) (fd : Nat) (buffer : Bytes) (cookie : UInt64) :
    Outcome (UInt32 × Bytes) := do
  let dir ← w.table.getDirectory fd
  let records ← Listing.pack buffer.length (Listing.entities w.volume dir.ino cookie.toNat)
  return (← countOf records.length, overwrite buffer records)

/-- The name a guest knows a preopened root by. -/
def preopenName (w : World) (fd : Nat) : Outcome String := do
  let guest? :=
    match ← w.table.get fd with
    | .directory d => d.guestName
    | _ => none
  match guest? with
  | none => throw (.because .badFileDescriptor (toString fd ++ " is not a preopen"))
  | some guest =>
    match text? guest with
    | none => throw (.because .illegalByteSequence "preopen name")
    | some name => return name

/-- How long the name of a preopened root is. -/
def fdPrestatGet (w : World) (fd : Nat) : Outcome UInt32 := do
  countOf (← w.preopenName fd).utf8ByteSize

/-- Puts the name of a preopened root at the front of a buffer.  A failure leaves the buffer as it
was. -/
def fdPrestatDirName (w : World) (fd : Nat) (buffer : Bytes) : Outcome Unit × Bytes :=
  match w.preopenName fd with
  | .error fault => (.error fault, buffer)
  | .ok name =>
    if buffer.length < name.utf8ByteSize then
      (.error (.because .nameTooLong
        ("preopen name needs " ++ toString name.utf8ByteSize ++ " bytes, buffer has " ++
          toString buffer.length)), buffer)
    else (.ok (), overwrite buffer (utf8 name))

end World

end Hostcall
