import Hostcall.Host.Volume

/-!
# Open files

A handle is what the host gives for an opened node.  It knows which directions it was
opened for, whether it appends, and where its next transfer begins.

* `Handle.read`, `Handle.readAt`, `Handle.write` and `Handle.writeAt` transfer bytes;
* `Handle.seek` moves the cursor, `Handle.setSize` cuts or extends the file;
* `Ends` counts who else holds a named pipe, on which its transfers depend.

An operation that fails changes nothing: it gives a `HostError` and no new state.
-/

namespace Hostcall

/-- How many handles of a named pipe are open for reading and for writing. -/
structure Ends where
  readers : Nat
  writers : Nat
  deriving DecidableEq, Repr, Inhabited

/-- An opened node. -/
structure Handle where
  ino : Ino
  readable : Bool
  writable : Bool
  /-- Every write goes to the end of the file. -/
  append : Bool
  nonblock : Bool
  cursor : Nat
  deriving DecidableEq, Repr, Inhabited

namespace Handle

/-- The bound on positions, sizes and ends of transfers, itself excluded. -/
def positionLimit : Nat := Int64.size / 2

/-- The most buffers one transfer uses. -/
def bufferLimit : Nat := 1024

/-- The most bytes one transfer moves. -/
def transferLimit : Nat := 0x7ffff000

/-- How much a transfer into buffers of these sizes asks for. -/
def requested (sizes : List Nat) : Nat := min (totalSize (sizes.take bufferLimit)) transferLimit

/-- What a transfer out of these buffers offers. -/
def offered (buffers : List Bytes) : Bytes :=
  (gather (buffers.take bufferLimit)).take transferLimit

/-! ## Reading -/

/-- What a device gives a reader. -/
def deviceBytes (count : Nat) : CharacterDevice → Bytes
  | .null => []
  | .zero | .full => List.replicate count 0

/-- Reads from the cursor on and moves it behind the bytes. -/
def read (h : Handle) (v : Volume) (ends : Ends) (sizes : List Nat) :
    Except HostError (Bytes × Handle × Volume) :=
  let count := requested sizes
  if !h.readable then .error .badDescriptor
  else if count = 0 then .ok ([], h, v)
  else
    match v.body h.ino with
    | .file content =>
      if positionLimit ≤ h.cursor + count then .error .invalid
      else
        let taken := content.slice h.cursor count
        .ok (taken, { h with cursor := h.cursor + taken.length }, v)
    | .fifo queue =>
      let (taken, queue) := queue.read count
      if taken ≠ [] then .ok (taken, h, v.setBody h.ino (.fifo queue))
      else if ends.writers = 0 then .ok ([], h, v)
      else .error .tryAgain
    | .device d => .ok (deviceBytes count d, h, v)
    | _ => .error .isADirectory

/-- Reads from an offset on and leaves the cursor alone. -/
def readAt (h : Handle) (v : Volume) (sizes : List Nat) (offset : Nat) :
    Except HostError Bytes :=
  let count := requested sizes
  if positionLimit ≤ offset then .error .invalid
  else
    match v.body h.ino with
    | .fifo _ => .error .illegalSeek
    | body =>
      if !h.readable then .error .badDescriptor
      else if count = 0 then .ok []
      else if positionLimit ≤ offset + count then .error .invalid
      else
        match body with
        | .file content => .ok (content.slice offset count)
        | .device d => .ok (deviceBytes count d)
        | _ => .error .isADirectory

/-! ## Writing -/

/-- Where a write begins that asks for a position. -/
def writeStart (append : Bool) (size position : Nat) : Nat := if append then size else position

/-- As much of some data as a file can take from a place on.  Its end stays a position. -/
def fitting (start : Nat) (data : Bytes) : Bytes := data.take (positionLimit - 1 - start)

/-- What a device makes of so many bytes. -/
def deviceTakes (count : Nat) : CharacterDevice → Except HostError Nat
  | .null | .zero => .ok count
  | .full => .error .noSpaceLeft

/-- Writes at the cursor, or at the end if the handle appends, and moves the cursor
behind the bytes. -/
def write (h : Handle) (v : Volume) (ends : Ends) (buffers : List Bytes) :
    Except HostError (Nat × Handle × Volume) :=
  let data := offered buffers
  if !h.writable then .error .badDescriptor
  else if data = [] then .ok (0, h, v)
  else
    match v.body h.ino with
    | .file content =>
      if positionLimit ≤ h.cursor + data.length then .error .invalid
      else
        let start := writeStart h.append content.size h.cursor
        let data := fitting start data
        if data = [] then .error .tooLarge
        else
          .ok (data.length, { h with cursor := start + data.length },
            v.replaceBody h.ino (.file (content.write start data)))
    | .fifo queue =>
      let (count, queue) := queue.write data
      if ends.readers = 0 then .error .brokenPipe
      else if count = 0 then .error .tryAgain
      else .ok (count, h, v.replaceBody h.ino (.fifo queue))
    | .device d =>
      match deviceTakes data.length d with
      | .error e => .error e
      | .ok count => .ok (count, h, v)
    | _ => .error .badDescriptor

/-- Writes at an offset, or at the end if the handle appends, and leaves the cursor
alone. -/
def writeAt (h : Handle) (v : Volume) (buffers : List Bytes) (offset : Nat) :
    Except HostError (Nat × Volume) :=
  let data := offered buffers
  if positionLimit ≤ offset then .error .invalid
  else
    match v.body h.ino with
    | .fifo _ => .error .illegalSeek
    | body =>
      if !h.writable then .error .badDescriptor
      else if data = [] then .ok (0, v)
      else if positionLimit ≤ offset + data.length then .error .invalid
      else
        match body with
        | .file content =>
          let start := writeStart h.append content.size offset
          let data := fitting start data
          if data = [] then .error .tooLarge
          else .ok (data.length, v.replaceBody h.ino (.file (content.write start data)))
        | .device d =>
          match deviceTakes data.length d with
          | .error e => .error e
          | .ok count => .ok (count, v)
        | _ => .error .badDescriptor

/-- Cuts the file to a size or extends it with zeros. -/
def setSize (h : Handle) (v : Volume) (size : Nat) : Except HostError Volume :=
  if positionLimit ≤ size then .error .invalid
  else
    match v.body h.ino with
    | .file content =>
      if h.writable then .ok (v.replaceBody h.ino (.file (content.resize size)))
      else .error .invalid
    | _ => .error .invalid

/-! ## Position, flags and state -/

/-- Moves the cursor and gives its new place.  Devices have no positions but zero. -/
def seek (h : Handle) (v : Volume) (whence : Whence) (offset : Int) :
    Except HostError (Nat × Handle) :=
  match v.body h.ino with
  | .fifo _ => .error .illegalSeek
  | .file content =>
    let base : Int :=
      match whence with
      | .set => 0
      | .current => h.cursor
      | .endOfFile => content.size
    let target := base + offset
    if 0 ≤ target ∧ target < positionLimit then
      .ok (target.toNat, { h with cursor := target.toNat })
    else .error .invalid
  | _ => .ok (0, h)

/-- Waits until the node is stored; only files and directories are. -/
def sync (h : Handle) (v : Volume) : Except HostError Unit :=
  match v.body h.ino with
  | .file _ | .directory _ => .ok ()
  | _ => .error .invalid

/-- The flags in force. -/
def flags (h : Handle) : FdFlags :=
  (Flags.onlyIf h.append FdFlags.append).union (Flags.onlyIf h.nonblock FdFlags.nonblock)

/-- Puts the flags that can be changed in force. -/
def setFlags (h : Handle) (flags : FdFlags) : Handle :=
  { h with
    append := flags.contains FdFlags.append
    nonblock := flags.contains FdFlags.nonblock }

/-- Counts the handles that hold a node. -/
def endsOf (handles : List Handle) (ino : Ino) : Ends :=
  let holding := handles.filter fun h => h.ino == ino
  ⟨holding.countP fun h => h.readable, holding.countP fun h => h.writable⟩

end Handle

end Hostcall
