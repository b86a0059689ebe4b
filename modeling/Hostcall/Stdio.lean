import Hostcall.Filestat
import Hostcall.Pipe.Shared

/-!
# Standard streams

A standard stream is a byte stream behind one of the first three descriptors.  It
has no position, and it is used in one direction only.

* `Stream` says what stands behind a descriptor: an end of a pipe, a stream without
  transfers, or the host's own input, output or error output;
* `Streams` holds the pipes and the host's own streams, with the transfers `read`,
  `write` and `flush`;
* `StdioEntry` is a stream under its kind, which fixes the direction.
-/

namespace Hostcall

/-! ## The host's own streams -/

/-- The host's own input and outputs. -/
structure ProcessStdio where
  /-- Input not yet taken from the host. -/
  input : Bytes
  /-- Input taken ahead of its readers. -/
  ahead : Bytes
  output : Bytes
  errors : Bytes
  deriving Repr, Inhabited

namespace ProcessStdio

/-- How much input is taken ahead at once. -/
def inputBuffer : Nat := 8192

/-- How much output may be held back between two flushes. -/
def outputBuffer : Nat := 1024

/-- The most buffers one transfer of the host uses. -/
def vectorLimit : Nat := 1024

/-- Reads input.  With nothing taken ahead, a request for at least as much as is
taken ahead at once goes to the host; any other request is served from what is taken
ahead, and only from that. -/
def read (p : ProcessStdio) (sizes : List Nat) : Bytes × ProcessStdio :=
  if p.ahead = [] ∧ inputBuffer ≤ totalSize sizes then
    let taken := p.input.take (totalSize (sizes.take vectorLimit))
    (taken, { p with input := p.input.drop taken.length })
  else
    let p := if p.ahead = [] then
        { p with ahead := p.input.take inputBuffer, input := p.input.drop inputBuffer }
      else p
    let taken := p.ahead.take (totalSize sizes)
    (taken, { p with ahead := p.ahead.drop taken.length })

/-- The line feed. -/
def lineFeed : UInt8 := 10

/-- How many buffers there are up to the last one that holds a line feed. -/
def linesCount (buffers : List Bytes) : Nat :=
  (buffers.reverse.dropWhile fun b => !b.contains lineFeed).length

/-- How much output is accepted at once.  Buffers with whole lines go to the host
directly, and behind them as much as may be held back; without a line feed little
output is held back whole and much goes to the host directly. -/
def accepted (buffers : List Bytes) : Nat :=
  let lines := linesCount buffers
  if lines = 0 then
    if room buffers < outputBuffer then room buffers else room (buffers.take vectorLimit)
  else
    let whole := buffers.take lines
    let direct := room (whole.take vectorLimit)
    if direct = 0 ∨ direct < room whole then direct
    else direct + min outputBuffer (room (buffers.drop lines))

/-- Writes output, all of which is flushed. -/
def write (p : ProcessStdio) (buffers : List Bytes) : Nat × ProcessStdio :=
  let written := (gather buffers).take (accepted buffers)
  (written.length, { p with output := p.output ++ written })

/-- Writes error output, which is never held back. -/
def writeErrors (p : ProcessStdio) (buffers : List Bytes) : Nat × ProcessStdio :=
  let written := gather (buffers.take vectorLimit)
  (written.length, { p with errors := p.errors ++ written })

end ProcessStdio

/-! ## Streams -/

/-- What stands behind a standard descriptor. -/
inductive Stream where
  /-- The read end of a pipe, by its number. -/
  | reader (pipe : Nat)
  /-- The write end of a pipe, by its number. -/
  | writer (pipe : Nat)
  /-- A stream that refuses every transfer. -/
  | plain (terminal : Bool)
  | hostInput
  | hostOutput
  | hostErrors
  deriving DecidableEq, Repr, Inhabited

namespace Stream

/-- Whether a stream is a terminal. -/
def isTerminal : Stream → Bool
  | .plain terminal => terminal
  | _ => false

/-- The kind of node a stream is told to be. -/
def fileType (s : Stream) : FileType :=
  if s.isTerminal then .characterDevice else .unknown

end Stream

/-- The pipes behind streams, by number, and the host's own streams. -/
structure Streams where
  readers : Array (Cell Reader)
  writers : Array (Cell Writer)
  process : ProcessStdio
  deriving Inhabited

namespace Streams

/-- Makes a pipe over a device that is read. -/
def addReader (s : Streams) (device : Reader) : Stream × Streams :=
  (.reader s.readers.size, { s with readers := s.readers.push (.new device) })

/-- Makes a pipe over a device that is written. -/
def addWriter (s : Streams) (device : Writer) : Stream × Streams :=
  (.writer s.writers.size, { s with writers := s.writers.push (.new device) })

/-- Reads from a stream into buffers of the given sizes. -/
def read (s : Streams) (stream : Stream) (sizes : List Nat) : Outcome Bytes × Streams :=
  match stream with
  | .reader pipe =>
    match s.readers[pipe]? with
    | none => (.error refused, s)
    | some cell =>
      let (outcome, after) := cell.read sizes
      (outcome, { s with readers := s.readers.setIfInBounds pipe after })
  | .hostInput =>
    let (taken, process) := s.process.read sizes
    (.ok taken, { s with process })
  | _ => (.error refused, s)

/-- Writes buffers to a stream in order. -/
def write (s : Streams) (stream : Stream) (buffers : List Bytes) : Outcome Nat × Streams :=
  match stream with
  | .writer pipe =>
    match s.writers[pipe]? with
    | none => (.error refused, s)
    | some cell =>
      let (outcome, after) := cell.write buffers
      (outcome, { s with writers := s.writers.setIfInBounds pipe after })
  | .hostOutput =>
    let (count, process) := s.process.write buffers
    (.ok count, { s with process })
  | .hostErrors =>
    let (count, process) := s.process.writeErrors buffers
    (.ok count, { s with process })
  | _ => (.error refused, s)

/-- Hands on what a stream holds back.  Only the write end of a pipe may refuse. -/
def flush (s : Streams) (stream : Stream) : Outcome Unit × Streams :=
  match stream with
  | .writer pipe =>
    match s.writers[pipe]? with
    | none => (.ok (), s)
    | some cell =>
      let (outcome, after) := cell.flush
      (outcome, { s with writers := s.writers.setIfInBounds pipe after })
  | _ => (.ok (), s)

end Streams

/-! ## Standard descriptors -/

/-- Which standard stream a descriptor is. -/
inductive StdioKind where
  | stdin
  | stdout
  | stderr
  deriving DecidableEq, Repr, Inhabited

namespace StdioKind

/-- Every standard stream. -/
def all : List StdioKind := [stdin, stdout, stderr]

/-- The id a stream has at startup. -/
def fd : StdioKind → Nat
  | stdin => 0
  | stdout => 1
  | stderr => 2

/-- The direction of a stream. -/
def access : StdioKind → Access
  | stdin => Access.read
  | stdout | stderr => Access.write

/-- The name of a stream in messages. -/
def name : StdioKind → String
  | stdin => "<stdin>"
  | stdout => "<stdout>"
  | stderr => "<stderr>"

/-- The host's own stream of the same kind. -/
def hostStream : StdioKind → Stream
  | stdin => .hostInput
  | stdout => .hostOutput
  | stderr => .hostErrors

end StdioKind

/-- A standard stream in a table. -/
structure StdioEntry where
  kind : StdioKind
  stream : Stream
  deriving DecidableEq, Repr, Inhabited

namespace StdioEntry

/-- Reads, if the kind is one that is read. -/
def read (e : StdioEntry) (s : Streams) (sizes : List Nat) : Outcome Bytes × Streams :=
  if e.kind.access.contains Access.read then s.read e.stream sizes
  else (.error (.because .badFileDescriptor (e.kind.name ++ " is not readable")), s)

/-- Writes, if the kind is one that is written. -/
def write (e : StdioEntry) (s : Streams) (buffers : List Bytes) : Outcome Nat × Streams :=
  if e.kind.access.contains Access.write then s.write e.stream buffers
  else (.error (.because .badFileDescriptor (e.kind.name ++ " is not writable")), s)

/-- What is known of a stream. -/
def attributes (e : StdioEntry) : Attributes := .synthetic e.stream.fileType

end StdioEntry

end Hostcall
