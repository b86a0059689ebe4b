import Hostcall.Random.Fill
import Hostcall.Resolve
import Hostcall.StringList

/-!
# The world of a guest

* `Context` is everything one guest holds: its strings, its random source, its table and
  the preopens that bound it;
* `Host` is what every guest of the host shares: the file system, the streams, the
  clocks and the other holders of named pipes;
* `World` is one guest on its host, and `Step` is a call that may change it.

A call that fails still gives a world, for what the host did before the failure stays
done.
-/

namespace Hostcall

/-- Everything one guest holds. -/
structure Context where
  args : StringList
  env : StringList
  random : KeyStream
  table : DescriptorTable
  preopens : List Preopen
  deriving Inhabited

/-- What all guests of a host share. -/
structure Host where
  volume : Volume
  streams : Streams
  clocks : Clocks
  /-- Handles that other programs hold, by name. -/
  peers : List (String × Handle)
  deriving Inhabited

/-- One guest on its host. -/
structure World where
  context : Context
  host : Host
  deriving Inhabited

/-- A call's answer and the world after it. -/
abbrev Step (α : Type) := Outcome α × World

/-- Goes on from a step that succeeded, in the world it left. -/
def Step.andThen {α β : Type} (s : Step α) (f : α → World → Step β) : Step β :=
  match s with
  | (.ok a, w) => f a w
  | (.error fault, w) => (.error fault, w)

namespace World

/-! ## Views and changes -/

/-- The open resources. -/
def table (w : World) : DescriptorTable := w.context.table

/-- The file system. -/
def volume (w : World) : Volume := w.host.volume

/-- The world with another table. -/
def withTable (w : World) (table : DescriptorTable) : World :=
  { w with context := { w.context with table } }

/-- The world with another file system. -/
def withVolume (w : World) (volume : Volume) : World :=
  { w with host := { w.host with volume } }

/-- The world with other streams. -/
def withStreams (w : World) (streams : Streams) : World :=
  { w with host := { w.host with streams } }

/-- Puts another resource under an open id. -/
def update (w : World) (fd : Nat) (d : Descriptor) : World := w.withTable (w.table.update fd d)

/-- The answer of a change of the file system, and the world after it. -/
def changed (w : World) : Outcome Volume → Step Unit
  | .ok volume => (.ok (), w.withVolume volume)
  | .error fault => (.error fault, w)

/-- Binds a resource to the least free id from 3 on. -/
def allocate (w : World) (d : Descriptor) : Step Nat :=
  let (outcome, table) := w.table.allocate d
  (outcome, w.withTable table)

/-- Who holds a named pipe: the guest and everyone else. -/
def ends (w : World) (ino : Ino) : Ends :=
  Handle.endsOf (w.table.handles ++ w.host.peers.map (·.2)) ino

/-- Resolves a path relative to the directory at an id. -/
def resolve (w : World) (fd : Nat) (path : String) : Outcome Resolved :=
  Hostcall.resolve w.table w.context.preopens fd path

end World

end Hostcall
