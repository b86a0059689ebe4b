import Hostcall.Filestat
import Hostcall.Host.Content
import Hostcall.Host.Fifo

/-!
# Volumes

A volume is the host's file system: nodes by number, some of which are directories
that bind names to other nodes.  A node lives on after its last name is gone, for as
long as something holds its number; a directory without a name can be looked at but
takes no new entries.

* `Body` is what a node is, `Node` adds how many names it has and its times;
* `Volume.node`, `Volume.entries` and `Volume.child?` are the views;
* `Volume.create`, `Volume.bind` and `Volume.unbind` change names, `Volume.setBody`,
  `Volume.replaceBody` and `Volume.setTimes` change nodes;
* `Volume.attributes` is what a node tells of itself.
-/

namespace Hostcall

/-- The number of a node. -/
abbrev Ino := Nat

/-- The name of a directory entry. -/
abbrev Name := Bytes

/-- A character device. -/
inductive CharacterDevice where
  /-- Takes everything and is always at its end. -/
  | null
  /-- Takes everything and is full of zeros. -/
  | zero
  /-- Has no space for anything and is full of zeros. -/
  | full
  deriving DecidableEq, Repr, Inhabited

/-- What a node is. -/
inductive Body where
  /-- The entries of a directory, in the order they are listed. -/
  | directory (entries : List (Name × Ino))
  | file (content : Content)
  /-- A symbolic link. -/
  | link (target : Bytes)
  /-- A named pipe and the bytes in it. -/
  | fifo (queue : Fifo)
  | socket
  | device (d : CharacterDevice)
  deriving Repr, Inhabited

namespace Body

/-- The kind a body is told to be. -/
def fileType : Body → FileType
  | directory _ => .directory
  | file _ => .regularFile
  | link _ => .symbolicLink
  | fifo _ => .unknown
  | socket => .socketStream
  | device _ => .characterDevice

/-- The size a body is told to have. -/
def size : Body → Nat
  | file content => content.size
  | link target => target.length
  | _ => 0

/-- The entries of a directory; nothing else has any. -/
def entries : Body → List (Name × Ino)
  | directory entries => entries
  | _ => []

/-- Whether a body is a directory. -/
def isDirectory : Body → Bool
  | directory _ => true
  | _ => false

end Body

/-- A node of a volume. -/
structure Node where
  body : Body
  /-- How many names it has. -/
  links : Nat
  accessed : HostTime
  modified : HostTime
  deriving Repr, Inhabited

/-- Nodes by number, and the time at which everything happens. -/
structure Volume where
  nodes : Array Node
  clock : HostTime
  deriving Repr, Inhabited

namespace Volume

/-! ## Views -/

/-- The node of a number. -/
def node (v : Volume) (ino : Ino) : Node := v.nodes.getD ino default

/-- What a node is. -/
def body (v : Volume) (ino : Ino) : Body := (v.node ino).body

/-- The entries of a directory. -/
def entries (v : Volume) (ino : Ino) : List (Name × Ino) := (v.body ino).entries

/-- The node a directory binds a name to. -/
def child? (v : Volume) (dir : Ino) (name : Name) : Option Ino := (v.entries dir).lookup name

/-- Whether a node is a directory. -/
def isDirectory (v : Volume) (ino : Ino) : Bool := (v.body ino).isDirectory

/-- Whether a node has lost its last name. -/
def isGone (v : Volume) (ino : Ino) : Bool := (v.node ino).links == 0

/-- What a node tells of itself.  The device is always the first, and inode numbers
start at one. -/
def attributes (v : Volume) (ino : Ino) : Attributes :=
  let n := v.node ino
  { device := 1
    inode := UInt64.ofNat (ino + 1)
    fileType := n.body.fileType
    links := UInt64.ofNat n.links
    size := UInt64.ofNat n.body.size
    accessed := some n.accessed
    modified := some n.modified
    created := none }

/-! ## Changes -/

/-- Changes one node. -/
def modify (v : Volume) (ino : Ino) (f : Node → Node) : Volume :=
  { v with nodes := v.nodes.modify ino f }

/-- Puts another body into a node and leaves its times alone. -/
def setBody (v : Volume) (ino : Ino) (b : Body) : Volume :=
  v.modify ino fun n => { n with body := b }

/-- Puts another body into a node, which is thereby modified. -/
def replaceBody (v : Volume) (ino : Ino) (b : Body) : Volume :=
  v.modify ino fun n => { n with body := b, modified := v.clock }

/-- Updates both times of a node. -/
def setTimes (v : Volume) (ino : Ino) (u : TimeUpdates) : Volume :=
  v.modify ino fun n =>
    { n with
      accessed := u.accessed.apply v.clock n.accessed
      modified := u.modified.apply v.clock n.modified }

/-- Lists a node under one name more, behind the other entries of the directory. -/
def bind (v : Volume) (dir : Ino) (name : Name) (ino : Ino) : Volume :=
  let listed := v.replaceBody dir (.directory (v.entries dir ++ [(name, ino)]))
  listed.modify ino fun n => { n with links := n.links + 1 }

/-- Takes one name off a directory, and with it one link off the node it was bound
to. -/
def unbind (v : Volume) (dir : Ino) (name : Name) (ino : Ino) : Volume :=
  let listed := v.replaceBody dir (.directory ((v.entries dir).filter fun entry => entry.1 != name))
  listed.modify ino fun n => { n with links := n.links - 1 }

/-- Adds a node under a new name and gives its number. -/
def create (v : Volume) (dir : Ino) (name : Name) (b : Body) : Ino × Volume :=
  let ino := v.nodes.size
  let grown := { v with nodes := v.nodes.push ⟨b, 0, v.clock, v.clock⟩ }
  (ino, grown.bind dir name ino)

/-! ## The first volume -/

/-- The directory that everything named lies in. -/
def top : Ino := 0

/-- A volume at a given time that holds an empty top directory only. -/
def new (clock : HostTime) : Volume := ⟨#[⟨.directory [], 1, clock, clock⟩], clock⟩

/-- A volume whose top directory holds the character devices under `dev`. -/
def withDevices (clock : HostTime) : Volume :=
  let (dev, v) := (new clock).create top (utf8 "dev") (.directory [])
  [("null", CharacterDevice.null), ("zero", .zero), ("full", .full)].foldl
    (fun v (name, d) => (v.create dev (utf8 name) (.device d)).2) v

end Volume

end Hostcall
