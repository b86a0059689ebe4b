import Hostcall.Bytes
import Hostcall.Flags
import Hostcall.Time

/-!
# What a guest learns about a descriptor

* `FileType` is the kind of a node and its number in snapshot preview 1;
* `Attributes` is what the host knows of a node, `Filestat` what a guest is told;
* `Fdstat` describes an open descriptor;
* `Whence` is the point a seek counts from;
* `Dirent` is one directory entry in the layout of guest memory.
-/

namespace Hostcall

/-- The kind of a node. -/
inductive FileType where
  | unknown
  | blockDevice
  | characterDevice
  | directory
  | regularFile
  | socketDgram
  | socketStream
  | symbolicLink
  deriving DecidableEq, Repr, Inhabited

namespace FileType

/-- Every kind, in the order of its numbers. -/
def all : List FileType :=
  [unknown, blockDevice, characterDevice, directory, regularFile, socketDgram, socketStream,
    symbolicLink]

/-- The number of a kind. -/
def raw : FileType → UInt8
  | unknown => 0
  | blockDevice => 1
  | characterDevice => 2
  | directory => 3
  | regularFile => 4
  | socketDgram => 5
  | socketStream => 6
  | symbolicLink => 7

/-- The name of a kind. -/
def name : FileType → String
  | unknown => "Unknown"
  | blockDevice => "BlockDevice"
  | characterDevice => "CharacterDevice"
  | directory => "Directory"
  | regularFile => "RegularFile"
  | socketDgram => "SocketDgram"
  | socketStream => "SocketStream"
  | symbolicLink => "SymbolicLink"

end FileType

/-- What the host knows of a node. -/
structure Attributes where
  device : UInt64
  inode : UInt64
  fileType : FileType
  links : UInt64
  size : UInt64
  accessed : Option HostTime
  modified : Option HostTime
  created : Option HostTime
  deriving DecidableEq, Repr, Inhabited

/-- The attributes of something the host has no node for. -/
def Attributes.synthetic (fileType : FileType) : Attributes :=
  ⟨0, 0, fileType, 0, 0, none, none, none⟩

/-- What a guest is told of a node. -/
structure Filestat where
  device : UInt64
  inode : UInt64
  fileType : FileType
  links : UInt64
  size : UInt64
  accessed : UInt64
  modified : UInt64
  created : UInt64
  deriving DecidableEq, Repr, Inhabited

/-- Tells a guest about a node.  It fails when a timestamp does not fit. -/
def Filestat.ofAttributes (a : Attributes) : Outcome Filestat :=
  match timestamp a.accessed, timestamp a.modified, timestamp a.created with
  | .ok accessed, .ok modified, .ok created =>
    .ok ⟨a.device, a.inode, a.fileType, a.links, a.size, accessed, modified, created⟩
  | .error fault, _, _ => .error fault
  | _, .error fault, _ => .error fault
  | _, _, .error fault => .error fault

/-- What a guest is told of an open descriptor. -/
structure Fdstat where
  fileType : FileType
  flags : FdFlags
  rights : Rights
  inheriting : Rights
  deriving DecidableEq, Repr

/-- The point a seek counts from. -/
inductive Whence where
  | set
  | current
  | endOfFile
  deriving DecidableEq, Repr, Inhabited

namespace Whence

/-- The name of a point. -/
def name : Whence → String
  | set => "Set"
  | current => "Cur"
  | endOfFile => "End"

/-- The point with a given number. -/
def ofRaw (raw : UInt8) : Outcome Whence :=
  match raw.toNat with
  | 0 => .ok set
  | 1 => .ok current
  | 2 => .ok endOfFile
  | n => .error (.because .invalidArgument ("unknown whence " ++ toString n))

end Whence

/-- The fixed part of a directory entry. -/
structure Dirent where
  next : UInt64
  inode : UInt64
  nameLength : UInt32
  fileType : FileType
  deriving DecidableEq, Repr

namespace Dirent

/-- The size of the fixed part. -/
def size : Nat := 24

/-- The layout in guest memory: the next cookie, the inode, the length of the name
and the kind, little endian, padded to `Dirent.size` bytes. -/
def toBytes (d : Dirent) : Bytes :=
  littleEndian 8 d.next.toNat ++ littleEndian 8 d.inode.toNat ++
    littleEndian 4 d.nameLength.toNat ++ [d.fileType.raw, 0, 0, 0]

theorem length_toBytes (d : Dirent) : d.toBytes.length = size := by
  simp [toBytes, length_littleEndian, size]

end Dirent

end Hostcall
