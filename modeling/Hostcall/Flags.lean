import Hostcall.Fault

/-!
# Sets of flags

A guest passes options as bits of a word.  Each kind of option is a family of
named bits; a set of flags belongs to one family and keeps the bits no name
stands for.

* `Flags.contains`, `Flags.intersects` and `Flags.union` are the set operations;
* `Flags.names` and `Flags.debug` show a set;
* the families are descriptor flags, open flags, access modes, rights, lookup
  flags and the choice of timestamps.
-/

namespace Hostcall

/-- A kind of option: its title, and its named bits in order of declaration. -/
structure FlagFamily where
  title : String
  named : List (String × UInt64)

/-- A set of flags of one family. -/
structure Flags (family : FlagFamily) where
  bits : UInt64
  deriving DecidableEq, Repr

namespace Flags

variable {family : FlagFamily}

/-- The empty set. -/
def empty : Flags family := ⟨0⟩

instance : Inhabited (Flags family) := ⟨empty⟩

/-- Whether every bit of `other` is set. -/
def contains (flags other : Flags family) : Bool := flags.bits &&& other.bits == other.bits

/-- Whether some bit of `other` is set. -/
def intersects (flags other : Flags family) : Bool := flags.bits &&& other.bits != 0

/-- The bits of both. -/
def union (flags other : Flags family) : Flags family := ⟨flags.bits ||| other.bits⟩

/-- The bits of several sets. -/
def unions (sets : List (Flags family)) : Flags family := sets.foldl union empty

/-- The given set if the condition holds, else the empty one. -/
def onlyIf (condition : Bool) (flags : Flags family) : Flags family :=
  if condition then flags else empty

/-- Every bit that has a name. -/
def all (family : FlagFamily) : Flags family :=
  ⟨family.named.foldl (fun bits flag => bits ||| flag.2) 0⟩

/-- The names of the set bits, in order of declaration. -/
def names (flags : Flags family) : List String :=
  (family.named.filter fun flag => flags.contains ⟨flag.2⟩).map (·.1)

/-- The bits no name stands for. -/
def unnamed (flags : Flags family) : UInt64 := flags.bits &&& ~~~(all family).bits

/-- A number in lower-case hexadecimal. -/
def hexadecimal (n : UInt64) : String := "0x" ++ String.ofList (Nat.toDigits 16 n.toNat)

/-- A set as text: its names, then what has no name as one number. -/
def debug (flags : Flags family) : String :=
  let rest := if flags.unnamed = 0 then [] else [hexadecimal flags.unnamed]
  let parts := flags.names ++ rest
  let inner := if parts = [] then hexadecimal 0 else " | ".intercalate parts
  family.title ++ "(" ++ inner ++ ")"

end Flags

/-! ## Descriptor flags -/

/-- How a descriptor does its I/O. -/
def fdFlagsFamily : FlagFamily where
  title := "FdFlags"
  named := [("APPEND", 1), ("DSYNC", 2), ("NONBLOCK", 4), ("RSYNC", 8), ("SYNC", 16)]

abbrev FdFlags := Flags fdFlagsFamily

namespace FdFlags

def append : FdFlags := ⟨1⟩
def dsync : FdFlags := ⟨2⟩
def nonblock : FdFlags := ⟨4⟩
def rsync : FdFlags := ⟨8⟩
def sync : FdFlags := ⟨16⟩

/-- The flags that ask for synchronised I/O, which no call provides. -/
def syncFamily : FdFlags := (dsync.union rsync).union sync

end FdFlags

/-! ## Open flags -/

/-- What opening a path may do. -/
def openFlagsFamily : FlagFamily where
  title := "OFlags"
  named := [("CREATE", 1), ("DIRECTORY", 2), ("EXCLUSIVE", 4), ("TRUNCATE", 8)]

abbrev OpenFlags := Flags openFlagsFamily

namespace OpenFlags

def create : OpenFlags := ⟨1⟩
def directory : OpenFlags := ⟨2⟩
def exclusive : OpenFlags := ⟨4⟩
def truncate : OpenFlags := ⟨8⟩

end OpenFlags

/-! ## Access modes -/

/-- What a descriptor was opened for. -/
def accessFamily : FlagFamily where
  title := "FileAccessMode"
  named := [("READ", 1), ("WRITE", 2)]

abbrev Access := Flags accessFamily

namespace Access

def read : Access := ⟨1⟩
def write : Access := ⟨2⟩

end Access

/-! ## Rights -/

/-- What snapshot preview 1 lets a guest ask of a descriptor. -/
def rightsFamily : FlagFamily where
  title := "Rights"
  named :=
    [("FD_DATASYNC", 0x1), ("FD_READ", 0x2), ("FD_SEEK", 0x4), ("FD_FDSTAT_SET_FLAGS", 0x8),
      ("FD_SYNC", 0x10), ("FD_TELL", 0x20), ("FD_WRITE", 0x40), ("FD_ADVISE", 0x80),
      ("FD_ALLOCATE", 0x100), ("PATH_CREATE_DIRECTORY", 0x200), ("PATH_CREATE_FILE", 0x400),
      ("PATH_LINK_SOURCE", 0x800), ("PATH_LINK_TARGET", 0x1000), ("PATH_OPEN", 0x2000),
      ("FD_READDIR", 0x4000), ("PATH_READLINK", 0x8000), ("PATH_RENAME_SOURCE", 0x10000),
      ("PATH_RENAME_TARGET", 0x20000), ("PATH_FILESTAT_GET", 0x40000),
      ("PATH_FILESTAT_SET_SIZE", 0x80000), ("PATH_FILESTAT_SET_TIMES", 0x100000),
      ("FD_FILESTAT_GET", 0x200000), ("FD_FILESTAT_SET_SIZE", 0x400000),
      ("FD_FILESTAT_SET_TIMES", 0x800000), ("PATH_SYMLINK", 0x1000000),
      ("PATH_REMOVE_DIRECTORY", 0x2000000), ("PATH_UNLINK_FILE", 0x4000000),
      ("POLL_FD_READWRITE", 0x8000000), ("SOCK_SHUTDOWN", 0x10000000),
      ("SOCK_ACCEPT", 0x20000000)]

abbrev Rights := Flags rightsFamily

namespace Rights

def fdDatasync : Rights := ⟨0x1⟩
def fdRead : Rights := ⟨0x2⟩
def fdSeek : Rights := ⟨0x4⟩
def fdFdstatSetFlags : Rights := ⟨0x8⟩
def fdSync : Rights := ⟨0x10⟩
def fdTell : Rights := ⟨0x20⟩
def fdWrite : Rights := ⟨0x40⟩
def pathCreateDirectory : Rights := ⟨0x200⟩
def pathCreateFile : Rights := ⟨0x400⟩
def pathOpen : Rights := ⟨0x2000⟩
def fdReaddir : Rights := ⟨0x4000⟩
def pathFilestatGet : Rights := ⟨0x40000⟩
def pathFilestatSetTimes : Rights := ⟨0x100000⟩
def fdFilestatGet : Rights := ⟨0x200000⟩
def fdFilestatSetSize : Rights := ⟨0x400000⟩
def fdFilestatSetTimes : Rights := ⟨0x800000⟩
def pathRemoveDirectory : Rights := ⟨0x2000000⟩
def pathUnlinkFile : Rights := ⟨0x4000000⟩

/-- The rights reported for every directory. -/
def directoryBase : Rights :=
  Flags.unions [pathCreateDirectory, pathCreateFile, pathOpen, fdReaddir, pathRemoveDirectory,
    pathUnlinkFile, pathFilestatGet, pathFilestatSetTimes, fdFilestatGet, fdFilestatSetTimes]

/-- The rights reported for what is opened beneath a directory. -/
def directoryInheriting : Rights :=
  Flags.unions [fdDatasync, fdRead, fdSeek, fdFdstatSetFlags, fdSync, fdTell, fdWrite,
    fdFilestatGet, fdFilestatSetSize, fdFilestatSetTimes, directoryBase]

/-- The rights that stand for an access mode. -/
def ofAccess (mode : Access) : Rights :=
  (Flags.onlyIf (mode.contains Access.read) fdRead).union
    (Flags.onlyIf (mode.contains Access.write) fdWrite)

end Rights

/-- The access mode that rights ask for. -/
def Access.ofRights (rights : Rights) : Access :=
  (Flags.onlyIf (rights.contains Rights.fdRead) read).union
    (Flags.onlyIf (rights.contains Rights.fdWrite) write)

/-! ## Lookup flags -/

/-- How the last name of a path is looked up. -/
def lookupFlagsFamily : FlagFamily where
  title := "Lookupflags"
  named := [("SYMLINK_FOLLOW", 1)]

abbrev LookupFlags := Flags lookupFlagsFamily

/-- A link in the last place is followed. -/
def LookupFlags.symlinkFollow : LookupFlags := ⟨1⟩

/-! ## Choice of timestamps -/

/-- Which timestamps an update sets, and to what. -/
def timeFlagsFamily : FlagFamily where
  title := "Fstflags"
  named := [("ATIM", 1), ("ATIM_NOW", 2), ("MTIM", 4), ("MTIM_NOW", 8)]

abbrev TimeFlags := Flags timeFlagsFamily

namespace TimeFlags

def accessed : TimeFlags := ⟨1⟩
def accessedNow : TimeFlags := ⟨2⟩
def modified : TimeFlags := ⟨4⟩
def modifiedNow : TimeFlags := ⟨8⟩

end TimeFlags

/-! ## All families -/

/-- Every family of flags. -/
def FlagFamily.all : List FlagFamily :=
  [fdFlagsFamily, openFlagsFamily, accessFamily, rightsFamily, lookupFlagsFamily, timeFlagsFamily]

end Hostcall
