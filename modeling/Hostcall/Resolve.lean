import Hostcall.Descriptor

/-!
# Paths beneath a preopen

A guest path is resolved against the directory it is relative to.  The result names a
place beneath one preopen, and every host operation on it starts at that preopen's
root.

* `resolve` finds the preopen and folds the path;
* `Resolved.locator` and `Resolved.lookup` are what the host is asked for;
* `Resolved.openNode` opens the place, and the others are its other operations.
-/

namespace Hostcall

/-- A guest path resolved against a preopen. -/
structure Resolved where
  preopen : Preopen
  /-- The number of the preopen. -/
  index : Nat
  place : Canonical
  deriving DecidableEq, Repr

namespace Resolved

/-- The names below the root on the host. -/
def names (r : Resolved) : List Name := r.place.names.map utf8

/-- The place without regard to a trailing slash. -/
def locator (r : Resolved) : Locator := ⟨r.names, false⟩

/-- The place, which has to be a directory if the guest wrote a trailing slash. -/
def lookup (r : Resolved) : Locator := ⟨r.names, r.place.mustBeDir⟩

/-! ## As text -/

/-- The place below the root as text, `.` for the root itself. -/
def path (r : Resolved) : String :=
  if r.place.names = [] then "." else r.place.relative

/-- What the host looks up, as text. -/
def lookupPath (r : Resolved) : String :=
  if r.place.mustBeDir ∧ r.place.names ≠ [] then r.place.relative ++ "/." else r.path

/-- Where the place is on the host.  For the root itself a slash is left at the end. -/
def hostPath (r : Resolved) : String :=
  let host := r.preopen.host
  let between := if host = "" ∨ host.toList.getLast? = some '/' then "" else "/"
  host ++ between ++ r.place.relative

/-! ## Opening -/

/-- What opening the place as a file asks of the host.  A place that may be created or
emptied is opened for writing, and one opened for nothing is opened for reading. -/
def request (follow : Bool) (flags : OpenFlags) (access : Access) (fdFlags : FdFlags) :
    OpenRequest :=
  let createNew := flags.contains (OpenFlags.create.union OpenFlags.exclusive)
  let create := !createNew && flags.contains OpenFlags.create
  let truncate := flags.contains OpenFlags.truncate
  let write := access.contains Access.write
  { read := access.contains Access.read || !write
    write := createNew || create || truncate || write
    append := fdFlags.contains FdFlags.append
    truncate
    create
    createNew
    follow
    nonblock := fdFlags.contains FdFlags.nonblock }

/-- Opens the place as a directory.  The root itself is never a link. -/
def openDirectory (r : Resolved) (v : Volume) (follow : Bool) : Outcome Descriptor := do
  let ino ← fromHost
    (v.openDirectory r.preopen.root (follow || r.place.names.isEmpty) r.locator)
  return .directory (.nested r.index r.place.names ino)

/-- Opens the place as whatever it is. -/
def openFile (r : Resolved) (v : Volume) (ends : Ino → Ends) (q : OpenRequest) (access : Access) :
    Outcome Descriptor × Volume :=
  match v.openFile ends r.preopen.root r.lookup q with
  | .error e => (.error (.ofHost e), v)
  | .ok (ino, v) =>
    if v.isDirectory ino then (.ok (.directory (.nested r.index r.place.names ino)), v)
    else if r.place.mustBeDir then (.error (.ofErrno .notDirectory), v)
    else (.ok (.file ⟨q.handle ino, access⟩), v)

/-- Opens the place. -/
def openNode (r : Resolved) (v : Volume) (ends : Ino → Ends) (follow : Bool) (flags : OpenFlags)
    (access : Access) (fdFlags : FdFlags) : Outcome Descriptor × Volume :=
  if fdFlags.intersects FdFlags.syncFamily then
    (.error (.because .notSupported "SYNC family of FdFlags"), v)
  else if flags.contains OpenFlags.directory then
    if flags.intersects (Flags.unions [OpenFlags.create, OpenFlags.exclusive, OpenFlags.truncate])
    then (.error (.because .invalidArgument
      "directory oflag used with create, exclusive, or truncate"), v)
    else (r.openDirectory v follow, v)
  else r.openFile v ends (request follow flags access fdFlags) access

/-! ## Other operations -/

/-- Makes a directory at the place. -/
def makeDirectory (r : Resolved) (v : Volume) : Outcome Volume :=
  fromHost (v.makeDirectory r.preopen.root r.names)

/-- Removes the directory at the place, which must not be the root. -/
def removeDirectory (r : Resolved) (v : Volume) : Outcome Volume :=
  if r.place.names = [] then
    .error (.because .notCapable "cannot remove a preopened directory")
  else fromHost (v.removeDirectory r.preopen.root r.names)

/-- Removes what is at the place.  With a trailing slash it could only be a directory,
which is not removed in this way. -/
def unlink (r : Resolved) (v : Volume) : Outcome Volume :=
  if r.place.mustBeDir then do
    let found ← fromHost (v.statLink r.preopen.root r.locator)
    throw (.ofErrno (if found.fileType = .directory then .isDirectory else .notDirectory))
  else fromHost (v.unlink r.preopen.root r.names)

/-- The attributes of the place. -/
def stat (r : Resolved) (v : Volume) (follow : Bool) : Outcome Attributes :=
  fromHost
    (if follow then v.stat r.preopen.root r.lookup else v.statLink r.preopen.root r.lookup)

/-- Sets the times of the place. -/
def setTimes (r : Resolved) (v : Volume) (ends : Ino → Ends) (follow : Bool) (u : TimeUpdates) :
    Outcome Volume :=
  fromHost
    (if follow then v.setTimesAt ends r.preopen.root r.lookup u
      else v.setLinkTimes r.preopen.root r.lookup u)

end Resolved

/-- Resolves a path relative to the directory at an id. -/
def resolve (t : DescriptorTable) (preopens : List Preopen) (fd : Nat) (path : String) :
    Outcome Resolved := do
  let dir ← t.getDirectory fd
  match preopens[dir.preopen]? with
  | none =>
    throw (.because .badFileDescriptor ("descriptor " ++ toString fd ++ " has no preopen"))
  | some preopen =>
    let place ← normalize (utf8 (joinNames dir.relative)) path
    return ⟨preopen, dir.preopen, place⟩

end Hostcall
