import Hostcall.Host.Open

/-!
# The file system without bounds

What programs of the host do, which are not held beneath a root.  A path is read from
the top directory, with or without a slash in front of it.

* `Volume.beneath` lists a directory with everything below it;
* `Volume.openHostDirectory` and `Volume.openHostFile` open by path;
* `Volume.place`, `Volume.bindHost`, `Volume.rename`, `Volume.removeName` and
  `Volume.removeTree` change names, `Volume.setHostTimes` sets times.
-/

namespace Hostcall

namespace Volume

/-! ## Listing -/

/-- Everything below a directory with the names that lead to it, down to a depth. -/
def beneath (v : Volume) : Nat → Ino → List (List Name × Ino)
  | 0, _ => []
  | depth + 1, dir =>
    (v.entries dir).flatMap fun (name, ino) =>
      ([name], ino) :: (v.beneath depth ino).map fun (names, i) => (name :: names, i)

/-- Everything below a directory with the names that lead to it. -/
def tree (v : Volume) (dir : Ino) : List (List Name × Ino) := v.beneath v.nodes.size dir

/-- Whether a node is a directory itself or lies below it. -/
def holds (v : Volume) (dir ino : Ino) : Bool :=
  dir == ino || (v.tree dir).any fun entry => entry.2 == ino

/-! ## Looking up -/

/-- A path that no host can be asked for. -/
def unfitPath : HostError :=
  .kind .invalidInput (some "file name contained an unexpected NUL byte")

/-- Looks up a host path. -/
def locateHost (v : Volume) (follow creating : Bool) (path : Bytes) : Lookup.Answer :=
  if path.contains 0 then .error unfitPath
  else if path = [] then .error .noEntry
  else if Lookup.pathLimit < path.length then .error .nameTooLong
  else
    Lookup.walk v ⟨false, follow, creating⟩ Lookup.linkBudget top []
      ⟨components path, path.getLast? = some slash⟩

/-- The node a host path leads to. -/
def findHost (v : Volume) (follow : Bool) (path : Bytes) : Except HostError Ino := do
  match ← v.locateHost follow false path with
  | .node ino => return ino
  | .vacant _ _ => throw .noEntry

/-- The directory of the last name of a host path, and that name.  A path that ends in
no name, but in dots, fails as the caller says, once its directory is found. -/
def parentHost (v : Volume) (path : Bytes) (nameless : HostError) :
    Except HostError (Ino × Name) := do
  let parts := components path
  let place ← Lookup.walk v ⟨false, true, false⟩ Lookup.linkBudget top [] ⟨parts.dropLast, false⟩
  let dir ← v.directoryAt place
  match parts.getLast? with
  | some (.name name) => return (dir, name)
  | _ => throw nameless

/-! ## Opening -/

/-- Opens a directory by host path. -/
def openHostDirectory (v : Volume) (path : Bytes) : Except HostError Ino := do
  v.directoryAt (← v.locateHost true false path)

/-- Opens or creates a node by host path. -/
def openHostFile (v : Volume) (ends : Ino → Ends) (path : Bytes) (r : OpenRequest) :
    Except HostError (Ino × Volume) := do
  r.check
  v.openPlace ends r (← v.locateHost (r.follow && !r.createNew) r.creates path)

/-! ## Changing names -/

/-- Makes a node under a free name. -/
def place (v : Volume) (path : Bytes) (b : Body) : Except HostError Volume := do
  let (dir, name) ← v.parentHost path .fileExists
  match v.child? dir name with
  | some _ => throw .fileExists
  | none => if v.isGone dir then throw .noEntry else return (v.create dir name b).2

/-- Binds one name more to the node a path names. -/
def bindHost (v : Volume) (existing path : Bytes) : Except HostError Volume := do
  let ino ← v.findHost false existing
  let (dir, name) ← v.parentHost path .fileExists
  match v.child? dir name with
  | some _ => throw .fileExists
  | none => if v.isDirectory ino then throw .notPermitted else return v.bind dir name ino

/-- Takes a name off its directory, unless that names a directory. -/
def removeName (v : Volume) (path : Bytes) : Except HostError Volume := do
  let (dir, name) ← v.parentHost path .isADirectory
  match v.child? dir name with
  | none => throw .noEntry
  | some ino => if v.isDirectory ino then throw .isADirectory else return v.unbind dir name ino

/-- Takes every name below a directory away, down to a depth. -/
def clear : Nat → Volume → Ino → Volume
  | 0, v, _ => v
  | depth + 1, v, dir =>
    (v.entries dir).foldl (fun v (name, ino) => (clear depth v ino).unbind dir name ino) v

/-- Removes a directory and everything below it, or a link without what it leads to. -/
def removeTree (v : Volume) (path : Bytes) : Except HostError Volume := do
  let (dir, name) ← v.parentHost path .invalid
  match v.child? dir name with
  | none => throw .noEntry
  | some ino =>
    match v.body ino with
    | .directory _ => return (clear v.nodes.size v ino).unbind dir name ino
    | .link _ => return v.unbind dir name ino
    | _ => throw .notADirectory

/-- Makes room for a node that is moved to a name from another directory: a file gives
way to a file, an empty directory to a directory, and a directory that the node is taken
out of to nothing. -/
def displace (v : Volume) (dir : Ino) (name : Name) (origin moved : Ino) :
    Except HostError Volume :=
  match v.child? dir name with
  | none => .ok v
  | some held =>
    if v.holds held origin then .error .directoryNotEmpty
    else match v.body held, v.isDirectory moved with
    | .directory [], true => .ok (v.unbind dir name held)
    | .directory _, true => .error .directoryNotEmpty
    | .directory _, false => .error .isADirectory
    | _, true => .error .notADirectory
    | _, false => .ok (v.unbind dir name held)

/-- Moves a node to another name.  A directory cannot be moved below itself, and a node
that already has the name stays. -/
def rename (v : Volume) (existing path : Bytes) : Except HostError Volume := do
  let (sourceDir, sourceName) ← v.parentHost existing .busy
  let (dir, name) ← v.parentHost path .busy
  match v.child? sourceDir sourceName with
  | none => throw .noEntry
  | some ino =>
    if v.child? dir name = some ino then return v
    if v.holds ino dir then throw .invalid
    let cleared ← v.displace dir name sourceDir ino
    return (cleared.unbind sourceDir sourceName ino).bind dir name ino

/-! ## Times -/

/-- Sets the times of the node a host path leads to. -/
def setHostTimes (v : Volume) (path : Bytes) (u : TimeUpdates) : Except HostError Volume :=
  (v.findHost true path).map fun ino => v.setTimes ino u

end Volume

end Hostcall
