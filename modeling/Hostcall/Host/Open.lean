import Hostcall.Host.Handle
import Hostcall.Host.Lookup

/-!
# Opening nodes

* `OpenRequest` says what an open is for, and `OpenRequest.check` refuses a request
  that contradicts itself before anything is looked up;
* `Volume.openPlace` opens or creates the node at the end of a lookup;
* `Volume.openFile` and `Volume.openDirectory` open what a path beneath a start leads
  to, the latter directories only.
-/

namespace Hostcall

/-- What an open is for. -/
structure OpenRequest where
  read : Bool
  write : Bool
  append : Bool
  truncate : Bool
  /-- A missing file is created. -/
  create : Bool
  /-- The file must not exist yet. -/
  createNew : Bool
  /-- A link in the last place is followed. -/
  follow : Bool
  nonblock : Bool
  deriving DecidableEq, Repr, Inhabited

namespace OpenRequest

/-- An open for reading only. -/
def forReading : OpenRequest :=
  ⟨true, false, false, false, false, false, true, false⟩

/-- An open for writing only. -/
def forWriting : OpenRequest := { forReading with read := false, write := true }

/-- Whether the node is opened for writing; appending is writing. -/
def writes (r : OpenRequest) : Bool := r.write || r.append

/-- Whether a missing file is created. -/
def creates (r : OpenRequest) : Bool := r.create || r.createNew

/-- Whether an existing file is emptied.  A file that must not exist yet is not. -/
def empties (r : OpenRequest) : Bool := r.truncate && !r.createNew

/-- Appending to what is emptied contradicts itself, as does an open for nothing. -/
def check (r : OpenRequest) : Except HostError Unit :=
  if r.append && r.empties then .error .invalid
  else if !r.read && !r.writes then .error .invalid
  else .ok ()

/-- How the path is looked up. -/
def mode (r : OpenRequest) (beneath : Bool) : Lookup.Mode :=
  ⟨beneath, r.follow && !r.createNew, r.creates⟩

/-- The handle of an open that succeeded. -/
def handle (r : OpenRequest) (ino : Ino) : Handle :=
  ⟨ino, r.read, r.writes, r.append, r.nonblock, 0⟩

/-- Whether an existing node can be opened in this way. -/
def permits (r : OpenRequest) (ends : Ends) (body : Body) : Except HostError Unit :=
  if r.createNew then .error .fileExists
  else if r.create && body.isDirectory then .error .isADirectory
  else
    match body with
    | .link _ => .error .symlinkLoop
    | .directory _ => if r.writes || r.truncate then .error .isADirectory else .ok ()
    | .socket => .error .noDevice
    | .fifo _ =>
      if !r.read && r.writes && ends.readers == 0 then .error .noDevice else .ok ()
    | _ => .ok ()

end OpenRequest

namespace Volume

/-- What opening an existing node does to it: a file may be emptied, and a named pipe
that nobody held starts empty. -/
def openExisting (v : Volume) (r : OpenRequest) (ends : Ends) (ino : Ino) : Volume :=
  match v.body ino with
  | .file _ => if r.empties then v.replaceBody ino (.file .empty) else v
  | .fifo _ => if ends = ⟨0, 0⟩ then v.setBody ino (.fifo .empty) else v
  | _ => v

/-- Opens the node at the end of a lookup, or creates it. -/
def openPlace (v : Volume) (ends : Ino → Ends) (r : OpenRequest) :
    Place → Except HostError (Ino × Volume)
  | .node ino => do
    r.permits (ends ino) (v.body ino)
    return (ino, v.openExisting r (ends ino) ino)
  | .vacant dir name =>
    if r.creates && !v.isGone dir then .ok (v.create dir name (.file .empty))
    else .error .noEntry

/-- Opens what a path beneath a start leads to, or creates it. -/
def openFile (v : Volume) (ends : Ino → Ends) (start : Ino) (l : Locator) (r : OpenRequest) :
    Except HostError (Ino × Volume) := do
  r.check
  v.openPlace ends r (← v.locate (r.mode true) start l)

/-- The directory at the end of a lookup. -/
def directoryAt (v : Volume) : Place → Except HostError Ino
  | .node ino => if v.isDirectory ino then .ok ino else .error .notADirectory
  | .vacant _ _ => .error .noEntry

/-- Opens the directory a path beneath a start leads to. -/
def openDirectory (v : Volume) (start : Ino) (follow : Bool) (l : Locator) :
    Except HostError Ino := do
  v.directoryAt (← v.locate ⟨true, follow, false⟩ start l)

end Volume

end Hostcall
