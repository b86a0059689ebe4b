import Hostcall.Host.Open

/-!
# Directory entries and attributes by path

What the host does to a name without opening it.  The directory of the name is looked
up with every link followed; the name itself is then taken as it stands there.

* `Volume.makeDirectory`, `Volume.removeDirectory` and `Volume.unlink` change entries;
* `Volume.stat` and `Volume.statLink` read attributes, `Volume.setTimesAt` and
  `Volume.setLinkTimes` set times, through a last link or on the link itself.

All of them look beneath a start, and `Volume.walkTo` names the directory they end in.
-/

namespace Hostcall

namespace Volume

/-- The directory a list of names leads to; no names lead to the start. -/
def walkTo (v : Volume) (start : Ino) (names : List Name) : Except HostError Ino :=
  if names = [] then .ok start else v.openDirectory start true ⟨names, false⟩

/-- The directory of the last name, and that name. -/
def parentOf (v : Volume) (start : Ino) (names : List Name) (last : Name) :
    Except HostError (Ino × Name) :=
  (v.walkTo start names.dropLast).map (·, last)

/-- The node a name is bound to, if the name is short enough to be bound at all. -/
def entry? (v : Volume) (dir : Ino) (name : Name) : Except HostError (Option Ino) :=
  if Lookup.nameLimit < name.length then .error .nameTooLong else .ok (v.child? dir name)

/-- The node a name is bound to. -/
def entry (v : Volume) (dir : Ino) (name : Name) : Except HostError Ino := do
  match ← v.entry? dir name with
  | some ino => return ino
  | none => throw .noEntry

/-! ## Changing entries -/

/-- Makes an empty directory. -/
def makeDirectory (v : Volume) (start : Ino) (names : List Name) : Except HostError Volume := do
  match names.getLast? with
  | none => throw .fileExists
  | some last =>
    let (dir, name) ← v.parentOf start names last
    match ← v.entry? dir name with
    | some _ => throw .fileExists
    | none => if v.isGone dir then throw .noEntry else return (v.create dir name (.directory [])).2

/-- Removes an empty directory. -/
def removeDirectory (v : Volume) (start : Ino) (names : List Name) :
    Except HostError Volume := do
  match names.getLast? with
  | none => throw .invalid
  | some last =>
    let (dir, name) ← v.parentOf start names last
    let ino ← v.entry dir name
    match v.body ino with
    | .directory [] => return v.unbind dir name ino
    | .directory _ => throw .directoryNotEmpty
    | _ => throw .notADirectory

/-- Removes a name of anything but a directory. -/
def unlink (v : Volume) (start : Ino) (names : List Name) : Except HostError Volume := do
  match names.getLast? with
  | none => throw .isADirectory
  | some last =>
    let (dir, name) ← v.parentOf start names last
    let ino ← v.entry dir name
    if v.isDirectory ino then throw .isADirectory else return v.unbind dir name ino

/-! ## Attributes and times -/

/-- The node a path leads to. -/
def find (v : Volume) (start : Ino) (follow : Bool) (l : Locator) : Except HostError Ino := do
  match ← v.locate ⟨true, follow, false⟩ start l with
  | .node ino => return ino
  | .vacant _ _ => throw .noEntry

/-- The attributes of what a path leads to. -/
def stat (v : Volume) (start : Ino) (l : Locator) : Except HostError Attributes :=
  (v.find start true l).map v.attributes

/-- The attributes of what a path names, a link in the last place not followed.  A
single name is looked at as it stands in the start, whatever dot comes behind it. -/
def statLink (v : Volume) (start : Ino) (l : Locator) : Except HostError Attributes :=
  match l.names with
  | [name] => (v.entry start name).map v.attributes
  | _ => (v.find start false l).map v.attributes

/-- Sets the times of what a path leads to.  It is opened for that, for writing where
that can be done, and directories for reading. -/
def setTimesAt (v : Volume) (ends : Ino → Ends) (start : Ino) (l : Locator) (u : TimeUpdates) :
    Except HostError Volume :=
  match v.openFile ends start l .forWriting with
  | .ok (ino, v) => .ok (v.setTimes ino u)
  | .error .isADirectory => (v.find start true l).map fun ino => v.setTimes ino u
  | .error e => .error e

/-- Sets the times of what a path names, a link in the last place not followed.  With
a dot behind it the path names the directory it leads to.  Nothing is looked at if
nothing is to be set. -/
def setLinkTimes (v : Volume) (start : Ino) (l : Locator) (u : TimeUpdates) :
    Except HostError Volume := do
  match l.names.getLast? with
  | none => return v.setTimes start u
  | some last =>
    if l.dot then
      let ino ← v.openDirectory start true l
      return v.setTimes ino u
    else
      let (dir, name) ← v.parentOf start l.names last
      if u = ⟨.unchanged, .unchanged⟩ then return v
      else return v.setTimes (← v.entry dir name) u

end Volume

end Hostcall
