import Hostcall.World

/-!
# Calls on paths

Each resolves its path against a directory first, and fails with the fault of that
before it asks anything of the host.  What a failed call asked of the host before it
failed stays done.
-/

namespace Hostcall

namespace World

/-- Makes a directory. -/
def pathCreateDirectory (w : World) (dirfd : Nat) (path : String) : Step Unit :=
  w.changed do (← w.resolve dirfd path).makeDirectory w.volume

/-- Removes an empty directory. -/
def pathRemoveDirectory (w : World) (dirfd : Nat) (path : String) : Step Unit :=
  w.changed do (← w.resolve dirfd path).removeDirectory w.volume

/-- Removes a name of anything but a directory. -/
def pathUnlinkFile (w : World) (dirfd : Nat) (path : String) : Step Unit :=
  w.changed do (← w.resolve dirfd path).unlink w.volume

/-- What a guest is told of the node a path leads to. -/
def pathFilestatGet (w : World) (dirfd : Nat) (lookup : LookupFlags) (path : String) :
    Outcome Filestat := do
  let resolved ← w.resolve dirfd path
  Filestat.ofAttributes
    (← resolved.stat w.volume (lookup.contains LookupFlags.symlinkFollow))

/-- Sets the times of the node a path leads to. -/
def pathFilestatSetTimes (w : World) (dirfd : Nat) (lookup : LookupFlags) (path : String)
    (request : TimeRequest) : Step Unit :=
  w.changed do
    let updates ← request.updates
    let resolved ← w.resolve dirfd path
    resolved.setTimes w.volume w.ends (lookup.contains LookupFlags.symlinkFollow) updates

/-- Opens what a path leads to and gives it the least free id.  The rights say what the
descriptor may be used for; those for what is opened beneath it change nothing. -/
def pathOpen (w : World) (dirfd : Nat) (lookup : LookupFlags) (path : String)
    (flags : OpenFlags) (rights _inheriting : Rights) (fdFlags : FdFlags) : Step Nat :=
  match w.resolve dirfd path with
  | .error fault => (.error fault, w)
  | .ok resolved =>
    let (opened, volume) := resolved.openNode w.volume w.ends
      (lookup.contains LookupFlags.symlinkFollow) flags (Access.ofRights rights) fdFlags
    let w := w.withVolume volume
    match opened with
    | .error fault => (.error fault, w)
    | .ok d => w.allocate d

end World

end Hostcall
