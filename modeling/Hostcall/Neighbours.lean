import Hostcall.Host.Ambient
import Hostcall.World

/-!
# Other programs of the host

What happens around a guest while it runs.  Nothing here goes through the guest's
context, and nothing here is bounded by its preopens.

* `World.onVolume` lets another program change the file system;
* `World.hostRead` and `World.hostWrite` read and write whole files;
* `World.peerOpen`, `World.peerRead`, `World.peerWrite` and `World.peerClose` are
  another program's use of a named pipe.
-/

namespace Hostcall

namespace World

/-- Another program changes the file system. -/
def onVolume (w : World) (change : Volume → Except HostError Volume) : Step Unit :=
  w.changed (fromHost (change w.volume))

/-- The whole of a file. -/
def hostRead (w : World) (path : Bytes) : Outcome Bytes := do
  let (ino, v) ← fromHost (w.volume.openHostFile w.ends path .forReading)
  match v.body ino with
  | .file content => return content.toList
  | _ => throw (.ofHost .isADirectory)

/-- Makes given bytes the whole of a file, which is created if it is missing. -/
def hostWrite (w : World) (path data : Bytes) : Step Unit :=
  w.changed do
    let request := { OpenRequest.forWriting with create := true, truncate := true }
    let (ino, v) ← fromHost (w.volume.openHostFile w.ends path request)
    return v.replaceBody ino (.file (.ofBytes data))

/-! ## Named pipes -/

/-- The handle of a given name. -/
def peer (w : World) (name : String) : Outcome Handle :=
  match w.host.peers.lookup name with
  | some handle => .ok handle
  | none => .error (.ofHost .badDescriptor)

/-- Drops the handle of a given name. -/
def withoutPeer (w : World) (name : String) : World :=
  { w with host := { w.host with peers := w.host.peers.filter fun p => p.1 != name } }

/-- Keeps a handle under a name. -/
def withPeer (w : World) (name : String) (handle : Handle) : World :=
  let w := w.withoutPeer name
  { w with host := { w.host with peers := w.host.peers ++ [(name, handle)] } }

/-- Another program opens a named pipe without waiting for its other end. -/
def peerOpen (w : World) (name : String) (path : Bytes) (reads writes : Bool) : Step Unit :=
  let request := { OpenRequest.forReading with read := reads, write := writes, nonblock := true }
  match w.volume.openHostFile w.ends path request with
  | .error e => (.error (.ofHost e), w)
  | .ok (ino, volume) => (.ok (), (w.withVolume volume).withPeer name (request.handle ino))

/-- Another program writes to its end. -/
def peerWrite (w : World) (name : String) (data : Bytes) : Step Nat :=
  match w.peer name with
  | .error fault => (.error fault, w)
  | .ok handle =>
    match handle.write w.volume (w.ends handle.ino) [data] with
    | .error e => (.error (.ofHost e), w)
    | .ok (count, handle, volume) => (.ok count, (w.withVolume volume).withPeer name handle)

/-- Another program reads from its end. -/
def peerRead (w : World) (name : String) (count : Nat) : Step Bytes :=
  match w.peer name with
  | .error fault => (.error fault, w)
  | .ok handle =>
    match handle.read w.volume (w.ends handle.ino) [count] with
    | .error e => (.error (.ofHost e), w)
    | .ok (taken, handle, volume) => (.ok taken, (w.withVolume volume).withPeer name handle)

/-- Another program closes its end. -/
def peerClose (w : World) (name : String) : Step Unit := (.ok (), w.withoutPeer name)

end World

end Hostcall
