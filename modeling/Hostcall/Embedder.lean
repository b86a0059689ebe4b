import Hostcall.Host.Ambient
import Hostcall.World

/-!
# Building a context

What the program that runs a guest gives to it, before the guest runs and while it
does.

* `World.fresh` is a guest that holds nothing but three idle streams;
* `World.pushArg`, `World.pushEnv`, `World.setStdio`, `World.pushFile` and
  `World.pushPreopen` give it something more;
* `Setting` is one request to a builder, and `World.build` follows a list of them,
  going on behind those that fail.
-/

namespace Hostcall

namespace World

/-! ## Giving to a guest -/

/-- Puts a stream under the id of its kind. -/
def setStdio (w : World) (kind : StdioKind) (stream : Stream) : World :=
  w.withTable (w.table.insertAt kind.fd (.stdio ⟨kind, stream⟩)).2

/-- Makes a pipe over a device that is read. -/
def addReader (w : World) (device : Reader) : Stream × World :=
  let (stream, streams) := w.host.streams.addReader device
  (stream, w.withStreams streams)

/-- Makes a pipe over a device that is written. -/
def addWriter (w : World) (device : Writer) : Stream × World :=
  let (stream, streams) := w.host.streams.addWriter device
  (stream, w.withStreams streams)

/-- A guest that holds nothing but an input at its end and two outputs that keep
nothing. -/
def fresh (host : Host) (random : KeyStream) : World :=
  let w : World := ⟨⟨.empty, .empty, random, .empty, []⟩, host⟩
  let (input, w) := w.addReader .empty
  let (output, w) := (w.setStdio .stdin input).addWriter .sink
  let (errors, w) := (w.setStdio .stdout output).addWriter .sink
  w.setStdio .stderr errors

/-- Appends an argument. -/
def pushArg (w : World) (arg : String) : Except StringListError World :=
  (w.context.args.push arg).map fun args => { w with context := { w.context with args } }

/-- Appends a variable of the environment. -/
def pushEnv (w : World) (key value : String) : Except StringListError World :=
  (w.context.env.push (key ++ "=" ++ value)).map fun env =>
    { w with context := { w.context with env } }

/-- Gives an open file to the guest. -/
def pushFile (w : World) (handle : Handle) (access : Access) : Step Nat :=
  w.allocate (.file ⟨handle, access⟩)

/-- Opens a host file by path and gives it to the guest. -/
def pushHostFile (w : World) (path : Bytes) (reads writes : Bool) (access : Access) : Step Nat :=
  let request := { OpenRequest.forReading with read := reads, write := writes }
  match w.volume.openHostFile w.ends path request with
  | .error e => (.error (.ofHost e), w)
  | .ok (ino, volume) => (w.withVolume volume).pushFile (request.handle ino) access

/-- Grants a host directory to the guest and gives its root an id. -/
def pushPreopen (w : World) (host : String) (guest : Bytes) : Step Nat :=
  match w.volume.openHostDirectory (utf8 host) with
  | .error e => (.error ((Fault.ofHost e).context ("opening " ++ host)), w)
  | .ok root =>
    (w.allocate (.directory (.root w.context.preopens.length guest root))).andThen fun fd w =>
      let preopens := w.context.preopens ++ [⟨fd, guest, host, root⟩]
      (.ok fd, { w with context := { w.context with preopens } })

/-- Puts a stream under a given id, whatever its kind, and hands back what the id
held. -/
def placeStdio (w : World) (fd : Nat) (kind : StdioKind) (stream : Stream) :
    Step (Option Descriptor) :=
  let (outcome, table) := w.table.insertAt fd (.stdio ⟨kind, stream⟩)
  (outcome, w.withTable table)

/-- Puts a stream under many ids in a row, up to the first that cannot be bound. -/
def fillStdio (w : World) (first count : Nat) (kind : StdioKind) (stream : Stream) : Step Unit :=
  let (outcome, table) := w.table.insertRange first count (.stdio ⟨kind, stream⟩)
  (outcome, w.withTable table)

/-- Takes the resource of an id out of the table, without a flush. -/
def takeOut (w : World) (fd : Nat) : Step Descriptor :=
  let (outcome, table) := w.table.close fd
  (outcome, w.withTable table)

end World

/-! ## Builders -/

/-- One request to a builder. -/
inductive Setting where
  | arg (s : String)
  | args (list : List String)
  | env (key value : String)
  | envs (list : List (String × String))
  | stdio (kind : StdioKind) (stream : Stream)
  | preopen (host : String) (guest : Bytes)
  deriving Repr

/-- Why a builder refused a request. -/
inductive SettingError where
  | string (e : StringListError)
  | fault (f : Fault)
  deriving Repr

namespace World

/-- Appends strings up to the first that is refused. -/
def pushAll {α : Type} (push : World → α → Except StringListError World) :
    World → List α → Except StringListError Unit × World
  | w, [] => (.ok (), w)
  | w, a :: rest =>
    match push w a with
    | .error e => (.error e, w)
    | .ok w => pushAll push w rest

/-- Follows one request.  A list of strings that holds a refused one leaves those
before it behind. -/
def configure (w : World) : Setting → Except SettingError Unit × World
  | .arg s => strings (pushAll pushArg w [s])
  | .args list => strings (pushAll pushArg w list)
  | .env key value => strings (pushAll pushVariable w [(key, value)])
  | .envs list => strings (pushAll pushVariable w list)
  | .stdio kind stream => (.ok (), w.setStdio kind stream)
  | .preopen host guest =>
    match w.pushPreopen host guest with
    | (.ok _, w) => (.ok (), w)
    | (.error f, w) => (.error (.fault f), w)
where
  pushVariable (w : World) (v : String × String) := w.pushEnv v.1 v.2
  strings : Except StringListError Unit × World → Except SettingError Unit × World
    | (.ok (), w) => (.ok (), w)
    | (.error e, w) => (.error (.string e), w)

/-- Follows requests one after another, and goes on behind those that fail. -/
def build (w : World) : List Setting → World
  | [] => w
  | s :: rest => (w.configure s).2.build rest

end World

end Hostcall
