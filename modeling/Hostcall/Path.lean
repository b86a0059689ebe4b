import Hostcall.Bytes
import Hostcall.Fault
import Hostcall.Text.Quoted

/-!
# Guest paths

A guest path is read relative to a directory.  `normalize` joins it onto that
directory's place below its root and folds it, by its text alone, into a list of
names; a path that climbs above the root is refused.  What links on the host make
of those names is not decided here.

* `components` splits a host path, `segments` a guest path;
* `walk` is the stack machine that folds segments: a name is pushed, `..` pops,
  `.` and the empty segment are skipped;
* `normalize` runs the machine, and `Canonical` is its answer.
-/

namespace Hostcall

/-- One component of a host path. -/
inductive Component where
  | root
  | current
  | parent
  | name (b : Bytes)
  deriving DecidableEq, Repr

/-- The byte between the names of a path. -/
def slash : UInt8 := 47

/-- The names `.` and `..` on the host. -/
def dotName : Bytes := [46]
def dotDotName : Bytes := [46, 46]

/-- Reads one piece between slashes; an empty one stands for nothing. -/
def Component.ofPiece? (b : Bytes) : Option Component :=
  if b = [] then none
  else if b = dotName then some .current
  else if b = dotDotName then some .parent
  else some (.name b)

/-- The components of a host path, in order. -/
def components (path : Bytes) : List Component :=
  let pieces := (path.splitOn slash).filterMap Component.ofPiece?
  if path.head? = some slash then .root :: pieces else pieces

/-- The pieces of a guest path between its slashes, empty ones included. -/
def segments (path : String) : List String := (path.toList.splitOn '/').map String.ofList

/-- A guest path folded below its root. -/
structure Canonical where
  /-- The names from the root down. -/
  names : List String
  /-- The guest wrote a trailing slash: only a directory will do. -/
  mustBeDir : Bool
  deriving DecidableEq, Repr, Inhabited

/-- Names joined to a path; no names give the empty path. -/
def joinNames (names : List String) : String := "/".intercalate names

/-- The path below the root as text. -/
def Canonical.relative (c : Canonical) : String := joinNames c.names

namespace Path

/-- The names of a base path, or the fault of its first unfit component. -/
def baseNames : List Component → Outcome (List String)
  | [] => .ok []
  | .current :: rest => baseNames rest
  | .name b :: rest =>
    match text? b with
    | none => .error (.because .illegalByteSequence "base path")
    | some s => (baseNames rest).map (s :: ·)
  | .root :: _ | .parent :: _ =>
    .error (.because .notCapable "base path is not root-relative")

/-- Folds one segment into the names so far, the last name on top.  There is no
name to pop at the root. -/
def step (stack : List String) (segment : String) : Option (List String) :=
  if segment = "" ∨ segment = "." then some stack
  else if segment = ".." then
    match stack with
    | [] => none
    | _ :: below => some below
  else some (segment :: stack)

/-- Folds segments in order. -/
def walk : List String → List String → Option (List String)
  | stack, [] => some stack
  | stack, segment :: rest => (step stack segment).bind (walk · rest)

end Path

/-- Joins a guest path onto a base path and folds the result.  Of several faults
the first of these wins: an empty path, a NUL in it, a leading slash, an unfit
base, a step above the root. -/
def normalize (base : Bytes) (path : String) : Outcome Canonical :=
  let chars := path.toList
  if chars = [] then .error (.because .noSuchFileOrDirectory "empty path")
  else if '\x00' ∈ chars then .error (.because .illegalByteSequence "path contains NUL")
  else if chars.head? = some '/' then
    .error (.because .notCapable ("absolute path " ++ quoted path))
  else
    match Path.baseNames (components base) with
    | .error fault => .error fault
    | .ok names =>
      match Path.walk names.reverse (segments path) with
      | none => .error (.because .notCapable ("path " ++ quoted path ++ " escapes its root"))
      | some stack => .ok ⟨stack.reverse, chars.getLast? = some '/'⟩

end Hostcall
