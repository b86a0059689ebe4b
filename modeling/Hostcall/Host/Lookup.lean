import Hostcall.Host.Volume
import Hostcall.Path

/-!
# Looking up host paths

The host reads a path component by component from a directory it holds.  A symbolic
link in the middle is followed, one at the end only on request, and at most
`Lookup.linkBudget` links are followed in all.  A lookup beneath its start refuses an
absolute link and every step above the start.

* `Locator` is a path handed to the host;
* `Place` is where a lookup ends: a node, or a free name in a directory;
* `Lookup.scan` reads components up to the next link, `Lookup.walk` goes on behind
  links;
* `Volume.locate` looks a path up.
-/

namespace Hostcall

/-- A path handed to the host: names, and a final `.` that only a directory has. -/
structure Locator where
  names : List Name
  dot : Bool
  deriving DecidableEq, Repr, Inhabited

namespace Locator

/-- The components of a path. -/
def components (l : Locator) : List Component :=
  l.names.map Component.name ++ (if l.dot then [.current] else [])

/-- How many bytes a path takes as text; the empty one is written as `.`. -/
def textLength (l : Locator) : Nat :=
  if l.names = [] then 1
  else totalSize (l.names.map fun name => name.length + 1) - 1 + (if l.dot then 2 else 0)

end Locator

/-- Where a lookup ends. -/
inductive Place where
  | node (ino : Ino)
  /-- A name that the directory does not bind. -/
  | vacant (dir : Ino) (name : Name)
  deriving DecidableEq, Repr, Inhabited

namespace Lookup

/-- How a path is looked up. -/
structure Mode where
  /-- The lookup stays beneath its start. -/
  beneath : Bool
  /-- A link in the last place is followed. -/
  follow : Bool
  /-- The last name is about to be created. -/
  creating : Bool
  deriving DecidableEq, Repr, Inhabited

/-- What is still to be read. -/
structure Route where
  components : List Component
  /-- The text ended in a slash, so only a directory will do. -/
  slashed : Bool
  deriving DecidableEq, Repr, Inhabited

/-- The target of a link, and behind it what was still to be read. -/
def Route.through (target : Bytes) (rest : List Component) (slashed : Bool) : Route :=
  ⟨Hostcall.components target ++ rest,
    slashed || (rest.isEmpty && target.getLast? == some slash)⟩

/-- The most links one lookup follows. -/
def linkBudget : Nat := 40

/-- The longest name. -/
def nameLimit : Nat := 255

/-- The longest path. -/
def pathLimit : Nat := 4095

/-- The answer of a lookup. -/
abbrev Answer := Except HostError Place

/-- Reads components from a directory, whose ancestors down from the start are given
with the nearest first.  A link that has to be followed is handed to `onLink` with the
place it was met in and the route behind it. -/
def scan (v : Volume) (mode : Mode) (onLink : Ino → List Ino → Route → Answer) :
    Ino → List Ino → List Component → Bool → Answer
  | dir, _, [], _ => .ok (.node dir)
  | dir, above, .current :: rest, slashed => scan v mode onLink dir above rest slashed
  | dir, above, .root :: rest, slashed =>
    if mode.beneath then .error .crossDevice
    else scan v mode onLink (above.getLastD dir) [] rest slashed
  | dir, above, .parent :: rest, slashed =>
    match above with
    | parent :: above => scan v mode onLink parent above rest slashed
    | [] =>
      if mode.beneath then .error .crossDevice
      else scan v mode onLink dir [] rest slashed
  | dir, above, .name name :: rest, slashed =>
    if mode.creating ∧ rest = [] ∧ slashed then .error .isADirectory
    else if nameLimit < name.length then .error .nameTooLong
    else
      match v.child? dir name with
      | none => if rest = [] then .ok (.vacant dir name) else .error .noEntry
      | some ino =>
        match v.body ino with
        | .directory _ => scan v mode onLink ino (dir :: above) rest slashed
        | .link target =>
          if rest = [] ∧ !slashed ∧ !mode.follow then .ok (.node ino)
          else onLink dir above (.through target rest slashed)
        | _ => if rest = [] ∧ !slashed then .ok (.node ino) else .error .notADirectory

/-- Reads a route and goes on behind links, of which so many may be followed. -/
def walk (v : Volume) (mode : Mode) : Nat → Ino → List Ino → Route → Answer
  | 0, dir, above, route =>
    scan v mode (fun _ _ _ => .error .symlinkLoop) dir above route.components route.slashed
  | budget + 1, dir, above, route =>
    scan v mode (walk v mode budget) dir above route.components route.slashed

end Lookup

/-- Looks up a path from a directory. -/
def Volume.locate (v : Volume) (mode : Lookup.Mode) (start : Ino) (l : Locator) : Lookup.Answer :=
  if Lookup.pathLimit < l.textLength then .error .nameTooLong
  else Lookup.walk v mode Lookup.linkBudget start [] ⟨l.components, false⟩

end Hostcall
