import Hostcall.Fault

/-!
# Tables of resources

A table binds ids below `Table.capacity` to resources.  An id is the index of a
slot, and a slot holds one resource or none, so an id never names two.

* `Table.insertAt` binds a given id, `Table.allocate` the least free id from 3 on;
* `Table.close` unbinds, `Table.renumber` moves a resource to another id;
* `Table.insertRange` and `Table.closeRange` do so for many ids;
* `Table.get?`, `Table.keys` and `Table.size` are the views.

Every operation gives back the table with its answer; a failed one gives back
the table it was given.
-/

namespace Hostcall

/-- Resources by id.  The slots end with an occupied one. -/
structure Table (α : Type) where
  slots : Array (Option α)

namespace Table

variable {α : Type}

/-- The bound on ids, itself excluded. -/
def capacity : Nat := 65536

/-- The least id `allocate` gives; those below are for the standard streams. -/
def firstAllocated : Nat := 3

/-- The table that binds nothing. -/
def empty : Table α := ⟨#[]⟩

instance : Inhabited (Table α) := ⟨empty⟩

/-- The resource at an id. -/
def get? (t : Table α) (id : Nat) : Option α := t.slots[id]?.join

/-- Whether an id is bound. -/
def contains (t : Table α) (id : Nat) : Bool := (t.get? id).isSome

/-- The fault of naming an id that is not bound. -/
def notOpen (id : Nat) : Fault :=
  .because .badFileDescriptor ("descriptor " ++ toString id ++ " is not open")

/-- The resource at an id, or the fault of its absence. -/
def get (t : Table α) (id : Nat) : Outcome α :=
  match t.get? id with
  | some x => .ok x
  | none => .error (notOpen id)

/-- Puts another resource in a bound slot and leaves an unbound one alone. -/
def update (t : Table α) (id : Nat) (x : α) : Table α :=
  if t.contains id then ⟨t.slots.setIfInBounds id (some x)⟩ else t

/-- Slots up to and with a given index. -/
def pad (slots : Array (Option α)) (index : Nat) : Array (Option α) :=
  if slots.size ≤ index then slots ++ Array.replicate (index + 1 - slots.size) none else slots

/-- Drops empty slots from the end. -/
def shrink (slots : Array (Option α)) : Array (Option α) :=
  if slots.back?.any Option.isNone then shrink slots.pop else slots
termination_by slots.size
decreasing_by
  rename_i h
  have : slots.size ≠ 0 := by
    intro hs
    simp [Array.back?, hs] at h
  simp
  omega

/-- The least empty slot from an index on, or the end of the slots. -/
def firstFree (slots : Array (Option α)) (index : Nat) : Nat :=
  if h : index < slots.size then
    match slots[index] with
    | none => index
    | some _ => firstFree slots (index + 1)
  else index
termination_by slots.size - index

/-- Binds an id and hands back what it held. -/
def insertAt (t : Table α) (id : Nat) (x : α) : Outcome (Option α) × Table α :=
  if id < capacity then
    let slots := pad t.slots id
    let held := slots[id]?.join
    (.ok held, ⟨slots.setIfInBounds id (some x)⟩)
  else
    (.error (.because .badFileDescriptor ("descriptor " ++ toString id ++ " is out of range")), t)

/-- Binds the least free id from 3 on. -/
def allocate (t : Table α) (x : α) : Outcome Nat × Table α :=
  let id := firstFree t.slots firstAllocated
  if id < capacity then
    (.ok id, ⟨(pad t.slots id).setIfInBounds id (some x)⟩)
  else
    (.error (.because .tooManyOpenFiles "descriptor table is full"), t)

/-- Unbinds an id and hands back its resource. -/
def close (t : Table α) (id : Nat) : Outcome α × Table α :=
  match t.get? id with
  | some x => (.ok x, ⟨shrink (t.slots.setIfInBounds id none)⟩)
  | none => (.error (notOpen id), t)

/-- Moves a resource to another id and hands back what that one held. -/
def renumber (t : Table α) (source target : Nat) : Outcome (Option α) × Table α :=
  match t.get? source with
  | none =>
    (.error (.because .badFileDescriptor
      ("renumber source " ++ toString source ++ " is not open")), t)
  | some x =>
    if target < capacity then
      if source = target then (.ok none, t)
      else
        let slots := pad t.slots target
        let held := slots[target]?.join
        (.ok held,
          ⟨shrink ((slots.setIfInBounds target (some x)).setIfInBounds source none)⟩)
    else
      (.error (.because .badFileDescriptor
        ("descriptor " ++ toString target ++ " is out of range")), t)

/-- Binds `count` ids from one on to the same resource, up to the first that cannot be
bound. -/
def insertRange (t : Table α) (first count : Nat) (x : α) : Outcome Unit × Table α :=
  match count with
  | 0 => (.ok (), t)
  | count + 1 =>
    match t.insertAt first x with
    | (.ok _, t) => t.insertRange (first + 1) count x
    | (.error fault, t) => (.error fault, t)

/-- Unbinds `count` ids from one on, up to the first that is not bound. -/
def closeRange (t : Table α) (first count : Nat) : Outcome Unit × Table α :=
  match count with
  | 0 => (.ok (), t)
  | count + 1 =>
    match t.close first with
    | (.ok _, t) => t.closeRange (first + 1) count
    | (.error fault, t) => (.error fault, t)

/-- The bound ids, ascending. -/
def keys (t : Table α) : List Nat := (List.range t.slots.size).filter t.contains

/-- How many ids are bound. -/
def size (t : Table α) : Nat := t.keys.length

/-- Whether nothing is bound. -/
def isEmpty (t : Table α) : Bool := t.size == 0

/-- The bound ids with their resources, ascending. -/
def toList (t : Table α) : List (Nat × α) :=
  t.keys.filterMap fun id => (t.get? id).map (id, ·)

end Table

end Hostcall
