import Hostcall.Proofs.Table
import Mathlib.Data.List.Find

/-!
# Tables as finite maps

A table of resources answers like a partial map from the ids below `Table.capacity`.

* `TableRequest` is one operation, `Table.answer` carries it out on a table;
* `Bindings` is the partial map, and `Bindings.answer` says for each operation what it
  answers and what is bound afterwards;
* `Table.Represents` ties a table to its map, and `Table.Represents.answer` shows that an
  operation keeps them tied and answers the same.
-/

namespace Hostcall

/-! ## Operations -/

inductive TableRequest (α : Type) where
  | insertAt (id : Nat) (x : α)
  | allocate (x : α)
  | close (id : Nat)
  | renumber (source target : Nat)
  | get (id : Nat)
  /-- The resource is handed out to be changed in place. -/
  | getMut (id : Nat) (change : α → α)
  | contains (id : Nat)
  | keys
  | size
  | isEmpty

/-- What an operation that succeeds gives back. -/
inductive TableReply (α : Type) where
  | resource (x : α)
  /-- What an id held before, if anything. -/
  | held (x : Option α)
  | id (n : Nat)
  | flag (b : Bool)
  | ids (l : List Nat)
  | count (n : Nat)

namespace Table

variable {α : Type}

/-- Hands out the resource of an id, which is changed in place. -/
def getMut (t : Table α) (id : Nat) (change : α → α) : Outcome α × Table α :=
  match t.get id with
  | .ok x => (.ok x, t.update id (change x))
  | .error fault => (.error fault, t)

def answer (t : Table α) : TableRequest α → Outcome (TableReply α) × Table α
  | .insertAt id x => ((t.insertAt id x).1.map .held, (t.insertAt id x).2)
  | .allocate x => ((t.allocate x).1.map .id, (t.allocate x).2)
  | .close id => ((t.close id).1.map .resource, (t.close id).2)
  | .renumber source target =>
    ((t.renumber source target).1.map .held, (t.renumber source target).2)
  | .get id => ((t.get id).map .resource, t)
  | .getMut id change => ((t.getMut id change).1.map .resource, (t.getMut id change).2)
  | .contains id => (.ok (.flag (t.contains id)), t)
  | .keys => (.ok (.ids t.keys), t)
  | .size => (.ok (.count t.size), t)
  | .isEmpty => (.ok (.flag t.isEmpty), t)

def answers (t : Table α) : List (TableRequest α) → List (Outcome (TableReply α)) × Table α
  | [] => ([], t)
  | r :: rest =>
    let (later, last) := (t.answer r).2.answers rest
    ((t.answer r).1 :: later, last)

end Table

/-! ## Finite maps -/

/-- A partial map from the ids below `Table.capacity` to resources. -/
structure Bindings (α : Type) where
  /-- The resource bound to an id. -/
  at? : Nat → Option α
  bounded : ∀ id, Table.capacity ≤ id → at? id = none

namespace Bindings

variable {α : Type}

def empty : Bindings α where
  at? _ := none
  bounded _ _ := rfl

/-- The map with one id bound to something else, or to nothing. -/
def set (m : Bindings α) (id : Nat) (slot : Option α) : Bindings α where
  at? j := if j = id ∧ j < Table.capacity then slot else m.at? j
  bounded j hj := by rw [if_neg (by omega), m.bounded j hj]

/-- The least id from `Table.firstAllocated` on that is not bound. -/
def leastFree? (m : Bindings α) : Option Nat :=
  (List.range' Table.firstAllocated (Table.capacity - Table.firstAllocated)).find? fun id =>
    (m.at? id).isNone

/-- The bound ids, ascending. -/
def ids (m : Bindings α) : List Nat :=
  (List.range Table.capacity).filter fun id => (m.at? id).isSome

/-- What an operation answers, and what is bound after it. -/
def answer (m : Bindings α) : TableRequest α → Except Errno (TableReply α) × Bindings α
  | .insertAt id x =>
    if id < Table.capacity then (.ok (.held (m.at? id)), m.set id (some x))
    else (.error .badFileDescriptor, m)
  | .allocate x =>
    match m.leastFree? with
    | some id => (.ok (.id id), m.set id (some x))
    | none => (.error .tooManyOpenFiles, m)
  | .close id =>
    match m.at? id with
    | some x => (.ok (.resource x), m.set id none)
    | none => (.error .badFileDescriptor, m)
  | .renumber source target =>
    match m.at? source with
    | some x =>
      if Table.capacity ≤ target then (.error .badFileDescriptor, m)
      else if source = target then (.ok (.held none), m)
      else (.ok (.held (m.at? target)), (m.set target (some x)).set source none)
    | none => (.error .badFileDescriptor, m)
  | .get id =>
    match m.at? id with
    | some x => (.ok (.resource x), m)
    | none => (.error .badFileDescriptor, m)
  | .getMut id change =>
    match m.at? id with
    | some x => (.ok (.resource x), m.set id (some (change x)))
    | none => (.error .badFileDescriptor, m)
  | .contains id => (.ok (.flag (m.at? id).isSome), m)
  | .keys => (.ok (.ids m.ids), m)
  | .size => (.ok (.count m.ids.length), m)
  | .isEmpty => (.ok (.flag m.ids.isEmpty), m)

/-- The answers of operations one after another, and what is bound in the end. -/
def answers (m : Bindings α) :
    List (TableRequest α) → List (Except Errno (TableReply α)) × Bindings α
  | [] => ([], m)
  | r :: rest =>
    let (later, last) := (m.answer r).2.answers rest
    ((m.answer r).1 :: later, last)

theorem lt_capacity_of_at? {m : Bindings α} {id : Nat} {x : α} (h : m.at? id = some x) :
    id < Table.capacity := by
  by_contra hid
  rw [m.bounded id (Nat.not_lt.mp hid)] at h
  cases h

theorem at?_set {id : Nat} (h : id < Table.capacity) (m : Bindings α) (slot : Option α) (j : Nat) :
    (m.set id slot).at? j = if j = id then slot else m.at? j := by
  rw [set]
  by_cases hj : j = id
  · simp [hj, h]
  · simp [hj]

theorem leastFree?_lt {m : Bindings α} {id : Nat} (h : m.leastFree? = some id) :
    id < Table.capacity := by
  have hbounds : Table.firstAllocated ≤ Table.capacity := by decide
  rw [leastFree?] at h
  have := List.mem_range'_1.mp (List.mem_of_find?_eq_some h)
  omega

end Bindings

/-! ## A table and its map -/

/-- An outcome with nothing but the error number of its fault. -/
def told {β : Type} (o : Outcome β) : Except (Option Errno) β := o.mapError Fault.errno?

namespace Table

variable {α : Type} {t : Table α} {m : Bindings α}

/-- A table binds what a map says. -/
structure Represents (t : Table α) (m : Bindings α) : Prop where
  bounded : t.Bounded
  agrees : ∀ id, t.get? id = m.at? id

/-- An operation answers as on the map, and leaves a table that represents what the map
has become. -/
def Follows (t : Table α) (m : Bindings α) (r : TableRequest α) : Prop :=
  told (t.answer r).1 = (m.answer r).1.mapError some ∧ (t.answer r).2.Represents (m.answer r).2

namespace Represents

theorem empty : (Table.empty : Table α).Represents Bindings.empty where
  bounded := Nat.zero_le _
  agrees id := by simp [Bindings.empty]

theorem contains_eq (h : t.Represents m) (id : Nat) : t.contains id = (m.at? id).isSome := by
  rw [contains, h.agrees]

theorem keys_eq (h : t.Represents m) : t.keys = m.ids := by
  rw [keys_eq_filter_range h.bounded, Bindings.ids]
  exact List.filter_congr fun id _ => h.contains_eq id

theorem leastFree?_eq (h : t.Represents m) : t.leastFree? = m.leastFree? := by
  rw [Table.leastFree?, Bindings.leastFree?]
  refine List.find?_congr fun id _ => ?_
  rw [h.contains_eq, Option.not_isSome]

theorem insertAt (h : t.Represents m) (id : Nat) (x : α) : t.Follows m (.insertAt id x) := by
  simp only [Follows, answer, Bindings.answer, insertAt_fst, h.agrees]
  by_cases hid : id < capacity
  · simp only [hid, if_true]
    refine ⟨rfl, h.bounded.insertAt id x, fun j => ?_⟩
    rw [get?_insertAt hid, Bindings.at?_set hid, h.agrees]
  · simp only [hid, if_false]
    rw [insertAt_snd_of_le (Nat.not_lt.mp hid)]
    exact ⟨rfl, h⟩

theorem allocate (h : t.Represents m) (x : α) : t.Follows m (.allocate x) := by
  simp only [Follows, answer, Bindings.answer, allocate_fst, h.leastFree?_eq]
  have hbounded := h.bounded.allocate x
  cases hfree : m.leastFree? with
  | none =>
    -- a full table binds nothing new
    refine ⟨rfl, hbounded, fun j => ?_⟩
    rw [get?_allocate, h.leastFree?_eq, hfree, h.agrees]
    rfl
  | some id =>
    refine ⟨rfl, hbounded, fun j => ?_⟩
    rw [get?_allocate, h.leastFree?_eq, hfree, h.agrees,
      Bindings.at?_set (Bindings.leastFree?_lt hfree)]
    simp [eq_comm]

theorem close (h : t.Represents m) (id : Nat) : t.Follows m (.close id) := by
  simp only [Follows, answer, Bindings.answer, close_fst, get, h.agrees]
  cases hid : m.at? id with
  | none =>
    rw [close_snd_of_none (by rw [h.agrees, hid])]
    exact ⟨rfl, h⟩
  | some x =>
    refine ⟨rfl, h.bounded.close id, fun j => ?_⟩
    rw [get?_close, Bindings.at?_set (Bindings.lt_capacity_of_at? hid), h.agrees]

theorem renumber (h : t.Represents m) (source target : Nat) :
    t.Follows m (.renumber source target) := by
  simp only [Follows, answer, Bindings.answer]
  cases hx : m.at? source with
  | none =>
    have hnone : t.get? source = none := by rw [h.agrees, hx]
    rw [renumber_fst_of_none hnone, renumber_snd_of_none hnone]
    exact ⟨rfl, h⟩
  | some x =>
    have hsome : t.get? source = some x := by rw [h.agrees, hx]
    by_cases htarget : target < capacity
    case neg =>
      have hle := Nat.not_lt.mp htarget
      simp only [if_pos hle]
      rw [renumber_fst_of_le hsome hle, renumber_snd_of_le hle]
      exact ⟨rfl, h⟩
    case pos =>
      simp only [if_neg (Nat.not_le.mpr htarget)]
      rw [renumber_fst_of_lt hsome htarget]
      by_cases hne : source = target
      · -- an id is not unbound by moving it to itself
        subst hne
        rw [renumber_self_snd]
        simp only [if_true]
        exact ⟨rfl, h⟩
      · simp only [hne, if_false, h.agrees]
        refine ⟨rfl, h.bounded.renumber source target, fun j => ?_⟩
        rw [get?_renumber hsome htarget hne, Bindings.at?_set (Bindings.lt_capacity_of_at? hx),
          Bindings.at?_set htarget, h.agrees]

theorem getMut (h : t.Represents m) (id : Nat) (change : α → α) :
    t.Follows m (.getMut id change) := by
  simp only [Follows, answer, Bindings.answer, Table.getMut, get, h.agrees]
  cases hid : m.at? id with
  | none => exact ⟨rfl, h⟩
  | some x =>
    refine ⟨rfl, h.bounded.update id (change x), fun j => ?_⟩
    rw [get?_update, h.contains_eq, hid, h.agrees,
      Bindings.at?_set (Bindings.lt_capacity_of_at? hid)]
    simp

theorem answer (h : t.Represents m) (r : TableRequest α) : t.Follows m r := by
  cases r with
  | insertAt id x => exact h.insertAt id x
  | allocate x => exact h.allocate x
  | close id => exact h.close id
  | renumber source target => exact h.renumber source target
  | getMut id change => exact h.getMut id change
  | get id =>
    simp only [Follows, Table.answer, Bindings.answer, Table.get, h.agrees]
    cases m.at? id <;> exact ⟨rfl, h⟩
  | contains id =>
    simp only [Follows, Table.answer, Bindings.answer, h.contains_eq]
    exact ⟨rfl, h⟩
  | keys =>
    simp only [Follows, Table.answer, Bindings.answer, h.keys_eq]
    exact ⟨rfl, h⟩
  | size =>
    simp only [Follows, Table.answer, Bindings.answer, Table.size, h.keys_eq]
    exact ⟨rfl, h⟩
  | isEmpty =>
    simp only [Follows, Table.answer, Bindings.answer, Table.isEmpty, Table.size, h.keys_eq]
    refine ⟨?_, h⟩
    cases m.ids <;> rfl

theorem answers (h : t.Represents m) (requests : List (TableRequest α)) :
    (t.answers requests).1.map told = (m.answers requests).1.map (Except.mapError some) ∧
      (t.answers requests).2.Represents (m.answers requests).2 := by
  -- on the history, for every table and map that one operation leaves tied
  induction requests generalizing t m with
  | nil => exact ⟨rfl, h⟩
  | cons r rest ih =>
    obtain ⟨hreply, hnext⟩ := h.answer r
    obtain ⟨hlater, hlast⟩ := ih hnext
    refine ⟨?_, hlast⟩
    simp only [Table.answers, Bindings.answers, List.map_cons, hreply, hlater]

end Represents

/-- An operation that fails gives back the very table it was given. -/
theorem answer_unchanged_or_ok (t : Table α) (r : TableRequest α) :
    (t.answer r).2 = t ∨ ∃ reply, (t.answer r).1 = .ok reply := by
  cases r with
  | insertAt id x =>
    by_cases hid : id < capacity
    · right
      exact ⟨_, by simp only [answer, insertAt_fst, if_pos hid]; rfl⟩
    · left
      exact insertAt_snd_of_le (Nat.not_lt.mp hid) t x
  | allocate x =>
    cases hfree : t.leastFree? with
    | some id =>
      right
      exact ⟨_, by simp only [answer, allocate_fst, hfree]; rfl⟩
    | none =>
      left
      exact allocate_snd_of_none hfree x
  | close id =>
    cases hid : t.get? id with
    | some x =>
      right
      exact ⟨_, by simp only [answer, close_fst, get, hid]; rfl⟩
    | none =>
      left
      exact close_snd_of_none hid
  | renumber source target =>
    cases hx : t.get? source with
    | none =>
      left
      exact renumber_snd_of_none hx target
    | some x =>
      by_cases htarget : target < capacity
      · right
        exact ⟨_, by simp only [answer, renumber_fst_of_lt hx htarget]; rfl⟩
      · left
        exact renumber_snd_of_le (Nat.not_lt.mp htarget) t source
  | getMut id change =>
    cases hid : t.get? id with
    | some x =>
      right
      exact ⟨_, by simp only [answer, getMut, get, hid]; rfl⟩
    | none =>
      left
      simp only [answer, getMut, get, hid]
  | get id | contains id | keys | size | isEmpty => exact .inl rfl

/-- A table behaves as a finite partial map over every history: every operation answers
as on the map, the same ids stay bound to the same resources, and whatever comes next
either succeeds or leaves the table alone. -/
theorem answers_empty_eq_bindings (requests : List (TableRequest α)) :
    ((empty : Table α).answers requests).1.map told =
        (Bindings.empty.answers requests).1.map (Except.mapError some) ∧
      (∀ id, ((empty : Table α).answers requests).2.get? id =
        (Bindings.empty.answers requests).2.at? id) ∧
      ∀ r : TableRequest α,
        (((empty : Table α).answers requests).2.answer r).2 =
            ((empty : Table α).answers requests).2 ∨
          ∃ reply, (((empty : Table α).answers requests).2.answer r).1 = .ok reply := by
  obtain ⟨hreplies, hlast⟩ := Represents.empty.answers requests
  exact ⟨hreplies, hlast.agrees, answer_unchanged_or_ok _⟩

end Table

end Hostcall
