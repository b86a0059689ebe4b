import Hostcall.Table
import Mathlib.Data.List.Basic

/-!
# What a table binds

The operations of `Table` are described by `Table.get?` alone: how many slots there are,
and where the empty ones lie, can be read off no answer.

* `get?_insertAt`, `get?_allocate`, `get?_close` and `get?_renumber` give what is bound after
  an operation, `insertAt_fst`, `allocate_fst`, `close_fst` and `renumber_fst_of_lt` its
  answer;
* `leastFree?` is the id that `allocate` looks for;
* `Bounded` holds of every table made from the empty one.
-/

namespace Hostcall

namespace Table

variable {α : Type}

/-! ## Slots -/

/-- The slots of every table made from `empty` lie below `capacity`. -/
def Bounded (t : Table α) : Prop := t.slots.size ≤ capacity

theorem size_pad (slots : Array (Option α)) (index : Nat) :
    (pad slots index).size = max slots.size (index + 1) := by
  rw [pad]
  split
  case isTrue h => simp only [Array.size_append, Array.size_replicate]; omega
  case isFalse h => omega

/-- Slots that are added bind nothing. -/
theorem join_getElem?_pad (slots : Array (Option α)) (index id : Nat) :
    (pad slots index)[id]?.join = slots[id]?.join := by
  rw [pad]
  split
  case isFalse => rfl
  case isTrue h =>
    rw [Array.getElem?_append]
    split
    case isTrue => rfl
    case isFalse hid =>
      rw [Array.getElem?_replicate, Array.getElem?_eq_none (by omega)]
      split <;> rfl

theorem size_shrink_le (slots : Array (Option α)) : (shrink slots).size ≤ slots.size := by
  fun_induction shrink slots with
  | case1 slots h ih =>
    rw [Array.size_pop] at ih
    omega
  | case2 slots h => exact Nat.le_refl _

/-- Slots that are dropped bound nothing. -/
theorem join_getElem?_shrink (slots : Array (Option α)) (id : Nat) :
    (shrink slots)[id]?.join = slots[id]?.join := by
  fun_induction shrink slots with
  | case1 slots h ih =>
    rw [ih, Array.getElem?_pop]
    split
    case isTrue => rfl
    case isFalse hid =>
      -- the dropped slot is the last one, and was empty
      by_cases hlast : id = slots.size - 1
      · subst hlast
        rw [Array.back?] at h
        cases hback : slots[slots.size - 1]? with
        | none => rfl
        | some slot => cases slot <;> simp_all
      · rw [Array.getElem?_eq_none (by omega)]
  | case2 slots h => rfl

theorem join_getElem?_setIfInBounds {slots : Array (Option α)} {id : Nat} (h : id < slots.size)
    (slot : Option α) (j : Nat) :
    (slots.setIfInBounds id slot)[j]?.join = if j = id then slot else slots[j]?.join := by
  rw [Array.getElem?_setIfInBounds]
  by_cases hj : id = j
  · subst hj
    simp [h]
  · simp [hj, Ne.symm hj]

theorem get?_eq_none_of_le {t : Table α} {id : Nat} (h : t.slots.size ≤ id) : t.get? id = none := by
  simp [get?, Array.getElem?_eq_none h]

theorem lt_size_of_get? {t : Table α} {id : Nat} {x : α} (h : t.get? id = some x) :
    id < t.slots.size := by
  by_contra hid
  rw [get?_eq_none_of_le (by omega)] at h
  cases h

@[simp] theorem get?_empty (id : Nat) : (empty : Table α).get? id = none := by
  simp [get?, empty]

theorem contains_iff {t : Table α} {id : Nat} :
    t.contains id = true ↔ ∃ x, t.get? id = some x := by
  simp [contains, Option.isSome_iff_exists]

theorem get_of_get? {t : Table α} {id : Nat} {x : α} (h : t.get? id = some x) :
    t.get id = .ok x := by
  simp [get, h]

theorem get?_of_get {t : Table α} {id : Nat} {x : α} (h : t.get id = .ok x) :
    t.get? id = some x := by
  rw [get] at h
  split at h
  case h_1 y hy => cases h; exact hy
  case h_2 => cases h

/-! ## Binding a given id -/

theorem insertAt_fst (t : Table α) (id : Nat) (x : α) :
    (t.insertAt id x).1 = if id < capacity then .ok (t.get? id)
      else .error (.because .badFileDescriptor
        ("descriptor " ++ toString id ++ " is out of range")) := by
  rw [insertAt]
  split
  · simp only [join_getElem?_pad]; rfl
  · rfl

theorem get?_insertAt {id : Nat} (h : id < capacity) (t : Table α) (x : α) (j : Nat) :
    (t.insertAt id x).2.get? j = if j = id then some x else t.get? j := by
  have hsize : id < (pad t.slots id).size := by rw [size_pad]; omega
  simp only [insertAt, h, if_true, get?]
  rw [join_getElem?_setIfInBounds hsize, join_getElem?_pad]

theorem insertAt_snd_of_le {id : Nat} (h : capacity ≤ id) (t : Table α) (x : α) :
    (t.insertAt id x).2 = t := by
  simp [insertAt, Nat.not_lt.mpr h]

theorem Bounded.insertAt {t : Table α} (ht : t.Bounded) (id : Nat) (x : α) :
    (t.insertAt id x).2.Bounded := by
  rw [Bounded] at ht ⊢
  rw [Table.insertAt]
  split
  · simp only [Array.size_setIfInBounds, size_pad]; omega
  · exact ht

theorem get?_insertRange {first count : Nat} (h : first + count ≤ capacity) (t : Table α) (x : α)
    (j : Nat) : (t.insertRange first count x).2.get? j =
      if first ≤ j ∧ j < first + count then some x else t.get? j := by
  induction count generalizing t first with
  | zero =>
    rw [if_neg (by omega)]
    rfl
  | succ count ih =>
    have hfirst : first < capacity := by omega
    have hinsert : t.insertAt first x = (.ok (t.get? first), (t.insertAt first x).2) :=
      Prod.ext (by rw [insertAt_fst, if_pos hfirst]) rfl
    rw [insertRange, hinsert]
    simp only
    rw [ih (by omega), get?_insertAt hfirst]
    by_cases hj : j = first
    · subst hj
      simp
    · rw [if_neg hj]
      exact if_congr (by omega) rfl rfl

/-! ## Binding the least free id -/

/-- The least id from `firstAllocated` on that is below `capacity` and not bound. -/
def leastFree? (t : Table α) : Option Nat :=
  (List.range' firstAllocated (capacity - firstAllocated)).find? fun id => !t.contains id

theorem le_firstFree (slots : Array (Option α)) (index : Nat) : index ≤ firstFree slots index := by
  fun_induction firstFree slots index with
  | case1 => omega
  | case2 index h x hx ih => omega
  | case3 => omega

theorem join_getElem?_firstFree (slots : Array (Option α)) (index : Nat) :
    slots[firstFree slots index]?.join = none := by
  fun_induction firstFree slots index with
  | case1 index h hx => simp [Array.getElem?_eq_getElem h, hx]
  | case2 index h x hx ih => exact ih
  | case3 index h => simp [Array.getElem?_eq_none (Nat.not_lt.mp h)]

theorem join_getElem?_of_lt_firstFree (slots : Array (Option α)) (index : Nat) {id : Nat}
    (hle : index ≤ id) (hlt : id < firstFree slots index) : slots[id]?.join ≠ none := by
  fun_induction firstFree slots index with
  | case1 => omega
  | case2 index h x hx ih =>
    by_cases hid : id = index
    · subst hid
      simp [Array.getElem?_eq_getElem h, hx]
    · exact ih (by omega) hlt
  | case3 => omega

/-- A free id is the least one when every id before it is bound. -/
theorem leastFree?_eq_some_iff {t : Table α} {id : Nat} :
    t.leastFree? = some id ↔ firstAllocated ≤ id ∧ id < capacity ∧ t.get? id = none ∧
      ∀ j, firstAllocated ≤ j → j < id → t.get? j ≠ none := by
  have hbounds : firstAllocated ≤ capacity := by decide
  simp only [leastFree?, List.find?_range'_eq_some, List.mem_range'_1, contains,
    Bool.not_eq_eq_eq_not, Bool.not_true, Option.isSome_eq_false_iff, Option.isNone_iff_eq_none,
    Bool.not_not, Option.isSome_iff_ne_none]
  constructor
  · rintro ⟨hfree, ⟨hle, hlt⟩, hbefore⟩
    exact ⟨hle, by omega, hfree, hbefore⟩
  · rintro ⟨hle, hlt, hfree, hbefore⟩
    exact ⟨hfree, ⟨hle, by omega⟩, hbefore⟩

theorem leastFree?_eq_none_iff {t : Table α} :
    t.leastFree? = none ↔ ∀ id, firstAllocated ≤ id → id < capacity → t.get? id ≠ none := by
  have hbounds : firstAllocated + (capacity - firstAllocated) = capacity := by decide
  simp only [leastFree?, List.find?_range'_eq_none, contains, hbounds, Bool.not_not,
    Option.isSome_iff_ne_none]

/-- The search through the slots finds the least free id, if that is below `capacity`. -/
theorem leastFree?_eq (t : Table α) :
    t.leastFree? = if firstFree t.slots firstAllocated < capacity
      then some (firstFree t.slots firstAllocated) else none := by
  have hfree := join_getElem?_firstFree t.slots firstAllocated
  have hbefore : ∀ j, firstAllocated ≤ j → j < firstFree t.slots firstAllocated → t.get? j ≠ none :=
    fun j hle hlt => join_getElem?_of_lt_firstFree t.slots firstAllocated hle hlt
  split
  case isTrue h => exact leastFree?_eq_some_iff.mpr ⟨le_firstFree _ _, h, hfree, hbefore⟩
  case isFalse h => exact leastFree?_eq_none_iff.mpr fun id hle hlt => hbefore id hle (by omega)

theorem allocate_fst (t : Table α) (x : α) :
    (t.allocate x).1 = match t.leastFree? with
      | some id => .ok id
      | none => .error (.because .tooManyOpenFiles "descriptor table is full") := by
  by_cases h : firstFree t.slots firstAllocated < capacity <;> simp [allocate, leastFree?_eq, h]

theorem get?_allocate (t : Table α) (x : α) (j : Nat) :
    (t.allocate x).2.get? j = if t.leastFree? = some j then some x else t.get? j := by
  rw [leastFree?_eq]
  simp only [allocate]
  split
  case isTrue h =>
    have hsize : firstFree t.slots firstAllocated <
        (pad t.slots (firstFree t.slots firstAllocated)).size := by rw [size_pad]; omega
    simp only [get?, Option.some.injEq, eq_comm (b := j)]
    rw [join_getElem?_setIfInBounds hsize, join_getElem?_pad]
  case isFalse h => simp

theorem allocate_snd_of_none {t : Table α} (h : t.leastFree? = none) (x : α) :
    (t.allocate x).2 = t := by
  rw [leastFree?_eq] at h
  have hfull : ¬ firstFree t.slots firstAllocated < capacity := by
    intro hlt
    rw [if_pos hlt] at h
    cases h
  simp [allocate, hfull]

theorem Bounded.allocate {t : Table α} (ht : t.Bounded) (x : α) : (t.allocate x).2.Bounded := by
  rw [Bounded] at ht ⊢
  simp only [Table.allocate]
  split
  case isTrue h => simp only [Array.size_setIfInBounds, size_pad]; omega
  case isFalse h => exact ht

/-! ## Unbinding and moving -/

theorem close_fst (t : Table α) (id : Nat) : (t.close id).1 = t.get id := by
  rw [close, get]
  cases t.get? id <;> rfl

theorem get?_close (t : Table α) (id j : Nat) :
    (t.close id).2.get? j = if j = id then none else t.get? j := by
  rw [close]
  cases h : t.get? id with
  | some x =>
    simp only [get?]
    rw [join_getElem?_shrink, join_getElem?_setIfInBounds (lt_size_of_get? h)]
  | none =>
    by_cases hj : j = id
    · simp [hj, h]
    · simp [hj]

theorem close_snd_of_none {t : Table α} {id : Nat} (h : t.get? id = none) : (t.close id).2 = t := by
  simp [close, h]

theorem Bounded.close {t : Table α} (ht : t.Bounded) (id : Nat) : (t.close id).2.Bounded := by
  rw [Bounded] at ht ⊢
  rw [Table.close]
  cases t.get? id with
  | some x =>
    have := size_shrink_le (t.slots.setIfInBounds id none)
    rw [Array.size_setIfInBounds] at this
    simp only
    omega
  | none => exact ht

theorem renumber_fst_of_lt {t : Table α} {source target : Nat} {x : α}
    (hx : t.get? source = some x) (htarget : target < capacity) :
    (t.renumber source target).1 = .ok (if source = target then none else t.get? target) := by
  simp only [renumber, hx, htarget, if_true]
  split
  · rfl
  · simp only [join_getElem?_pad]; rfl

theorem renumber_fst_of_none {t : Table α} {source : Nat} (h : t.get? source = none)
    (target : Nat) : (t.renumber source target).1 = .error (.because .badFileDescriptor
      ("renumber source " ++ toString source ++ " is not open")) := by
  simp [renumber, h]

theorem renumber_fst_of_le {t : Table α} {source target : Nat} {x : α}
    (hx : t.get? source = some x) (htarget : capacity ≤ target) :
    (t.renumber source target).1 = .error (.because .badFileDescriptor
      ("descriptor " ++ toString target ++ " is out of range")) := by
  simp [renumber, hx, Nat.not_lt.mpr htarget]

theorem get?_renumber {t : Table α} {source target : Nat} {x : α} (hx : t.get? source = some x)
    (htarget : target < capacity) (hne : source ≠ target) (j : Nat) :
    (t.renumber source target).2.get? j =
      if j = source then none else if j = target then some x else t.get? j := by
  have hsource := lt_size_of_get? hx
  have hset : source < ((pad t.slots target).setIfInBounds target (some x)).size := by
    rw [Array.size_setIfInBounds, size_pad]; omega
  have hpad : target < (pad t.slots target).size := by rw [size_pad]; omega
  simp only [renumber, hx, htarget, hne, if_true, if_false]
  simp only [get?]
  -- the source is emptied last, so a target beyond the old slots is kept
  rw [join_getElem?_shrink, join_getElem?_setIfInBounds hset, join_getElem?_setIfInBounds hpad,
    join_getElem?_pad]

theorem renumber_snd_of_none {t : Table α} {source : Nat} (h : t.get? source = none)
    (target : Nat) : (t.renumber source target).2 = t := by
  simp [renumber, h]

theorem renumber_snd_of_le {target : Nat} (h : capacity ≤ target) (t : Table α) (source : Nat) :
    (t.renumber source target).2 = t := by
  rw [renumber]
  cases t.get? source with
  | none => rfl
  | some x => simp [Nat.not_lt.mpr h]

theorem renumber_self_snd (t : Table α) (id : Nat) : (t.renumber id id).2 = t := by
  rw [renumber]
  cases t.get? id with
  | none => rfl
  | some x => simp only [if_true]; split <;> rfl

theorem get?_of_renumber {t : Table α} {source target id : Nat} {x : α}
    (h : (t.renumber source target).2.get? id = some x) : ∃ id', t.get? id' = some x := by
  by_cases hself : source = target
  · subst hself
    rw [renumber_self_snd] at h
    exact ⟨id, h⟩
  cases hsource : t.get? source with
  | none =>
    rw [renumber_snd_of_none hsource] at h
    exact ⟨id, h⟩
  | some y =>
    by_cases htarget : target < capacity
    · rw [get?_renumber hsource htarget hself] at h
      split at h
      · cases h
      · split at h
        · cases h
          exact ⟨source, hsource⟩
        · exact ⟨id, h⟩
    · rw [renumber_snd_of_le (Nat.not_lt.mp htarget)] at h
      exact ⟨id, h⟩

theorem Bounded.renumber {t : Table α} (ht : t.Bounded) (source target : Nat) :
    (t.renumber source target).2.Bounded := by
  rw [Bounded] at ht ⊢
  rw [Table.renumber]
  cases t.get? source with
  | none => exact ht
  | some x =>
    simp only
    split
    · split
      · exact ht
      · have := size_shrink_le
          (((pad t.slots target).setIfInBounds target (some x)).setIfInBounds source none)
        simp only [Array.size_setIfInBounds, size_pad] at this
        simp only
        omega
    · exact ht

/-! ## Replacing a resource in place -/

theorem get?_update (t : Table α) (id : Nat) (x : α) (j : Nat) :
    (t.update id x).get? j = if j = id ∧ t.contains id then some x else t.get? j := by
  rw [update]
  split
  case isTrue h =>
    obtain ⟨y, hy⟩ := contains_iff.mp h
    simp only [get?, and_true, h]
    rw [join_getElem?_setIfInBounds (lt_size_of_get? hy)]
  case isFalse h => simp [h]

theorem get?_update_of_ne {id j : Nat} (h : j ≠ id) (t : Table α) (x : α) :
    (t.update id x).get? j = t.get? j := by
  rw [get?_update, if_neg (h ·.1)]

theorem get?_update_self {t : Table α} {id : Nat} {y : α} (h : t.get? id = some y) (x : α) :
    (t.update id x).get? id = some x := by
  rw [get?_update, if_pos ⟨rfl, contains_iff.mpr ⟨y, h⟩⟩]

theorem Bounded.update {t : Table α} (ht : t.Bounded) (id : Nat) (x : α) :
    (t.update id x).Bounded := by
  rw [Bounded] at ht ⊢
  rw [Table.update]
  split
  · simpa using ht
  · exact ht

/-! ## The bound ids -/

theorem contains_eq_false_of_le {t : Table α} {id : Nat} (h : t.slots.size ≤ id) :
    t.contains id = false := by
  simp [contains, get?_eq_none_of_le h]

/-- The bound ids are found in any range that reaches beyond the slots. -/
theorem keys_eq_filter_range {t : Table α} {n : Nat} (h : t.slots.size ≤ n) :
    t.keys = (List.range n).filter t.contains := by
  obtain ⟨d, rfl⟩ := Nat.exists_eq_add_of_le h
  rw [keys, List.range_add, List.filter_append, List.filter_map]
  have hbeyond : (List.range d).filter (t.contains ∘ (t.slots.size + ·)) = [] := by
    rw [List.filter_eq_nil_iff]
    intro id _
    simp [contains_eq_false_of_le (Nat.le_add_right _ id)]
  rw [hbeyond, List.map_nil, List.append_nil]

theorem keys_eq_range {t : Table α} {n : Nat} (h : ∀ id, t.contains id = true ↔ id < n) :
    t.keys = List.range n := by
  obtain ⟨d, hd⟩ := Nat.exists_eq_add_of_le (Nat.le_max_right t.slots.size n)
  rw [keys_eq_filter_range (Nat.le_max_left t.slots.size n), hd, List.range_add,
    List.filter_append, List.filter_map]
  have hbelow : (List.range n).filter t.contains = List.range n :=
    List.filter_eq_self.mpr fun id hid => (h id).mpr (List.mem_range.mp hid)
  have hbeyond : (List.range d).filter (t.contains ∘ (n + ·)) = [] := by
    rw [List.filter_eq_nil_iff]
    intro id _
    exact (h (n + id)).not.mpr (Nat.not_lt.mpr (Nat.le_add_right n id))
  rw [hbelow, hbeyond, List.map_nil, List.append_nil]

end Table

end Hostcall
