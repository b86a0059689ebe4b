import Hostcall.Proofs.Bindings

/-!
# The slots of a table

A table that is made from the empty one by operations, whether they fail or not, ends with an
occupied slot and never has more slots than `Table.capacity`.

* `Table.Tight` is that invariant, which every operation keeps;
* `Table.machineAnswer` carries an operation out as a machine does, which must not touch a slot
  that is not there, nor loop for ever, and whose ids are words of 32 bits;
* `Table.Tight.machineAnswer_eq` shows that on tight slots a machine meets none of this, and
  `Table.slots_tight` says so of every history.
-/

namespace Hostcall

namespace Table

variable {α : Type} {t : Table α} {slots : Array (Option α)}

/-! ## Tight slots -/

/-- The slots lie below `capacity`, and the last one, if there is one, is occupied. -/
structure Tight (t : Table α) : Prop where
  bounded : t.Bounded
  last : t.slots = #[] ∨ ∃ x, t.slots.back? = some (some x)

/-- The last one of some slots, if there is one, is occupied exactly if its id is bound. -/
theorem last_iff_contains :
    (t.slots = #[] ∨ ∃ x, t.slots.back? = some (some x)) ↔
      ∀ id, t.slots.size = id + 1 → t.contains id = true := by
  rcases Nat.eq_zero_or_pos t.slots.size with hsize | hsize
  · have hempty : t.slots = #[] := Array.eq_empty_of_size_eq_zero hsize
    simp [hempty]
  · have hne : t.slots ≠ #[] := by
      intro hempty
      simp [hempty] at hsize
    rw [Array.back?_eq_getElem?, or_iff_right hne]
    constructor
    · rintro ⟨x, hx⟩ id hid
      rw [hid, Nat.add_sub_cancel] at hx
      exact contains_iff.mpr ⟨x, by simp [get?, hx]⟩
    · intro hlast
      obtain ⟨x, hx⟩ := contains_iff.mp (hlast (t.slots.size - 1) (by omega))
      exact ⟨x, by simpa [get?, Option.join_eq_some_iff] using hx⟩

theorem Tight.empty : (empty : Table α).Tight := ⟨Nat.zero_le _, .inl rfl⟩

/-- An id that is bound behind the other slots, or among them, leaves no empty slot at the end. -/
theorem Tight.place (h : t.Tight) (id : Nat) (x : α) {t' : Table α} (hbounded : t'.Bounded)
    (hslots : t'.slots = (pad t.slots id).setIfInBounds id (some x)) : t'.Tight := by
  refine ⟨hbounded, last_iff_contains.mpr fun j hj => ?_⟩
  have hid : id < (pad t.slots id).size := by rw [size_pad]; omega
  rw [hslots, Array.size_setIfInBounds, size_pad] at hj
  rw [contains, get?, hslots, join_getElem?_setIfInBounds hid, join_getElem?_pad]
  split
  case isTrue => rfl
  -- another last slot than the bound one was there before
  case isFalse hne => exact last_iff_contains.mp h.last j (by omega)

/-- The loop that drops empty slots stops at an occupied one, or when none is left. -/
theorem last_shrink (slots : Array (Option α)) :
    shrink slots = #[] ∨ ∃ x, (shrink slots).back? = some (some x) := by
  fun_induction shrink slots with
  | case1 slots h ih => exact ih
  | case2 slots h =>
    cases hback : slots.back? with
    | none => exact .inl (Array.back?_eq_none_iff.mp hback)
    | some slot =>
      cases slot with
      | none => simp [hback] at h
      | some x => exact .inr ⟨x, rfl⟩

namespace Tight

variable (h : t.Tight)
include h

theorem insertAt (id : Nat) (x : α) : (t.insertAt id x).2.Tight := by
  by_cases hid : id < capacity
  · exact h.place id x (h.bounded.insertAt id x) (by simp [Table.insertAt, hid])
  · rw [insertAt_snd_of_le (Nat.not_lt.mp hid)]
    exact h

theorem allocate (x : α) : (t.allocate x).2.Tight := by
  by_cases hid : firstFree t.slots firstAllocated < capacity
  · exact h.place (firstFree t.slots firstAllocated) x (h.bounded.allocate x)
      (by simp only [Table.allocate, if_pos hid])
  · simpa [Table.allocate, hid] using h

theorem close (id : Nat) : (t.close id).2.Tight := by
  refine ⟨h.bounded.close id, ?_⟩
  cases hx : t.get? id with
  | none =>
    rw [close_snd_of_none hx]
    exact h.last
  | some x =>
    simp only [Table.close, hx]
    exact last_shrink _

theorem renumber (source target : Nat) : (t.renumber source target).2.Tight := by
  refine ⟨h.bounded.renumber source target, ?_⟩
  rw [Table.renumber]
  cases t.get? source with
  | none => exact h.last
  | some x =>
    simp only
    split
    · split
      · exact h.last
      · exact last_shrink _
    · exact h.last

theorem update (id : Nat) (x : α) : (t.update id x).Tight := by
  refine ⟨h.bounded.update id x, last_iff_contains.mpr fun j hj => ?_⟩
  have hsize : (t.update id x).slots.size = t.slots.size := by
    rw [Table.update]
    split
    · exact Array.size_setIfInBounds
    · rfl
  have hlast := last_iff_contains.mp h.last j (hsize ▸ hj)
  rw [contains, get?_update]
  split
  · rfl
  · exact hlast

theorem getMut (id : Nat) (change : α → α) : (t.getMut id change).2.Tight := by
  rw [Table.getMut]
  split
  · exact h.update id _
  · exact h

/-- Every operation leaves tight slots, also one that fails. -/
theorem answer (r : TableRequest α) : (t.answer r).2.Tight := by
  cases r with
  | insertAt id x => exact h.insertAt id x
  | allocate x => exact h.allocate x
  | close id => exact h.close id
  | renumber source target => exact h.renumber source target
  | getMut id change => exact h.getMut id change
  | get | contains | keys | size | isEmpty => exact h

/-- There is one slot more than the highest bound id. -/
theorem size_eq_succ_iff (id : Nat) :
    t.slots.size = id + 1 ↔ t.contains id = true ∧ ∀ j, t.contains j = true → j ≤ id := by
  have hlt : ∀ j, t.contains j = true → j < t.slots.size := by
    intro j hj
    obtain ⟨x, hx⟩ := contains_iff.mp hj
    exact lt_size_of_get? hx
  have hlast := last_iff_contains.mp h.last
  constructor
  · intro hsize
    refine ⟨hlast id hsize, fun j hj => ?_⟩
    have := hlt j hj
    omega
  · rintro ⟨hid, hgreatest⟩
    have := hlt id hid
    have := hgreatest (t.slots.size - 1) (hlast _ (by omega))
    omega

/-- There are no slots exactly if nothing is bound. -/
theorem size_eq_zero_iff : t.slots.size = 0 ↔ t.keys = [] := by
  constructor
  · intro hsize
    simp [keys, hsize]
  · intro hkeys
    by_contra hsize
    have hlast := last_iff_contains.mp h.last (t.slots.size - 1) (by omega)
    have hmem : t.slots.size - 1 ∈ t.keys :=
      List.mem_filter.mpr ⟨List.mem_range.mpr (by omega), hlast⟩
    rw [hkeys] at hmem
    cases hmem

end Tight

/-! ## Slots in a machine

A machine that touches a slot which is not there breaks off, and so does one whose loop takes more
rounds than it is given.  What it finds then is `none`. -/

/-- Puts something else in a slot and hands back what was there. -/
def replaceSlot (slots : Array (Option α)) (index : Nat) (slot : Option α) :
    Option (Option α × Array (Option α)) :=
  if h : index < slots.size then some (slots[index], slots.set index slot) else none

/-- Exchanges the contents of two slots. -/
def swapSlots (slots : Array (Option α)) (i j : Nat) : Option (Array (Option α)) :=
  if h : i < slots.size ∧ j < slots.size then some (slots.swap i j h.1 h.2) else none

/-- The slots from one on.  The first one left out may be the end. -/
def slotsFrom (slots : Array (Option α)) (start : Nat) : Option (Array (Option α)) :=
  if start ≤ slots.size then some (slots.extract start) else none

/-- Drops empty slots from the end, one in a round. -/
def dropEmpty : Nat → Array (Option α) → Option (Array (Option α))
  | 0, _ => none
  | rounds + 1, slots =>
    match slots.back? with
    | some none => dropEmpty rounds slots.pop
    | _ => some slots

/-- The rounds that suffice for slots below `capacity`, the last of which drops nothing. -/
def roundsEnough : Nat := capacity + 1

def machineInsertAt (slots : Array (Option α)) (id : Nat) (x : α) :
    Option (Outcome (Option α) × Array (Option α)) := do
  if capacity ≤ id then
    return (.error (.because .badFileDescriptor
      ("descriptor " ++ toString id ++ " is out of range")), slots)
  let (held, slots) ← replaceSlot (pad slots id) id (some x)
  return (.ok held, slots)

/-- The slot is taken before its index is told in 32 bits. -/
def machineAllocate (slots : Array (Option α)) (x : α) :
    Option (Outcome UInt32 × Array (Option α)) := do
  let slots := pad slots (firstAllocated - 1)
  let rest ← slotsFrom slots firstAllocated
  let index := (rest.findIdx? Option.isNone).elim slots.size (firstAllocated + ·)
  if capacity ≤ index then
    return (.error (.because .tooManyOpenFiles "descriptor table is full"), slots)
  let (_, slots) ← replaceSlot (pad slots index) index (some x)
  return (countOf index, slots)

def machineClose (slots : Array (Option α)) (id : Nat) :
    Option (Outcome α × Array (Option α)) := do
  match slots[id]?.join with
  | none => return (.error (notOpen id), slots)
  | some x =>
    let slots ← dropEmpty roundsEnough (slots.setIfInBounds id none)
    return (.ok x, slots)

/-- The two slots are exchanged, and then the source is emptied. -/
def machineRenumber (slots : Array (Option α)) (source target : Nat) :
    Option (Outcome (Option α) × Array (Option α)) := do
  if slots[source]?.join.isNone then
    return (.error (.because .badFileDescriptor
      ("renumber source " ++ toString source ++ " is not open")), slots)
  if capacity ≤ target then
    return (.error (.because .badFileDescriptor
      ("descriptor " ++ toString target ++ " is out of range")), slots)
  if source = target then
    return (.ok none, slots)
  let slots ← swapSlots (pad slots target) source target
  let (held, slots) ← replaceSlot slots source none
  let slots ← dropEmpty roundsEnough slots
  return (.ok held, slots)

/-- An operation in a machine.  Those that only look leave the slots as they are, and look at no
slot but by asking whether it is there. -/
def machineAnswer (slots : Array (Option α)) :
    TableRequest α → Option (Outcome (TableReply α) × Array (Option α))
  | .insertAt id x => (machineInsertAt slots id x).map fun (o, slots) => (o.map .held, slots)
  | .allocate x =>
    (machineAllocate slots x).map fun (o, slots) => (o.map fun id => .id id.toNat, slots)
  | .close id => (machineClose slots id).map fun (o, slots) => (o.map .resource, slots)
  | .renumber source target =>
    (machineRenumber slots source target).map fun (o, slots) => (o.map .held, slots)
  | r => some (((⟨slots⟩ : Table α).answer r).1, ((⟨slots⟩ : Table α).answer r).2.slots)

/-- Operations in a machine, one after another. -/
def machineAnswers (slots : Array (Option α)) :
    List (TableRequest α) → Option (List (Outcome (TableReply α)) × Array (Option α))
  | [] => some ([], slots)
  | r :: rest => do
    let (reply, slots) ← machineAnswer slots r
    let (later, slots) ← machineAnswers slots rest
    return (reply :: later, slots)

/-! ## What a machine meets -/

theorem replaceSlot_eq {index : Nat} (h : index < slots.size) (slot : Option α) :
    replaceSlot slots index slot =
      some (slots[index]?.join, slots.setIfInBounds index slot) := by
  simp [replaceSlot, h, Array.setIfInBounds]

theorem dropEmpty_eq {rounds : Nat} (h : slots.size < rounds) :
    dropEmpty rounds slots = some (shrink slots) := by
  induction rounds generalizing slots with
  | zero => omega
  | succ rounds ih =>
    rw [dropEmpty, shrink]
    cases hback : slots.back? with
    | none => rfl
    | some slot =>
      cases slot with
      | some x => rfl
      | none =>
        -- a slot less, and a round less
        have hpos : slots.size ≠ 0 := by
          intro hsize
          simp [Array.back?, hsize] at hback
        exact ih (by rw [Array.size_pop]; omega)

/-- Padding twice is padding up to the farther index. -/
theorem pad_pad {i j : Nat} (h : i ≤ j) (slots : Array (Option α)) :
    pad (pad slots i) j = pad slots j := by
  have hpad := size_pad slots i
  rw [pad, hpad]
  by_cases hi : slots.size ≤ i
  · by_cases hj : i + 1 ≤ j
    · rw [if_pos (by omega), pad, if_pos hi, pad, if_pos (by omega), Array.append_assoc,
        Array.replicate_append_replicate]
      congr 2
      omega
    · have : i = j := by omega
      subst this
      rw [if_neg (by omega)]
  · have hsame : pad slots i = slots := by rw [pad, if_neg hi]
    rw [hsame, pad, Nat.max_eq_left (by omega)]

/-- The least empty slot from an index on is the only one with none before it. -/
theorem firstFree_eq {start i : Nat} (hle : start ≤ i) (hfree : slots[i]?.join = none)
    (hbefore : ∀ j, start ≤ j → j < i → slots[j]?.join ≠ none) : firstFree slots start = i := by
  have hfound := join_getElem?_firstFree slots start
  rcases Nat.lt_trichotomy (firstFree slots start) i with hlt | heq | hgt
  · exact absurd hfound (hbefore _ (le_firstFree slots start) hlt)
  · exact heq
  · exact absurd hfree (join_getElem?_of_lt_firstFree slots start hle hgt)

theorem firstFree_pad (slots : Array (Option α)) (index start : Nat) :
    firstFree (pad slots index) start = firstFree slots start := by
  apply firstFree_eq (le_firstFree slots start)
  · rw [join_getElem?_pad]
    exact join_getElem?_firstFree slots start
  · intro j hle hlt
    rw [join_getElem?_pad]
    exact join_getElem?_of_lt_firstFree slots start hle hlt

/-- The search behind the first slots is the search from the slot after them. -/
theorem findIdx?_extract {start : Nat} (h : start ≤ slots.size) :
    ((slots.extract start).findIdx? Option.isNone).elim slots.size (start + ·) =
      firstFree slots start := by
  have hsize : (slots.extract start).size = slots.size - start := by simp
  cases hfind : (slots.extract start).findIdx? Option.isNone with
  | none =>
    refine (firstFree_eq h (by simp) fun j hle hlt => ?_).symm
    have hocc := Array.findIdx?_eq_none_iff.mp hfind
    have hj : j - start < (slots.extract start).size := by omega
    have := hocc _ (Array.getElem_mem hj)
    simp only [Array.getElem_extract, Nat.add_sub_of_le hle] at this
    simpa [Array.getElem?_eq_getElem hlt, ← Option.isNone_iff_eq_none] using this
  | some i =>
    obtain ⟨hi, hfree, hocc⟩ := Array.findIdx?_eq_some_iff_getElem.mp hfind
    rw [Array.getElem_extract, Option.isNone_iff_eq_none] at hfree
    refine (firstFree_eq (Nat.le_add_right start i) ?_ fun j hle hlt => ?_).symm
    · rw [Array.getElem?_eq_getElem (by omega), hfree]
      rfl
    · have := hocc (j - start) (by omega)
      simp only [Array.getElem_extract, Nat.add_sub_of_le hle] at this
      simpa [Array.getElem?_eq_getElem (show j < slots.size by omega),
        ← Option.isNone_iff_eq_none] using this

theorem firstFree_le (slots : Array (Option α)) (start : Nat) :
    firstFree slots start ≤ max slots.size start := by
  fun_induction firstFree slots start with
  | case1 => omega
  | case2 index h x hx ih => omega
  | case3 => omega

/-- Exchanging two slots and emptying one is moving what it holds to the other. -/
theorem setIfInBounds_swap {i j : Nat} (hi : i < slots.size) (hj : j < slots.size) :
    (slots.swap i j hi hj).setIfInBounds i none =
      (slots.setIfInBounds j slots[i]).setIfInBounds i none := by
  apply Array.ext_getElem?
  intro k
  simp only [Array.getElem?_setIfInBounds, Array.getElem?_swap, Array.size_swap,
    Array.size_setIfInBounds]
  grind

/-! ## Operations in a machine -/

/-- Binding an id touches no slot that is not there, however the slots end. -/
theorem machineInsertAt_eq (t : Table α) (id : Nat) (x : α) :
    machineInsertAt t.slots id x = some ((t.insertAt id x).1, (t.insertAt id x).2.slots) := by
  by_cases hid : id < capacity
  · have hsize : id < (pad t.slots id).size := by rw [size_pad]; omega
    simp [machineInsertAt, Table.insertAt, hid, Nat.not_le.mpr hid, replaceSlot_eq hsize]
  · simp [machineInsertAt, Table.insertAt, hid, Nat.not_lt.mp hid]

/-- The least free id lies below `capacity`, so it is told in 32 bits. -/
theorem machineAllocate_eq (t : Table α) (x : α) :
    machineAllocate t.slots x =
      some ((t.allocate x).1.map UInt32.ofNat, (t.allocate x).2.slots) := by
  have hsize : firstAllocated ≤ (pad t.slots (firstAllocated - 1)).size := by
    rw [size_pad, firstAllocated]; omega
  have hindex := findIdx?_extract hsize
  rw [firstFree_pad] at hindex
  simp only [machineAllocate, slotsFrom, if_pos hsize, Option.bind_eq_bind, Option.bind_some, hindex,
    Table.allocate]
  have hle := le_firstFree t.slots firstAllocated
  by_cases hfree : firstFree t.slots firstAllocated < capacity
  · rw [pad_pad (by omega)]
    have hin : firstFree t.slots firstAllocated <
        (pad t.slots (firstFree t.slots firstAllocated)).size := by rw [size_pad]; omega
    have hword : firstFree t.slots firstAllocated < UInt32.size :=
      Nat.lt_trans hfree (by decide)
    simp [hfree, Nat.not_le.mpr hfree, replaceSlot_eq hin, countOf, hword, Except.map]
  · -- a table without a free id has all its slots already
    have hfull : pad t.slots (firstAllocated - 1) = t.slots := by
      have := firstFree_le t.slots firstAllocated
      have hcap : firstAllocated < capacity := by decide
      rw [pad, if_neg (by omega)]
    simp [hfree, Nat.not_lt.mp hfree, hfull, Except.map]

namespace Tight

variable (h : t.Tight)
include h

theorem size_lt_roundsEnough : t.slots.size < roundsEnough := Nat.lt_succ_of_le h.bounded

theorem machineClose_eq (id : Nat) :
    machineClose t.slots id = some ((t.close id).1, (t.close id).2.slots) := by
  have hget : t.slots[id]?.join = t.get? id := rfl
  rw [machineClose, Table.close, hget]
  cases t.get? id with
  | none => rfl
  | some x =>
    have hrounds : (t.slots.setIfInBounds id none).size < roundsEnough := by
      rw [Array.size_setIfInBounds]
      exact h.size_lt_roundsEnough
    simp [dropEmpty_eq hrounds]

theorem machineRenumber_eq (source target : Nat) :
    machineRenumber t.slots source target =
      some ((t.renumber source target).1, (t.renumber source target).2.slots) := by
  have hget : t.slots[source]?.join = t.get? source := rfl
  rw [machineRenumber, Table.renumber, hget]
  cases hx : t.get? source with
  | none => rfl
  | some x =>
    by_cases htarget : target < capacity
    case neg => simp [htarget, Nat.not_lt.mp htarget]
    by_cases hself : source = target
    case pos => simp [hself, htarget, Nat.not_le.mpr htarget]
    have hsource : source < (pad t.slots target).size := by
      have := lt_size_of_get? hx
      rw [size_pad]
      omega
    have htarget' : target < (pad t.slots target).size := by rw [size_pad]; omega
    have hheld : (pad t.slots target)[source] = some x := by
      have := join_getElem?_pad t.slots target source
      rw [hget, hx, Array.getElem?_eq_getElem hsource] at this
      exact this
    -- the exchange moves a hole to the source only after the target is padded
    have hswap : source < ((pad t.slots target).swap source target).size := by simpa using hsource
    have hmoved := setIfInBounds_swap hsource htarget'
    rw [hheld] at hmoved
    have hrounds : (((pad t.slots target).setIfInBounds target (some x)).setIfInBounds source
        none).size < roundsEnough := by
      have := h.size_lt_roundsEnough
      simp only [Array.size_setIfInBounds, size_pad]
      rw [roundsEnough] at this ⊢
      omega
    simp [htarget, Nat.not_le.mpr htarget, hself, swapSlots, hsource, htarget', replaceSlot_eq hswap,
      hmoved, dropEmpty_eq hrounds]

/-- A machine that carries out an operation on tight slots comes to its end, with the same answer
and the same slots. -/
theorem machineAnswer_eq (r : TableRequest α) :
    machineAnswer t.slots r = some ((t.answer r).1, (t.answer r).2.slots) := by
  cases r with
  | insertAt id x => simp [machineAnswer, Table.answer, machineInsertAt_eq]
  | allocate x =>
    have hwide : ∀ id, t.leastFree? = some id → (UInt32.ofNat id).toNat = id := by
      intro id hid
      obtain ⟨-, hlt, -, -⟩ := leastFree?_eq_some_iff.mp hid
      exact UInt32.toNat_ofNat_of_lt' (Nat.lt_trans hlt (by decide))
    simp only [machineAnswer, Table.answer, machineAllocate_eq, allocate_fst, Option.map_some]
    cases hfree : t.leastFree? with
    | none => rfl
    | some id => simp [Except.map, hwide id hfree]
  | close id => simp [machineAnswer, Table.answer, h.machineClose_eq]
  | renumber source target => simp [machineAnswer, Table.answer, h.machineRenumber_eq]
  | get | getMut | contains | keys | size | isEmpty => rfl

theorem machineAnswers_eq (requests : List (TableRequest α)) :
    machineAnswers t.slots requests = some ((t.answers requests).1, (t.answers requests).2.slots) := by
  induction requests generalizing t with
  | nil => rfl
  | cons r rest ih => simp [machineAnswers, answers, h.machineAnswer_eq, ih (h.answer r)]

theorem answers (requests : List (TableRequest α)) : (t.answers requests).2.Tight := by
  induction requests generalizing t with
  | nil => exact h
  | cons r rest ih => exact ih (h.answer r)

end Tight

/-- A machine never finds that an id does not fit 32 bits. -/
theorem machineAllocate_ne_overflow (t : Table α) (x : α) :
    (machineAllocate t.slots x).map (·.1) ≠ some (.error .overflow) := by
  rw [machineAllocate_eq, allocate_fst]
  cases t.leastFree? with
  | none => simp [Except.map, Fault.because, Fault.overflow, Fault.ofErrno, Report.ofCause]
  | some id => simp [Except.map]

/-- After every history of operations on an empty table, whether they failed or not, there are no
slots or the last of them is occupied, and there are `capacity` of them at most; so there is one
slot more than the highest bound id.  A machine that carried out the history came to its end, with
the same answers and slots: no loop went on for ever, no slot was touched that is not there, and no
id was too large for 32 bits. -/
theorem slots_tight (requests : List (TableRequest α)) :
    let t := ((empty : Table α).answers requests).2
    (t.slots = #[] ∨ ∃ x, t.slots.back? = some (some x)) ∧ t.slots.size ≤ capacity ∧
    (t.slots.size = 0 ↔ t.keys = []) ∧
    (∀ id, t.slots.size = id + 1 ↔
      t.contains id = true ∧ ∀ j, t.contains j = true → j ≤ id) ∧
    machineAnswers #[] requests = some (((empty : Table α).answers requests).1, t.slots) ∧
    (∀ r, machineAnswer t.slots r = some ((t.answer r).1, (t.answer r).2.slots)) ∧
    ∀ x, (machineAllocate t.slots x).map (·.1) ≠ some (.error .overflow) := by
  intro t
  have ht : t.Tight := Tight.empty.answers requests
  exact ⟨ht.last, ht.bounded, ht.size_eq_zero_iff, ht.size_eq_succ_iff,
    Tight.empty.machineAnswers_eq requests, ht.machineAnswer_eq, machineAllocate_ne_overflow t⟩

/-- The slots in front of the last one stay, empty or not, and those behind it go. -/
example :
    (machineAnswers #[] [.allocate 'a', .insertAt 7 'b', .renumber 7 4, .close 3]).map (·.2) =
      some #[none, none, none, none, some 'b'] := by
  cbv

end Table

end Hostcall
