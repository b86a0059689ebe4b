import Hostcall.Proofs.Bindings
import Mathlib.Data.List.Nodup

/-!
# What becomes of the resources of a table

A resource that is passed to a table is held at one id, was handed back, or was refused, and
never two of these.

* `TableRequest.passed`, `TableRequest.handedBack` and `TableRequest.refused` say what one
  operation brings, gives back and turns away;
* `Table.bound_update` is the balance of a change at one id, `Table.answer_balance` that of an
  operation and `Table.answers_balance` that of a history;
* `Table.resources_accounted` says what follows when no resource is passed twice.
-/

namespace Hostcall

namespace TableRequest

variable {α : Type}

/-- What an operation brings to a table. -/
def passed : TableRequest α → List α
  | .insertAt _ x | .allocate x => [x]
  | _ => []

/-- What an operation that was answered so gives back: what was closed or displaced. -/
def handedBack : TableRequest α → Outcome (TableReply α) → List α
  | .close _, .ok (.resource x) => [x]
  | .insertAt _ _, .ok (.held x) | .renumber _ _, .ok (.held x) => x.toList
  | _, _ => []

/-- What an operation that was answered so turns away. -/
def refused (r : TableRequest α) : Outcome (TableReply α) → List α
  | .ok _ => []
  | .error _ => r.passed

/-- Whether an operation leaves the resources as they are.  Only a change in place does not. -/
def preserves : TableRequest α → Bool
  | .getMut _ _ => false
  | _ => true

end TableRequest

namespace Table

variable {α : Type} {t : Table α}

/-! ## Resources in order of their ids -/

/-- The resources of a table. -/
def resources (t : Table α) : List α := t.toList.map (·.2)

/-- The resources that a map binds to the ids of a table. -/
def bound (f : Nat → Option α) : List α := (List.range capacity).filterMap f

/-- Those bound to other ids than a given one. -/
def boundBeside (f : Nat → Option α) (id : Nat) : List α :=
  ((List.range capacity).erase id).filterMap f

theorem filterMap_filter_isSome (f : Nat → Option α) (ids : List Nat) :
    (ids.filter fun id => (f id).isSome).filterMap f = ids.filterMap f := by
  rw [List.filterMap_filter]
  refine List.filterMap_congr fun id _ => ?_
  cases f id <;> rfl

theorem resources_eq (ht : t.Bounded) : t.resources = bound t.get? := by
  have hpairs : ∀ id, ((t.get? id).map (id, ·)).map (·.2) = t.get? id := by
    intro id
    cases t.get? id <;> rfl
  rw [resources, toList, List.map_filterMap, keys_eq_filter_range ht]
  simp only [hpairs]
  exact filterMap_filter_isSome t.get? _

theorem mem_bound {f : Nat → Option α} {x : α} :
    x ∈ bound f ↔ ∃ id, id < capacity ∧ f id = some x := by
  simp [bound]

theorem bound_perm (f : Nat → Option α) {id : Nat} (h : id < capacity) :
    (bound f).Perm ((f id).toList ++ boundBeside f id) := by
  have hids := List.perm_cons_erase (List.mem_range.mpr h)
  refine (hids.filterMap f).trans (List.Perm.of_eq ?_)
  rw [List.filterMap_cons, boundBeside]
  cases f id with
  | none => simp only [Option.toList_none, List.nil_append]
  | some x => simp only [Option.toList_some, List.singleton_append]

theorem mem_ids_beside {id j : Nat} :
    j ∈ (List.range capacity).erase id ↔ j ≠ id ∧ j < capacity := by
  have hnodup : (List.range capacity).Nodup := List.nodup_range
  rw [hnodup.mem_erase_iff, List.mem_range]

theorem boundBeside_update (f : Nat → Option α) (id : Nat) (slot : Option α) :
    boundBeside (Function.update f id slot) id = boundBeside f id := by
  refine List.filterMap_congr fun j hj => ?_
  exact Function.update_of_ne (mem_ids_beside.mp hj).1 slot f

/-- What is bound after a change at one id, with what the id lost, is what was bound before it,
with what the id got. -/
theorem bound_update (f : Nat → Option α) {id : Nat} (h : id < capacity) (slot : Option α) :
    (bound (Function.update f id slot) ++ (f id).toList).Perm (bound f ++ slot.toList) := by
  have hafter := bound_perm (Function.update f id slot) h
  rw [Function.update_self, boundBeside_update] at hafter
  calc (bound (Function.update f id slot) ++ (f id).toList)
    _ |>.Perm ((slot.toList ++ boundBeside f id) ++ (f id).toList) := hafter.append_right _
    _ |>.Perm ((f id).toList ++ (slot.toList ++ boundBeside f id)) := List.perm_append_comm
    _ |>.Perm ((f id).toList ++ (boundBeside f id ++ slot.toList)) :=
      List.perm_append_comm.append_left _
    _ |>.Perm (bound f ++ slot.toList) := by
      rw [← List.append_assoc]
      exact (bound_perm f h).symm.append_right _

/-- Where nothing is bound twice, a resource has one id. -/
theorem eq_of_nodup_bound {f : Nat → Option α} (hnodup : (bound f).Nodup) {id id' : Nat} {x : α}
    (hid : id < capacity) (hid' : id' < capacity) (h : f id = some x) (h' : f id' = some x) :
    id' = id := by
  by_contra hne
  have hsplit := (bound_perm f hid).nodup_iff.mp hnodup
  rw [h, Option.toList_some, List.singleton_append, List.nodup_cons] at hsplit
  apply hsplit.1
  exact List.mem_filterMap.mpr ⟨id', mem_ids_beside.mpr ⟨hne, hid'⟩, h'⟩

/-! ## One operation -/

theorem Bounded.answer (ht : t.Bounded) (r : TableRequest α) : (t.answer r).2.Bounded := by
  cases r with
  | insertAt id x => exact ht.insertAt id x
  | allocate x => exact ht.allocate x
  | close id => exact ht.close id
  | renumber source target => exact ht.renumber source target
  | getMut id change =>
    simp only [Table.answer, getMut]
    split
    · exact ht.update id _
    · exact ht
  | get _ | contains _ | keys | size | isEmpty => exact ht

/-- A table whose resources, with what an operation gave back and turned away, are those of the
table before with what the operation brought. -/
def Balances (t : Table α) (r : TableRequest α) : Prop :=
  ((t.answer r).2.resources ++ (r.handedBack (t.answer r).1 ++ r.refused (t.answer r).1)).Perm
    (t.resources ++ r.passed)

theorem balances_of_update (ht : t.Bounded) {r : TableRequest α} {id : Nat} {slot : Option α}
    (hid : id < capacity) (htable : (t.answer r).2.get? = Function.update t.get? id slot)
    (hback : r.handedBack (t.answer r).1 = (t.get? id).toList) (hin : r.passed = slot.toList)
    (hrefused : r.refused (t.answer r).1 = []) : t.Balances r := by
  rw [Balances, resources_eq (ht.answer r), resources_eq ht, htable, hback, hin, hrefused,
    List.append_nil]
  exact bound_update t.get? hid slot

theorem lt_capacity_of_get? (ht : t.Bounded) {id : Nat} {x : α} (h : t.get? id = some x) :
    id < capacity :=
  Nat.lt_of_lt_of_le (lt_size_of_get? h) ht

theorem insertAt_balances (ht : t.Bounded) (id : Nat) (x : α) : t.Balances (.insertAt id x) := by
  have hfst := insertAt_fst t id x
  by_cases hid : id < capacity
  · rw [if_pos hid] at hfst
    have htable : (t.answer (.insertAt id x)).2.get? = Function.update t.get? id (some x) := by
      funext j
      simp [answer, get?_insertAt hid, Function.update_apply]
    refine balances_of_update ht hid htable ?_ rfl ?_ <;>
    · simp only [answer, hfst]
      rfl
  · rw [if_neg hid] at hfst
    simp only [Balances, answer, hfst, insertAt_snd_of_le (Nat.not_lt.mp hid)]
    exact List.Perm.refl _

theorem allocate_balances (ht : t.Bounded) (x : α) : t.Balances (.allocate x) := by
  have hfst := allocate_fst t x
  cases hfree : t.leastFree? with
  | some id =>
    rw [hfree] at hfst
    obtain ⟨-, hid, hnone, -⟩ := leastFree?_eq_some_iff.mp hfree
    have htable : (t.answer (.allocate x)).2.get? = Function.update t.get? id (some x) := by
      funext j
      simp [answer, get?_allocate, hfree, Function.update_apply, eq_comm]
    refine balances_of_update ht hid htable ?_ rfl ?_
    · simp only [answer, hfst, hnone]
      rfl
    · simp only [answer, hfst]
      rfl
  | none =>
    rw [hfree] at hfst
    simp only [Balances, answer, hfst, allocate_snd_of_none hfree]
    exact List.Perm.refl _

theorem close_balances (ht : t.Bounded) (id : Nat) : t.Balances (.close id) := by
  have hfst := close_fst t id
  cases hx : t.get? id with
  | some x =>
    rw [get_of_get? hx] at hfst
    have htable : (t.answer (.close id)).2.get? = Function.update t.get? id none := by
      funext j
      simp [answer, get?_close, Function.update_apply]
    refine balances_of_update ht (lt_capacity_of_get? ht hx) htable ?_ rfl ?_
    · simp only [answer, hfst, hx]
      rfl
    · simp only [answer, hfst]
      rfl
  | none =>
    rw [get, hx] at hfst
    simp only [Balances, answer, hfst, close_snd_of_none hx]
    exact List.Perm.refl _

/-- What is moved is bound twice on the way, so it is counted out once. -/
theorem renumber_balances (ht : t.Bounded) (source target : Nat) :
    t.Balances (.renumber source target) := by
  cases hx : t.get? source with
  | none =>
    have hfst := renumber_fst_of_none hx target
    simp only [Balances, answer, hfst, renumber_snd_of_none hx]
    exact List.Perm.refl _
  | some x =>
    by_cases htarget : target < capacity
    case neg =>
      have hle := Nat.not_lt.mp htarget
      have hfst := renumber_fst_of_le hx hle
      simp only [Balances, answer, hfst, renumber_snd_of_le hle]
      exact List.Perm.refl _
    case pos =>
      have hfst := renumber_fst_of_lt hx htarget
      by_cases hself : source = target
      · subst hself
        rw [if_pos rfl] at hfst
        simp only [Balances, answer, hfst, renumber_self_snd]
        exact List.Perm.refl _
      rw [if_neg hself] at hfst
      have hbound := ht.renumber source target
      simp only [Balances, answer, hfst, resources_eq hbound, resources_eq ht]
      show (bound (t.renumber source target).2.get? ++ ((t.get? target).toList ++ [])).Perm
        (bound t.get? ++ [])
      rw [List.append_nil, List.append_nil]
      have htable : (t.renumber source target).2.get? =
          Function.update (Function.update t.get? target (some x)) source none := by
        funext j
        simp [get?_renumber hx htarget hself, Function.update_apply]
      have hmoved := bound_update t.get? htarget (some x)
      have hleft := bound_update (Function.update t.get? target (some x))
        (lt_capacity_of_get? ht hx) none
      rw [Function.update_of_ne hself, hx, ← htable, Option.toList_none, List.append_nil] at hleft
      -- both ends carry the moved resource once more
      apply (List.perm_append_right_iff [x]).mp
      calc (bound (t.renumber source target).2.get? ++ (t.get? target).toList ++ [x])
        _ |>.Perm ((bound (t.renumber source target).2.get? ++ [x]) ++ (t.get? target).toList) := by
          simp only [List.append_assoc]
          exact List.perm_append_comm.append_left _
        _ |>.Perm (bound (Function.update t.get? target (some x)) ++ (t.get? target).toList) :=
          hleft.append_right _
        _ |>.Perm (bound t.get? ++ [x]) := hmoved

theorem answer_balances (ht : t.Bounded) {r : TableRequest α} (hr : r.preserves = true) :
    t.Balances r := by
  cases r with
  | insertAt id x => exact insertAt_balances ht id x
  | allocate x => exact allocate_balances ht x
  | close id => exact close_balances ht id
  | renumber source target => exact renumber_balances ht source target
  | getMut id change => cases hr
  | get id =>
    simp only [Balances, answer]
    cases t.get id <;> exact List.Perm.refl _
  | contains _ | keys | size | isEmpty => exact List.Perm.refl _

/-! ## Histories -/

/-- The operations of a history with their answers. -/
def history (t : Table α) (requests : List (TableRequest α)) :
    List (TableRequest α × Outcome (TableReply α)) :=
  requests.zip (t.answers requests).1

/-- Everything that was given back in a history. -/
def handedBack (t : Table α) (requests : List (TableRequest α)) : List α :=
  (t.history requests).flatMap fun (r, reply) => r.handedBack reply

/-- Everything that was turned away in a history. -/
def refused (t : Table α) (requests : List (TableRequest α)) : List α :=
  (t.history requests).flatMap fun (r, reply) => r.refused reply

theorem perm_append_shuffle (a b c d : List α) :
    ((a ++ b) ++ (c ++ d)).Perm ((a ++ c) ++ (b ++ d)) := by
  simp only [List.append_assoc]
  exact (List.perm_append_comm_assoc b c d).append_left a

theorem perm_append_right_comm (a b c : List α) : (a ++ (b ++ c)).Perm ((a ++ c) ++ b) := by
  rw [List.append_assoc]
  exact List.perm_append_comm.append_left a

theorem answers_balance (ht : t.Bounded) {requests : List (TableRequest α)}
    (hrequests : ∀ r ∈ requests, r.preserves = true) :
    ((t.answers requests).2.resources ++ (t.handedBack requests ++ t.refused requests)).Perm
      (t.resources ++ requests.flatMap TableRequest.passed) := by
  induction requests generalizing t with
  | nil => exact List.Perm.refl _
  | cons r rest ih =>
    have hfirst := answer_balances ht (hrequests r List.mem_cons_self)
    have hrest := ih (ht.answer r) fun r' hr' => hrequests r' (List.mem_cons_of_mem r hr')
    let last := (t.answers (r :: rest)).2.resources
    let given := r.handedBack (t.answer r).1 ++ r.refused (t.answer r).1
    let later := (t.answer r).2.handedBack rest ++ (t.answer r).2.refused rest
    calc (last ++ (t.handedBack (r :: rest) ++ t.refused (r :: rest)))
      _ |>.Perm (last ++ (given ++ later)) := (perm_append_shuffle _ _ _ _).append_left _
      _ |>.Perm ((last ++ later) ++ given) := perm_append_right_comm _ _ _
      _ |>.Perm (((t.answer r).2.resources ++ rest.flatMap TableRequest.passed) ++ given) :=
        hrest.append_right _
      _ |>.Perm (((t.answer r).2.resources ++ given) ++ rest.flatMap TableRequest.passed) := by
        rw [List.append_assoc]
        exact perm_append_right_comm _ _ _
      _ |>.Perm ((t.resources ++ r.passed) ++ rest.flatMap TableRequest.passed) :=
        hfirst.append_right _
      _ |>.Perm (t.resources ++ (r :: rest).flatMap TableRequest.passed) := by
        rw [List.append_assoc, List.flatMap_cons]

theorem Bounded.answers (ht : t.Bounded) (requests : List (TableRequest α)) :
    (t.answers requests).2.Bounded := by
  induction requests generalizing t with
  | nil => exact ht
  | cons r rest ih => exact ih (ht.answer r)

theorem answers_append (t : Table α) (before after : List (TableRequest α)) :
    t.answers (before ++ after) =
      ((t.answers before).1 ++ ((t.answers before).2.answers after).1,
        ((t.answers before).2.answers after).2) := by
  induction before generalizing t with
  | nil => rfl
  | cons r rest ih => simp only [List.cons_append, answers, ih]

theorem length_answers (t : Table α) (requests : List (TableRequest α)) :
    (t.answers requests).1.length = requests.length := by
  induction requests generalizing t with
  | nil => rfl
  | cons r rest ih => simp [answers, ih]

theorem history_append (t : Table α) (before after : List (TableRequest α)) :
    t.history (before ++ after) = t.history before ++ (t.answers before).2.history after := by
  rw [history, answers_append, List.zip_append (length_answers t before).symm]
  rfl

theorem handedBack_append (t : Table α) (before after : List (TableRequest α)) :
    t.handedBack (before ++ after) =
      t.handedBack before ++ (t.answers before).2.handedBack after := by
  rw [handedBack, history_append, List.flatMap_append]
  rfl

theorem refused_append (t : Table α) (before after : List (TableRequest α)) :
    t.refused (before ++ after) = t.refused before ++ (t.answers before).2.refused after := by
  rw [refused, history_append, List.flatMap_append]
  rfl

/-- A table made by a history from the empty one: what was brought to it is what it holds, what it
gave back and what it turned away, all of them different, and what it holds has one id. -/
structure Accounted (requests : List (TableRequest α)) : Prop where
  perm : ((empty.answers requests).2.resources ++
    (empty.handedBack requests ++ empty.refused requests)).Perm
      (requests.flatMap TableRequest.passed)
  nodup : ((empty.answers requests).2.resources ++
    (empty.handedBack requests ++ empty.refused requests)).Nodup
  unique : ∀ x ∈ (empty.answers requests).2.resources,
    ∃! id, (empty.answers requests).2.get? id = some x

theorem bounded_empty : (empty : Table α).Bounded := Nat.zero_le _

theorem accounted {requests : List (TableRequest α)}
    (hrequests : ∀ r ∈ requests, r.preserves = true)
    (hdistinct : (requests.flatMap TableRequest.passed).Nodup) : Accounted requests := by
  have hperm := answers_balance bounded_empty hrequests
  have hempty : (empty : Table α).resources = [] := rfl
  rw [hempty, List.nil_append] at hperm
  have hnodup := hperm.nodup_iff.mpr hdistinct
  have hbounded := (bounded_empty (α := α)).answers requests
  refine ⟨hperm, hnodup, fun x hx => ?_⟩
  have hheld := hnodup.of_append_left
  rw [resources_eq hbounded] at hheld hx
  obtain ⟨id, hid, hget⟩ := mem_bound.mp hx
  refine ⟨id, hget, fun id' hget' => ?_⟩
  exact eq_of_nodup_bound hheld hid (lt_capacity_of_get? hbounded hget') hget hget'

/-- Over every history from the empty table in which no resource is changed in place and none is
brought twice, what was brought is at every moment held at one id, was given back once or was
turned away, and never two of these.  What was given back or turned away is not held again. -/
theorem resources_accounted {requests : List (TableRequest α)}
    (hrequests : ∀ r ∈ requests, r.preserves = true)
    (hdistinct : (requests.flatMap TableRequest.passed).Nodup) :
    ∀ before after, requests = before ++ after → Accounted before ∧
      ∀ x, x ∈ empty.handedBack before ∨ x ∈ empty.refused before →
        ∀ id, (empty.answers requests).2.get? id ≠ some x := by
  rintro before after rfl
  constructor
  · refine accounted (fun r hr => hrequests r (List.mem_append_left after hr)) ?_
    rw [List.flatMap_append] at hdistinct
    exact hdistinct.of_append_left
  · intro x hx id hget
    obtain ⟨-, hnodup, -⟩ := accounted hrequests hdistinct
    have hbounded := (bounded_empty (α := α)).answers (before ++ after)
    have hheld : x ∈ (empty.answers (before ++ after)).2.resources := by
      rw [resources_eq hbounded]
      exact mem_bound.mpr ⟨id, lt_capacity_of_get? hbounded hget, hget⟩
    refine (List.disjoint_of_nodup_append hnodup) hheld ?_
    rw [handedBack_append, refused_append]
    rcases hx with hback | hrefused
    · exact List.mem_append_left _ (List.mem_append_left _ hback)
    · exact List.mem_append_right _ (List.mem_append_left _ hrefused)

/-- A stream is displaced, a file moved over its successor and closed, and an id too high. -/
def shuffle : List (TableRequest String) :=
  [.insertAt 1 "out", .allocate "file", .insertAt 1 "log", .renumber 3 1, .close 1,
    .insertAt 65536 "late", .get 3]

theorem resources_accounted_shuffle :
    (shuffle.flatMap TableRequest.passed).Nodup ∧
      empty.handedBack shuffle = ["out", "log", "file"] ∧ empty.refused shuffle = ["late"] ∧
      Accounted (shuffle.take 4) ∧ ∀ id, (empty.answers shuffle).2.get? id ≠ some "log" := by
  have hpreserves : ∀ r ∈ shuffle, r.preserves = true := by decide
  have hdistinct : (shuffle.flatMap TableRequest.passed).Nodup := by decide
  have hback : empty.handedBack shuffle = ["out", "log", "file"] := by decide +kernel
  have hrefused : empty.refused shuffle = ["late"] := by decide +kernel
  have hsplit : shuffle = shuffle.take 4 ++ shuffle.drop 4 := rfl
  obtain ⟨haccounted, hgone⟩ :=
    resources_accounted hpreserves hdistinct (shuffle.take 4) (shuffle.drop 4) hsplit
  refine ⟨hdistinct, hback, hrefused, haccounted, hgone "log" (.inl ?_)⟩
  decide +kernel

end Table

end Hostcall
