import Hostcall.Proofs.Building

/-!
# How a builder numbers what it installs

A builder puts each standard stream under the id of its kind, and behind the streams the roots of
the preopens that it adds, in the order of the requests.  A request that fails takes no number.

* `World.granted` are the guest names of the preopens that are added;
* `World.Numbered` is the layout, which every request keeps, and `World.Numbered.keys_eq` says
  which ids are open.
-/

namespace Hostcall

theorem getElem?_concat {α : Type} (xs : List α) (x : α) (i : Nat) :
    (xs ++ [x])[i]? = if i = xs.length then some x else xs[i]? := by
  split
  case isTrue hi => rw [hi, List.getElem?_concat_length]
  case isFalse hi =>
    rcases Nat.lt_or_gt_of_ne hi with hlt | hgt
    · rw [List.getElem?_append_left hlt]
    · rw [List.getElem?_eq_none (Nat.le_of_lt hgt), List.getElem?_eq_none]
      rw [List.length_append]
      exact hgt

/-! ## What is granted -/

/-- The name under which a request would have a guest know a preopen. -/
def Setting.guest? : Setting → Option Bytes
  | .preopen _ guest => some guest
  | _ => none

namespace World

variable {w : World} {fd : Nat} {guests : List Bytes}

/-- The guest name of the preopen that one request adds, if it succeeds. -/
def grant? (w : World) (s : Setting) : Option Bytes :=
  match (w.configure s).1 with
  | .ok () => s.guest?
  | .error _ => none

/-- The guest names of the preopens that a builder adds, in the order of the requests. -/
def granted (w : World) : List Setting → List Bytes
  | [] => []
  | s :: rest => (w.grant? s).toList ++ (w.configure s).2.granted rest

theorem grant?_of_none {s : Setting} (h : s.guest? = none) : w.grant? s = none := by
  rw [grant?, h]
  split <;> rfl

/-! ## Streams under the ids of their kinds -/

theorem get?_setStdio (w : World) (kind : StdioKind) (stream : Stream) (id : Nat) :
    (w.setStdio kind stream).table.get? id =
      if id = kind.fd then some (.stdio ⟨kind, stream⟩) else w.table.get? id :=
  Table.get?_insertAt (by cases kind <;> decide) w.table _ id

theorem get?_fresh_of_le (host : Host) (random : KeyStream) {id : Nat} (h : 3 ≤ id) :
    (fresh host random).table.get? id = none := by
  rw [fresh, get?_setStdio, if_neg (by change id ≠ 2; omega)]
  refine (get?_setStdio _ .stdout _ id).trans ?_
  rw [if_neg (by change id ≠ 1; omega)]
  refine (get?_setStdio _ .stdin _ id).trans ?_
  rw [if_neg (by change id ≠ 0; omega)]
  exact Table.get?_empty id

/-- A standard stream under the id of its kind. -/
def HoldsStream (w : World) (fd : Nat) : Prop :=
  ∃ e, w.table.get? fd = some (.stdio e) ∧ e.kind.fd = fd

theorem HoldsStream.setStdio (kind : StdioKind) (stream : Stream)
    (h : fd = kind.fd ∨ w.HoldsStream fd) : (w.setStdio kind stream).HoldsStream fd := by
  rw [HoldsStream, get?_setStdio]
  split
  case isTrue hfd => exact ⟨_, rfl, hfd.symm⟩
  case isFalse hfd => exact h.resolve_left hfd

theorem holdsStream_fresh (host : Host) (random : KeyStream) (h : fd < 3) :
    (fresh host random).HoldsStream fd := by
  have hcases : fd = 2 ∨ fd = 1 ∨ fd = 0 := by omega
  refine .setStdio .stderr _ (hcases.imp_right fun hcases => ?_)
  refine .setStdio .stdout _ (hcases.imp_right fun hcases => ?_)
  exact .setStdio .stdin _ (.inl hcases)

/-! ## The layout -/

/-- A guest that holds the standard streams, each under its own id, and behind them the roots of
its preopens, in order. -/
structure Numbered (guests : List Bytes) (w : World) : Prop where
  guests_eq : w.context.preopens.map Preopen.guest = guests
  streams : ∀ fd < Table.firstAllocated, w.HoldsStream fd
  roots : ∀ i, w.table.get? (Table.firstAllocated + i) =
    w.context.preopens[i]?.map fun p => .directory (.root i p.guest p.root)

namespace Numbered

theorem setStdio (h : w.Numbered guests) (kind : StdioKind) (stream : Stream) :
    (w.setStdio kind stream).Numbered guests := by
  have hkind : kind.fd < Table.firstAllocated := by cases kind <;> decide
  refine ⟨h.guests_eq, fun fd hfd => .setStdio kind stream (.inr (h.streams fd hfd)), fun i => ?_⟩
  rw [get?_setStdio, if_neg (by omega)]
  exact h.roots i

/-- The next preopen gets the id behind the last. -/
theorem leastFree?_eq (h : w.Numbered guests) (hfree : w.table.leastFree? = some fd) :
    fd = Table.firstAllocated + w.context.preopens.length := by
  obtain ⟨hle, -, hnone, hbefore⟩ := Table.leastFree?_eq_some_iff.mp hfree
  obtain ⟨i, rfl⟩ := Nat.exists_eq_add_of_le hle
  rw [h.roots, Option.map_eq_none_iff, List.getElem?_eq_none_iff] at hnone
  apply congrArg (Table.firstAllocated + ·)
  apply Nat.le_antisymm _ hnone
  -- the id behind the last preopen is free, so the least free one is not behind it
  apply Nat.le_of_not_lt
  intro hlt
  apply hbefore (Table.firstAllocated + w.context.preopens.length) (Nat.le_add_right _ _)
    (Nat.add_lt_add_left hlt _)
  rw [h.roots, List.getElem?_eq_none (Nat.le_refl _)]
  rfl

theorem fresh (host : Host) (random : KeyStream) : (World.fresh host random).Numbered [] := by
  refine ⟨rfl, fun fd hfd => holdsStream_fresh host random hfd, fun i => ?_⟩
  exact get?_fresh_of_le host random (Nat.le_add_right 3 i)

/-- A preopen is added behind the others. -/
theorem preopen (h : w.Numbered guests) (hfree : w.table.leastFree? = some fd) (path : String)
    (guest : Bytes) (root : Ino) : Numbered (guests ++ [guest])
      ⟨{ w.context with
          table := (w.table.allocate (.directory (.root w.context.preopens.length guest root))).2
          preopens := w.context.preopens ++ [⟨fd, guest, path, root⟩] }, w.host⟩ := by
  have hfd := h.leastFree?_eq hfree
  refine ⟨by rw [List.map_append, h.guests_eq]; rfl, fun id hid => ?_, fun i => ?_⟩
  · show ∃ e, (w.table.allocate _).2.get? id = some (.stdio e) ∧ e.kind.fd = id
    rw [Table.get?_allocate, hfree, if_neg]
    · exact h.streams id hid
    · rintro ⟨rfl⟩
      omega
  · show (w.table.allocate _).2.get? (Table.firstAllocated + i) = _
    rw [Table.get?_allocate, hfree, h.roots, hfd, getElem?_concat]
    by_cases hi : i = w.context.preopens.length
    · rw [if_pos hi, hi, if_pos rfl]
      rfl
    · rw [if_neg hi, if_neg fun heq => hi (Nat.add_left_cancel (Option.some.inj heq)).symm]

theorem configure_plain (h : w.Numbered guests) {s : Setting} (hs : s.guest? = none) :
    (w.configure s).2.Numbered guests := by
  have hconfigured := w.configure_configured s
  generalize (w.configure s).2 = w' at hconfigured ⊢
  cases hconfigured with
  | refused => exact h
  | strings => exact ⟨h.guests_eq, h.streams, h.roots⟩
  | stdio kind stream => exact h.setStdio kind stream
  | preopen => cases hs

/-- A request adds its preopen if it succeeds, and none if it fails. -/
theorem configure (h : w.Numbered guests) (s : Setting) :
    (w.configure s).2.Numbered (guests ++ (w.grant? s).toList) := by
  cases hs : s.guest? with
  | none =>
    rw [grant?_of_none hs, Option.toList_none, List.append_nil]
    exact h.configure_plain hs
  | some guest =>
    cases s with
    | preopen path guest =>
      rcases w.pushPreopen_cases path guest with ⟨fault, hpush⟩ | ⟨root, fd, -, hfree, hpush⟩
      · simp only [grant?, World.configure, hpush, Option.toList_none, List.append_nil]
        exact h
      · simp only [grant?, World.configure, hpush, Setting.guest?, Option.toList_some]
        exact h.preopen hfree path guest root
    | _ => cases hs

theorem build (h : w.Numbered guests) (settings : List Setting) :
    (w.build settings).Numbered (guests ++ w.granted settings) := by
  induction settings generalizing w guests with
  | nil =>
    rw [granted, List.append_nil]
    exact h
  | cons s rest ih =>
    rw [granted, ← List.append_assoc]
    exact ih (h.configure s)

/-- The ids that are open are those of the streams and of the preopens. -/
theorem keys_eq (h : w.Numbered guests) :
    w.table.keys = List.range (Table.firstAllocated + guests.length) := by
  apply Table.keys_eq_range
  intro id
  rw [Table.contains_iff]
  by_cases hid : id < Table.firstAllocated
  · obtain ⟨e, he, -⟩ := h.streams id hid
    exact iff_of_true ⟨_, he⟩ (Nat.lt_add_right _ hid)
  · obtain ⟨i, rfl⟩ := Nat.exists_eq_add_of_le (Nat.le_of_not_lt hid)
    rw [h.roots, ← h.guests_eq, List.length_map, Nat.add_lt_add_iff_left,
      ← Option.isSome_iff_exists, Option.isSome_map, isSome_getElem?]

end Numbered

end World

end Hostcall
