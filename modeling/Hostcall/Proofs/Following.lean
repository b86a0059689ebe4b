import Hostcall.Proofs.Lifecycle
import Mathlib.Data.List.Induction

/-!
# Following a descriptor

An id stands for something else after a descriptor was moved, and the same id may stand for
many resources in turn.  What is followed through a run is therefore the resource.

* `World.placeAfter` is where one call leaves the resource of an id, `World.follow` where a
  run leaves it;
* `World.get?_follow` says that it is still the same resource there;
* `World.OpenedBy` says that a resource was opened in the run, and by which call;
  `World.run_origin` is that every resource was followed from the start or opened on the way.
-/

namespace Hostcall

namespace World

variable {w : World} {fd fd' : Nat} {calls : List Call}

/-! ## Places -/

/-- The id under which a change leaves a resource, if it does not drop it. -/
def Change.after : Change → Nat → Option Nat
  | .close id, fd => if fd = id then none else some fd
  | .renumber source target, fd =>
    if fd = source then some target else if fd = target then none else some fd

/-- The id under which a call leaves the resource of an id, if it leaves it open. -/
def placeAfter (w : World) (c : Call) (fd : Nat) : Option Nat :=
  match (w.call c).1, c.change? with
  | .ok _, some change => change.after fd
  | _, _ => some fd

/-- The id under which a run leaves the resource of an id, if it leaves it open. -/
def follow (w : World) : List Call → Nat → Option Nat
  | [], fd => some fd
  | c :: rest, fd => (w.placeAfter c fd).bind ((w.call c).2.follow rest)

theorem follow_cons (w : World) (c : Call) (rest : List Call) (fd : Nat) :
    w.follow (c :: rest) fd = (w.placeAfter c fd).bind ((w.call c).2.follow rest) := rfl

theorem run_append (w : World) (before after : List Call) :
    w.run (before ++ after) = (w.run before).run after := by
  induction before generalizing w with
  | nil => rfl
  | cons c rest ih => exact ih _

theorem run_singleton (w : World) (c : Call) : w.run [c] = (w.call c).2 := rfl

theorem follow_append (w : World) (before after : List Call) (fd : Nat) :
    w.follow (before ++ after) fd = (w.follow before fd).bind ((w.run before).follow after) := by
  induction before generalizing w fd with
  | nil => rfl
  | cons c rest ih =>
    rw [List.cons_append, follow_cons, follow_cons, Option.bind_assoc]
    congr 1
    funext id
    exact ih _ id

theorem placeAfter_of_error {c : Call} {fault : Fault} (h : (w.call c).1 = .error fault)
    (fd : Nat) : w.placeAfter c fd = some fd := by
  rw [placeAfter, h]

theorem placeAfter_of_none {c : Call} (h : c.change? = none) (w : World) (fd : Nat) :
    w.placeAfter c fd = some fd := by
  rw [placeAfter, h]
  split
  case h_1 heq => cases heq
  case h_2 => rfl

theorem placeAfter_of_ok {c : Call} {answer : Answer} {change : Change}
    (h : (w.call c).1 = .ok answer) (hchange : c.change? = some change) (fd : Nat) :
    w.placeAfter c fd = change.after fd := by
  rw [placeAfter, h, hchange]

/-! ## One call -/

theorem Change.Applies.get?_after {c : Change} {t t' : DescriptorTable} (h : c.Applies t t')
    (hafter : c.after fd = some fd') : t'.get? fd' = t.get? fd := by
  cases c with
  | close id =>
    obtain ⟨-, htable⟩ := h
    simp only [Change.after] at hafter
    split at hafter
    · cases hafter
    case isFalse hne =>
      cases hafter
      rw [htable, Function.update_of_ne hne]
  | renumber source target =>
    obtain ⟨d, hd, htable⟩ := h
    simp only [Change.after] at hafter
    by_cases hself : source = target
    · -- what is moved onto itself stays, and so does everything else
      subst hself
      rw [if_pos rfl] at htable
      split at hafter
      case isTrue hfd =>
        cases hafter
        rw [htable, hfd]
      case isFalse =>
        cases hafter
        rw [htable]
    rw [if_neg hself] at htable
    split at hafter
    case isTrue hfd =>
      -- the resource is what moves
      cases hafter
      rw [htable, Function.update_of_ne (Ne.symm hself), Function.update_self, hfd, hd]
    case isFalse hfd =>
      split at hafter
      · cases hafter
      case isFalse htarget =>
        cases hafter
        rw [htable, Function.update_of_ne hfd, Function.update_of_ne htarget]

/-- What is bound after a change was bound before it. -/
theorem Change.Applies.exists_after {c : Change} {t t' : DescriptorTable} (h : c.Applies t t')
    {x : Descriptor} (hx : t'.get? fd' = some x) :
    ∃ fd, t.get? fd = some x ∧ c.after fd = some fd' := by
  cases c with
  | close id =>
    obtain ⟨-, htable⟩ := h
    by_cases hid : fd' = id
    · rw [htable, hid, Function.update_self] at hx
      cases hx
    · rw [htable, Function.update_of_ne hid] at hx
      exact ⟨fd', hx, if_neg hid⟩
  | renumber source target =>
    obtain ⟨d, hd, htable⟩ := h
    by_cases hself : source = target
    · rw [if_pos hself] at htable
      rw [htable] at hx
      refine ⟨fd', hx, ?_⟩
      simp only [Change.after]
      by_cases hfd : fd' = source
      · rw [if_pos hfd, hfd, hself]
      · rw [if_neg hfd, if_neg (hself ▸ hfd)]
    rw [if_neg hself] at htable
    by_cases hsource : fd' = source
    · rw [htable, hsource, Function.update_self] at hx
      cases hx
    rw [htable, Function.update_of_ne hsource] at hx
    by_cases htarget : fd' = target
    · rw [htarget, Function.update_self] at hx
      exact ⟨source, hd.trans hx, by rw [Change.after, if_pos rfl, htarget]⟩
    · rw [Function.update_of_ne htarget] at hx
      exact ⟨fd', hx, by rw [Change.after, if_neg hsource, if_neg htarget]⟩

theorem eq_directory_of_opened {x : Descriptor} {d : Directory}
    (h : x.opened = (Descriptor.directory d).opened) : x = .directory d := by
  cases x with
  | directory _ => exact h
  | file _ | stdio _ => cases h

theorem applies_of_rebinds {c : Call} {answer : Answer} {t t' : DescriptorTable}
    (h : c.Rebinds answer t t') {change : Change} (hchange : c.change? = some change) :
    change.Applies t t' := by
  cases c <;> cases hchange <;> exact h

theorem exists_opened_of_same {t t' : DescriptorTable} (h : t.Same t') {x : Descriptor}
    (hx : t.get? fd = some x) : ∃ y, t'.get? fd = some y ∧ y.opened = x.opened := by
  have hopened := h fd
  rw [hx, Option.map_some, Option.map_eq_some_iff] at hopened
  exact hopened

/-- What opening, closing and renumbering leave open is the very same. -/
theorem get?_placeAfter_of_rebinding (hw : w.Reachable) {c : Call} (hc : c.rebinding = true)
    {x : Descriptor} (hx : w.table.get? fd = some x) (hplace : w.placeAfter c fd = some fd') :
    (w.call c).2.table.get? fd' = some x := by
  cases hanswer : (w.call c).1 with
  | error fault =>
    rw [placeAfter_of_error hanswer] at hplace
    cases hplace
    rw [call_failed hw.sound.bounded hanswer]
    exact hx
  | ok answer =>
    have hrebinds := call_rebinds hanswer
    cases hchange : c.change? with
    | some change =>
      rw [placeAfter_of_ok hanswer hchange] at hplace
      exact ((applies_of_rebinds hrebinds hchange).get?_after hplace).trans hx
    | none =>
      rw [placeAfter_of_none hchange] at hplace
      cases hplace
      cases c with
      | pathOpen dirfd lookup path flags rights inheriting fdFlags =>
        -- the id that is bound was free
        obtain ⟨id, d, -, hleast, htable⟩ := hrebinds
        rw [htable, Function.update_of_ne, hx]
        rintro rfl
        rw [hleast.1.2] at hx
        cases hx
      | fdClose _ | fdRenumber _ _ => cases hchange
      | _ => cases hc

theorem change?_of_not_rebinding {c : Call} (hc : c.rebinding = false) : c.change? = none := by
  cases c <;> first | rfl | cases hc

/-- A call leaves the resource of an id where `placeAfter` says, and what it is as well. -/
theorem get?_placeAfter (hw : w.Reachable) {c : Call} {x : Descriptor}
    (hx : w.table.get? fd = some x) (hplace : w.placeAfter c fd = some fd') :
    ∃ y, (w.call c).2.table.get? fd' = some y ∧ y.opened = x.opened := by
  cases hc : c.rebinding with
  | true => exact ⟨x, get?_placeAfter_of_rebinding hw hc hx hplace, rfl⟩
  | false =>
    rw [placeAfter_of_none (change?_of_not_rebinding hc)] at hplace
    cases hplace
    exact exists_opened_of_same (w.call_keeps hc).same hx

theorem get?_follow (hw : w.Reachable) {x : Descriptor} (hx : w.table.get? fd = some x)
    (hfollow : w.follow calls fd = some fd') :
    ∃ y, (w.run calls).table.get? fd' = some y ∧ y.opened = x.opened := by
  induction calls generalizing w fd x with
  | nil =>
    cases hfollow
    exact ⟨x, hx, rfl⟩
  | cons c rest ih =>
    obtain ⟨id, hplace, hrest⟩ := Option.bind_eq_some_iff.mp hfollow
    obtain ⟨y, hy, hyx⟩ := get?_placeAfter hw hx hplace
    obtain ⟨z, hz, hzy⟩ := ih (hw.call c) hy hrest
    exact ⟨z, hz, hzy.trans hyx⟩

/-- A directory is followed to the very same directory. -/
theorem get?_follow_directory (hw : w.Reachable) {d : Directory}
    (hd : w.table.get? fd = some (.directory d)) (hfollow : w.follow calls fd = some fd') :
    (w.run calls).table.get? fd' = some (.directory d) := by
  obtain ⟨y, hy, hopened⟩ := get?_follow hw hd hfollow
  rw [hy, eq_directory_of_opened hopened]

end World

/-! ## Openings -/

/-- What a guest asks for when it opens a path. -/
structure Opening where
  dirfd : Nat
  lookup : LookupFlags
  path : String
  flags : OpenFlags
  rights : Rights
  inheriting : Rights
  fdFlags : FdFlags

/-- The call that asks for it. -/
def Opening.call (o : Opening) : Call :=
  .pathOpen o.dirfd o.lookup o.path o.flags o.rights o.inheriting o.fdFlags

/-- What the host gives for it. -/
def Opening.Gives (o : Opening) (w : World) (x : Descriptor) : Prop :=
  ∃ r, w.resolve o.dirfd o.path = .ok r ∧
    (r.openNode w.volume w.ends (o.lookup.contains LookupFlags.symlinkFollow) o.flags
      (Access.ofRights o.rights) o.fdFlags).1 = .ok x

/-- What is a directory was opened as one, where the path was resolved to. -/
theorem Opening.Gives.directory {o : Opening} {w : World} {d : Directory}
    (h : o.Gives w (.directory d)) :
    ∃ r i, w.resolve o.dirfd o.path = .ok r ∧ d = .nested r.index r.place.names i := by
  obtain ⟨r, hr, hopened⟩ := h
  rcases hnode : r.openNode w.volume w.ends (o.lookup.contains LookupFlags.symlinkFollow) o.flags
    (Access.ofRights o.rights) o.fdFlags with ⟨opened, v⟩
  rw [hnode] at hopened
  cases (World.openNode_transition hnode).2 _ hopened with
  | @directory i => exact ⟨r, i, hr, rfl⟩

namespace World

variable {w : World} {fd fd' : Nat} {calls before : List Call} {o : Opening}

/-- What an id holds after a run was opened in it, by a call behind the given ones. -/
def OpenedBy (w : World) (calls : List Call) (fd : Nat) (before : List Call) (o : Opening) :
    Prop :=
  ∃ after id, calls = before ++ o.call :: after ∧
    ((w.run before).call o.call).1 = .ok (.descriptor id) ∧
    ((w.run before).call o.call).2.follow after id = some fd

/-! ### One call -/

theorem call_opening_fst {fd : Nat} (h : (w.pathOpen o.dirfd o.lookup o.path o.flags o.rights
    o.inheriting o.fdFlags).1 = .ok fd) : (w.call o.call).1 = .ok (.descriptor fd) :=
  map_eq_ok.mpr ⟨fd, h, rfl⟩

/-- An opening that succeeds binds what the host gave, under an id that was free. -/
theorem call_opening {id : Nat} (h : (w.call o.call).1 = .ok (.descriptor id)) :
    ∃ x, o.Gives w x ∧ w.table.get? id = none ∧
      (w.call o.call).2.table.get? = Function.update w.table.get? id (some x) := by
  obtain ⟨fd, hopen, hid⟩ := changing_fst_eq_ok h
  cases hid
  have hfst := congrArg Prod.fst hopen
  obtain ⟨r, x, v, hr, hopened, -, hget⟩ := pathOpen_eq_ok hfst
  have htable : (w.call o.call).2 = (w.pathOpen o.dirfd o.lookup o.path o.flags o.rights
      o.inheriting o.fdFlags).2 := by rw [Opening.call, call, changing]
  rw [htable]
  exact ⟨x, ⟨r, hr, congrArg Prod.fst hopened⟩, (pathOpen_rebinds hfst).1.1.2, hget⟩

/-- What is open after a call was open before it, where it is followed from, or was opened by
it. -/
theorem call_origin (hw : w.Reachable) (c : Call) {x : Descriptor}
    (hx : (w.call c).2.table.get? fd' = some x) :
    (∃ fd y, w.table.get? fd = some y ∧ w.placeAfter c fd = some fd') ∨
      ∃ o : Opening, c = o.call ∧ (w.call c).1 = .ok (.descriptor fd') := by
  cases hanswer : (w.call c).1 with
  | error fault =>
    rw [call_failed hw.sound.bounded hanswer] at hx
    exact .inl ⟨fd', x, hx, placeAfter_of_error hanswer fd'⟩
  | ok answer =>
    have hrebinds := call_rebinds hanswer
    cases hchange : c.change? with
    | some change =>
      obtain ⟨fd, hfd, hafter⟩ := (applies_of_rebinds hrebinds hchange).exists_after hx
      exact .inl ⟨fd, x, hfd, (placeAfter_of_ok hanswer hchange fd).trans hafter⟩
    | none =>
      have hplace := placeAfter_of_none hchange w fd'
      cases c with
      | pathOpen dirfd lookup path flags rights inheriting fdFlags =>
        obtain ⟨id, d, rfl, hleast, htable⟩ := hrebinds
        by_cases hid : fd' = id
        · subst hid
          exact .inr ⟨⟨dirfd, lookup, path, flags, rights, inheriting, fdFlags⟩, rfl, rfl⟩
        · rw [htable, Function.update_of_ne hid] at hx
          exact .inl ⟨fd', x, hx, hplace⟩
      | fdClose _ | fdRenumber _ _ => cases hchange
      | _ =>
        have hopened := hrebinds fd'
        rw [hx, Option.map_some] at hopened
        obtain ⟨y, hy, -⟩ := Option.map_eq_some_iff.mp hopened.symm
        exact .inl ⟨fd', y, hy, hplace⟩

/-! ### Runs -/

theorem follow_snoc (w : World) (calls : List Call) (c : Call) (fd : Nat) :
    w.follow (calls ++ [c]) fd = (w.follow calls fd).bind ((w.run calls).placeAfter c) := by
  rw [follow_append]
  congr 1
  funext id
  rw [follow_cons]
  exact Option.bind_fun_some _

theorem OpenedBy.snoc (h : w.OpenedBy calls fd before o) {c : Call}
    (hplace : (w.run calls).placeAfter c fd = some fd') :
    w.OpenedBy (calls ++ [c]) fd' before o := by
  obtain ⟨after, id, rfl, hanswer, hfollow⟩ := h
  refine ⟨after ++ [c], id, by rw [List.append_assoc]; rfl, hanswer, ?_⟩
  rw [follow_snoc, hfollow]
  rw [run_append] at hplace
  exact hplace

/-- Whatever is open after a run was there at its start or was opened in it. -/
theorem run_origin (hw : w.Reachable) (calls : List Call) {x : Descriptor}
    (hx : (w.run calls).table.get? fd = some x) :
    (∃ fd₀ y, w.table.get? fd₀ = some y ∧ w.follow calls fd₀ = some fd) ∨
      ∃ before o, w.OpenedBy calls fd before o := by
  -- from the end of the run, where the last call is the one that opened it or left it there
  induction calls using List.reverseRecOn generalizing fd x with
  | nil => exact .inl ⟨fd, x, hx, rfl⟩
  | append_singleton calls c ih =>
    rw [run_append, run_singleton] at hx
    rcases call_origin (hw.run calls) c hx with ⟨id, y, hy, hplace⟩ | ⟨o, rfl, hanswer⟩
    · rcases ih hy with ⟨fd₀, z, hz, hfollow⟩ | ⟨before, o, ho⟩
      · apply Or.inl
        refine ⟨fd₀, z, hz, ?_⟩
        rw [follow_snoc, hfollow]
        exact hplace
      · exact .inr ⟨before, o, ho.snoc hplace⟩
    · exact .inr ⟨calls, o, [], fd, rfl, hanswer, rfl⟩

/-- What was opened in a run is still what the host gave for the opening. -/
theorem OpenedBy.get? (hw : w.Reachable) (h : w.OpenedBy calls fd before o) :
    ∃ x y, o.Gives (w.run before) x ∧ (w.run calls).table.get? fd = some y ∧
      y.opened = x.opened := by
  obtain ⟨after, id, rfl, hanswer, hfollow⟩ := h
  obtain ⟨x, hgives, -, htable⟩ := call_opening hanswer
  have hx : ((w.run before).call o.call).2.table.get? id = some x := by
    rw [htable, Function.update_self]
  obtain ⟨y, hy, hopened⟩ := get?_follow ((hw.run before).call o.call) hx hfollow
  refine ⟨x, y, hgives, ?_, hopened⟩
  rw [run_append]
  exact hy

/-- A directory that was opened in a run is still the one that the host gave. -/
theorem OpenedBy.directory (hw : w.Reachable) (h : w.OpenedBy calls fd before o) {d : Directory}
    (hd : (w.run calls).table.get? fd = some (.directory d)) :
    o.Gives (w.run before) (.directory d) := by
  obtain ⟨x, y, hgives, hy, hopened⟩ := h.get? hw
  rw [hd] at hy
  cases hy
  rw [← eq_directory_of_opened hopened.symm]
  exact hgives

theorem OpenedBy.run_eq (h : w.OpenedBy calls fd before o) :
    ∃ after, w.run calls = (w.run before).run after := by
  obtain ⟨after, id, rfl, -, -⟩ := h
  exact ⟨o.call :: after, run_append w before _⟩

end World

end Hostcall
