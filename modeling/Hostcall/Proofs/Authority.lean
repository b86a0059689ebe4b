import Hostcall.Proofs.Following
import Hostcall.Proofs.Placement

/-!
# Authority is stable

What a path means relative to a directory descriptor hangs on the descriptor alone, wherever
it is moved, and on the preopens, which no call changes.

* `World.Reachable.placed` says that every directory of a reachable guest lies beneath one of
  its preopens;
* `World.resolve_follow` is that a path means the same wherever the descriptor is;
* `World.Spares` is a run that leaves an id to its resource, and `World.resolve_spared` puts
  both together.
-/

namespace Hostcall

theorem Directory.Placed.append {preopens : List Preopen} {d : Directory} (h : d.Placed preopens)
    (p : Preopen) : d.Placed (preopens ++ [p]) := by
  refine ⟨?_, h.names, fun guest hguest => ?_⟩
  · rw [List.length_append]
    exact Nat.lt_add_right _ h.preopen_lt
  · obtain ⟨hnames, q, hq, hname⟩ := h.root guest hguest
    exact ⟨hnames, q, by rw [List.getElem?_append_left h.preopen_lt, hq], hname⟩

namespace World

variable {w : World} {fd fd' : Nat} {calls : List Call}

/-! ## Where directories lie -/

theorem Placed.withTable (h : w.Placed) {t : DescriptorTable}
    (ht : ∀ fd d, t.get? fd = some (.directory d) → ∃ id, w.table.get? id = some (.directory d)) :
    (w.withTable t).Placed := by
  intro fd d hd
  obtain ⟨id, hid⟩ := ht fd d hd
  exact h id d hid

theorem Placed.configure (h : w.Placed) (s : Setting) : (w.configure s).2.Placed := by
  have hconfigured := w.configure_configured s
  generalize (w.configure s).2 = w' at hconfigured ⊢
  cases hconfigured with
  | refused => exact h
  | strings => exact h
  | stdio kind stream =>
    show (w.withTable (w.table.insertAt kind.fd (.stdio ⟨kind, stream⟩)).2).Placed
    apply h.withTable
    intro fd d hd
    rw [Table.get?_insertAt (by cases kind <;> decide)] at hd
    split at hd
    · cases hd
    · exact ⟨fd, hd⟩
  | @preopen path guest root fd _ _ =>
    intro id d hd
    change (w.table.allocate _).2.get? id = some (.directory d) at hd
    rw [Table.get?_allocate] at hd
    split at hd
    · -- the new root lies beneath the preopen that is noted with it
      cases hd
      refine ⟨by simp [Directory.root], nofun, ?_⟩
      intro name hname
      cases hname
      exact ⟨rfl, _, List.getElem?_concat_length, rfl⟩
    · exact (h id d hd).append _

theorem Reachable.placed (h : w.Reachable) : w.Placed := by
  induction h with
  | fresh host random hhost => exact (Furnished.fresh host random []).placed
  | configure _ s ih => exact ih.configure s
  | call _ c ih => exact call_placed ih c
  | @pushFile w _ handle access ih =>
    show (w.withTable (w.table.allocate (.file ⟨handle, access⟩)).2).Placed
    apply ih.withTable
    intro fd d hd
    rw [Table.get?_allocate] at hd
    split at hd
    · cases hd
    · exact ⟨fd, hd⟩
  | @placeStdio w _ fd kind stream ih =>
    show (w.withTable (w.table.insertAt fd (.stdio ⟨kind, stream⟩)).2).Placed
    apply ih.withTable
    intro id d hd
    by_cases hfd : fd < Table.capacity
    · rw [Table.get?_insertAt hfd] at hd
      split at hd
      · cases hd
      · exact ⟨id, hd⟩
    · rw [Table.insertAt_snd_of_le (Nat.not_lt.mp hfd)] at hd
      exact ⟨id, hd⟩
  | @takeOut w _ fd ih =>
    show (w.withTable (w.table.close fd).2).Placed
    apply ih.withTable
    intro id d hd
    rw [Table.get?_close] at hd
    split at hd
    · cases hd
    · exact ⟨id, hd⟩
  | meanwhile _ host _ _ _ ih => exact ih

/-! ## Resolutions -/

/-- The path is folded beneath the names of the directory, and the preopen is found. -/
theorem Reachable.resolve_eq (hw : w.Reachable) {d : Directory}
    (hd : w.table.get? fd = some (.directory d)) :
    ∃ p, w.context.preopens[d.preopen]? = some p ∧
      ∀ path, w.resolve fd path = (foldPath d.relative path).map (⟨p, d.preopen, ·⟩) := by
  have hdirectory := getDirectory_eq_ok.mpr hd
  obtain ⟨p, hp, -⟩ := resolve_of_placed hdirectory (hw.placed fd d hd) ""
  refine ⟨p, hp, fun path => ?_⟩
  obtain ⟨q, hq, hresolve⟩ := resolve_of_placed hdirectory (hw.placed fd d hd) path
  rw [hp] at hq
  cases hq
  exact hresolve

/-- A path means what it meant, wherever the directory it is relative to was moved. -/
theorem resolve_follow (hw : w.Reachable) {d : Directory}
    (hd : w.table.get? fd = some (.directory d)) (hfollow : w.follow calls fd = some fd')
    (path : String) : (w.run calls).resolve fd' path = w.resolve fd path := by
  obtain ⟨p, hp, hbefore⟩ := hw.resolve_eq hd
  obtain ⟨q, hq, hafter⟩ := (hw.run calls).resolve_eq (get?_follow_directory hw hd hfollow)
  rw [run_preopens, hp] at hq
  cases hq
  rw [hbefore, hafter]

end World

/-! ## Runs that spare an id -/

/-- Whether a call asks to close an id, to move its resource away or to move another onto it. -/
def Call.Displaces (fd : Nat) : Call → Prop
  | .fdClose id => id = fd
  | .fdRenumber source target => source ≠ target ∧ (source = fd ∨ target = fd)
  | _ => False

namespace World

variable {w : World} {fd : Nat} {calls : List Call}

/-- A run in which no call closes an id, moves its resource away or moves another onto it. -/
def Spares (w : World) (fd : Nat) : List Call → Prop
  | [] => True
  | c :: rest =>
    (c.Displaces fd → ∃ fault, (w.call c).1 = .error fault) ∧ (w.call c).2.Spares fd rest

theorem Change.after_of_not_displaces {c : Call} {change : Change}
    (hchange : c.change? = some change) (h : ¬ c.Displaces fd) : change.after fd = some fd := by
  cases c with
  | fdClose id =>
    cases hchange
    exact if_neg fun hid => h hid.symm
  | fdRenumber source target =>
    cases hchange
    simp only [Call.Displaces, not_and, not_or] at h
    simp only [Change.after]
    by_cases hself : source = target
    · subst hself
      split
      case isTrue hfd => rw [hfd]
      case isFalse => rfl
    · obtain ⟨hsource, htarget⟩ := h hself
      rw [if_neg (Ne.symm hsource), if_neg (Ne.symm htarget)]
  | _ => cases hchange

theorem placeAfter_of_spared {c : Call}
    (h : c.Displaces fd → ∃ fault, (w.call c).1 = .error fault) :
    w.placeAfter c fd = some fd := by
  cases hanswer : (w.call c).1 with
  | error fault => exact placeAfter_of_error hanswer fd
  | ok answer =>
    cases hchange : c.change? with
    | none => exact placeAfter_of_none hchange w fd
    | some change =>
      rw [placeAfter_of_ok hanswer hchange]
      apply Change.after_of_not_displaces hchange
      intro hdisplaces
      obtain ⟨fault, hfault⟩ := h hdisplaces
      rw [hanswer] at hfault
      cases hfault

theorem follow_of_spares (h : w.Spares fd calls) : w.follow calls fd = some fd := by
  induction calls generalizing w with
  | nil => rfl
  | cons c rest ih =>
    rw [follow_cons, placeAfter_of_spared h.1]
    exact ih h.2

theorem follow_renumber {target : Nat} {answer : Answer}
    (h : (w.call (.fdRenumber fd target)).1 = .ok answer) :
    w.follow [.fdRenumber fd target] fd = some target := by
  rw [follow_cons, placeAfter_of_ok h rfl, Change.after, if_pos rfl]
  rfl

/-- Relative to a directory of a reachable guest, a path is resolved to the same place or with
the same fault before and after every run that leaves the directory under its id, whatever
becomes of the preopen's own descriptor and of all the others.  After the directory was moved to
another id, the same holds there. -/
theorem resolve_spared (hw : w.Reachable) {d : Directory}
    (hd : w.table.get? fd = some (.directory d)) :
    (∀ calls, w.Spares fd calls → ∀ path, (w.run calls).resolve fd path = w.resolve fd path) ∧
    ∀ target answer, (w.call (.fdRenumber fd target)).1 = .ok answer → ∀ path,
      (w.call (.fdRenumber fd target)).2.resolve target path = w.resolve fd path := by
  constructor
  · intro calls hspares path
    exact resolve_follow hw hd (follow_of_spares hspares) path
  · intro target answer hanswer path
    exact resolve_follow hw hd (follow_renumber hanswer) path

/-- A host with a directory `guest` that holds a directory `inner`. -/
def nestedHost : Host :=
  let v := ((Volume.new default).create Volume.top (utf8 "guest") (.directory [])).2
  ⟨(v.create 1 (utf8 "inner") (.directory [])).2, default, default, []⟩

/-- A guest that was granted `guest` and opened `inner` beneath it. -/
def nestedGuest : World :=
  (((fresh nestedHost default).build [.preopen "guest" [47]]).call
    (.pathOpen 3 .empty "inner" OpenFlags.directory .empty .empty .empty)).2

/-- Closes the preopen's own descriptor, puts a stream in its place and makes a directory. -/
def displacingCalls : List Call :=
  [.fdClose 3, .fdRenumber 1 3, .pathCreateDirectory 4 "../beside"]

theorem nestedHost_grounded : nestedHost.volume.Grounded :=
  (Volume.grounded_new.edit (P := fun _ => True) (.create trivial rfl (.inl rfl))).edit
    (P := fun _ => True) (.create trivial rfl (.inl rfl))

theorem nestedGuest_reachable : nestedGuest.Reachable :=
  ((Reachable.fresh nestedHost default nestedHost_grounded).build _).call _

theorem resolve_spared_nested :
    nestedGuest.Spares 4 displacingCalls ∧
      (nestedGuest.run displacingCalls).resolve 4 "../x" = nestedGuest.resolve 4 "../x" ∧
      (nestedGuest.call (.fdRenumber 4 3)).2.resolve 3 "x/" = nestedGuest.resolve 4 "x/" := by
  have hd : nestedGuest.table.get? 4 = some (.directory (.nested 0 ["inner"] 2)) := by
    decide +kernel
  have hspares : nestedGuest.Spares 4 displacingCalls := by
    simp [displacingCalls, Spares, Call.Displaces]
  obtain ⟨hstays, hmoved⟩ := resolve_spared nestedGuest_reachable hd
  have hrenumber : (nestedGuest.call (.fdRenumber 4 3)).1 = .ok .done :=
    map_eq_ok.mpr ⟨(), by decide +kernel, rfl⟩
  exact ⟨hspares, hstays _ hspares _, hmoved 3 .done hrenumber _⟩

end World

end Hostcall
