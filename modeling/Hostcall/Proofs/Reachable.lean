import Hostcall.Proofs.Building
import Hostcall.Proofs.Transition

/-!
# Guests at any moment of their lives

A guest is built, makes calls, is given things and has things taken from it, and in the
meantime its host goes on as hosts do.  `World.Reachable` is every world that comes about
in this way, whichever streams, files and other programs the host has.

* `Volume.Grounded` is what holds of every file system, hard links or not;
* `Reachable.sound` says of every reachable world that its file system is grounded, that no
  id lies beyond the capacity of the table, and that the preopens are directories.
-/

namespace Hostcall

namespace Lookup

variable {v : Volume} {mode : Mode} {P : Ino → Prop}

/-- A lookup without bounds does not leave a closed set either, for going up from the start
ends at the start. -/
theorem scan_closed {onLink : Ino → List Ino → Route → Answer} (hP : v.Closed P)
    (hlink : ∀ dir above route i, P dir → (∀ a ∈ above, P a) →
      onLink dir above route = .ok (.node i) → P i)
    {components : List Component} {dir i : Ino} {above : List Ino} {slashed : Bool}
    (hdir : P dir) (habove : ∀ a ∈ above, P a)
    (h : scan v mode onLink dir above components slashed = .ok (.node i)) : P i := by
  induction components generalizing dir above with
  | nil =>
    cases h
    exact hdir
  | cons component rest ih =>
    cases component with
    | current => exact ih hdir habove h
    | root =>
      rw [scan] at h
      split at h
      · cases h
      · apply ih _ (by simp) h
        -- the top is the last directory that was passed, if any was
        cases hlast : above.getLast? with
        | none => simpa [List.getLastD_eq_getLast?, hlast] using hdir
        | some a =>
          simpa [List.getLastD_eq_getLast?, hlast] using habove a (List.mem_of_getLast? hlast)
    | parent =>
      cases above with
      | nil =>
        rw [scan] at h
        split at h
        · cases h
        · exact ih hdir habove h
      | cons parent above =>
        exact ih (habove parent List.mem_cons_self)
          (fun a ha => habove a (List.mem_cons_of_mem _ ha)) h
    | name name =>
      rw [scan] at h
      split at h
      · cases h
      split at h
      · cases h
      split at h
      case h_1 => split at h <;> cases h
      case h_2 j hchild =>
        have hj : P j := hP _ _ hdir ⟨name, Volume.mem_entries_of_child? hchild⟩
        split at h
        case h_1 =>
          apply ih hj _ h
          intro a ha
          rcases List.mem_cons.mp ha with rfl | ha
          · exact hdir
          · exact habove a ha
        case h_2 =>
          split at h
          · cases h
            exact hj
          · exact hlink _ _ _ _ hdir habove h
        case h_3 =>
          split at h
          · cases h
            exact hj
          · cases h

theorem walk_closed (hP : v.Closed P) {budget : Nat} {dir i : Ino} {above : List Ino}
    {route : Route} (hdir : P dir) (habove : ∀ a ∈ above, P a)
    (h : walk v mode budget dir above route = .ok (.node i)) : P i := by
  induction budget generalizing dir above route i with
  | zero => exact scan_closed hP (by intros; contradiction) hdir habove h
  | succ budget ih =>
    exact scan_closed hP (fun _ _ _ _ hdir habove hlink => ih hdir habove hlink) hdir habove h

end Lookup

namespace Volume

variable {v v' : Volume} {P : Ino → Prop} {i : Ino}

/-! ## Nodes that exist -/

/-- There is a top, and entries name nodes that exist. -/
structure Grounded (v : Volume) : Prop where
  top_lt_size : top < v.nodes.size
  lt_size : ∀ dir i, v.Lists dir i → i < v.nodes.size

theorem grounded_new {clock : HostTime} : (new clock).Grounded := by
  refine ⟨Nat.zero_lt_one, ?_⟩
  rintro dir i ⟨name, h⟩
  obtain rfl : dir = 0 := Nat.lt_one_iff.mp (lt_size_of_mem_entries h)
  cases h

theorem Grounded.closed (h : v.Grounded) : v.Closed fun i => i < v.nodes.size :=
  fun dir i _ hi => h.lt_size dir i hi

theorem Edit.size_le (h : v.Edit P v') : v.nodes.size ≤ v'.nodes.size := by
  cases h <;> simp

theorem Grounded.edit (h : v.Grounded) (he : v.Edit P v') : v'.Grounded where
  top_lt_size := Nat.lt_of_lt_of_le h.top_lt_size he.size_le
  lt_size := fun dir i hi =>
    he.lists_lt (S := fun _ => True) (fun d j _ hj => h.lt_size d j hj) dir i trivial hi

/-- A body of the same kind as a node's is a directory if and only if the node is one. -/
theorem isDirectory_eq_of_fileType {b : Body} (h : b.fileType = (v.body i).fileType) :
    b.isDirectory = v.isDirectory i := by
  rw [isDirectory]
  cases b <;> cases hbody : v.body i <;> rw [hbody] at h <;> first | rfl | cases h

/-- A directory stays one, whatever is edited. -/
theorem Edit.isDirectory (he : v.Edit P v') (hi : i < v.nodes.size)
    (h : v.isDirectory i = true) : v'.isDirectory i = true := by
  have hother : ∀ {j : Ino} {b : Body}, b.fileType = (v.body j).fileType →
      b.isDirectory = false → i ≠ j := by
    rintro j b hkind hb rfl
    rw [isDirectory_eq_of_fileType hkind, h] at hb
    cases hb
  rw [Volume.isDirectory] at h ⊢
  cases he with
  | same => exact h
  | refill _ hkind hb => simpa [body_setBody, hother hkind hb] using h
  | rewrite _ hkind hb => simpa [body_replaceBody, hother hkind hb] using h
  | times => simpa [body_setTimes] using h
  | create =>
    rw [Volume.create, body_bind]
    split
    · rfl
    · rw [body_push, if_neg (Nat.ne_of_lt hi)]
      exact h
  | unbind =>
    rw [body_unbind]
    split
    · rfl
    · exact h

/-- What a host directory is opened as lies where the top's entries lead, and is a directory. -/
theorem openHostDirectory_closed {path : Bytes} (hP : v.Closed P) (htop : P top)
    (h : v.openHostDirectory path = .ok i) : P i ∧ v.isDirectory i = true := by
  obtain ⟨place, hplace, h⟩ := bind_eq_ok.mp h
  cases place with
  | vacant dir name => cases h
  | node j =>
    rw [directoryAt] at h
    split at h
    case isFalse => cases h
    case isTrue hj =>
      cases h
      refine ⟨?_, hj⟩
      rw [locateHost] at hplace
      split at hplace
      · cases hplace
      split at hplace
      · cases hplace
      split at hplace
      · cases hplace
      exact Lookup.walk_closed hP htop (by simp) hplace

/-- What a host directory is opened as exists and is a directory. -/
theorem openHostDirectory_eq_ok {path : Bytes} (hv : v.Grounded)
    (h : v.openHostDirectory path = .ok i) : i < v.nodes.size ∧ v.isDirectory i = true :=
  openHostDirectory_closed hv.closed hv.top_lt_size h

end Volume

namespace World

/-! ## Reachable worlds -/

/-- A guest with its host, at any moment of its life. -/
inductive Reachable : World → Prop where
  | fresh (host : Host) (random : KeyStream) (hhost : host.volume.Grounded) :
      Reachable (fresh host random)
  | configure {w : World} (h : Reachable w) (s : Setting) : Reachable (w.configure s).2
  | call {w : World} (h : Reachable w) (c : Call) : Reachable (w.call c).2
  | pushFile {w : World} (h : Reachable w) (handle : Handle) (access : Access) :
      Reachable (w.pushFile handle access).2
  | placeStdio {w : World} (h : Reachable w) (fd : Nat) (kind : StdioKind) (stream : Stream) :
      Reachable (w.placeStdio fd kind stream).2
  | takeOut {w : World} (h : Reachable w) (fd : Nat) : Reachable (w.takeOut fd).2
  /-- The host goes on.  Its nodes keep their numbers, and its directories what they are. -/
  | meanwhile {w : World} (h : Reachable w) (host : Host) (hhost : host.volume.Grounded)
      (hsize : w.volume.nodes.size ≤ host.volume.nodes.size)
      (hkinds : ∀ i, i < w.volume.nodes.size → w.volume.isDirectory i = true →
        host.volume.isDirectory i = true) : Reachable { w with host }

namespace Reachable

variable {w : World}

theorem run (h : w.Reachable) (calls : List Call) : (w.run calls).Reachable :=
  run_keeps (P := Reachable) (fun _ c h => h.call c) h calls

theorem build (h : w.Reachable) (settings : List Setting) : (w.build settings).Reachable := by
  induction settings generalizing w with
  | nil => exact h
  | cons s rest ih => exact ih (h.configure s)

theorem fillStdio (h : w.Reachable) (first count : Nat) (kind : StdioKind) (stream : Stream) :
    (w.fillStdio first count kind stream).2.Reachable := by
  induction count generalizing w first with
  | zero => exact h
  | succ count ih =>
    have hfirst := h.placeStdio first kind stream
    simp only [World.fillStdio, World.placeStdio, Table.insertRange] at hfirst ⊢
    split
    case h_1 held t heq =>
      rw [heq] at hfirst
      exact ih hfirst (first + 1)
    case h_2 fault t heq =>
      rw [heq] at hfirst
      exact hfirst

end Reachable

/-! ## What holds of them -/

/-- What holds of a guest with its host at every moment. -/
structure Sound (w : World) : Prop where
  grounded : w.volume.Grounded
  bounded : w.table.Bounded
  roots : ∀ p ∈ w.context.preopens,
    p.root < w.volume.nodes.size ∧ w.volume.isDirectory p.root = true

namespace Sound

variable {w w' : World}

theorem withTable (h : w.Sound) {t : DescriptorTable} (ht : t.Bounded) : (w.withTable t).Sound :=
  ⟨h.grounded, ht, h.roots⟩

/-- The host may go on as long as it keeps its directories. -/
theorem withHost (h : w.Sound) {host : Host} (hhost : host.volume.Grounded)
    (hsize : w.volume.nodes.size ≤ host.volume.nodes.size)
    (hkinds : ∀ i, i < w.volume.nodes.size → w.volume.isDirectory i = true →
      host.volume.isDirectory i = true) : Sound { w with host } := by
  refine ⟨hhost, h.bounded, fun p hp => ?_⟩
  obtain ⟨hlt, hdir⟩ := h.roots p hp
  exact ⟨Nat.lt_of_lt_of_le hlt hsize, hkinds p.root hlt hdir⟩

theorem fresh {host : Host} (random : KeyStream) (hhost : host.volume.Grounded) :
    (World.fresh host random).Sound := by
  have hempty : (Table.empty : DescriptorTable).Bounded := Nat.zero_le _
  exact ⟨hhost, ((hempty.insertAt _ _).insertAt _ _).insertAt _ _, nofun⟩

theorem configure (h : w.Sound) (s : Setting) : (w.configure s).2.Sound := by
  have hconfigured := w.configure_configured s
  generalize (w.configure s).2 = w' at hconfigured ⊢
  cases hconfigured with
  | refused => exact h
  | strings => exact ⟨h.grounded, h.bounded, h.roots⟩
  | stdio kind stream => exact h.withTable (h.bounded.insertAt _ _)
  | preopen hroot =>
    refine ⟨h.grounded, h.bounded.allocate _, fun p hp => ?_⟩
    rcases List.mem_append.mp hp with hp | hp
    · exact h.roots p hp
    · rw [List.mem_singleton.mp hp]
      exact Volume.openHostDirectory_eq_ok h.grounded hroot

theorem tableStep (h : w.Sound) {t : DescriptorTable} (ht : w.TableStep t) : t.Bounded := by
  cases ht with
  | same => exact h.bounded
  | adjust => exact h.bounded.update _ _
  | bind => exact h.bounded.allocate _
  | close => exact h.bounded.close _
  | renumber => exact h.bounded.renumber _ _

theorem call (h : w.Sound) (c : Call) : (w.call c).2.Sound := by
  obtain ⟨hpreopens, -, htable, hvolume⟩ := w.call_transition c
  refine ⟨h.grounded.edit hvolume, h.tableStep htable, fun p hp => ?_⟩
  rw [hpreopens] at hp
  obtain ⟨hlt, hdir⟩ := h.roots p hp
  exact ⟨Nat.lt_of_lt_of_le hlt hvolume.size_le, hvolume.isDirectory hlt hdir⟩

end Sound

theorem Reachable.sound {w : World} (h : w.Reachable) : w.Sound := by
  induction h with
  | fresh host random hhost => exact .fresh random hhost
  | configure _ s ih => exact ih.configure s
  | call _ c ih => exact ih.call c
  | pushFile _ handle access ih => exact ih.withTable (ih.bounded.allocate _)
  | placeStdio _ fd kind stream ih => exact ih.withTable (ih.bounded.insertAt _ _)
  | takeOut _ fd ih => exact ih.withTable (ih.bounded.close _)
  | meanwhile _ host hhost hsize hkinds ih => exact ih.withHost hhost hsize hkinds

end World

end Hostcall
