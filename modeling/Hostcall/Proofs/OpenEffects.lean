import Hostcall.Proofs.Conservation
import Hostcall.Proofs.Creating
import Hostcall.Proofs.EntryCalls

/-!
# What opening a path may change

The flags of an open say whether it may create a file, whether there must be none before, and
whether a file is emptied.  Whatever they are, the tree is changed in no other way.

* `Flags.contains_union` and `OpenFlags.intersects_writing` read several flags as one test;
* `World.holds` is what is in a node, `World.ends_opened` counts who holds a named pipe after an
  open;
* `Resolved.openNode_eq_ok` says what was asked of the host when an open succeeded;
* `World.pathOpen_alters` is what a call may have done to the tree.
-/

namespace Hostcall

/-! ## Several flags at once -/

namespace Flags

variable {family : FlagFamily} {flags other a b : Flags family}

theorem contains_iff : flags.contains other = true ↔
    ∀ k, other.bits.toNat.testBit k = true → flags.bits.toNat.testBit k = true := by
  rw [contains, beq_iff_eq, ← UInt64.toNat_inj, UInt64.toNat_and]
  constructor
  · intro h k hk
    rw [← h, Nat.testBit_and, Bool.and_eq_true] at hk
    exact hk.1
  · intro h
    apply Nat.eq_of_testBit_eq
    intro k
    rw [Nat.testBit_and, Bool.and_eq_right_iff_imp]
    exact h k

theorem intersects_iff : flags.intersects other = true ↔
    ∃ k, flags.bits.toNat.testBit k = true ∧ other.bits.toNat.testBit k = true := by
  rw [intersects, bne_iff_ne, ne_eq, ← UInt64.toNat_inj, UInt64.toNat_and]
  constructor
  · intro h
    obtain ⟨k, hk⟩ := Nat.exists_testBit_of_ne_zero h
    rw [Nat.testBit_and, Bool.and_eq_true] at hk
    exact ⟨k, hk⟩
  · rintro ⟨k, hk⟩ hzero
    rw [← Bool.and_eq_true, ← Nat.testBit_and, hzero] at hk
    simp at hk

theorem contains_union : flags.contains (a.union b) = (flags.contains a && flags.contains b) := by
  rw [Bool.eq_iff_iff, Bool.and_eq_true, contains_iff, contains_iff, contains_iff]
  simp only [union, UInt64.toNat_or, Nat.testBit_or, Bool.or_eq_true]
  exact ⟨fun h => ⟨fun k hk => h k (.inl hk), fun k hk => h k (.inr hk)⟩,
    fun h k hk => hk.elim (h.1 k) (h.2 k)⟩

theorem intersects_union :
    flags.intersects (a.union b) = (flags.intersects a || flags.intersects b) := by
  rw [Bool.eq_iff_iff, Bool.or_eq_true, intersects_iff, intersects_iff, intersects_iff]
  simp only [union, UInt64.toNat_or, Nat.testBit_or, Bool.or_eq_true, and_or_left, exists_or]

/-- For one flag both tests are the same. -/
theorem intersects_eq_contains {k : Nat} (h : other.bits.toNat = 1 <<< k) :
    flags.intersects other = flags.contains other := by
  rw [Bool.eq_iff_iff, intersects_iff, contains_iff, h]
  simp only [Nat.one_shiftLeft, Nat.testBit_two_pow, decide_eq_true_eq, exists_eq_right',
    forall_eq']

end Flags

theorem OpenFlags.intersects_writing (flags : OpenFlags) :
    flags.intersects (Flags.unions [create, exclusive, truncate]) =
      (flags.contains create || flags.contains exclusive || flags.contains truncate) := by
  have hempty : flags.intersects Flags.empty = false := by simp [Flags.intersects, Flags.empty]
  have hcreate : create.bits.toNat = 1 <<< 0 := rfl
  have hexclusive : exclusive.bits.toNat = 1 <<< 2 := rfl
  have htruncate : truncate.bits.toNat = 1 <<< 3 := rfl
  simp only [Flags.unions, List.foldl_cons, List.foldl_nil, Flags.intersects_union, hempty,
    Bool.false_or, Flags.intersects_eq_contains hcreate, Flags.intersects_eq_contains hexclusive,
    Flags.intersects_eq_contains htruncate]

/-! ## What the host is asked for -/

namespace Resolved

variable {follow : Bool} {flags : OpenFlags} {access : Access} {fdFlags : FdFlags} {r : Resolved}
  {v v' : Volume} {ends : Ino → Ends} {d : Descriptor}

theorem request_createNew : (request follow flags access fdFlags).createNew =
    (flags.contains OpenFlags.create && flags.contains OpenFlags.exclusive) :=
  Flags.contains_union

theorem request_creates : (request follow flags access fdFlags).creates =
    flags.contains OpenFlags.create := by
  simp only [request, OpenRequest.creates, Flags.contains_union]
  cases flags.contains OpenFlags.create <;> cases flags.contains OpenFlags.exclusive <;> rfl

theorem request_empties : (request follow flags access fdFlags).empties =
    (flags.contains OpenFlags.truncate &&
      !(flags.contains OpenFlags.create && flags.contains OpenFlags.exclusive)) := by
  rw [OpenRequest.empties, request_createNew]
  rfl

/-- An open that succeeds found a directory, as which it was asked for, or opened a file of the
host that may turn out to be one. -/
theorem openNode_eq_ok (h : r.openNode v ends follow flags access fdFlags = (.ok d, v')) :
    (flags.contains OpenFlags.directory = true ∧
      (flags.contains OpenFlags.create || flags.contains OpenFlags.exclusive ||
        flags.contains OpenFlags.truncate) = false ∧ v' = v ∧
      ∃ i, v.openDirectory r.preopen.root (follow || r.place.names.isEmpty) r.locator = .ok i ∧
        d = .directory (.nested r.index r.place.names i)) ∨
    (flags.contains OpenFlags.directory = false ∧
      ∃ i, v.openFile ends r.preopen.root r.lookup (request follow flags access fdFlags) =
          .ok (i, v') ∧
        ((v'.isDirectory i = true ∧ d = .directory (.nested r.index r.place.names i)) ∨
          (v'.isDirectory i = false ∧ r.place.mustBeDir = false ∧
            d = .file ⟨(request follow flags access fdFlags).handle i, access⟩))) := by
  rw [openNode, OpenFlags.intersects_writing] at h
  split at h
  · cases h
  split at h
  case isTrue hdirectory =>
    split at h
    case isTrue => cases h
    case isFalse hwriting =>
      obtain ⟨hopen, rfl⟩ := Prod.mk.inj h
      obtain ⟨i, hi, hd⟩ := bind_eq_ok.mp hopen
      cases hd
      exact .inl ⟨hdirectory, by simpa using hwriting, rfl, i, fromHost_eq_ok.mp hi, rfl⟩
  case isFalse hdirectory =>
    refine .inr ⟨by simpa using hdirectory, ?_⟩
    rw [openFile] at h
    split at h
    case h_1 => cases h
    case h_2 i u hopen =>
      split at h
      case isTrue hi =>
        cases h
        exact ⟨i, hopen, .inl ⟨hi, rfl⟩⟩
      case isFalse hi =>
        split at h
        case isTrue => cases h
        case isFalse hslash =>
          cases h
          exact ⟨i, hopen, .inr ⟨by simpa using hi, by simpa using hslash, rfl⟩⟩

end Resolved

/-! ## Who holds a named pipe -/

namespace Handle

variable {hs hs' : List Handle} {h : Handle} {i : Ino}

theorem endsOf_perm (hperm : hs.Perm hs') (i : Ino) : endsOf hs i = endsOf hs' i := by
  have hholding := hperm.filter fun h => h.ino == i
  simp only [endsOf, hholding.countP_eq]

theorem endsOf_append_of_ne {more : List Handle} (hne : ∀ h ∈ more, h.ino ≠ i) :
    endsOf (hs ++ more) i = endsOf hs i := by
  have hnone : (more.filter fun h => h.ino == i) = [] := by
    rw [List.filter_eq_nil_iff]
    intro h hh
    simpa using hne h hh
  rw [endsOf, List.filter_append, hnone, List.append_nil]
  rfl

/-- Who holds a node still does when there are more handles. -/
theorem endsOf_eq_zero_of_append {more : List Handle} (hzero : endsOf (hs ++ more) i = ⟨0, 0⟩) :
    endsOf hs i = ⟨0, 0⟩ := by
  simp only [endsOf, List.filter_append, List.countP_append, Ends.mk.injEq,
    Nat.add_eq_zero_iff] at hzero ⊢
  exact ⟨hzero.1.1, hzero.2.1⟩

end Handle

theorem DescriptorTable.handles_perm {t t' : DescriptorTable} {fd : Nat} {d : Descriptor}
    (ht : t.Bounded) (ht' : t'.Bounded) (hfd : fd < Table.capacity) (hfree : t.get? fd = none)
    (h : t'.get? = Function.update t.get? fd (some d)) :
    t'.handles.Perm (t.handles ++ d.handle?.toList) := by
  have hhandles : ∀ t : DescriptorTable, t.handles = t.resources.filterMap Descriptor.handle? := by
    intro t
    rw [handles, Table.resources, List.filterMap_map]
    rfl
  have hbound := Table.bound_update t.get? hfd (some d)
  rw [← h, hfree, Option.toList_none, List.append_nil, ← Table.resources_eq ht,
    ← Table.resources_eq ht'] at hbound
  rw [hhandles, hhandles]
  have hone : d.handle?.toList = [d].filterMap Descriptor.handle? := by
    cases hd : d.handle? <;> simp [hd]
  rw [hone, ← List.filterMap_append]
  exact hbound.filterMap _

namespace World

variable {w w' : World} {fd : Nat} {d : Descriptor} {i j : Ino}

/-- A world in which a resource was given a free id, whatever happened to its file system. -/
structure Gives (w w' : World) (fd : Nat) (d : Descriptor) : Prop where
  free : w.table.leastFree? = some fd
  table : w'.table.get? = Function.update w.table.get? fd (some d)
  peers : w'.host.peers = w.host.peers

theorem ends_opened (hw : w.table.Bounded) (hw' : w'.table.Bounded) (h : w.Gives w' fd d)
    (j : Ino) : w'.ends j =
      Handle.endsOf ((w.table.handles ++ w.host.peers.map (·.2)) ++ d.handle?.toList) j := by
  obtain ⟨-, hlt, hfree, -⟩ := Table.leastFree?_eq_some_iff.mp h.free
  have hperm := DescriptorTable.handles_perm hw hw' hlt hfree h.table
  rw [ends, h.peers]
  apply Handle.endsOf_perm
  rw [List.append_assoc]
  exact (hperm.append_right _).trans (by
    rw [List.append_assoc]
    exact List.perm_append_comm.append_left _)

/-! ## What is in a node -/

/-- What is in a node.  A named pipe that nobody holds is empty: what was left in it went with its
last holder, though the host drops it only when the pipe is opened again. -/
def holds (w : World) (i : Ino) : Body :=
  match w.volume.body i with
  | .fifo queue => .fifo (if w.ends i = ⟨0, 0⟩ then .empty else queue)
  | b => b

/-- The tree is as it was: all names, kinds and contents. -/
structure Unaltered (w w' : World) : Prop where
  size : w'.volume.nodes.size = w.volume.nodes.size
  holds : ∀ j, w'.holds j = w.holds j

/-- One node was emptied, if it is a file, and the tree is as it was otherwise. -/
structure Empties (w w' : World) (i : Ino) : Prop where
  size : w'.volume.nodes.size = w.volume.nodes.size
  others : ∀ j, j ≠ i → w'.holds j = w.holds j
  opened : w'.holds i =
    match w.holds i with
    | .file _ => .file .empty
    | b => b

/-- An empty file was created under a free name, and the tree is as it was otherwise.  The path led
nowhere before and leads to the file now. -/
structure CreatesFile (w w' : World) (r : Resolved) (follow : Bool) (dir : Ino) (name : Name) :
    Prop where
  added : w.volume.Added w'.volume dir name (.file .empty)
  before : w.volume.find r.preopen.root follow r.lookup = .error .noEntry
  after : w'.volume.find r.preopen.root follow r.lookup = .ok w.volume.nodes.size

theorem Empties.of_unaltered (h : w.Unaltered w') (hi : ∀ c, w.holds i ≠ .file c) :
    w.Empties w' i := by
  refine ⟨h.size, fun j _ => h.holds j, ?_⟩
  rw [h.holds]
  cases hbody : w.holds i with
  | file c => exact absurd hbody (hi c)
  | directory | link | fifo | socket | device => rfl

theorem holds_eq_of_body (hbody : w'.volume.body j = w.volume.body j)
    (hends : ∀ p, w.volume.body j = .fifo p → (w'.ends j = ⟨0, 0⟩ ↔ w.ends j = ⟨0, 0⟩)) :
    w'.holds j = w.holds j := by
  rw [holds, holds, hbody]
  cases hj : w.volume.body j with
  | fifo p => simp only [hends p hj]
  | directory | file | link | socket | device => rfl

theorem holds_of_file {c : Content} (h : w.volume.body i = .file c) : w.holds i = .file c := by
  rw [holds, h]

theorem body_of_holds_file {c : Content} (h : w.holds i = .file c) : w.volume.body i = .file c := by
  rw [holds] at h
  cases hbody : w.volume.body i with
  | fifo p =>
    rw [hbody] at h
    cases h
  | directory | file | link | socket | device =>
    rw [hbody] at h
    exact h

section

variable (hw : w.table.Bounded) (hw' : w'.table.Bounded) (h : w.Gives w' fd d)
include hw hw' h

/-- Only a pipe that is opened itself gets other holders. -/
theorem ends_eq_zero_iff (hhandle : ∀ k ∈ d.handle?, k.ino = i)
    (hheld : j = i → w.ends i ≠ ⟨0, 0⟩) : w'.ends j = ⟨0, 0⟩ ↔ w.ends j = ⟨0, 0⟩ := by
  rw [ends_opened hw hw' h]
  by_cases hj : j = i
  · refine iff_of_false (fun hzero => hheld hj ?_) ?_
    · rw [← hj]
      exact Handle.endsOf_eq_zero_of_append hzero
    · rw [hj]
      exact hheld hj
  · rw [Handle.endsOf_append_of_ne]
    · rfl
    · intro k hk
      rw [hhandle k (Option.mem_toList.mp hk)]
      exact Ne.symm hj

theorem holds_others (hhandle : ∀ k ∈ d.handle?, k.ino = i)
    (hbody : w'.volume.body j = w.volume.body j) (hj : j ≠ i) : w'.holds j = w.holds j :=
  holds_eq_of_body hbody fun _ _ => ends_eq_zero_iff hw hw' h hhandle fun hji => absurd hji hj

theorem unaltered_of_found (hhandle : ∀ k ∈ d.handle?, k.ino = i) (hvolume : w'.volume = w.volume)
    (hheld : ∀ p, w.volume.body i = .fifo p → w.ends i ≠ ⟨0, 0⟩) : w.Unaltered w' := by
  refine ⟨by rw [hvolume], fun j => ?_⟩
  apply holds_eq_of_body (by rw [hvolume])
  intro p hp
  apply ends_eq_zero_iff hw hw' h hhandle
  rintro rfl
  exact hheld p hp

theorem unaltered_of_drained {p : Fifo} (hhandle : ∀ k ∈ d.handle?, k.ino = i)
    (hvolume : w'.volume = w.volume.setBody i (.fifo .empty)) (hbody : w.volume.body i = .fifo p)
    (hends : w.ends i = ⟨0, 0⟩) : w.Unaltered w' := by
  refine ⟨by rw [hvolume, Volume.size_setBody], fun j => ?_⟩
  by_cases hj : j = i
  · -- nothing was in the pipe before, and nothing is in it now
    subst hj
    have hlt : j < w.volume.nodes.size := by
      by_contra hle
      rw [Volume.body, Volume.node_of_le (Nat.not_lt.mp hle)] at hbody
      cases hbody
    rw [holds, holds, hvolume, Volume.body_setBody, if_pos ⟨rfl, hlt⟩, hbody]
    simp [hends]
  · apply holds_others hw hw' h hhandle _ hj
    rw [hvolume, Volume.body_setBody, if_neg fun hji => hj hji.1]

theorem empties_of_emptied {c : Content} (hhandle : ∀ k ∈ d.handle?, k.ino = i)
    (hvolume : w'.volume = w.volume.replaceBody i (.file .empty))
    (hbody : w.volume.body i = .file c) : w.Empties w' i := by
  refine ⟨by rw [hvolume, Volume.size_replaceBody], fun j hj => ?_, ?_⟩
  · apply holds_others hw hw' h hhandle _ hj
    rw [hvolume, Volume.body_replaceBody, if_neg fun hji => hj hji.1]
  · have hlt := Volume.lt_size_of_body_file hbody
    rw [holds_of_file hbody, holds, hvolume, Volume.body_replaceBody, if_pos ⟨rfl, hlt⟩]

end

/-! ## Opening a path -/

section

variable {dirfd : Nat} {lookup : LookupFlags} {path : String} {flags : OpenFlags}
  {rights inheriting : Rights} {fdFlags : FdFlags} {r : Resolved} {follow : Bool} {access : Access}

/-- What an open that succeeded did to the tree, as far as its flags allow. -/
structure AltersAsAllowed (w w' : World) (dirfd : Nat) (path : String) (r : Resolved)
    (follow : Bool) (flags : OpenFlags) (fd : Nat) : Prop where
  reading : flags.contains OpenFlags.create = false →
    flags.contains OpenFlags.truncate = false → w.Unaltered w'
  exclusive : flags.contains OpenFlags.create = true → flags.contains OpenFlags.exclusive = true →
    ∃ dir name, w.Names dirfd path dir name ∧ w.CreatesFile w' r false dir name
  creating : flags.contains OpenFlags.create = true → flags.contains OpenFlags.exclusive = false →
    (∃ dir name, w.CreatesFile w' r follow dir name) ∨
      (∃ i, w.volume.find r.preopen.root follow r.lookup = .ok i) ∧
        (flags.contains OpenFlags.truncate = false → w.Unaltered w')
  truncating : flags.contains OpenFlags.truncate = true →
    ∃ e, w'.table.get? fd = some (.file e) ∧
      ((flags.contains OpenFlags.create = true ∧ e.handle.ino = w.volume.nodes.size ∧
          ∃ dir name, w.CreatesFile w' r
            (follow && !flags.contains OpenFlags.exclusive) dir name) ∨
        (w.volume.find r.preopen.root follow r.lookup = .ok e.handle.ino ∧
          w.Empties w' e.handle.ino))

/-- Something was there, and it may have been emptied if that was asked for. -/
theorem AltersAsAllowed.of_found
    (hnew : (flags.contains OpenFlags.create && flags.contains OpenFlags.exclusive) = false)
    (hfind : w.volume.find r.preopen.root follow r.lookup = .ok i)
    (hkept : flags.contains OpenFlags.truncate = false → w.Unaltered w')
    (hfile : flags.contains OpenFlags.truncate = true →
      ∃ e, w'.table.get? fd = some (.file e) ∧ e.handle.ino = i)
    (hempties : flags.contains OpenFlags.truncate = true → w.Empties w' i) :
    w.AltersAsAllowed w' dirfd path r follow flags fd where
  reading := fun _ => hkept
  exclusive := by
    intro hcreate hexclusive
    simp [hcreate, hexclusive] at hnew
  creating := fun _ _ => .inr ⟨⟨i, hfind⟩, hkept⟩
  truncating := by
    intro htruncate
    obtain ⟨e, he, hi⟩ := hfile htruncate
    refine ⟨e, he, .inr ?_⟩
    rw [hi]
    exact ⟨hfind, hempties htruncate⟩

theorem altersAsAllowed (hw : w.Reachable) (hw' : w'.table.Bounded)
    (hr : w.resolve dirfd path = .ok r) (hgives : w.Gives w' fd d)
    (hopen : r.openNode w.volume w.ends follow flags access fdFlags = (.ok d, w'.volume)) :
    w.AltersAsAllowed w' dirfd path r follow flags fd := by
  have hbounded := hw.sound.bounded
  have hroot := hw.sound.roots r.preopen (preopen_mem_of_resolve hr)
  rcases Resolved.openNode_eq_ok hopen with ⟨-, hflags, hvolume, i, hi, rfl⟩ |
    ⟨-, i, hfile, hd⟩
  · -- opened as a directory
    simp only [Bool.or_eq_false_iff] at hflags
    obtain ⟨⟨hcreate, hexclusive⟩, htruncate⟩ := hflags
    obtain ⟨-, hdirectory⟩ := Volume.openDirectory_eq_ok hi
    have hunaltered : w.Unaltered w' := by
      apply unaltered_of_found hbounded hw' hgives (i := i) nofun hvolume
      intro p hp
      rw [Volume.isDirectory, hp] at hdirectory
      cases hdirectory
    refine ⟨fun _ _ => hunaltered, fun h => ?_, fun h => ?_, fun h => ?_⟩
    · rw [hcreate] at h
      cases h
    · rw [hcreate] at h
      cases h
    · rw [htruncate] at h
      cases h
  · have hopens := Volume.openFile_opens hw.sound.grounded hroot hfile
    have hhandle : ∀ k ∈ d.handle?, k.ino = i := by
      rcases hd with ⟨-, rfl⟩ | ⟨-, -, rfl⟩
      · exact nofun
      · rintro k ⟨⟩
        rfl
    have hentry : flags.contains OpenFlags.truncate = true →
        ∃ e, w'.table.get? fd = some (.file e) ∧ e.handle.ino = i := by
      intro htruncate
      have hnot := hopens.isDirectory_of_truncate htruncate
      rcases hd with ⟨hdirectory, -⟩ | ⟨-, -, rfl⟩
      · rw [hnot] at hdirectory
        cases hdirectory
      · exact ⟨_, by rw [hgives.table, Function.update_self], rfl⟩
    generalize hvolume : w'.volume = v' at hopens
    cases hopens with
    | found hfind hpermits hkept hheld =>
      have hnew := OpenRequest.createNew_of_permits hpermits
      rw [Resolved.request_createNew] at hnew
      have hunaltered := unaltered_of_found hbounded hw' hgives hhandle hvolume hheld
      refine .of_found hnew hfind (fun _ => hunaltered) hentry fun htruncate => ?_
      -- a file would have been emptied
      apply Empties.of_unaltered hunaltered
      intro c hc
      have hempties := hkept c (body_of_holds_file hc)
      rw [Resolved.request_empties, htruncate, hnew] at hempties
      cases hempties
    | drained hfind hpermits hbody hends =>
      have hnew := OpenRequest.createNew_of_permits hpermits
      rw [Resolved.request_createNew] at hnew
      have hunaltered := unaltered_of_drained hbounded hw' hgives hhandle hvolume hbody hends
      refine .of_found hnew hfind (fun _ => hunaltered) hentry fun _ => ?_
      apply Empties.of_unaltered hunaltered
      intro c hc
      rw [body_of_holds_file hc] at hbody
      cases hbody
    | emptied hfind hpermits hbody hempties =>
      have hnew := OpenRequest.createNew_of_permits hpermits
      rw [Resolved.request_createNew] at hnew
      refine .of_found hnew hfind (fun hkept => ?_) hentry fun _ =>
        empties_of_emptied hbounded hw' hgives hhandle hvolume hbody
      rw [Resolved.request_empties, hkept] at hempties
      cases hempties
    | @created dir name hcreates hlocate hdir hname hi =>
      rw [Resolved.request_creates] at hcreates
      have hadded : w.volume.Added w'.volume dir name (.file .empty) := by
        rw [hvolume]
        exact Volume.added_create hdir hname rfl
      have hmode : (Resolved.request follow flags access fdFlags).mode true =
          ⟨true, follow && !flags.contains OpenFlags.exclusive, true⟩ := by
        rw [OpenRequest.mode, Resolved.request_createNew, Resolved.request_creates, hcreates]
        rfl
      rw [hmode] at hlocate
      have hcreated : w.CreatesFile w' r (follow && !flags.contains OpenFlags.exclusive) dir name :=
        ⟨hadded, Volume.find_of_vacant hlocate,
          Volume.find_added hadded hw.sound.grounded hlocate⟩
      constructor
      case reading =>
        intro hnot
        rw [hcreates] at hnot
        cases hnot
      case exclusive =>
        intro _ hexclusive
        rw [hexclusive, Bool.not_true, Bool.and_false] at hcreated hlocate
        exact ⟨dir, name, ⟨r, hr, Volume.namesIn_of_vacant rfl rfl hroot.2 hlocate⟩, hcreated⟩
      case creating =>
        intro _ hexclusive
        rw [hexclusive, Bool.not_false, Bool.and_true] at hcreated
        exact .inl ⟨dir, name, hcreated⟩
      case truncating =>
        intro htruncate
        obtain ⟨e, he, heq⟩ := hentry htruncate
        exact ⟨e, he, .inl ⟨hcreates, heq.trans hi, dir, name, hcreated⟩⟩

theorem pathOpen_gives
    (h : (w.pathOpen dirfd lookup path flags rights inheriting fdFlags).1 = .ok fd) :
    let w' := (w.pathOpen dirfd lookup path flags rights inheriting fdFlags).2
    ∃ r d, w.resolve dirfd path = .ok r ∧ w.Gives w' fd d ∧
      r.openNode w.volume w.ends (lookup.contains LookupFlags.symlinkFollow) flags
        (Access.ofRights rights) fdFlags = (.ok d, w'.volume) := by
  intro w'
  obtain ⟨r, d, v, hr, hopen, hfree, hget⟩ := pathOpen_eq_ok h
  have hworld : w' = ((w.withVolume v).allocate d).2 := by simp only [w', pathOpen, hr, hopen]
  have hvolume : w'.volume = v := by rw [hworld]; rfl
  have hpeers : w'.host.peers = w.host.peers := by rw [hworld]; rfl
  rw [hvolume]
  exact ⟨r, d, hr, ⟨hfree, hget, hpeers⟩, hopen⟩

/-- Whether or not an open succeeds, it makes no directory and removes none. -/
theorem pathOpen_keepsDirectories (hw : w.Reachable) : w.volume.KeepsDirectories
    (w.pathOpen dirfd lookup path flags rights inheriting fdFlags).2.volume := by
  simp only [pathOpen]
  cases hr : w.resolve dirfd path with
  | error fault => exact .refl _
  | ok r =>
    have hroot := hw.sound.roots r.preopen (preopen_mem_of_resolve hr)
    rcases hopen : r.openNode w.volume w.ends (lookup.contains LookupFlags.symlinkFollow) flags
      (Access.ofRights rights) fdFlags with ⟨_ | d, v⟩
    · obtain rfl := Resolved.openNode_failed hroot.2 hopen
      simp only [hopen]
      exact .refl _
    · simp only [hopen]
      change w.volume.KeepsDirectories v
      rcases Resolved.openNode_eq_ok hopen with ⟨-, -, rfl, -⟩ | ⟨-, i, hfile, -⟩
      · exact .refl _
      · exact (Volume.openFile_opens hw.sound.grounded hroot hfile).keepsDirectories

theorem pathOpen_refused (hdirectory : flags.contains OpenFlags.directory = true)
    (hwriting : (flags.contains OpenFlags.create || flags.contains OpenFlags.exclusive ||
      flags.contains OpenFlags.truncate) = true) :
    let s := w.pathOpen dirfd lookup path flags rights inheriting fdFlags
    (∃ fault, s.1 = .error fault) ∧ s.2 = w := by
  intro s
  have hopen : ∀ r : Resolved, ∃ fault, r.openNode w.volume w.ends
      (lookup.contains LookupFlags.symlinkFollow) flags (Access.ofRights rights) fdFlags =
        (.error fault, w.volume) := by
    intro r
    rw [Resolved.openNode, OpenFlags.intersects_writing, hdirectory, hwriting]
    split <;> exact ⟨_, rfl⟩
  simp only [s, pathOpen]
  cases w.resolve dirfd path with
  | error fault => exact ⟨⟨fault, rfl⟩, rfl⟩
  | ok r =>
    obtain ⟨fault, hfault⟩ := hopen r
    simp only [hfault]
    exact ⟨⟨fault, rfl⟩, rfl⟩

end

/-- An open changes the tree only as its flags allow.  It never makes or removes a directory, it is
refused where a directory is asked for together with anything that could change the tree, and when
it succeeds its flags say what it may have done. -/
theorem pathOpen_alters (hw : w.Reachable) (dirfd : Nat) (lookup : LookupFlags) (path : String)
    (flags : OpenFlags) (rights inheriting : Rights) (fdFlags : FdFlags) :
    let s := w.pathOpen dirfd lookup path flags rights inheriting fdFlags
    w.volume.KeepsDirectories s.2.volume ∧
    (flags.contains OpenFlags.directory = true →
      (flags.contains OpenFlags.create || flags.contains OpenFlags.exclusive ||
        flags.contains OpenFlags.truncate) = true →
      (∃ fault, s.1 = .error fault) ∧ s.2 = w) ∧
    ∀ fd, s.1 = .ok fd → ∃ r, w.resolve dirfd path = .ok r ∧
      w.AltersAsAllowed s.2 dirfd path r (lookup.contains LookupFlags.symlinkFollow) flags fd := by
  intro s
  refine ⟨pathOpen_keepsDirectories hw, pathOpen_refused, fun fd hfd => ?_⟩
  obtain ⟨r, d, hr, hgives, hopen⟩ := pathOpen_gives hfd
  have hbounded :=
    (hw.call (.pathOpen dirfd lookup path flags rights inheriting fdFlags)).sound.bounded
  exact ⟨r, hr, altersAsAllowed hw hbounded hr hgives hopen⟩

/-- Beneath a link a file is created where the link leads, and the link itself is not opened to be
created anew. -/
theorem pathOpen_alters_linked :
    linkedGuest.Reachable ∧
      (let s := linkedGuest.pathOpen 3 .empty "l/f" (OpenFlags.create.union OpenFlags.exclusive)
        .empty .empty .empty
       s.1 = .ok 4 ∧ ∃ r, linkedGuest.CreatesFile s.2 r false 2 (utf8 "f")) ∧
      (let s := linkedGuest.pathOpen 3 .empty "l" (OpenFlags.create.union OpenFlags.exclusive)
        .empty .empty .empty
       s.1 = .error (.ofHost .fileExists) ∧ linkedGuest.volume.KeepsDirectories s.2.volume) ∧
      (let s := linkedGuest.pathOpen 3 .empty "d" (OpenFlags.directory.union OpenFlags.truncate)
        .empty .empty .empty
       (∃ fault, s.1 = .error fault) ∧ s.2 = linkedGuest) := by
  have halters := pathOpen_alters linkedGuest_reachable 3 .empty
  have hf : linkedGuest.Names 3 "l/f" 2 (utf8 "f") :=
    ⟨⟨⟨3, [47], "guest", 1⟩, 0, ⟨["l", "f"], false⟩⟩, by decide +kernel, [utf8 "l"], rfl,
      by decide +kernel⟩
  refine ⟨linkedGuest_reachable, ⟨by decide +kernel, ?_⟩, ⟨by decide +kernel, ?_⟩, ?_⟩
  · obtain ⟨r, -, hallowed⟩ := (halters "l/f" (OpenFlags.create.union OpenFlags.exclusive) .empty
      .empty .empty).2.2 4 (by decide +kernel)
    obtain ⟨dir, name, hname, hcreates⟩ := hallowed.exclusive (by decide) (by decide)
    obtain ⟨rfl, rfl⟩ := hname.unique hf
    exact ⟨r, hcreates⟩
  · exact (halters "l" (OpenFlags.create.union OpenFlags.exclusive) .empty .empty .empty).1
  · exact (halters "d" (OpenFlags.directory.union OpenFlags.truncate) .empty .empty .empty).2.1
      (by decide) (by decide)

end World

end Hostcall
