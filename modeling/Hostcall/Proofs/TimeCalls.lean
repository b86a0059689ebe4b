import Hostcall.Proofs.Confinement
import Hostcall.Proofs.Following
import Hostcall.Proofs.Timestamps

/-!
# Setting times

A guest sets times of an open file, of an open directory, or of what a path leads to.  Both times
are set at once or not at all, and nothing else is changed.

* `World.HoldsNodes` says that what a guest holds is there, and `World.HoldsNodes.run` keeps it;
* `World.TimesSet` is all that setting times changes, `World.Told` what a guest is told of it;
* `World.set_times_exact` puts them together for every target, with `World.PartsWays` as the one
  exception, and `World.set_times_slash_linked` shows it.
-/

namespace Hostcall

/-! ## What is held is there -/

namespace Descriptor

variable {S S' : Ino → Prop} {d : Descriptor}

theorem Within.mono (h : d.Within S) (hS : ∀ i, S i → S' i) : d.Within S' := by
  cases d with
  | file e => exact hS e.handle.ino h
  | directory d => exact hS d.ino h
  | stdio => trivial

theorem within_opened : d.opened.Within S ↔ d.Within S := by
  cases d <;> rfl

end Descriptor

namespace Volume

variable {v v' : Volume} {ends : Ino → Ends} {start i : Ino} {l : Locator} {q : OpenRequest}

theorem Opens.lt_size (h : v.Opens ends start l q i v') (hv : v.Grounded)
    (hstart : start < v.nodes.size) : i < v'.nodes.size := by
  cases h with
  | found hfind => exact find_within hv.closed hstart hfind
  | drained hfind =>
    rw [size_setBody]
    exact find_within hv.closed hstart hfind
  | emptied hfind =>
    rw [size_replaceBody]
    exact find_within hv.closed hstart hfind
  | created _ _ _ _ hi =>
    rw [hi, size_create]
    exact Nat.lt_succ_self _

end Volume

theorem Resolved.openNode_within {r : Resolved} {v v' : Volume} {ends : Ino → Ends} {follow : Bool}
    {flags : OpenFlags} {access : Access} {fdFlags : FdFlags} {d : Descriptor} (hv : v.Grounded)
    (hroot : v.HasDirectory r.preopen.root)
    (h : r.openNode v ends follow flags access fdFlags = (.ok d, v')) :
    d.Within fun i => i < v'.nodes.size := by
  rcases openNode_eq_ok h with ⟨-, -, rfl, i, hi, rfl⟩ | ⟨-, i, hfile, hd⟩
  · exact Volume.openDirectory_within hv.closed hroot.1 hi
  · have hlt := (Volume.openFile_opens hv hroot hfile).lt_size hv hroot.1
    rcases hd with ⟨-, rfl⟩ | ⟨-, -, rfl⟩ <;> exact hlt

namespace World

variable {w : World}

/-- What a guest holds is there on its host. -/
def HoldsNodes (w : World) : Prop :=
  ∀ fd d, w.table.get? fd = some d → d.Within fun i => i < w.volume.nodes.size

theorem Furnished.holdsNodes {host : Host} {settings : List Setting}
    (h : w.Furnished host settings) (hhost : host.volume.Grounded) : w.HoldsNodes := by
  intro fd d hd
  have hinstalled := h.descriptors fd d hd
  cases d with
  | stdio => trivial
  | file => exact hinstalled.elim
  | directory =>
    obtain ⟨index, p, hp, rfl⟩ := hinstalled
    change p.root < w.volume.nodes.size
    rw [h.volume]
    exact (Volume.openHostDirectory_eq_ok hhost (h.roots p (List.mem_of_getElem? hp)).2).1

namespace HoldsNodes

theorem call (h : w.HoldsNodes) (hw : w.Reachable) (c : Call) : (w.call c).2.HoldsNodes := by
  intro fd x hx
  rcases call_origin hw c hx with ⟨id, y, hy, hplace⟩ | ⟨o, rfl, hanswer⟩
  · -- held before, and the host has lost no node
    obtain ⟨z, hz, hopened⟩ := get?_placeAfter hw hy hplace
    cases hx.symm.trans hz
    rw [← Descriptor.within_opened, hopened, Descriptor.within_opened]
    exact (h id y hy).mono fun i hi =>
      Nat.lt_of_lt_of_le hi (w.call_transition c).volume.size_le
  · -- opened just now
    obtain ⟨id, hopen, hid⟩ := changing_fst_eq_ok hanswer
    cases hid
    obtain ⟨r, d, hr, hgives, hopened⟩ := pathOpen_gives (congrArg Prod.fst hopen)
    rw [show (w.call o.call).2.table.get? fd = some d by
      exact (congrFun hgives.table fd).trans (Function.update_self ..)] at hx
    cases hx
    exact Resolved.openNode_within hw.sound.grounded (root_hasDirectory hw hr) hopened

theorem run (h : w.HoldsNodes) (hw : w.Reachable) (calls : List Call) :
    (w.run calls).HoldsNodes := by
  induction calls generalizing w with
  | nil => exact h
  | cons c rest ih => exact ih (h.call hw c) (hw.call c)

/-- A file that the embedder hands in has to be there. -/
theorem pushFile (h : w.HoldsNodes) {handle : Handle} (hhandle : handle.ino < w.volume.nodes.size)
    (access : Access) : (w.pushFile handle access).2.HoldsNodes := by
  intro fd d hd
  change (w.table.allocate (.file ⟨handle, access⟩)).2.get? fd = some d at hd
  rw [Table.get?_allocate] at hd
  split at hd
  · cases hd
    exact hhandle
  · exact h fd d hd

/-- The host may go on as long as it loses no node. -/
theorem withHost (h : w.HoldsNodes) {host : Host}
    (hsize : w.volume.nodes.size ≤ host.volume.nodes.size) : HoldsNodes { w with host } :=
  fun fd d hd => (h fd d hd).mono fun _ hi => Nat.lt_of_lt_of_le hi hsize

end HoldsNodes

end World

/-! ## Setting times -/

/-- What a guest sets times of. -/
inductive TimeTarget where
  | descriptor (fd : Nat)
  | path (dirfd : Nat) (lookup : LookupFlags) (path : String)

namespace World

variable {w w' : World} {t : TimeTarget} {request : TimeRequest} {i : Ino}

/-- Sets the times of a target. -/
def setTimes (w : World) (t : TimeTarget) (request : TimeRequest) : Step Unit :=
  match t with
  | .descriptor fd => w.fdFilestatSetTimes fd request
  | .path dirfd lookup path => w.pathFilestatSetTimes dirfd lookup path request

/-- What is told of a target. -/
def filestat (w : World) : TimeTarget → Outcome Filestat
  | .descriptor fd => w.fdFilestatGet fd
  | .path dirfd lookup path => w.pathFilestatGet dirfd lookup path

/-- Other times go to another node than the one that is told of. -/
def PartsWays (w : World) (request : TimeRequest) : TimeTarget → Prop
  | .descriptor _ => False
  | .path dirfd lookup path =>
    ∃ r u, w.resolve dirfd path = .ok r ∧ request.updates = .ok u ∧
      r.PartWays w.volume (lookup.contains LookupFlags.symlinkFollow) u

/-- A node got the times that were asked for, and nothing else was changed. -/
structure TimesSet (w w' : World) (request : TimeRequest) (i : Ino) : Prop where
  lt_size : i < w.volume.nodes.size
  world : w' = w.withVolume w'.volume
  clock : w'.volume.clock = w.volume.clock
  size : w'.volume.nodes.size = w.volume.nodes.size
  others : ∀ j, j ≠ i → w'.volume.node j = w.volume.node j
  node : w'.volume.node i =
    { w.volume.node i with
      accessed := request.accessedAfter w.volume.clock (w.volume.node i).accessed
      modified := request.modifiedAfter w.volume.clock (w.volume.node i).modified }

/-- What was told of a target was told of a node, and the times the node got are told now. -/
structure Told (w w' : World) (t : TimeTarget) (request : TimeRequest) (i : Ino) : Prop where
  before : w.filestat t = Filestat.ofAttributes (w.volume.attributes i)
  after : w'.filestat t = Filestat.told (w.volume.attributes i)
    (request.accessedTold w.volume.clock (w.volume.node i).accessed)
    (request.modifiedTold w.volume.clock (w.volume.node i).modified)

theorem timesSet_setTimes (hi : i < w.volume.nodes.size) {u : TimeUpdates}
    (hu : request.updates = .ok u) :
    w.TimesSet (w.withVolume (w.volume.setTimes i u)) request i where
  lt_size := hi
  world := rfl
  clock := rfl
  size := Volume.size_setTimes _ _ _
  others := fun j hj => Volume.node_setTimes_of_ne hj u
  node := by
    rw [withVolume_volume, Volume.node_setTimes hi, TimeRequest.updates_eq_ok hu]
    simp only [TimeRequest.apply_choice]
    rfl

/-- What setting the times of a target did. -/
def SetsTimes (w w' : World) (t : TimeTarget) (request : TimeRequest) (i : Ino) : Prop :=
  w.TimesSet w' request i ∧
    (¬ w.PartsWays request t → w.Told w' t request i) ∧
    (w.PartsWays request t → w'.filestat t = w.filestat t)

theorem setsTimes_descriptor {fd : Nat} {d : Descriptor} (hd : w.table.get fd = .ok d)
    (hattributes : ∀ v, (w.withVolume v).attributes d = v.attributes i)
    (hi : i < w.volume.nodes.size) {u : TimeUpdates} (hu : request.updates = .ok u) :
    w.SetsTimes (w.withVolume (w.volume.setTimes i u)) (.descriptor fd) request i := by
  have htold : ∀ v, (w.withVolume v).filestat (.descriptor fd) =
      Filestat.ofAttributes (v.attributes i) := by
    intro v
    rw [filestat, fdFilestatGet, withVolume_table, hd, ← hattributes v]
    rfl
  refine ⟨timesSet_setTimes hi hu, fun _ => ⟨htold w.volume, ?_⟩, False.elim⟩
  rw [htold, Filestat.ofAttributes_setTimes hi hu]

theorem setsTimes_path {dirfd : Nat} {lookup : LookupFlags} {path : String} {r : Resolved}
    (hr : w.resolve dirfd path = .ok r) (hi : i < w.volume.nodes.size) {u : TimeUpdates}
    (hu : request.updates = .ok u)
    (hpart : r.PartWays w.volume (lookup.contains LookupFlags.symlinkFollow) u ↔
      r.statNode w.volume (lookup.contains LookupFlags.symlinkFollow) ≠ .ok i) :
    w.SetsTimes (w.withVolume (w.volume.setTimes i u)) (.path dirfd lookup path) request i := by
  have htold : ∀ v, (w.withVolume v).filestat (.path dirfd lookup path) =
      fromHost ((r.statNode v (lookup.contains LookupFlags.symlinkFollow)).map v.attributes) >>=
        Filestat.ofAttributes := by
    intro v
    rw [filestat, pathFilestatGet, withVolume_resolve, hr, ← Resolved.stat_eq]
    rfl
  have hbefore := htold w.volume
  have hafter := htold (w.volume.setTimes i u)
  rw [Resolved.statNode_setTimes] at hafter
  have hparts : w.PartsWays request (.path dirfd lookup path) ↔
      r.statNode w.volume (lookup.contains LookupFlags.symlinkFollow) ≠ .ok i := by
    rw [← hpart]
    constructor
    · rintro ⟨r', u', hr', hu', h⟩
      cases hr.symm.trans hr'
      cases hu.symm.trans hu'
      exact h
    · exact fun h => ⟨r, u, hr, hu, h⟩
  refine ⟨timesSet_setTimes hi hu, fun hnot => ?_, fun h => ?_⟩
  · have hnode := not_not.mp (mt hparts.mpr hnot)
    rw [hnode] at hbefore hafter
    exact ⟨hbefore, hafter.trans (Filestat.ofAttributes_setTimes hi hu)⟩
  · refine hafter.trans (Eq.trans ?_ hbefore.symm)
    have hne := hparts.mp h
    cases hnode : r.statNode w.volume (lookup.contains LookupFlags.symlinkFollow) with
    | error => rfl
    | ok j =>
      have hj : j ≠ i := by
        rintro rfl
        exact hne hnode
      rw [Except.map, Except.map, Volume.attributes_setTimes_of_ne hj]

theorem fdFilestatSetTimes_sets (hnodes : w.HoldsNodes) {fd : Nat}
    (h : (w.fdFilestatSetTimes fd request).1 = .ok ()) :
    ∃ i, w.SetsTimes (w.fdFilestatSetTimes fd request).2 (.descriptor fd) request i := by
  obtain ⟨v, hv, hworld⟩ := changed_eq_ok h
  rw [fdFilestatSetTimes, hworld]
  obtain ⟨u, hu, hv⟩ := bind_eq_ok.mp hv
  obtain ⟨d, hd, hv⟩ := bind_eq_ok.mp hv
  have hheld := hnodes fd d (Table.get?_of_get hd)
  cases d with
  | file e =>
    cases hv
    exact ⟨_, setsTimes_descriptor hd (fun _ => rfl) hheld hu⟩
  | directory d =>
    cases hv
    exact ⟨_, setsTimes_descriptor hd (fun _ => rfl) hheld hu⟩
  | stdio => cases hv

theorem pathFilestatSetTimes_sets (hw : w.Reachable) {dirfd : Nat} {lookup : LookupFlags}
    {path : String} (h : (w.pathFilestatSetTimes dirfd lookup path request).1 = .ok ()) :
    ∃ i, w.SetsTimes (w.pathFilestatSetTimes dirfd lookup path request).2 (.path dirfd lookup path)
      request i := by
  obtain ⟨v, hv, hworld⟩ := changed_eq_ok h
  rw [pathFilestatSetTimes, hworld]
  obtain ⟨u, hu, hv⟩ := bind_eq_ok.mp hv
  obtain ⟨r, hr, hv⟩ := bind_eq_ok.mp hv
  obtain ⟨i, hi, rfl, hpart⟩ :=
    Resolved.setTimes_node hw.sound.grounded (root_hasDirectory hw hr) hv
  exact ⟨i, setsTimes_path hr hi hu hpart⟩

/-- A time that is to be set and to become the host's own at once is refused, and a call that fails
changes nothing.  A call that succeeds gives one node the times that were asked for and changes
nothing else; they are told of the target afterwards, unless what is told of is another node, of
which the same is told as before. -/
theorem set_times_exact (hw : w.Reachable) (hnodes : w.HoldsNodes) (t : TimeTarget)
    (request : TimeRequest) :
    let s := w.setTimes t request
    (request.Contradicts →
      s = (.error (.because .invalidArgument "timestamp is both absolute and now"), w)) ∧
    (∀ fault, s.1 = .error fault → s.2 = w) ∧
    (s.1 = .ok () → ∃ i, w.TimesSet s.2 request i ∧
      (¬ w.PartsWays request t → w.Told s.2 t request i) ∧
      (w.PartsWays request t → s.2.filestat t = w.filestat t)) := by
  refine ⟨fun hcontradicts => ?_, fun fault hfault => ?_, fun hok => ?_⟩
  · have hupdates := TimeRequest.updates_of_contradicts hcontradicts
    cases t with
    | descriptor =>
      rw [setTimes, fdFilestatSetTimes, hupdates]
      rfl
    | path =>
      rw [setTimes, pathFilestatSetTimes, hupdates]
      rfl
  · cases t with
    | descriptor => exact changed_failed hfault
    | path => exact changed_failed hfault
  · cases t with
    | descriptor => exact fdFilestatSetTimes_sets hnodes hok
    | path => exact pathFilestatSetTimes_sets hw hok

/-- Sets both times. -/
def setsBoth : TimeRequest := ⟨5, 7, TimeFlags.accessed.union TimeFlags.modified⟩

/-- Through a link that is followed the times of the directory behind it are set and told. -/
theorem set_times_exact_linked :
    let t := TimeTarget.path 3 LookupFlags.symlinkFollow "l"
    let s := linkedGuest.setTimes t setsBoth
    linkedGuest.Reachable ∧ linkedGuest.HoldsNodes ∧ s.1 = .ok () ∧
      ∃ i, linkedGuest.TimesSet s.2 setsBoth i ∧
        s.2.filestat t = Filestat.told (linkedGuest.volume.attributes i) (.ok 5) (.ok 7) := by
  intro t s
  have hnodes : linkedGuest.HoldsNodes :=
    (build_furnished linkedHost default _).holdsNodes linkedHost_hierarchical.grounded
  have hok : s.1 = .ok () := by decide +kernel
  obtain ⟨i, hset, htold, -⟩ := (set_times_exact linkedGuest_reachable hnodes t setsBoth).2.2 hok
  refine ⟨linkedGuest_reachable, hnodes, hok, i, hset, (htold ?_).after⟩
  rintro ⟨r, u, -, -, hfollow, -⟩
  cases hfollow

/-- With a slash behind the link that is not followed they are set as well, and the link is told
of, which keeps its own. -/
theorem set_times_slash_linked :
    let t := TimeTarget.path 3 .empty "l/"
    let s := linkedGuest.setTimes t setsBoth
    s.1 = .ok () ∧ ((s.2.volume.node 2).accessed = 5 ∧ (s.2.volume.node 2).modified = 7) ∧
      (∃ a, s.2.filestat t = .ok a ∧ a.accessed ≠ 5 ∧ a.modified ≠ 7) := by
  intro t s
  have htold : (s.2.filestat t).map (fun a => (a.accessed, a.modified)) = .ok (0, 0) := by
    decide +kernel
  refine ⟨by decide +kernel, ⟨by decide +kernel, by decide +kernel⟩, ?_⟩
  obtain ⟨a, ha, htimes⟩ := map_eq_ok.mp htold
  obtain ⟨haccessed, hmodified⟩ := Prod.mk.inj htimes
  exact ⟨a, ha, by rw [haccessed]; decide, by rw [hmodified]; decide⟩

end World

end Hostcall
