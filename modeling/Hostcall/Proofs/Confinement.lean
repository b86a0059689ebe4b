import Hostcall.Proofs.Building
import Hostcall.Proofs.Transition

/-!
# Confinement

What a guest does stays at and beneath its preopens.

* `Volume.IsTree` is the shape of a file system without hard links;
* `Volume.Confined` says that a volume came from another by changes within a set of
  nodes, and `World.Contained` that a guest holds nothing outside that set;
* `World.call_contained` keeps both for one call, `World.run_contained` for many;
* `World.run_outside_unchanged` is confinement for a guest as its builder left it.
-/

namespace Hostcall

namespace Volume

/-! ## Trees -/

/-- A file system without hard links: there is a top, entries name nodes that exist, no node is
in two directories, and the top is in none. -/
structure IsTree (v : Volume) : Prop where
  top_lt_size : top < v.nodes.size
  lt_size : ∀ dir i, v.Lists dir i → i < v.nodes.size
  parent : ∀ dir dir' i, v.Lists dir i → v.Lists dir' i → dir = dir'
  not_lists_top : ∀ dir, ¬ v.Lists dir top

theorem isTree_new (clock : HostTime) : (new clock).IsTree := by
  have hempty : ∀ dir i, ¬ (new clock).Lists dir i := by
    rintro dir i ⟨name, h⟩
    obtain rfl : dir = 0 := Nat.lt_one_iff.mp (lt_size_of_mem_entries h)
    cases h
  exact ⟨Nat.zero_lt_one, fun dir i h => absurd h (hempty dir i),
    fun dir dir' i h => absurd h (hempty dir i), fun dir => hempty dir top⟩

/-- A new node is listed once. -/
theorem IsTree.create {v : Volume} (h : v.IsTree) {dir : Ino} (name : Name) {b : Body}
    (hb : b.entries = []) : (v.create dir name b).2.IsTree := by
  have hlists : ∀ d i, (v.create dir name b).2.Lists d i →
      v.Lists d i ∨ (d = dir ∧ i = v.nodes.size) := by
    rintro d i ⟨n, hn⟩
    rcases mem_entries_create hn with hn | hn | ⟨hd, -, hi⟩
    · exact .inl ⟨n, hn⟩
    · rw [hb] at hn
      cases hn
    · exact .inr ⟨hd, hi⟩
  refine ⟨?_, fun d i hi => ?_, fun d d' i hi hi' => ?_, fun d hd => ?_⟩
  · rw [size_create]
    exact Nat.lt_succ_of_lt h.top_lt_size
  · rw [size_create]
    rcases hlists d i hi with hi | ⟨-, rfl⟩
    · exact Nat.lt_succ_of_lt (h.lt_size d i hi)
    · exact Nat.lt_succ_self _
  · -- the number of the new node is in no old entry
    rcases hlists d i hi with hold | ⟨hd, hnew⟩ <;> rcases hlists d' i hi' with hold' | ⟨hd', hnew'⟩
    · exact h.parent d d' i hold hold'
    · exact absurd (h.lt_size d i hold) (by rw [hnew']; exact Nat.lt_irrefl _)
    · exact absurd (h.lt_size d' i hold') (by rw [hnew]; exact Nat.lt_irrefl _)
    · rw [hd, hd']
  · rcases hlists d _ hd with hd | ⟨-, hnew⟩
    · exact h.not_lists_top d hd
    · exact absurd h.top_lt_size (by rw [hnew]; exact Nat.lt_irrefl _)

/-! ## Changes within a set -/

/-- A volume after changes to nodes of a set, which its directories do not leave. -/
structure Confined (S : Ino → Prop) (v v' : Volume) : Prop where
  grows : v.nodes.size ≤ v'.nodes.size
  outside : ∀ i, ¬ S i → v'.node i = v.node i
  closed : v'.Closed S

variable {v₀ v v' : Volume} {S : Ino → Prop}

theorem node_ne_of_not {S : Ino → Prop} {i j : Ino} (hi : S i) (hj : ¬ S j) : j ≠ i := by
  rintro rfl
  exact hj hi

/-- The step: an edit within the set stays confined to it, as long as the numbers that were
free at the start belong to the set. -/
theorem Confined.edit (hnew : ∀ i, v₀.nodes.size ≤ i → S i) (h : Confined S v₀ v)
    (he : v.Edit S v') : Confined S v₀ v' := by
  cases he with
  | same => exact h
  | refill hi _ hb =>
    refine ⟨?_, fun j hj => ?_, ?_⟩
    · rw [size_setBody]
      exact h.grows
    · rw [setBody, node_modify_of_ne (node_ne_of_not hi hj)]
      exact h.outside j hj
    · rintro d j hd ⟨name, hj⟩
      exact h.closed d j hd ⟨name, mem_entries_setBody hb hj⟩
  | rewrite hi _ hb =>
    refine ⟨?_, fun j hj => ?_, ?_⟩
    · rw [size_replaceBody]
      exact h.grows
    · rw [replaceBody, node_modify_of_ne (node_ne_of_not hi hj)]
      exact h.outside j hj
    · rintro d j hd ⟨name, hj⟩
      exact h.closed d j hd ⟨name, mem_entries_replaceBody hb hj⟩
  | times hi =>
    refine ⟨?_, fun j hj => ?_, ?_⟩
    · rw [size_setTimes]
      exact h.grows
    · rw [setTimes, node_modify_of_ne (node_ne_of_not hi hj)]
      exact h.outside j hj
    · rintro d j hd ⟨name, hj⟩
      rw [entries_setTimes] at hj
      exact h.closed d j hd ⟨name, hj⟩
  | create hdir _ hb =>
    -- numbers that were free at the start are in the set, and this was one of them
    have hfresh : S v.nodes.size := hnew _ h.grows
    refine ⟨?_, fun j hj => ?_, ?_⟩
    · rw [size_create]
      exact Nat.le_succ_of_le h.grows
    · rw [node_create_of_ne (node_ne_of_not hdir hj) (node_ne_of_not hfresh hj)]
      exact h.outside j hj
    · rintro d j hd ⟨name, hj⟩
      rcases mem_entries_create hj with hj | hj | ⟨-, -, rfl⟩
      · exact h.closed d j hd ⟨name, hj⟩
      · rcases hb with rfl | rfl <;> cases hj
      · exact hfresh
  | unbind hdir hi =>
    -- the node that loses a link was listed, so it is in the set too
    have hchild := h.closed _ _ hdir ⟨_, mem_entries_of_child? hi⟩
    refine ⟨?_, fun j hj => ?_, ?_⟩
    · rw [size_unbind]
      exact h.grows
    · rw [node_unbind_of_ne (node_ne_of_not hdir hj) (node_ne_of_not hchild hj)]
      exact h.outside j hj
    · rintro d j hd ⟨name, hj⟩
      exact h.closed d j hd ⟨name, mem_entries_unbind hj⟩

end Volume

/-! ## Guests within a set -/

/-- A descriptor that holds no node outside a set. -/
def Descriptor.Within (S : Ino → Prop) : Descriptor → Prop
  | .file e => S e.handle.ino
  | .directory d => S d.ino
  | .stdio _ => True

namespace World

/-- A guest that holds nothing outside a set of nodes and changed nothing outside it. -/
structure Contained (S : Ino → Prop) (v : Volume) (w : World) : Prop where
  volume : v.Confined S w.volume
  roots : ∀ p ∈ w.context.preopens, S p.root
  descriptors : ∀ fd d, w.table.get? fd = some d → d.Within S

variable {S : Ino → Prop} {v : Volume} {w : World}

theorem Contained.touches (h : w.Contained S v) {i : Ino} (hi : w.Touches i) : S i := by
  rcases hi with ⟨fd, e, he, rfl⟩ | ⟨fd, d, hd, rfl⟩ | ⟨p, hp, hi⟩
  · exact h.descriptors fd _ he
  · exact h.descriptors fd _ hd
  · exact h.volume.closed.reaches (h.roots p hp) hi

theorem call_contained (hnew : ∀ i, v.nodes.size ≤ i → S i) (h : w.Contained S v) (c : Call) :
    (w.call c).2.Contained S v := by
  obtain ⟨hpreopens, -, htable, hvolume⟩ := w.call_transition c
  refine ⟨h.volume.edit hnew (hvolume.mono fun i => h.touches), ?_, fun fd d hd => ?_⟩
  · rw [hpreopens]
    exact h.roots
  · refine htable.forall h.descriptors ?_ ?_ hd
    · intro e handle he hino
      change S handle.ino
      rw [hino]
      exact he
    · intro dirfd path r d hr hd
      have hopened : ∀ i, w.volume.Reaches r.preopen.root i ∨ i = w.volume.nodes.size → S i := by
        rintro i (hi | rfl)
        · exact h.touches (touches_of_resolve hr i hi)
        · exact hnew _ h.volume.grows
      cases hd with
      | file hi => exact hopened _ hi
      | directory hi => exact hopened _ hi

theorem run_contained (hnew : ∀ i, v.nodes.size ≤ i → S i) (h : w.Contained S v)
    (calls : List Call) : (w.run calls).Contained S v :=
  run_keeps (P := Contained S v) (fun _ c h => call_contained hnew h c) h calls

/-! ## The nodes of a guest -/

/-- A node that lies at or beneath a preopen. -/
def Granted (w : World) (i : Ino) : Prop :=
  ∃ p ∈ w.context.preopens, w.volume.Reaches p.root i

/-- A furnished guest is contained in what it is granted and what does not exist yet. -/
theorem Furnished.contained {host : Host} {settings : List Setting}
    (h : w.Furnished host settings) :
    w.Contained (fun i => w.Granted i ∨ host.volume.nodes.size ≤ i) host.volume := by
  have hroots : ∀ p ∈ w.context.preopens, w.Granted p.root := fun p hp => ⟨p, hp, .refl⟩
  refine ⟨⟨?_, ?_, ?_⟩, fun p hp => .inl (hroots p hp), fun fd d hd => ?_⟩
  · exact Nat.le_of_eq (by rw [h.volume])
  · rw [h.volume]
    exact fun i _ => rfl
  · rintro dir i (⟨p, hp, hdir⟩ | hdir) hi
    · exact .inl ⟨p, hp, hdir.tail hi⟩
    · obtain ⟨name, hi⟩ := hi
      rw [← h.volume] at hdir
      exact absurd (Volume.lt_size_of_mem_entries hi) (Nat.not_lt.mpr hdir)
  · have hinstalled := h.descriptors fd d hd
    cases d with
    | stdio e => trivial
    | file e => exact hinstalled.elim
    | directory d =>
      obtain ⟨index, p, hp, rfl⟩ := hinstalled
      exact .inl (hroots p (List.mem_of_getElem? hp))

/-- The way to a node outside leads through directories outside, which are as they were. -/
theorem reaches_of_outside {start final : World}
    (hcontained : final.Contained (fun i => start.Granted i ∨ start.volume.nodes.size ≤ i)
      start.volume) {top i : Ino} (hi : ¬ start.Granted i) (hreach : start.volume.Reaches top i) :
    final.volume.Reaches top i := by
  induction hreach with
  | refl => exact .refl
  | @tail dir j _ hj ih =>
    -- a directory that leads outside is outside itself, so its listing is unchanged
    have hdir : ¬ start.Granted dir := fun ⟨p, hp, hdir⟩ => hi ⟨p, hp, hdir.tail hj⟩
    obtain ⟨name, hname⟩ := hj
    have hlt := Volume.lt_size_of_mem_entries hname
    have hsame := hcontained.volume.outside dir (not_or.mpr ⟨hdir, Nat.not_le.mpr hlt⟩)
    refine (ih hdir).tail ⟨name, ?_⟩
    rw [Volume.entries, Volume.body, hsame]
    exact hname

theorem outside_of_reaches {start final : World} (htree : start.volume.IsTree)
    (hcontained : final.Contained (fun i => start.Granted i ∨ start.volume.nodes.size ≤ i)
      start.volume)
    (hpreopens : final.context.preopens = start.context.preopens) {i : Ino}
    (hi : final.volume.Reaches Volume.top i) (hfinal : ¬ final.Granted i) :
    (i < start.volume.nodes.size ∧ ¬ start.Granted i) ∧ start.volume.Reaches Volume.top i := by
  have hgranted : ∀ p ∈ start.context.preopens, final.Granted p.root := by
    intro p hp
    rw [← hpreopens] at hp
    exact ⟨p, hp, .refl⟩
  -- in a tree the only way to a granted node leads through the root that grants it
  have hentered : ∀ dir j, ¬ start.Granted dir → start.volume.Lists dir j → start.Granted j →
      ∃ p ∈ start.context.preopens, p.root = j := by
    rintro dir j hdir hj ⟨p, hp, hreach⟩
    rcases Relation.ReflTransGen.cases_tail hreach with rfl | ⟨parent, hparent, hlists⟩
    · exact ⟨p, hp, rfl⟩
    · rw [htree.parent parent dir j hlists hj] at hparent
      exact absurd ⟨p, hp, hparent⟩ hdir
  induction hi with
  | refl =>
    refine ⟨⟨htree.top_lt_size, ?_⟩, .refl⟩
    rintro ⟨p, hp, hreach⟩
    rcases Relation.ReflTransGen.cases_tail hreach with htop' | ⟨parent, -, hlists⟩
    · rw [htop'] at hfinal
      exact hfinal (hgranted p hp)
    · exact htree.not_lists_top parent hlists
  | @tail dir j hdir hj ih =>
    have hdirFinal : ¬ final.Granted dir := by
      rintro ⟨p, hp, hreach⟩
      exact hfinal ⟨p, hp, hreach.tail hj⟩
    obtain ⟨⟨hlt, hout⟩, hreach⟩ := ih hdirFinal
    have hsame : final.volume.node dir = start.volume.node dir :=
      hcontained.volume.outside dir (not_or.mpr ⟨hout, Nat.not_le.mpr hlt⟩)
    have hlists : start.volume.Lists dir j := by
      obtain ⟨name, hname⟩ := hj
      refine ⟨name, ?_⟩
      rw [Volume.entries, Volume.body, hsame] at hname
      exact hname
    refine ⟨⟨htree.lt_size dir j hlists, fun hj => ?_⟩, hreach.tail hlists⟩
    obtain ⟨p, hp, rfl⟩ := hentered dir j hout hlists hj
    exact hfinal (hgranted p hp)

/-- Whatever a guest calls, every node of the host that lies at or beneath none of its preopens
is as it was and where it was, and what lies outside them afterwards is one of these. -/
theorem run_outside_unchanged (host : Host) (random : KeyStream) (settings : List Setting)
    (calls : List Call) (htree : host.volume.IsTree) :
    let start := (fresh host random).build settings
    let final := start.run calls
    (∀ i, i < host.volume.nodes.size → ¬ start.Granted i →
      i < final.volume.nodes.size ∧ final.volume.node i = host.volume.node i ∧
        (host.volume.Reaches Volume.top i → final.volume.Reaches Volume.top i)) ∧
    ∀ i, final.volume.Reaches Volume.top i → ¬ final.Granted i →
      i < host.volume.nodes.size ∧ ¬ start.Granted i ∧ host.volume.Reaches Volume.top i := by
  intro start final
  have hfurnished := build_furnished host random settings
  have hvolume : start.volume = host.volume := hfurnished.volume
  have hfinal := run_contained (fun i hi => .inr hi) hfurnished.contained calls
  have hpreopens : final.context.preopens = start.context.preopens := start.run_preopens calls
  rw [← hvolume] at htree hfinal ⊢
  refine ⟨fun i hlt hout => ?_, fun i hi hgranted => ?_⟩
  · refine ⟨Nat.lt_of_lt_of_le hlt hfinal.volume.grows,
      hfinal.volume.outside i (not_or.mpr ⟨hout, Nat.not_le.mpr hlt⟩), fun hreach => ?_⟩
    exact reaches_of_outside hfinal hout hreach
  · obtain ⟨⟨hlt, hout⟩, hreach⟩ := outside_of_reaches htree hfinal hpreopens hi hgranted
    exact ⟨hlt, hout, hreach⟩

/-- A host with a directory `guest`, which holds the link `out` to the file `secret` beside it. -/
def guardedHost : Host :=
  let v := ((Volume.new default).create Volume.top (utf8 "guest") (.directory [])).2
  let v := (v.create Volume.top (utf8 "secret") (.file .empty)).2
  ⟨(v.create 1 (utf8 "out") (.link (utf8 "../secret"))).2, default, default, []⟩

/-- Empties and writes the file behind the link, and replaces the link. -/
def escapeCalls : List Call :=
  [.pathOpen 3 LookupFlags.symlinkFollow "out" OpenFlags.truncate .empty .empty .empty,
    .fdWrite 4 [[1]],
    .pathUnlinkFile 3 "out",
    .pathCreateDirectory 3 "out/../../secret"]

theorem run_outside_unchanged_guarded :
    guardedHost.volume.IsTree ∧
      (((fresh guardedHost default).build [.preopen "guest" [47]]).run escapeCalls).volume.node 2 =
        guardedHost.volume.node 2 := by
  have htree : guardedHost.volume.IsTree :=
    (((Volume.isTree_new default).create _ rfl).create _ rfl).create _ rfl
  refine ⟨htree, ?_⟩
  refine ((run_outside_unchanged guardedHost default _ escapeCalls htree).1 2 (by decide) ?_).2.1
  rintro ⟨p, hp, hreach⟩
  obtain ⟨hsetting, hroot⟩ := (build_furnished guardedHost default _).roots p hp
  rw [(Setting.preopen.inj (List.mem_singleton.mp hsetting)).1] at hroot
  have hopened : guardedHost.volume.openHostDirectory (utf8 "guest") = .ok 1 := by decide +kernel
  have hclosed : guardedHost.volume.Closed fun i => i = 1 ∨ i = 3 := by
    rintro dir i (rfl | rfl) ⟨name, hname⟩
    · exact .inr (Prod.mk.inj (List.mem_singleton.mp hname)).2
    · cases hname
  rw [(build_furnished guardedHost default _).volume,
    ← Except.ok.inj (hopened.symm.trans hroot)] at hreach
  rcases hclosed.reaches (.inl rfl) hreach with h | h <;> cases h

end World

end Hostcall
