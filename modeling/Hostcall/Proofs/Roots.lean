import Hostcall.Proofs.Authority
import Hostcall.Proofs.Confinement
import Hostcall.Proofs.Hierarchy

/-!
# Roots of preopens stay

A guest removes names from directories beneath its preopens only.  The directory that lists a
root is none of these, unless one root lies beneath another.

* `Volume.Hierarchical.not_beneath_self` is that a hierarchy has no cycles;
* `World.Furnished.not_granted_of_lists` is that no guest is granted what lists its roots;
* `World.roots_remain` says of a run that every root stays where it was, and that asking for the
  removal of one is refused.
-/

namespace Hostcall

namespace Volume

variable {v : Volume} {dir i root : Ino} {name : Name}

theorem isDirectory_of_mem_entries (h : (name, i) ∈ v.entries dir) : v.isDirectory dir = true := by
  rw [isDirectory]
  rw [entries] at h
  cases hbody : v.body dir with
  | directory list => rfl
  | file | link | fifo | socket | device =>
    rw [hbody] at h
    cases h

/-- Going up from a directory of the tree never comes back to it. -/
theorem Hierarchical.not_beneath_self (hv : v.Hierarchical) (hi : v.Reaches top i) :
    ¬ Relation.TransGen v.Lists i i := by
  intro hcycle
  induction hi with
  | refl =>
    obtain ⟨last, -, hlists⟩ := Relation.TransGen.tail'_iff.mp hcycle
    exact hv.not_lists_top last hlists
  | @tail dir i _ hlists ih =>
    -- a cycle through `i` enters it from the one directory that lists it, and so passes that too
    obtain ⟨next, ⟨_, hnext⟩, -⟩ := Relation.TransGen.head'_iff.mp hcycle
    obtain ⟨last, hlast, hback⟩ := Relation.TransGen.tail'_iff.mp hcycle
    obtain ⟨name, hname⟩ := hlists
    obtain ⟨name', hname'⟩ := hback
    obtain ⟨rfl, -⟩ := hv.unique _ _ _ _ _ (isDirectory_of_mem_entries hnext) hname hname'
    exact ih (Relation.TransGen.head' ⟨name, hname⟩ hlast)

end Volume

namespace World

variable {start final : World} {host : Host} {settings : List Setting} {dir i : Ino} {name : Name}

theorem Furnished.root_reaches (h : start.Furnished host settings) {p : Preopen}
    (hp : p ∈ start.context.preopens) :
    host.volume.Reaches Volume.top p.root ∧ host.volume.isDirectory p.root = true := by
  obtain ⟨-, hroot⟩ := h.roots p hp
  exact Volume.openHostDirectory_closed (host.volume.closed_reaches Volume.top) .refl hroot

/-- Roots that lie apart are listed by directories that none of them grants. -/
theorem Furnished.not_granted_of_lists (h : start.Furnished host settings)
    (hshape : host.volume.Hierarchical)
    (hapart : ∀ p ∈ start.context.preopens, ∀ q ∈ start.context.preopens,
      host.volume.Reaches p.root q.root → p.root = q.root)
    {q : Preopen} (hq : q ∈ start.context.preopens) (hlists : host.volume.Lists dir q.root) :
    ¬ start.Granted dir := by
  rintro ⟨p, hp, hdir⟩
  rw [h.volume] at hdir
  have hbeneath := Relation.TransGen.tail' hdir hlists
  rw [hapart p hp q hq hbeneath.to_reflTransGen] at hbeneath
  exact hshape.not_beneath_self (h.root_reaches hq).1 hbeneath

theorem entries_of_not_granted
    (hcontained : final.Contained (fun i => start.Granted i ∨ start.volume.nodes.size ≤ i)
      start.volume) (hdir : ¬ start.Granted dir) (hname : (name, i) ∈ start.volume.entries dir) :
    final.volume.entries dir = start.volume.entries dir := by
  have hlt := Volume.lt_size_of_mem_entries hname
  have hsame := hcontained.volume.outside dir (not_or.mpr ⟨hdir, Nat.not_le.mpr hlt⟩)
  rw [Volume.entries, Volume.entries, Volume.body, Volume.body, hsame]

/-- What is listed by a directory that a guest is not granted is in the tree as long as that
directory is. -/
theorem stays_of_not_granted
    (hcontained : final.Contained (fun i => start.Granted i ∨ start.volume.nodes.size ≤ i)
      start.volume) (hparents : ∀ dir, start.volume.Lists dir i → ¬ start.Granted dir)
    (hi : start.volume.Reaches Volume.top i) : final.volume.Reaches Volume.top i := by
  obtain rfl | ⟨dir, hdir, hlists⟩ := Relation.ReflTransGen.cases_tail hi
  · exact .refl
  · have hout := hparents dir hlists
    obtain ⟨name, hname⟩ := hlists
    apply (reaches_of_outside hcontained hout hdir).tail ⟨name, _⟩
    rwa [entries_of_not_granted hcontained hout hname]

/-- A path that folds to the root names nothing that is removed. -/
theorem pathRemoveDirectory_root {w : World} (hw : w.Placed) {dirfd : Nat} {d : Directory}
    (hd : w.table.get? dirfd = some (.directory d)) {path : String} {mustBeDir : Bool}
    (hpath : normalize (utf8 (joinNames d.relative)) path = .ok ⟨[], mustBeDir⟩) :
    w.pathRemoveDirectory dirfd path =
      (.error (.because .notCapable "cannot remove a preopened directory"), w) := by
  have hplaced := hw dirfd d hd
  obtain ⟨p, -, hresolve⟩ := resolve_of_placed (getDirectory_eq_ok.mpr hd) hplaced path
  rw [normalize_joinNames hplaced.pathNames] at hpath
  rw [hpath] at hresolve
  rw [pathRemoveDirectory, resolve, hresolve]
  rfl

/-- Whatever a guest calls whose roots lie apart, every root stays a directory of the host's tree
where it was, and the removal of a path that folds to one is refused. -/
theorem roots_remain (host : Host) (random : KeyStream) (settings : List Setting)
    (hshape : host.volume.Hierarchical)
    (hapart : ∀ p ∈ ((fresh host random).build settings).context.preopens,
      ∀ q ∈ ((fresh host random).build settings).context.preopens,
        host.volume.Reaches p.root q.root → p.root = q.root)
    (calls : List Call) :
    let start := (fresh host random).build settings
    let final := start.run calls
    (∀ p ∈ start.context.preopens,
      final.volume.Reaches Volume.top p.root ∧ final.volume.isDirectory p.root = true ∧
        ∀ dir name, host.volume.child? dir name = some p.root →
          final.volume.child? dir name = some p.root) ∧
    ∀ dirfd d path mustBeDir, final.table.get? dirfd = some (.directory d) →
      normalize (utf8 (joinNames d.relative)) path = .ok ⟨[], mustBeDir⟩ →
        final.pathRemoveDirectory dirfd path =
          (.error (.because .notCapable "cannot remove a preopened directory"), final) := by
  intro start final
  have hfurnished : start.Furnished host settings := build_furnished host random settings
  have hreachable : final.Reachable :=
    ((Reachable.fresh host random hshape.grounded).build settings).run calls
  have hcontained := run_contained (fun i hi => .inr hi) hfurnished.contained calls
  have hvolume : start.volume = host.volume := hfurnished.volume
  rw [← hvolume] at hcontained
  constructor
  · intro p hp
    have hparents : ∀ dir, start.volume.Lists dir p.root → ¬ start.Granted dir := by
      intro dir hlists
      rw [hvolume] at hlists
      exact hfurnished.not_granted_of_lists hshape hapart hp hlists
    refine ⟨?_, ?_, ?_⟩
    · apply stays_of_not_granted hcontained hparents
      rw [hvolume]
      exact (hfurnished.root_reaches hp).1
    · rw [← start.run_preopens calls] at hp
      exact (hreachable.sound.roots p hp).2
    · intro dir name hchild
      rw [← hvolume] at hchild
      have hname := Volume.mem_entries_of_child? hchild
      rw [Volume.child?, entries_of_not_granted hcontained (hparents dir ⟨name, hname⟩) hname]
      exact hchild
  · intro dirfd d path mustBeDir hd hpath
    exact pathRemoveDirectory_root hreachable.placed hd hpath

/-- A host with two directories beside each other, of which `guest` holds the directory `inner` and
the link `self` to itself. -/
def besideHost : Host :=
  let v := ((Volume.new default).create Volume.top (utf8 "guest") (.directory [])).2
  let v := (v.create 1 (utf8 "inner") (.directory [])).2
  let v := (v.create 1 (utf8 "self") (.link (utf8 "."))).2
  ⟨(v.create Volume.top (utf8 "other") (.directory [])).2, default, default, []⟩

/-- A guest that was granted both. -/
def besideGuest : World :=
  (fresh besideHost default).build [.preopen "guest" [47], .preopen "other" [47, 111]]

/-- Asks for the removal of roots by their names, through the link and from within. -/
def removingCalls : List Call :=
  [.pathRemoveDirectory 3 ".", .pathRemoveDirectory 3 "self", .pathRemoveDirectory 3 "self/.",
    .pathUnlinkFile 3 "inner/..", .pathUnlinkFile 4 "./",
    .pathOpen 3 LookupFlags.symlinkFollow "self" OpenFlags.directory .empty .empty .empty,
    .pathOpen 3 .empty "inner" .empty .empty .empty .empty,
    .pathRemoveDirectory 5 "..", .pathRemoveDirectory 6 "../..", .pathRemoveDirectory 3 "inner"]

theorem besideHost_hierarchical : besideHost.volume.Hierarchical := by
  apply Volume.Hierarchical.create _ (by decide +kernel) _ rfl
  apply Volume.Hierarchical.create _ (by decide +kernel) _ rfl
  apply Volume.Hierarchical.create _ (by decide +kernel) _ rfl
  apply Volume.Hierarchical.create _ (by decide +kernel) _ rfl
  exact .new default

theorem besideGuest_preopens :
    besideGuest.context.preopens = [⟨3, [47], "guest", 1⟩, ⟨4, [47, 111], "other", 4⟩] := by
  decide +kernel

theorem besideGuest_apart : ∀ p ∈ besideGuest.context.preopens,
    ∀ q ∈ besideGuest.context.preopens,
      besideHost.volume.Reaches p.root q.root → p.root = q.root := by
  have hclosed : ∀ nodes : List Ino,
      (∀ dir ∈ nodes, ∀ entry ∈ besideHost.volume.entries dir, entry.2 ∈ nodes) →
        besideHost.volume.Closed (· ∈ nodes) := by
    rintro nodes h dir i hdir ⟨name, hname⟩
    exact h dir hdir _ hname
  have hguest : ¬ besideHost.volume.Reaches 1 4 := by
    intro hreach
    exact absurd ((hclosed [1, 2, 3] (by decide +kernel)).reaches (by decide) hreach) (by decide)
  have hother : ¬ besideHost.volume.Reaches 4 1 := by
    intro hreach
    exact absurd ((hclosed [4] (by decide +kernel)).reaches (by decide) hreach) (by decide)
  simp [besideGuest_preopens, hguest, hother]

theorem roots_remain_beside :
    (besideGuest.run removingCalls).volume.child? Volume.top (utf8 "guest") = some 1 ∧
      (besideGuest.run removingCalls).volume.Reaches Volume.top 4 ∧
      (besideGuest.run removingCalls).pathRemoveDirectory 6 ".." =
        (.error (.because .notCapable "cannot remove a preopened directory"),
          besideGuest.run removingCalls) := by
  obtain ⟨hroots, hrefused⟩ :=
    roots_remain besideHost default _ besideHost_hierarchical besideGuest_apart removingCalls
  have hguest := hroots ⟨3, [47], "guest", 1⟩ (by decide +kernel)
  have hother := hroots ⟨4, [47, 111], "other", 4⟩ (by decide +kernel)
  refine ⟨hguest.2.2 _ _ (by decide +kernel), hother.1, ?_⟩
  exact hrefused 6 (.nested 0 ["inner"] 2) ".." false (by decide +kernel) (by decide +kernel)

end World

end Hostcall
