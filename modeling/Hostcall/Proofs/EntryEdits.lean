import Hostcall.Proofs.Hierarchy

/-!
# One name more, one name less

A new name and a removed one change what one directory finds under that name, and nothing else in
the tree.

* `Volume.Binds` and `Volume.InTree` are what a directory finds and what is found from the top;
* `Volume.Added` and `Volume.Removed` compare a volume with one that has a name more or less;
* `Volume.added_create` and `Volume.removed_unbind` say so of the changes that the host makes.
-/

namespace Hostcall

namespace Volume

variable {v v' : Volume} {dir d i j : Ino} {name n : Name} {b : Body}

/-- A directory that exists. -/
def HasDirectory (v : Volume) (i : Ino) : Prop := i < v.nodes.size ∧ v.isDirectory i = true

/-- A directory finds a node under some name. -/
def Binds (v : Volume) (dir i : Ino) : Prop := ∃ name, v.child? dir name = some i

/-- A node is found from the top, name by name. -/
def InTree (v : Volume) : Ino → Prop := Relation.ReflTransGen v.Binds top

theorem lt_size_of_child? (h : v.child? d n = some i) : d < v.nodes.size :=
  lt_size_of_mem_entries (mem_entries_of_child? h)

theorem InTree.mono (h : ∀ d e, v.Binds d e → v'.Binds d e) (hj : v.InTree j) : v'.InTree j :=
  Relation.ReflTransGen.mono h _ _ hj

theorem child?_of_entries_nil (h : v.entries d = []) (n : Name) : v.child? d n = none := by
  rw [child?, h]
  rfl

/-! ## A new name -/

theorem body_create (hdir : dir < v.nodes.size) (name : Name) (b : Body) (j : Ino) :
    (v.create dir name b).2.body j =
      if j = dir then .directory (v.entries dir ++ [(name, v.nodes.size)])
      else if j = v.nodes.size then b else v.body j := by
  have hgrown : dir < v.nodes.size + 1 := Nat.lt_succ_of_lt hdir
  simp [create, body_bind, body_push, entries_push, Nat.ne_of_lt hdir, hgrown]

theorem entries_create (hdir : dir < v.nodes.size) (hb : b.entries = []) (j : Ino) :
    (v.create dir name b).2.entries j =
      if j = dir then v.entries dir ++ [(name, v.nodes.size)] else v.entries j := by
  rw [entries, body_create hdir]
  split
  · rfl
  split
  case isTrue hnew => rw [hb, hnew, entries_of_le (Nat.le_refl _)]
  case isFalse => rfl

theorem child?_create (hdir : dir < v.nodes.size) (hname : v.child? dir name = none)
    (hb : b.entries = []) (d : Ino) (n : Name) :
    (v.create dir name b).2.child? d n =
      if d = dir ∧ n = name then some v.nodes.size else v.child? d n := by
  rw [child?, entries_create hdir hb]
  by_cases hd : d = dir
  case neg => rw [if_neg hd, if_neg fun h => hd h.1, child?]
  case pos =>
    subst hd
    rw [child?] at hname
    rw [if_pos rfl, List.lookup_append, child?]
    by_cases hn : n = name
    · -- nothing stands in front of the new entry
      rw [hn, hname, if_pos ⟨rfl, rfl⟩]
      simp
    · have hother : (n == name) = false := by simpa using hn
      rw [if_neg fun h => hn h.2, List.lookup_cons, hother, List.lookup_nil]
      exact Option.or_none

/-- A volume with one name more.  The name was free, it is now that of a new node, and everything
else is found where it was and is what it was. -/
structure Added (v v' : Volume) (dir : Ino) (name : Name) (b : Body) : Prop where
  directory : v.HasDirectory dir
  free : v.child? dir name = none
  size : v'.nodes.size = v.nodes.size + 1
  new : v'.body v.nodes.size = b
  child : ∀ d n, v'.child? d n = if d = dir ∧ n = name then some v.nodes.size else v.child? d n
  listing : v'.body dir = .directory (v.entries dir ++ [(name, v.nodes.size)])
  node : ∀ j, j ≠ dir → j ≠ v.nodes.size → v'.node j = v.node j
  inTree : ∀ j, v'.InTree j ↔ v.InTree j ∨ (j = v.nodes.size ∧ v.InTree dir)

section

variable (hdir : v.HasDirectory dir) (hname : v.child? dir name = none) (hb : b.entries = [])
include hdir hname hb

theorem binds_create : (v.create dir name b).2.Binds d i ↔
    v.Binds d i ∨ (d = dir ∧ i = v.nodes.size) := by
  have hchild := child?_create hdir.1 hname hb
  constructor
  · rintro ⟨n, hn⟩
    rw [hchild] at hn
    split at hn
    case isTrue hnew =>
      cases hn
      exact .inr ⟨hnew.1, rfl⟩
    case isFalse => exact .inl ⟨n, hn⟩
  · rintro (⟨n, hn⟩ | ⟨rfl, rfl⟩)
    · refine ⟨n, ?_⟩
      rw [hchild, if_neg, hn]
      rintro ⟨rfl, rfl⟩
      rw [hname] at hn
      cases hn
    · exact ⟨name, by rw [hchild, if_pos ⟨rfl, rfl⟩]⟩

theorem inTree_create : (v.create dir name b).2.InTree j ↔
    v.InTree j ∨ (j = v.nodes.size ∧ v.InTree dir) := by
  have hbinds : ∀ {d i}, (v.create dir name b).2.Binds d i ↔
      v.Binds d i ∨ (d = dir ∧ i = v.nodes.size) := binds_create hdir hname hb
  have hmono : ∀ {j}, v.InTree j → (v.create dir name b).2.InTree j :=
    .mono fun _ _ hold => hbinds.mpr (.inl hold)
  constructor
  · intro h
    induction h with
    | refl => exact .inl .refl
    | tail _ hde ih =>
      rcases hbinds.mp hde with ⟨n, hn⟩ | ⟨rfl, rfl⟩
      · -- the new node finds nothing
        have hlt := lt_size_of_child? hn
        rcases ih with ih | ⟨rfl, -⟩
        · exact .inl (ih.tail ⟨n, hn⟩)
        · exact absurd hlt (Nat.lt_irrefl _)
      · rcases ih with ih | ⟨hnew, -⟩
        · exact .inr ⟨rfl, ih⟩
        · exact absurd hdir.1 (Nat.not_lt.mpr (Nat.le_of_eq hnew.symm))
  · rintro (h | ⟨rfl, h⟩)
    · exact hmono h
    · exact (hmono h).tail (hbinds.mpr (.inr ⟨rfl, rfl⟩))

theorem added_create : v.Added (v.create dir name b).2 dir name b where
  directory := hdir
  free := hname
  size := size_create v dir name b
  new := body_create_self hdir.1 name b
  child := child?_create hdir.1 hname hb
  listing := by rw [body_create hdir.1, if_pos rfl]
  node := fun _ hj hnew => node_create_of_ne hj hnew name b
  inTree := fun _ => inTree_create hdir hname hb

end

/-! ## A removed name -/

theorem lookup_filter_self (l : List (Name × Ino)) (name : Name) :
    (l.filter fun entry => entry.1 != name).lookup name = none := by
  rw [List.lookup_eq_none_iff]
  intro entry hentry
  have hkept : entry.1 ≠ name := by simpa using (List.mem_filter.mp hentry).2
  simpa using hkept.symm

theorem child?_unbind (hdir : dir < v.nodes.size) (name : Name) (i d : Ino) (n : Name) :
    (v.unbind dir name i).child? d n = if d = dir ∧ n = name then none else v.child? d n := by
  rw [child?, entries_unbind]
  by_cases hd : d = dir
  case neg => rw [if_neg fun h => hd h.1, if_neg fun h => hd h.1, child?]
  case pos =>
    subst hd
    rw [if_pos ⟨rfl, hdir⟩]
    by_cases hn : n = name
    · rw [hn, if_pos ⟨rfl, rfl⟩, lookup_filter_self]
    · rw [if_neg fun h => hn h.2, lookup_filter_ne hn, child?]

/-- A volume with one name less.  The node it was bound to stays in the tree only under another
name, and everything else is found where it was and is what it was. -/
structure Removed (v v' : Volume) (dir : Ino) (name : Name) (i : Ino) : Prop where
  directory : v.HasDirectory dir
  bound : v.child? dir name = some i
  size : v'.nodes.size = v.nodes.size
  child : ∀ d n, v'.child? d n = if d = dir ∧ n = name then none else v.child? d n
  listing : v'.body dir = .directory ((v.entries dir).filter fun entry => entry.1 != name)
  body : ∀ j, j ≠ dir → v'.body j = v.body j
  node : ∀ j, j ≠ dir → j ≠ i → v'.node j = v.node j
  inTree : ∀ j, j ≠ i → (v'.InTree j ↔ v.InTree j)
  elsewhere : v'.InTree i ↔
    i = top ∨ ∃ d n, (d ≠ dir ∨ n ≠ name) ∧ v.InTree d ∧ v.child? d n = some i

section

variable (hdir : v.HasDirectory dir)
include hdir

theorem binds_unbind : (v.unbind dir name i).Binds d j ↔
    ∃ n, (d ≠ dir ∨ n ≠ name) ∧ v.child? d n = some j := by
  simp only [Binds, child?_unbind hdir.1, ← not_and_or]
  refine exists_congr fun n => ?_
  split
  case isTrue h => simp [h]
  case isFalse h => simp [h]

variable (hbound : v.child? dir name = some i) (hleaf : v.entries i = [])
include hbound hleaf

theorem inTree_unbind_of_ne (hj : j ≠ i) : (v.unbind dir name i).InTree j ↔ v.InTree j := by
  constructor
  · apply InTree.mono
    intro d e hde
    obtain ⟨n, -, hn⟩ := (binds_unbind hdir).mp hde
    exact ⟨n, hn⟩
  · intro h
    induction h with
    | refl => exact .refl
    | @tail d e _ hde ih =>
      -- the way to another node does not lead through the one that is removed
      obtain ⟨n, hn⟩ := hde
      have hd : d ≠ i := by
        rintro rfl
        rw [child?_of_entries_nil hleaf] at hn
        cases hn
      refine (ih hd).tail ((binds_unbind hdir).mpr ⟨n, ?_, hn⟩)
      by_contra hsame
      obtain ⟨rfl, rfl⟩ := not_or.mp hsame |>.imp not_not.mp not_not.mp
      exact hj (Option.some.inj (hn.symm.trans hbound))

theorem inTree_unbind_self : (v.unbind dir name i).InTree i ↔
    i = top ∨ ∃ d n, (d ≠ dir ∨ n ≠ name) ∧ v.InTree d ∧ v.child? d n = some i := by
  have hother : ∀ {d n}, v.child? d n = some i →
      ((v.unbind dir name i).InTree d ↔ v.InTree d) := by
    intro d n hn
    apply inTree_unbind_of_ne hdir hbound hleaf
    rintro rfl
    rw [child?_of_entries_nil hleaf] at hn
    cases hn
  constructor
  · intro h
    rcases Relation.ReflTransGen.cases_tail h with htop | ⟨d, hd, hde⟩
    · exact .inl htop
    · obtain ⟨n, hne, hn⟩ := (binds_unbind hdir).mp hde
      exact .inr ⟨d, n, hne, (hother hn).mp hd, hn⟩
  · rintro (htop | ⟨d, n, hne, hd, hn⟩)
    · rw [htop]
      exact .refl
    · exact ((hother hn).mpr hd).tail ((binds_unbind hdir).mpr ⟨n, hne, hn⟩)

/-- What finds nothing itself can be removed without anything being lost beneath it. -/
theorem removed_unbind : v.Removed (v.unbind dir name i) dir name i where
  directory := hdir
  bound := hbound
  size := size_unbind v dir name i
  child := child?_unbind hdir.1 name i
  listing := by rw [body_unbind, if_pos ⟨rfl, hdir.1⟩]
  body := fun j hj => by rw [body_unbind, if_neg fun h => hj h.1]
  node := fun _ hj hi => node_unbind_of_ne hj hi name
  inTree := fun _ hj => inTree_unbind_of_ne hdir hbound hleaf hj
  elsewhere := inTree_unbind_self hdir hbound hleaf

end

/-- In a tree in which directories have one place, a directory that is removed is gone. -/
theorem Removed.not_inTree (h : v.Removed v' dir name i) (hv : v.Hierarchical)
    (hi : v.isDirectory i = true) : ¬ v'.InTree i := by
  have hhere := mem_entries_of_child? h.bound
  rw [h.elsewhere]
  rintro (rfl | ⟨d, n, hother, -, hn⟩)
  · exact hv.not_lists_top dir ⟨name, hhere⟩
  · obtain ⟨hd, hname⟩ := hv.unique i d dir n name hi (mem_entries_of_child? hn) hhere
    exact hother.elim (absurd hd) (absurd hname)

end Volume

end Hostcall
