import Hostcall.Host.Entries
import Mathlib.Logic.Relation
import Mathlib.Tactic.ByContra

/-!
# Nodes of a volume and what changes them

* `node_modify` and its companions give every node after a change;
* `Volume.Reaches` says that a node lies at or beneath a directory;
* `Volume.Edit` lists the changes that an operation of the host may make: one node's
  contents or times, one new node, or one name less, with the nodes concerned drawn from
  a given set.
-/

namespace Hostcall

namespace Volume

/-! ## Nodes after a change -/

theorem node_of_le {v : Volume} {i : Ino} (h : v.nodes.size ≤ i) : v.node i = default := by
  simp [node, Array.getD_eq_getD_getElem?, Array.getElem?_eq_none h]

theorem entries_of_le {v : Volume} {i : Ino} (h : v.nodes.size ≤ i) : v.entries i = [] := by
  rw [entries, body, node_of_le h]
  rfl

theorem lt_size_of_body_file {v : Volume} {i : Ino} {content : Content}
    (h : v.body i = .file content) : i < v.nodes.size := by
  by_contra hi
  rw [body, node_of_le (Nat.not_lt.mp hi)] at h
  cases h

theorem lt_size_of_mem_entries {v : Volume} {d i : Ino} {name : Name}
    (h : (name, i) ∈ v.entries d) : d < v.nodes.size := by
  by_contra hd
  rw [entries_of_le (Nat.not_lt.mp hd)] at h
  cases h

@[simp] theorem size_modify (v : Volume) (i : Ino) (f : Node → Node) :
    (v.modify i f).nodes.size = v.nodes.size := by
  simp [modify]

/-- Only the node that is changed becomes another one, if there is such a node. -/
theorem node_modify (v : Volume) (i : Ino) (f : Node → Node) (j : Ino) :
    (v.modify i f).node j = if j = i ∧ i < v.nodes.size then f (v.node i) else v.node j := by
  simp only [node, modify, Array.getD_eq_getD_getElem?, Array.getElem?_modify]
  by_cases hj : i = j
  · subst hj
    by_cases hi : i < v.nodes.size
    · simp [hi]
    · simp [hi]
  · simp [hj, Ne.symm hj]

theorem node_modify_of_ne {v : Volume} {i j : Ino} (h : j ≠ i) (f : Node → Node) :
    (v.modify i f).node j = v.node j := by
  rw [node_modify, if_neg fun hj => h hj.1]

theorem body_modify_of_body {f : Node → Node} (hf : ∀ n, (f n).body = n.body) (v : Volume)
    (i j : Ino) : (v.modify i f).body j = v.body j := by
  rw [body, node_modify]
  split
  case isTrue h => rw [hf, h.1]; rfl
  case isFalse => rfl

@[simp] theorem size_setBody (v : Volume) (i : Ino) (b : Body) :
    (v.setBody i b).nodes.size = v.nodes.size := size_modify ..

@[simp] theorem size_replaceBody (v : Volume) (i : Ino) (b : Body) :
    (v.replaceBody i b).nodes.size = v.nodes.size := size_modify ..

@[simp] theorem size_setTimes (v : Volume) (i : Ino) (u : TimeUpdates) :
    (v.setTimes i u).nodes.size = v.nodes.size := size_modify ..

@[simp] theorem size_unbind (v : Volume) (dir : Ino) (name : Name) (i : Ino) :
    (v.unbind dir name i).nodes.size = v.nodes.size := by
  simp [unbind]

@[simp] theorem size_create (v : Volume) (dir : Ino) (name : Name) (b : Body) :
    (v.create dir name b).2.nodes.size = v.nodes.size + 1 := by
  simp [create, bind]

theorem node_bind_of_ne {v : Volume} {dir i j : Ino} (hdir : j ≠ dir) (hi : j ≠ i) (name : Name) :
    (v.bind dir name i).node j = v.node j := by
  rw [bind, node_modify_of_ne hi, replaceBody, node_modify_of_ne hdir]

theorem node_unbind_of_ne {v : Volume} {dir i j : Ino} (hdir : j ≠ dir) (hi : j ≠ i) (name : Name) :
    (v.unbind dir name i).node j = v.node j := by
  rw [unbind, node_modify_of_ne hi, replaceBody, node_modify_of_ne hdir]

/-- The number of a new node was no node's before. -/
theorem node_push (v : Volume) (n : Node) (j : Ino) :
    Volume.node { v with nodes := v.nodes.push n } j =
      if j = v.nodes.size then n else v.node j := by
  simp only [node, Array.getD_eq_getD_getElem?, Array.getElem?_push]
  split <;> rfl

theorem node_create_of_ne {v : Volume} {dir j : Ino} (hdir : j ≠ dir) (hj : j ≠ v.nodes.size)
    (name : Name) (b : Body) : (v.create dir name b).2.node j = v.node j := by
  rw [create, node_bind_of_ne hdir hj, node_push, if_neg hj]

/-! ## Bodies and entries after a change -/

theorem body_replaceBody (v : Volume) (i : Ino) (b : Body) (j : Ino) :
    (v.replaceBody i b).body j = if j = i ∧ i < v.nodes.size then b else v.body j := by
  rw [body, replaceBody, node_modify]
  split <;> rfl

theorem body_setBody (v : Volume) (i : Ino) (b : Body) (j : Ino) :
    (v.setBody i b).body j = if j = i ∧ i < v.nodes.size then b else v.body j := by
  rw [body, setBody, node_modify]
  split <;> rfl

theorem body_setTimes (v : Volume) (i : Ino) (u : TimeUpdates) (j : Ino) :
    (v.setTimes i u).body j = v.body j := by
  rw [setTimes, body_modify_of_body]
  intro n
  rfl

theorem body_bind (v : Volume) (dir : Ino) (name : Name) (i j : Ino) :
    (v.bind dir name i).body j = if j = dir ∧ dir < v.nodes.size
      then .directory (v.entries dir ++ [(name, i)]) else v.body j := by
  rw [bind, body_modify_of_body, body_replaceBody]
  intro n
  rfl

theorem body_unbind (v : Volume) (dir : Ino) (name : Name) (i j : Ino) :
    (v.unbind dir name i).body j = if j = dir ∧ dir < v.nodes.size
      then .directory ((v.entries dir).filter fun entry => entry.1 != name) else v.body j := by
  rw [unbind, body_modify_of_body, body_replaceBody]
  intro n
  rfl

theorem body_push (v : Volume) (n : Node) (j : Ino) :
    Volume.body { v with nodes := v.nodes.push n } j =
      if j = v.nodes.size then n.body else v.body j := by
  rw [body, node_push]
  split <;> rfl

theorem body_create_self {v : Volume} {dir : Ino} (h : dir < v.nodes.size) (name : Name)
    (b : Body) : (v.create dir name b).2.body v.nodes.size = b := by
  simp [create, body_bind, body_push, Nat.ne_of_gt h]

theorem entries_replaceBody (v : Volume) (i : Ino) (b : Body) (j : Ino) :
    (v.replaceBody i b).entries j =
      if j = i ∧ i < v.nodes.size then b.entries else v.entries j := by
  rw [entries, body_replaceBody]
  split <;> rfl

theorem entries_setBody (v : Volume) (i : Ino) (b : Body) (j : Ino) :
    (v.setBody i b).entries j = if j = i ∧ i < v.nodes.size then b.entries else v.entries j := by
  rw [entries, body_setBody]
  split <;> rfl

@[simp] theorem entries_setTimes (v : Volume) (i : Ino) (u : TimeUpdates) (j : Ino) :
    (v.setTimes i u).entries j = v.entries j := by
  rw [entries, body_setTimes]
  rfl

theorem entries_bind (v : Volume) (dir : Ino) (name : Name) (i j : Ino) :
    (v.bind dir name i).entries j =
      if j = dir ∧ dir < v.nodes.size then v.entries dir ++ [(name, i)] else v.entries j := by
  rw [entries, body_bind]
  split <;> rfl

theorem entries_unbind (v : Volume) (dir : Ino) (name : Name) (i j : Ino) :
    (v.unbind dir name i).entries j =
      if j = dir ∧ dir < v.nodes.size then (v.entries dir).filter fun entry => entry.1 != name
      else v.entries j := by
  rw [entries, body_unbind]
  split <;> rfl

theorem entries_push (v : Volume) (n : Node) (j : Ino) :
    Volume.entries { v with nodes := v.nodes.push n } j =
      if j = v.nodes.size then n.body.entries else v.entries j := by
  rw [entries, body_push]
  split <;> rfl

theorem mem_entries_setBody {v : Volume} {b : Body} {i d j : Ino} {name : Name}
    (hb : b.isDirectory = false) (h : (name, j) ∈ (v.setBody i b).entries d) :
    (name, j) ∈ v.entries d := by
  rw [entries_setBody] at h
  split at h
  · cases b <;> cases hb <;> cases h
  · exact h

theorem mem_entries_replaceBody {v : Volume} {b : Body} {i d j : Ino} {name : Name}
    (hb : b.isDirectory = false) (h : (name, j) ∈ (v.replaceBody i b).entries d) :
    (name, j) ∈ v.entries d := by
  rw [entries_replaceBody] at h
  split at h
  · cases b <;> cases hb <;> cases h
  · exact h

theorem mem_entries_create {v : Volume} {dir d i : Ino} {name n : Name} {b : Body}
    (h : (n, i) ∈ (v.create dir name b).2.entries d) :
    (n, i) ∈ v.entries d ∨ (n, i) ∈ b.entries ∨ (d = dir ∧ n = name ∧ i = v.nodes.size) := by
  rw [create, entries_bind] at h
  have hpush : ∀ j, (n, i) ∈ Volume.entries
      { v with nodes := v.nodes.push ⟨b, 0, v.clock, v.clock⟩ } j →
        (n, i) ∈ v.entries j ∨ (n, i) ∈ b.entries := by
    intro j hj
    rw [entries_push] at hj
    split at hj
    · exact .inr hj
    · exact .inl hj
  split at h
  case isFalse => exact (hpush d h).imp_right .inl
  case isTrue hd =>
    rcases List.mem_append.mp h with h | h
    · rw [hd.1]
      exact (hpush dir h).imp_right .inl
    · obtain ⟨hn, hi⟩ := Prod.mk.inj (List.mem_singleton.mp h)
      exact .inr (.inr ⟨hd.1, hn, hi⟩)

theorem mem_entries_unbind {v : Volume} {dir d i j : Ino} {name n : Name}
    (h : (n, j) ∈ (v.unbind dir name i).entries d) : (n, j) ∈ v.entries d := by
  rw [entries_unbind] at h
  split at h
  case isTrue hd =>
    rw [hd.1]
    exact (List.mem_filter.mp h).1
  case isFalse => exact h

theorem mem_entries_of_child? {v : Volume} {dir i : Ino} {name : Name}
    (h : v.child? dir name = some i) : (name, i) ∈ v.entries dir := by
  obtain ⟨before, after, hsplit, _⟩ := List.lookup_eq_some_iff.mp h
  rw [hsplit]
  exact List.mem_append_right before List.mem_cons_self

/-! ## At or beneath a directory -/

/-- A directory lists a node under some name. -/
def Lists (v : Volume) (dir i : Ino) : Prop := ∃ name, (name, i) ∈ v.entries dir

/-- A node lies at a directory or beneath it. -/
def Reaches (v : Volume) : Ino → Ino → Prop := Relation.ReflTransGen v.Lists

/-- A set of nodes that holds every entry of its directories. -/
def Closed (v : Volume) (S : Ino → Prop) : Prop := ∀ dir i, S dir → v.Lists dir i → S i

theorem Closed.reaches {v : Volume} {S : Ino → Prop} (h : v.Closed S) {root i : Ino}
    (hroot : S root) (hi : v.Reaches root i) : S i := by
  induction hi with
  | refl => exact hroot
  | tail _ hlists ih => exact h _ _ ih hlists

theorem closed_reaches (v : Volume) (root : Ino) : v.Closed (v.Reaches root) :=
  fun _ _ hdir hlists => hdir.tail hlists

/-! ## Edits -/

/-- A change that one operation of the host makes, to nodes of a set. -/
inductive Edit (v : Volume) (P : Ino → Prop) : Volume → Prop where
  | same : Edit v P v
  /-- Contents are changed and nothing is noted of it. -/
  | refill {i : Ino} {b : Body} (hi : P i) (hkind : b.fileType = (v.body i).fileType)
      (hb : b.isDirectory = false) : Edit v P (v.setBody i b)
  /-- Contents are changed now. -/
  | rewrite {i : Ino} {b : Body} (hi : P i) (hkind : b.fileType = (v.body i).fileType)
      (hb : b.isDirectory = false) : Edit v P (v.replaceBody i b)
  | times {i : Ino} {u : TimeUpdates} (hi : P i) : Edit v P (v.setTimes i u)
  | create {dir : Ino} {name : Name} {b : Body} (hdir : P dir) (hname : v.child? dir name = none)
      (hb : b = .directory [] ∨ b = .file .empty) : Edit v P (v.create dir name b).2
  | unbind {dir i : Ino} {name : Name} (hdir : P dir) (hi : v.child? dir name = some i) :
      Edit v P (v.unbind dir name i)

theorem Edit.mono {v v' : Volume} {P Q : Ino → Prop} (h : v.Edit P v') (hPQ : ∀ i, P i → Q i) :
    v.Edit Q v' := by
  cases h with
  | same => exact .same
  | refill hi hkind hb => exact .refill (hPQ _ hi) hkind hb
  | rewrite hi hkind hb => exact .rewrite (hPQ _ hi) hkind hb
  | times hi => exact .times (hPQ _ hi)
  | create hdir hname hb => exact .create (hPQ _ hdir) hname hb
  | unbind hdir hi => exact .unbind (hPQ _ hdir) hi

/-- Directories that named existing nodes only do so after an edit. -/
theorem Edit.lists_lt {v v' : Volume} {P S : Ino → Prop} (he : v.Edit P v')
    (h : ∀ d i, S d → v.Lists d i → i < v.nodes.size) :
    ∀ d i, S d → v'.Lists d i → i < v'.nodes.size := by
  rintro d i hd ⟨name, hi⟩
  cases he with
  | same => exact h d i hd ⟨name, hi⟩
  | refill _ _ hb =>
    rw [size_setBody]
    exact h d i hd ⟨name, mem_entries_setBody hb hi⟩
  | rewrite _ _ hb =>
    rw [size_replaceBody]
    exact h d i hd ⟨name, mem_entries_replaceBody hb hi⟩
  | times =>
    rw [size_setTimes]
    rw [entries_setTimes] at hi
    exact h d i hd ⟨name, hi⟩
  | create _ _ hb =>
    rw [size_create]
    rcases mem_entries_create hi with hi | hi | ⟨-, -, rfl⟩
    · exact Nat.lt_succ_of_lt (h d i hd ⟨name, hi⟩)
    · rcases hb with rfl | rfl <;> cases hi
    · exact Nat.lt_succ_self _
  | unbind =>
    rw [size_unbind]
    exact h d i hd ⟨name, mem_entries_unbind hi⟩

/-- No edit makes a named pipe. -/
theorem Edit.fifo_before {v v' : Volume} {P : Ino → Prop} (he : v.Edit P v') {j : Ino} {q : Fifo}
    (hq : v'.body j = .fifo q) : ∃ q₀, v.body j = .fifo q₀ := by
  -- contents are only changed to contents of the same kind
  have hkind : ∀ {b : Body}, b.fileType = (v.body j).fileType → b = .fifo q →
      ∃ q₀, v.body j = .fifo q₀ := by
    rintro b hb rfl
    cases hbody : v.body j with
    | fifo q₀ => exact ⟨q₀, rfl⟩
    | directory | file | link | socket | device =>
      rw [hbody] at hb
      cases hb
  cases he with
  | same => exact ⟨q, hq⟩
  | refill _ hb =>
    rw [body_setBody] at hq
    split at hq
    case isTrue hj =>
      rw [← hj.1] at hb
      exact hkind hb hq
    case isFalse => exact ⟨q, hq⟩
  | rewrite _ hb =>
    rw [body_replaceBody] at hq
    split at hq
    case isTrue hj =>
      rw [← hj.1] at hb
      exact hkind hb hq
    case isFalse => exact ⟨q, hq⟩
  | times =>
    rw [body_setTimes] at hq
    exact ⟨q, hq⟩
  | create _ _ hb =>
    rw [Volume.create, body_bind] at hq
    split at hq
    · cases hq
    · rw [body_push] at hq
      split at hq
      · rcases hb with rfl | rfl <;> cases hq
      · exact ⟨q, hq⟩
  | unbind =>
    rw [body_unbind] at hq
    split at hq
    · cases hq
    · exact ⟨q, hq⟩

end Volume

end Hostcall
