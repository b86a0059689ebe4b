import Hostcall.Proofs.Trails

/-!
# Directories have one place

A directory of a real file system is listed once.  Calls keep that, take names away and give new
ones to new nodes only, so a directory that is still somewhere is still where it was.

* `Volume.Hierarchical` is the shape, `World.run_hierarchical` keeps it;
* `Volume.Later` compares what was listed with what is listed later, and `World.run_later` says
  so of a run;
* `Volume.stands_of_reaches` is that a trail of directories stands as long as its end is in the
  tree.
-/

namespace Hostcall

namespace Volume

variable {v v' v'' : Volume} {P W : Ino → Prop} {dir i : Ino} {name : Name}

/-! ## Later listings -/

/-- What is listed later of the nodes that were there was listed before, and is found if it was
found before. -/
structure Later (v v' : Volume) : Prop where
  size_le : v.nodes.size ≤ v'.nodes.size
  listed : ∀ dir name i, i < v.nodes.size → (name, i) ∈ v'.entries dir → (name, i) ∈ v.entries dir
  child : ∀ dir name i, i < v.nodes.size → v.child? dir name = some i →
    (name, i) ∈ v'.entries dir → v'.child? dir name = some i

theorem Later.of_entries_eq (hsize : v'.nodes.size = v.nodes.size)
    (h : ∀ dir, v'.entries dir = v.entries dir) : v.Later v' where
  size_le := by rw [hsize]
  listed := by
    intro dir name i _ hi
    rwa [h] at hi
  child := by
    intro dir name i _ hchild _
    rwa [child?, h]

theorem Later.refl (v : Volume) : v.Later v := .of_entries_eq rfl fun _ => rfl

theorem Later.trans (h : v.Later v') (h' : v'.Later v'') : v.Later v'' where
  size_le := Nat.le_trans h.size_le h'.size_le
  listed := by
    intro dir name i hi hlisted
    exact h.listed dir name i hi (h'.listed dir name i (Nat.lt_of_lt_of_le hi h.size_le) hlisted)
  child := by
    intro dir name i hi hchild hlisted
    have hlt := Nat.lt_of_lt_of_le hi h.size_le
    -- what is listed at the end was listed in between
    have hbetween := h.child dir name i hi hchild (h'.listed dir name i hlt hlisted)
    exact h'.child dir name i hlt hbetween hlisted

/-! ### Edits -/

/-- What is no directory and keeps its kind lists nothing, before and after. -/
theorem entries_eq_of_kind {b : Body} (hkind : b.fileType = (v.body i).fileType)
    (hb : b.isDirectory = false) : b.entries = v.entries i := by
  have hnil : ∀ {b : Body}, b.isDirectory = false → b.entries = [] := by
    intro b hb
    cases b with
    | directory => cases hb
    | file | link | fifo | socket | device => rfl
  have hbefore : (v.body i).isDirectory = false := (isDirectory_eq_of_fileType hkind).symm.trans hb
  rw [entries, hnil hb, hnil hbefore]

theorem entries_setBody_of_kind {b : Body} (hkind : b.fileType = (v.body i).fileType)
    (hb : b.isDirectory = false) (j : Ino) : (v.setBody i b).entries j = v.entries j := by
  rw [entries_setBody]
  split
  case isTrue hj => rw [hj.1, entries_eq_of_kind hkind hb]
  case isFalse => rfl

theorem entries_replaceBody_of_kind {b : Body} (hkind : b.fileType = (v.body i).fileType)
    (hb : b.isDirectory = false) (j : Ino) : (v.replaceBody i b).entries j = v.entries j := by
  rw [entries_replaceBody]
  split
  case isTrue hj => rw [hj.1, entries_eq_of_kind hkind hb]
  case isFalse => rfl

theorem Later.create {b : Body} (hb : b.entries = []) (dir : Ino) (name : Name) :
    v.Later (v.create dir name b).2 where
  size_le := by simp
  listed := by
    intro d n i hi hlisted
    rcases mem_entries_create hlisted with h | h | ⟨-, -, rfl⟩
    · exact h
    · rw [hb] at h
      cases h
    · exact absurd hi (Nat.lt_irrefl _)
  child := by
    intro d n i hi hchild _
    have hd : d < v.nodes.size := lt_size_of_mem_entries (mem_entries_of_child? hchild)
    rw [child?, Volume.create, entries_bind]
    split
    case isTrue hdir =>
      rw [hdir.1] at hchild hd
      rw [entries_push, if_neg (Nat.ne_of_lt hd), List.lookup_append]
      rw [child?] at hchild
      rw [hchild]
      rfl
    case isFalse =>
      rw [entries_push, if_neg (Nat.ne_of_lt hd)]
      exact hchild

theorem lookup_filter_ne {l : List (Name × Ino)} {n name : Name} (h : n ≠ name) :
    (l.filter fun entry => entry.1 != name).lookup n = l.lookup n := by
  induction l with
  | nil => rfl
  | cons entry rest ih =>
    obtain ⟨other, i⟩ := entry
    by_cases hother : other = name
    · have hn : (n == other) = false := by simpa [hother] using h
      simp [hother, List.lookup_cons, hother ▸ hn, ih]
    · simp [hother, List.lookup_cons, ih]

theorem Later.unbind (dir : Ino) (name : Name) (i : Ino) : v.Later (v.unbind dir name i) where
  size_le := by simp
  listed := fun _ _ _ _ hlisted => mem_entries_unbind hlisted
  child := by
    intro d n j _ hchild hlisted
    rw [child?] at hchild
    rw [child?]
    rw [entries_unbind] at hlisted ⊢
    split at hlisted
    case isTrue hdir =>
      -- the name is not the one that was taken off
      have hn : n ≠ name := by
        have hkept := (List.mem_filter.mp hlisted).2
        simpa using hkept
      rw [hdir.1] at hchild
      rw [if_pos hdir, lookup_filter_ne hn, hchild]
    case isFalse hdir =>
      rw [if_neg hdir, hchild]

theorem Edit.later (he : v.Edit P v') : v.Later v' := by
  cases he with
  | same => exact .refl v
  | refill _ hkind hb => exact .of_entries_eq (by simp) (entries_setBody_of_kind hkind hb)
  | rewrite _ hkind hb => exact .of_entries_eq (by simp) (entries_replaceBody_of_kind hkind hb)
  | times => exact .of_entries_eq (by simp) (entries_setTimes v _ _)
  | create _ _ hb => exact .create (by rcases hb with rfl | rfl <;> rfl) _ _
  | unbind => exact .unbind _ _ _

/-! ## One place each -/

/-- A volume whose directories are listed at most once, and whose top is not listed.  Files may
have several names. -/
structure Hierarchical (v : Volume) : Prop where
  grounded : v.Grounded
  not_lists_top : ∀ dir, ¬ v.Lists dir top
  unique : ∀ i dir dir' name name', v.isDirectory i = true → (name, i) ∈ v.entries dir →
    (name', i) ∈ v.entries dir' → dir = dir' ∧ name = name'

/-- The shape is kept where directories are not made of what was there, and what is new is listed
once. -/
theorem Hierarchical.step (h : v.Hierarchical) (hgrounded : v'.Grounded) (hlater : v.Later v')
    (hdirectory : ∀ i, i < v.nodes.size → v'.isDirectory i = true → v.isDirectory i = true)
    (hnew : ∀ i dir dir' name name', v.nodes.size ≤ i → (name, i) ∈ v'.entries dir →
      (name', i) ∈ v'.entries dir' → dir = dir' ∧ name = name') : v'.Hierarchical where
  grounded := hgrounded
  not_lists_top := by
    rintro dir ⟨name, hlisted⟩
    exact h.not_lists_top dir ⟨name, hlater.listed dir name top h.grounded.top_lt_size hlisted⟩
  unique := by
    intro i dir dir' name name' hi hlisted hlisted'
    by_cases hlt : i < v.nodes.size
    · exact h.unique i dir dir' name name' (hdirectory i hlt hi)
        (hlater.listed dir name i hlt hlisted) (hlater.listed dir' name' i hlt hlisted')
    · exact hnew i dir dir' name name' (Nat.not_lt.mp hlt) hlisted hlisted'

theorem Grounded.notMem_entries (hv : v.Grounded) (hi : v.nodes.size ≤ i) :
    (name, i) ∉ v.entries dir :=
  fun hlisted => absurd (hv.lt_size dir i ⟨name, hlisted⟩) (Nat.not_lt.mpr hi)

theorem eq_of_mem_entries_create {b : Body} (hv : v.Grounded) (hb : b.entries = [])
    (hi : v.nodes.size ≤ i) {d : Ino} {n : Name}
    (h : (n, i) ∈ (v.create dir name b).2.entries d) : d = dir ∧ n = name := by
  rcases mem_entries_create h with h | h | ⟨hd, hn, -⟩
  · exact absurd h (hv.notMem_entries hi)
  · rw [hb] at h
    cases h
  · exact ⟨hd, hn⟩

/-- A node that an edit adds is listed once. -/
theorem Edit.unique_new (he : v.Edit P v') (hv : v.Grounded) {dir' : Ino} {name' : Name}
    (hi : v.nodes.size ≤ i) (h : (name, i) ∈ v'.entries dir) (h' : (name', i) ∈ v'.entries dir') :
    dir = dir' ∧ name = name' := by
  cases he with
  | same => exact absurd h (hv.notMem_entries hi)
  | refill _ hkind hb =>
    rw [entries_setBody_of_kind hkind hb] at h
    exact absurd h (hv.notMem_entries hi)
  | rewrite _ hkind hb =>
    rw [entries_replaceBody_of_kind hkind hb] at h
    exact absurd h (hv.notMem_entries hi)
  | times =>
    rw [entries_setTimes] at h
    exact absurd h (hv.notMem_entries hi)
  | @create _ _ b _ _ hb =>
    have hnil : b.entries = [] := by rcases hb with rfl | rfl <;> rfl
    obtain ⟨rfl, rfl⟩ := eq_of_mem_entries_create hv hnil hi h
    obtain ⟨rfl, rfl⟩ := eq_of_mem_entries_create hv hnil hi h'
    exact ⟨rfl, rfl⟩
  | unbind => exact absurd (mem_entries_unbind h) (hv.notMem_entries hi)

theorem Hierarchical.edit (h : v.Hierarchical) (he : v.Edit P v') (hevolves : v.Evolves W v') :
    v'.Hierarchical := by
  apply h.step (h.grounded.edit he) he.later
  · intro i hi hdirectory
    rwa [← hevolves.isDirectory_eq hi]
  · intro i dir dir' name name' hi
    exact he.unique_new h.grounded hi

theorem Hierarchical.new (clock : HostTime) : (new clock).Hierarchical := by
  have hempty : ∀ dir name i, (name, i) ∉ (Volume.new clock).entries dir := by
    intro dir name i hlisted
    obtain rfl : dir = 0 := Nat.lt_one_iff.mp (lt_size_of_mem_entries hlisted)
    cases hlisted
  refine ⟨grounded_new, fun dir ⟨name, h⟩ => hempty dir name _ h, ?_⟩
  intro i dir dir' name name' _ hlisted
  exact absurd hlisted (hempty dir name i)

theorem Hierarchical.create (h : v.Hierarchical) (hdir : v.isDirectory dir = true) (name : Name)
    {b : Body} (hb : b.entries = []) : (v.create dir name b).2.Hierarchical := by
  have hgrounded : (v.create dir name b).2.Grounded := by
    refine ⟨by rw [size_create]; exact Nat.lt_succ_of_lt h.grounded.top_lt_size, ?_⟩
    rintro d i ⟨n, hlisted⟩
    rw [size_create]
    rcases mem_entries_create hlisted with hold | hnew | ⟨-, -, rfl⟩
    · exact Nat.lt_succ_of_lt (h.grounded.lt_size d i ⟨n, hold⟩)
    · rw [hb] at hnew
      cases hnew
    · exact Nat.lt_succ_self _
  apply h.step hgrounded (.create hb dir name)
  · intro i hi hdirectory
    rwa [← (Evolves.create (W := fun _ => True) hdir name b).isDirectory_eq hi]
  · intro i d d' n n' hi hlisted hlisted'
    obtain ⟨rfl, rfl⟩ := eq_of_mem_entries_create h.grounded hb hi hlisted
    obtain ⟨rfl, rfl⟩ := eq_of_mem_entries_create h.grounded hb hi hlisted'
    exact ⟨rfl, rfl⟩

/-! ## Trails of directories -/

/-- A trail that goes down from one directory to another, each hop from where the last one led. -/
def Descending : Ino → List Hop → Ino → Prop
  | dir, [], i => dir = i
  | dir, hop :: rest, i => hop.dir = dir ∧ Descending hop.node rest i

theorem Leads.descending {budget : Nat} {above : List Ino} {components : List Component}
    {trail : List Hop} (h : v.Leads i budget dir above components trail)
    (hnames : ∀ c ∈ components, ∃ name, c = .name name)
    (hdirectories : ∀ hop ∈ trail, v.isDirectory hop.node = true) : Descending dir trail i := by
  induction h with
  | here => rfl
  | current | parent =>
    obtain ⟨name, hname⟩ := hnames _ List.mem_cons_self
    cases hname
  | down _ _ _ _ ih =>
    refine ⟨rfl, ih ?_ ?_⟩
    · exact fun c hc => hnames c (List.mem_cons_of_mem _ hc)
    · exact fun hop hhop => hdirectories hop (List.mem_cons_of_mem _ hhop)
  | through _ _ hbody =>
    have hdirectory := hdirectories _ List.mem_cons_self
    rw [isDirectory, hbody] at hdirectory
    cases hdirectory

/-- A directory that is in the tree is where a trail of directories led to it, and so are they. -/
theorem stands_of_reaches (hv : v.Hierarchical) (hlater : v.Later v') {trail : List Hop}
    (hstands : v.Stands trail) (hdescending : Descending dir trail i)
    (hdirectories : ∀ hop ∈ trail, v.isDirectory hop.node = true) (hi : v'.Reaches top i) :
    v'.Stands trail ∧ v'.Reaches top dir := by
  -- the end of the trail is in the tree, so the directory it hangs in is, and so on upwards
  induction trail generalizing dir with
  | nil =>
    cases hdescending
    exact ⟨nofun, hi⟩
  | cons hop rest ih =>
    obtain ⟨rfl, hdescending⟩ := hdescending
    obtain ⟨hchild, hstands⟩ := List.forall_mem_cons.mp hstands
    obtain ⟨hdirectory, hdirectories⟩ := List.forall_mem_cons.mp hdirectories
    obtain ⟨hrest, hreaches⟩ := ih hstands hdescending hdirectories
    have hlisted := mem_entries_of_child? hchild
    have hlt := hv.grounded.lt_size _ _ ⟨_, hlisted⟩
    rcases Relation.ReflTransGen.cases_tail hreaches with htop | ⟨dir, hdir, name, hnow⟩
    · rw [htop] at hlisted
      exact absurd ⟨_, hlisted⟩ (hv.not_lists_top hop.dir)
    · -- where it is listed now is where it was listed then
      obtain ⟨rfl, rfl⟩ := hv.unique _ _ _ _ _ hdirectory (hlater.listed _ _ _ hlt hnow) hlisted
      exact ⟨List.forall_mem_cons.mpr ⟨hlater.child _ _ _ hlt hchild hnow, hrest⟩, hdir⟩

end Volume

/-! ## Runs -/

namespace World

variable {w : World}

theorem call_hierarchical (hw : w.Reachable) (h : w.volume.Hierarchical) (c : Call) :
    (w.call c).2.volume.Hierarchical :=
  h.edit (w.call_transition c).volume (call_evolves hw.sound c)

theorem run_hierarchical (hw : w.Reachable) (h : w.volume.Hierarchical) (calls : List Call) :
    (w.run calls).volume.Hierarchical := by
  induction calls generalizing w with
  | nil => exact h
  | cons c rest ih => exact ih (hw.call c) (call_hierarchical hw h c)

theorem run_later (w : World) (calls : List Call) : w.volume.Later (w.run calls).volume := by
  induction calls generalizing w with
  | nil => exact .refl _
  | cons c rest ih => exact (w.call_transition c).volume.later.trans (ih _)

end World

end Hostcall
