import Hostcall.Proofs.Following

/-!
# What a node may become

A call gives a file other contents only where it writes or empties it.  Directories stay
directories, named pipes stay named pipes, and links, sockets and devices stay what they are.

* `Body.Evolves` and `Volume.Evolves` are that relation, for one node and for all that exist;
* `Lookup.walk_vacant` says that a lookup finds a free name in a directory only;
* `World.Alters` is what a call may give other contents, and `World.call_evolves` says that it
  does so to nothing else.
-/

namespace Hostcall

/-! ## Bodies -/

/-- What a body may become if a file may get other contents or not. -/
inductive Body.Evolves (altered : Prop) : Body → Body → Prop where
  | same (b : Body) : Evolves altered b b
  | directory (entries entries' : List (Name × Ino)) :
      Evolves altered (.directory entries) (.directory entries')
  | fifo (queue queue' : Fifo) : Evolves altered (.fifo queue) (.fifo queue')
  | file (h : altered) (c c' : Content) : Evolves altered (.file c) (.file c')

namespace Body.Evolves

variable {P Q : Prop} {b b' b'' : Body}

theorem mono (h : b.Evolves P b') (hPQ : P → Q) : b.Evolves Q b' := by
  cases h with
  | same => exact .same _
  | directory => exact .directory _ _
  | fifo => exact .fifo _ _
  | file h => exact .file (hPQ h) _ _

theorem trans (h : b.Evolves P b') (h' : b'.Evolves P b'') : b.Evolves P b'' := by
  cases h with
  | same => exact h'
  | directory => cases h' <;> exact .directory _ _
  | fifo => cases h' <;> exact .fifo _ _
  | file h => cases h' <;> exact .file h _ _

theorem isDirectory_eq (h : b.Evolves P b') : b'.isDirectory = b.isDirectory := by
  cases h <;> rfl

theorem link (h : b.Evolves P b') {target : Bytes} (hb : b = .link target) : b' = .link target := by
  subst hb
  cases h
  rfl

theorem file_eq (h : b.Evolves P b') {c : Content} (hb : b = .file c) (hnot : ¬ P) :
    b' = .file c := by
  subst hb
  cases h with
  | same => rfl
  | file h => exact absurd h hnot

end Body.Evolves

/-! ## Volumes -/

/-- No node is lost, and those that were there became what they may become. -/
structure Volume.Evolves (W : Ino → Prop) (v v' : Volume) : Prop where
  size_le : v.nodes.size ≤ v'.nodes.size
  body : ∀ i, i < v.nodes.size → (v.body i).Evolves (W i) (v'.body i)

namespace Volume

variable {W : Ino → Prop} {v v' : Volume} {i dir : Ino} {name : Name} {b : Body}

theorem exists_directory (h : v.isDirectory dir = true) :
    ∃ entries, v.body dir = .directory entries := by
  rw [isDirectory] at h
  cases hbody : v.body dir with
  | directory entries => exact ⟨entries, rfl⟩
  | file | link | fifo | socket | device =>
    rw [hbody] at h
    cases h

namespace Evolves

theorem refl (v : Volume) : v.Evolves W v := ⟨Nat.le_refl _, fun _ _ => .same _⟩

theorem mono {W' : Ino → Prop} (h : v.Evolves W v') (hW : ∀ i, W i → W' i) : v.Evolves W' v' :=
  ⟨h.size_le, fun i hi => (h.body i hi).mono (hW i)⟩

theorem trans {v'' : Volume} (h : v.Evolves W v') (h' : v'.Evolves W v'') : v.Evolves W v'' := by
  refine ⟨Nat.le_trans h.size_le h'.size_le, fun i hi => ?_⟩
  exact (h.body i hi).trans (h'.body i (Nat.lt_of_lt_of_le hi h.size_le))

theorem isDirectory_eq (h : v.Evolves W v') (hi : i < v.nodes.size) :
    v'.isDirectory i = v.isDirectory i := (h.body i hi).isDirectory_eq

theorem replaceBody (hb : (v.body i).Evolves (W i) b) : v.Evolves W (v.replaceBody i b) := by
  refine ⟨by rw [size_replaceBody], fun j _ => ?_⟩
  rw [body_replaceBody]
  split
  case isTrue hj =>
    rw [hj.1]
    exact hb
  case isFalse => exact .same _

theorem setBody (hb : (v.body i).Evolves (W i) b) : v.Evolves W (v.setBody i b) := by
  refine ⟨by rw [size_setBody], fun j _ => ?_⟩
  rw [body_setBody]
  split
  case isTrue hj =>
    rw [hj.1]
    exact hb
  case isFalse => exact .same _

theorem setTimes (v : Volume) (i : Ino) (u : TimeUpdates) : v.Evolves W (v.setTimes i u) := by
  refine ⟨by rw [size_setTimes], fun j _ => ?_⟩
  rw [body_setTimes]
  exact .same _

theorem create (hdir : v.isDirectory dir = true) (name : Name) (b : Body) :
    v.Evolves W (v.create dir name b).2 := by
  obtain ⟨entries, hentries⟩ := exists_directory hdir
  refine ⟨by rw [size_create]; omega, fun j hj => ?_⟩
  rw [Volume.create, body_bind, body_push, if_neg (Nat.ne_of_lt hj)]
  split
  case isTrue h =>
    rw [h.1, hentries]
    exact .directory _ _
  case isFalse => exact .same _

theorem unbind (hdir : v.isDirectory dir = true) (name : Name) (i : Ino) :
    v.Evolves W (v.unbind dir name i) := by
  obtain ⟨entries, hentries⟩ := exists_directory hdir
  refine ⟨by rw [size_unbind], fun j _ => ?_⟩
  rw [body_unbind]
  split
  case isTrue h =>
    rw [h.1, hentries]
    exact .directory _ _
  case isFalse => exact .same _

end Evolves

end Volume

/-! ## Lookups -/

/-- Whether a free name at the end of a lookup lies in a directory. -/
def Place.InDirectory (v : Volume) : Place → Prop
  | .node _ => True
  | .vacant dir _ => v.isDirectory dir = true

namespace Lookup

variable {v : Volume} {mode : Mode}

theorem scan_vacant {onLink : Ino → List Ino → Route → Answer} (hmode : mode.beneath = true)
    (hlink : ∀ dir above route place, v.isDirectory dir = true →
      (∀ a ∈ above, v.isDirectory a = true) →
      onLink dir above route = .ok place → place.InDirectory v)
    {components : List Component} {dir : Ino} {above : List Ino} {slashed : Bool} {place : Place}
    (hdir : v.isDirectory dir = true) (habove : ∀ a ∈ above, v.isDirectory a = true)
    (h : scan v mode onLink dir above components slashed = .ok place) : place.InDirectory v := by
  -- the ancestors are directories too, since a lookup may go back to any of them
  induction components generalizing dir above with
  | nil =>
    cases h
    trivial
  | cons component rest ih =>
    cases component with
    | current => exact ih hdir habove h
    | root =>
      rw [scan, if_pos hmode] at h
      cases h
    | parent =>
      cases above with
      | nil =>
        rw [scan, if_pos hmode] at h
        cases h
      | cons parent above =>
        apply ih (habove parent List.mem_cons_self) _ h
        intro a ha
        exact habove a (List.mem_cons_of_mem _ ha)
    | name name =>
      rw [scan] at h
      split at h
      · cases h
      split at h
      · cases h
      split at h
      case h_1 =>
        split at h
        · cases h
          exact hdir
        · cases h
      case h_2 i _ =>
        split at h
        case h_1 hbody =>
          apply ih _ _ h
          · simp [Volume.isDirectory, hbody, Body.isDirectory]
          · intro a ha
            rcases List.mem_cons.mp ha with rfl | ha
            · exact hdir
            · exact habove a ha
        case h_2 =>
          split at h
          · cases h
            trivial
          · exact hlink _ _ _ _ hdir habove h
        case h_3 =>
          split at h
          · cases h
            trivial
          · cases h

theorem walk_vacant (hmode : mode.beneath = true) {budget : Nat} {dir : Ino} {above : List Ino}
    {route : Route} {place : Place} (hdir : v.isDirectory dir = true)
    (habove : ∀ a ∈ above, v.isDirectory a = true)
    (h : walk v mode budget dir above route = .ok place) : place.InDirectory v := by
  induction budget generalizing dir above route place with
  | zero => exact scan_vacant hmode (by intros; contradiction) hdir habove h
  | succ budget ih =>
    exact scan_vacant hmode (fun _ _ _ _ hdir habove hlink => ih hdir habove hlink) hdir habove h

end Lookup

namespace Volume

variable {W : Ino → Prop} {v v' : Volume} {start i dir : Ino} {name : Name}

theorem locate_vacant {mode : Lookup.Mode} (hmode : mode.beneath = true)
    (hstart : v.isDirectory start = true) {l : Locator} {place : Place}
    (h : v.locate mode start l = .ok place) : place.InDirectory v := by
  rw [locate] at h
  split at h
  · cases h
  · exact Lookup.walk_vacant hmode hstart (by simp) h

theorem openDirectory_eq_ok {follow : Bool} {l : Locator}
    (h : v.openDirectory start follow l = .ok i) :
    v.locate ⟨true, follow, false⟩ start l = .ok (.node i) ∧ v.isDirectory i = true := by
  obtain ⟨place, hplace, h⟩ := bind_eq_ok.mp h
  cases place with
  | vacant dir name => cases h
  | node j =>
    rw [directoryAt] at h
    split at h
    case isTrue hj =>
      cases h
      exact ⟨hplace, hj⟩
    case isFalse => cases h

theorem parentOf_isDirectory (hstart : v.isDirectory start = true) {names : List Name}
    {last : Name} (h : v.parentOf start names last = .ok (dir, name)) :
    v.isDirectory dir = true := by
  obtain ⟨j, hj, h⟩ := map_eq_ok.mp h
  cases h
  rw [walkTo] at hj
  split at hj
  · cases hj
    exact hstart
  · exact (openDirectory_eq_ok hj).2

/-! ## Operations by path -/

theorem openExisting_evolves {r : OpenRequest} (hW : r.empties = true → W i) (ends : Ends) :
    v.Evolves W (v.openExisting r ends i) := by
  rw [openExisting]
  split
  case h_1 c hbody =>
    split
    case isTrue hempties =>
      apply Evolves.replaceBody
      rw [hbody]
      exact .file (hW hempties) _ _
    case isFalse => exact .refl v
  case h_2 queue hbody =>
    split
    · apply Evolves.setBody
      rw [hbody]
      exact .fifo _ _
    · exact .refl v
  case h_3 => exact .refl v

theorem openExisting_evolves_true (v : Volume) (r : OpenRequest) (ends : Ends) (i : Ino) :
    v.Evolves (fun _ => True) (v.openExisting r ends i) :=
  openExisting_evolves (fun _ => trivial) ends

/-- What is opened was found and may be opened, or it was created as a file. -/
theorem openFile_cases (hv : v.Grounded) (hstart : start < v.nodes.size) {ends : Ino → Ends}
    {l : Locator} {r : OpenRequest} (h : v.openFile ends start l r = .ok (i, v')) :
    (v.locate (r.mode true) start l = .ok (.node i) ∧ i < v.nodes.size ∧
      r.permits (ends i) (v.body i) = .ok () ∧ v' = v.openExisting r (ends i) i) ∨
    ∃ dir name, dir < v.nodes.size ∧ i = v.nodes.size ∧
      v' = (v.create dir name (.file .empty)).2 := by
  obtain ⟨_, -, h⟩ := bind_eq_ok.mp h
  obtain ⟨place, hplace, h⟩ := bind_eq_ok.mp h
  have hwithin : place.Within v (· < v.nodes.size) :=
    locate_within rfl hv.closed hstart hplace
  cases place with
  | node j =>
    obtain ⟨_, hpermits, h⟩ := bind_eq_ok.mp h
    cases h
    exact .inl ⟨hplace, hwithin, hpermits, rfl⟩
  | vacant dir name =>
    simp only [openPlace] at h
    split at h
    · cases h
      exact .inr ⟨dir, name, hwithin.1, rfl, rfl⟩
    · cases h

theorem openFile_evolves {r : OpenRequest} (hstart : v.isDirectory start = true)
    (hW : r.empties = true → ∀ i, W i) {ends : Ino → Ends} {l : Locator}
    (h : v.openFile ends start l r = .ok (i, v')) : v.Evolves W v' := by
  obtain ⟨_, -, h⟩ := bind_eq_ok.mp h
  obtain ⟨place, hplace, h⟩ := bind_eq_ok.mp h
  have hvacant := locate_vacant rfl hstart hplace
  cases place with
  | node j =>
    obtain ⟨_, -, h⟩ := bind_eq_ok.mp h
    cases h
    exact openExisting_evolves (fun hempties => hW hempties _) _
  | vacant dir name =>
    simp only [openPlace] at h
    split at h
    · cases h
      exact .create hvacant name _
    · cases h

theorem makeDirectory_evolves (hstart : v.isDirectory start = true) {names : List Name}
    (h : v.makeDirectory start names = .ok v') : v.Evolves W v' := by
  rw [makeDirectory] at h
  split at h
  case h_1 => cases h
  case h_2 last hlast =>
    obtain ⟨⟨dir, name⟩, hdir, h⟩ := bind_eq_ok.mp h
    obtain ⟨found, -, h⟩ := bind_eq_ok.mp h
    cases found with
    | some i => cases h
    | none =>
      simp only at h
      split at h
      · cases h
      · cases h
        exact .create (parentOf_isDirectory hstart hdir) name _

theorem removeDirectory_evolves (hstart : v.isDirectory start = true) {names : List Name}
    (h : v.removeDirectory start names = .ok v') : v.Evolves W v' := by
  rw [removeDirectory] at h
  split at h
  case h_1 => cases h
  case h_2 last hlast =>
    obtain ⟨⟨dir, name⟩, hdir, h⟩ := bind_eq_ok.mp h
    obtain ⟨i, -, h⟩ := bind_eq_ok.mp h
    split at h
    · cases h
      exact .unbind (parentOf_isDirectory hstart hdir) name i
    · cases h
    · cases h

theorem unlink_evolves (hstart : v.isDirectory start = true) {names : List Name}
    (h : v.unlink start names = .ok v') : v.Evolves W v' := by
  rw [unlink] at h
  split at h
  case h_1 => cases h
  case h_2 last hlast =>
    obtain ⟨⟨dir, name⟩, hdir, h⟩ := bind_eq_ok.mp h
    obtain ⟨i, -, h⟩ := bind_eq_ok.mp h
    split at h
    · cases h
    · cases h
      exact .unbind (parentOf_isDirectory hstart hdir) name i

theorem setTimesAt_evolves {ends : Ino → Ends} {l : Locator} {u : TimeUpdates}
    (h : v.setTimesAt ends start l u = .ok v') : v.Evolves W v' := by
  rw [setTimesAt] at h
  split at h
  case h_1 i opened hopen =>
    cases h
    -- what is opened for its times only is not emptied
    obtain ⟨rfl, -⟩ := openFile_forWriting (P := fun _ => True) (fun _ _ _ _ => trivial) trivial hopen
    exact .setTimes _ i u
  case h_2 =>
    obtain ⟨i, -, h⟩ := map_eq_ok.mp h
    cases h
    exact .setTimes v i u
  case h_3 => cases h

theorem setLinkTimes_evolves {l : Locator} {u : TimeUpdates}
    (h : v.setLinkTimes start l u = .ok v') : v.Evolves W v' := by
  rw [setLinkTimes] at h
  split at h
  case h_1 =>
    cases h
    exact .setTimes v start u
  case h_2 last hlast =>
    split at h
    · obtain ⟨i, -, h⟩ := bind_eq_ok.mp h
      cases h
      exact .setTimes v i u
    · obtain ⟨⟨dir, name⟩, -, h⟩ := bind_eq_ok.mp h
      simp only at h
      split at h
      · cases h
        exact .refl v
      · obtain ⟨i, -, h⟩ := bind_eq_ok.mp h
        cases h
        exact .setTimes v i u

end Volume

/-! ## Open files -/

namespace Handle

variable {W : Ino → Prop} {v v' : Volume} {h h' : Handle}

theorem read_evolves {ends : Ends} {sizes : List Nat} {taken : Bytes}
    (hread : h.read v ends sizes = .ok (taken, h', v')) : v.Evolves W v' := by
  simp only [read] at hread
  split at hread
  · cases hread
  split at hread
  · cases hread
    exact .refl v
  split at hread
  case h_1 =>
    split at hread
    · cases hread
    · cases hread
      exact .refl v
  case h_2 queue hbody =>
    split at hread
    · cases hread
      apply Volume.Evolves.setBody
      rw [hbody]
      exact .fifo _ _
    · split at hread
      · cases hread
        exact .refl v
      · cases hread
  case h_3 =>
    cases hread
    exact .refl v
  case h_4 => cases hread

theorem write_evolves (hW : W h.ino) {ends : Ends} {buffers : List Bytes} {count : Nat}
    (hwrite : h.write v ends buffers = .ok (count, h', v')) : v.Evolves W v' := by
  simp only [write] at hwrite
  split at hwrite
  · cases hwrite
  split at hwrite
  · cases hwrite
    exact .refl v
  split at hwrite
  case h_1 content hbody =>
    split at hwrite
    · cases hwrite
    split at hwrite
    · cases hwrite
    · cases hwrite
      apply Volume.Evolves.replaceBody
      rw [hbody]
      exact .file hW _ _
  case h_2 queue hbody =>
    split at hwrite
    · cases hwrite
    · split at hwrite
      · cases hwrite
      · cases hwrite
        apply Volume.Evolves.replaceBody
        rw [hbody]
        exact .fifo _ _
  case h_3 =>
    split at hwrite
    · cases hwrite
    · cases hwrite
      exact .refl v
  case h_4 => cases hwrite

theorem writeAt_evolves (hW : W h.ino) {buffers : List Bytes} {offset count : Nat}
    (hwrite : h.writeAt v buffers offset = .ok (count, v')) : v.Evolves W v' := by
  simp only [writeAt] at hwrite
  split at hwrite
  · cases hwrite
  split at hwrite
  case h_1 => cases hwrite
  case h_2 =>
    split at hwrite
    · cases hwrite
    split at hwrite
    · cases hwrite
      exact .refl v
    split at hwrite
    · cases hwrite
    split at hwrite
    case h_1 content hbody =>
      split at hwrite
      · cases hwrite
      · cases hwrite
        apply Volume.Evolves.replaceBody
        rw [hbody]
        exact .file hW _ _
    case h_2 =>
      split at hwrite
      · cases hwrite
      · cases hwrite
        exact .refl v
    case h_3 => cases hwrite

theorem setSize_evolves (hW : W h.ino) {size : Nat} (hsize : h.setSize v size = .ok v') :
    v.Evolves W v' := by
  rw [setSize] at hsize
  split at hsize
  · cases hsize
  split at hsize
  case h_1 content hbody =>
    split at hsize
    · cases hsize
      apply Volume.Evolves.replaceBody
      rw [hbody]
      exact .file hW _ _
    · cases hsize
  case h_2 => cases hsize

end Handle

/-! ## Calls -/

/-- The id that a call writes to, or whose size it sets. -/
def Call.writes? : Call → Option Nat
  | .fdWrite fd _ | .fdPwrite fd _ _ | .fdFilestatSetSize fd _ => some fd
  | _ => none

namespace World

variable {w : World}

/-- What a call may give other contents: the file it writes to, if the guest may write to it,
and any file if it opens a path to empty what is there. -/
def Alters (w : World) (c : Call) (i : Ino) : Prop :=
  (∃ fd e, c.writes? = some fd ∧ w.table.get? fd = some (.file e) ∧ e.handle.ino = i ∧
    e.access.contains Access.write = true) ∨
  ∃ o : Opening, c = o.call ∧ o.flags.contains OpenFlags.truncate = true

theorem alters_of_writes {c : Call} {fd : Nat} {e : FileEntry} (hc : c.writes? = some fd)
    (he : w.table.get? fd = some (.file e)) (hwrite : e.access.contains Access.write = true) :
    w.Alters c e.handle.ino := .inl ⟨fd, e, hc, he, rfl, hwrite⟩

theorem changed_evolves {W : Ino → Prop} {o : Outcome Volume}
    (h : ∀ v, o = .ok v → w.volume.Evolves W v) : w.volume.Evolves W (w.changed o).2.volume := by
  cases o with
  | ok v => exact h v rfl
  | error fault => exact .refl _

theorem fdRead_evolves {W : Ino → Prop} (w : World) (fd : Nat) (buffers : List Bytes) :
    w.volume.Evolves W (w.fdRead fd buffers).2.volume := by
  simp only [fdRead]
  split
  case h_1 => exact .refl _
  case h_2 => exact .refl _
  case h_3 => exact .refl _
  case h_4 e _ =>
    split
    case h_1 => exact .refl _
    case h_2 taken e' volume hread =>
      obtain ⟨-, handle, hhost, rfl⟩ := FileEntry.read_eq_ok hread
      exact Handle.read_evolves hhost

theorem fdWrite_evolves (w : World) (fd : Nat) (buffers : List Bytes) :
    w.volume.Evolves (w.Alters (.fdWrite fd buffers)) (w.fdWrite fd buffers).2.volume := by
  simp only [fdWrite]
  split
  case h_1 => exact .refl _
  case h_2 => exact .refl _
  case h_3 => exact .refl _
  case h_4 e hget =>
    split
    case h_1 => exact .refl _
    case h_2 count e' volume hwrite =>
      obtain ⟨haccess, handle, hhost, rfl⟩ := FileEntry.write_eq_ok hwrite
      have halters := alters_of_writes (c := .fdWrite fd buffers) rfl (Table.get?_of_get hget)
        haccess
      exact Handle.write_evolves halters hhost

theorem fdPwrite_evolves (w : World) (fd : Nat) (buffers : List Bytes) (offset : UInt64) :
    w.volume.Evolves (w.Alters (.fdPwrite fd buffers offset))
      (w.fdPwrite fd buffers offset).2.volume := by
  simp only [fdPwrite]
  split
  case h_1 => exact .refl _
  case h_2 => exact .refl _
  case h_3 => exact .refl _
  case h_4 e hget =>
    split
    case h_1 => exact .refl _
    case h_2 count volume hwrite =>
      obtain ⟨haccess, hhost⟩ := FileEntry.writeAt_eq_ok hwrite
      have halters := alters_of_writes (c := .fdPwrite fd buffers offset) rfl
        (Table.get?_of_get hget) haccess
      exact Handle.writeAt_evolves halters hhost

theorem fdFilestatSetSize_evolves (w : World) (fd : Nat) (size : UInt64) :
    w.volume.Evolves (w.Alters (.fdFilestatSetSize fd size))
      (w.fdFilestatSetSize fd size).2.volume := by
  apply changed_evolves
  intro v h
  obtain ⟨e, he, h⟩ := bind_eq_ok.mp h
  obtain ⟨_, hrequire, h⟩ := bind_eq_ok.mp h
  have halters := alters_of_writes (c := .fdFilestatSetSize fd size) rfl (get?_of_getFile he)
    (FileEntry.access_of_require hrequire)
  exact Handle.setSize_evolves halters (fromHost_eq_ok.mp h)

theorem fdFilestatSetTimes_evolves {W : Ino → Prop} (w : World) (fd : Nat)
    (request : TimeRequest) : w.volume.Evolves W (w.fdFilestatSetTimes fd request).2.volume := by
  apply changed_evolves
  intro v h
  obtain ⟨u, -, h⟩ := bind_eq_ok.mp h
  obtain ⟨d, -, h⟩ := bind_eq_ok.mp h
  cases d with
  | file e =>
    cases h
    exact .setTimes _ e.handle.ino u
  | directory d =>
    cases h
    exact .setTimes _ d.ino u
  | stdio => cases h

/-! ### Paths -/

theorem Sound.root_isDirectory (hw : w.Sound) {dirfd : Nat} {path : String} {r : Resolved}
    (hr : w.resolve dirfd path = .ok r) : w.volume.isDirectory r.preopen.root = true :=
  (hw.roots r.preopen (preopen_mem_of_resolve hr)).2

/-- What is done at a resolved path is done beneath a directory. -/
theorem changed_resolve_evolves {W : Ino → Prop} (hw : w.Sound) (dirfd : Nat) (path : String)
    {f : Resolved → Outcome Volume}
    (hf : ∀ r v, w.volume.isDirectory r.preopen.root = true → f r = .ok v → w.volume.Evolves W v) :
    w.volume.Evolves W (w.changed (w.resolve dirfd path >>= f)).2.volume := by
  apply changed_evolves
  intro v h
  obtain ⟨r, hr, h⟩ := bind_eq_ok.mp h
  exact hf r v (hw.root_isDirectory hr) h

theorem pathCreateDirectory_evolves {W : Ino → Prop} (hw : w.Sound) (dirfd : Nat)
    (path : String) : w.volume.Evolves W (w.pathCreateDirectory dirfd path).2.volume :=
  changed_resolve_evolves hw dirfd path fun _ _ hroot h =>
    Volume.makeDirectory_evolves hroot (fromHost_eq_ok.mp h)

theorem pathRemoveDirectory_evolves {W : Ino → Prop} (hw : w.Sound) (dirfd : Nat)
    (path : String) : w.volume.Evolves W (w.pathRemoveDirectory dirfd path).2.volume := by
  apply changed_resolve_evolves hw
  intro r v hroot h
  rw [Resolved.removeDirectory] at h
  split at h
  · cases h
  · exact Volume.removeDirectory_evolves hroot (fromHost_eq_ok.mp h)

theorem pathUnlinkFile_evolves {W : Ino → Prop} (hw : w.Sound) (dirfd : Nat) (path : String) :
    w.volume.Evolves W (w.pathUnlinkFile dirfd path).2.volume := by
  apply changed_resolve_evolves hw
  intro r v hroot h
  rw [Resolved.unlink] at h
  split at h
  · obtain ⟨_, -, h⟩ := bind_eq_ok.mp h
    cases h
  · exact Volume.unlink_evolves hroot (fromHost_eq_ok.mp h)

theorem pathFilestatSetTimes_evolves {W : Ino → Prop} (w : World) (dirfd : Nat)
    (lookup : LookupFlags) (path : String) (request : TimeRequest) :
    w.volume.Evolves W (w.pathFilestatSetTimes dirfd lookup path request).2.volume := by
  apply changed_evolves
  intro v h
  obtain ⟨u, -, h⟩ := bind_eq_ok.mp h
  obtain ⟨r, -, h⟩ := bind_eq_ok.mp h
  have h := fromHost_eq_ok.mp h
  split at h
  · exact Volume.setTimesAt_evolves h
  · exact Volume.setLinkTimes_evolves h

theorem openNode_evolves {W : Ino → Prop} {r : Resolved} {v : Volume} {ends : Ino → Ends}
    {follow : Bool} {flags : OpenFlags} {access : Access} {fdFlags : FdFlags}
    (hroot : v.isDirectory r.preopen.root = true)
    (hW : flags.contains OpenFlags.truncate = true → ∀ i, W i) :
    v.Evolves W (r.openNode v ends follow flags access fdFlags).2 := by
  rw [Resolved.openNode]
  split
  · exact .refl v
  split
  · split
    · exact .refl v
    · exact .refl v
  · rw [Resolved.openFile]
    split
    case h_1 => exact .refl v
    case h_2 i v' hopen =>
      have hempties : (Resolved.request follow flags access fdFlags).empties = true → ∀ i, W i := by
        intro h
        apply hW
        simp only [OpenRequest.empties, Resolved.request, Bool.and_eq_true] at h
        exact h.1
      have hevolves := Volume.openFile_evolves hroot hempties hopen
      split
      · exact hevolves
      · split
        · exact hevolves
        · exact hevolves

theorem call_opening_evolves (hw : w.Sound) (o : Opening) :
    w.volume.Evolves (w.Alters o.call) (w.call o.call).2.volume := by
  change w.volume.Evolves _ (w.pathOpen o.dirfd o.lookup o.path o.flags o.rights o.inheriting
    o.fdFlags).2.volume
  rw [pathOpen]
  split
  case h_1 => exact .refl _
  case h_2 r hr =>
    have halters : o.flags.contains OpenFlags.truncate = true → ∀ i, w.Alters o.call i :=
      fun htruncate i => .inr ⟨o, rfl, htruncate⟩
    have hroot := hw.root_isDirectory hr
    dsimp only
    split
    · exact openNode_evolves hroot halters
    · exact openNode_evolves hroot halters

/-! ### Every call -/

theorem fdClose_volume (w : World) (fd : Nat) : (w.fdClose fd).2.volume = w.volume := by
  simp only [fdClose]
  split
  case h_1 => rfl
  case h_2 d _ =>
    obtain ⟨s, hs⟩ := w.flushed_snd d
    rcases hstep : w.flushed d with ⟨_ | _, u⟩ <;> rw [hstep] at hs <;> subst hs <;> rfl

theorem fdRenumber_volume (w : World) (source target : Nat) :
    (w.fdRenumber source target).2.volume = w.volume := by
  rw [fdRenumber]
  obtain ⟨s, hs⟩ := w.flushedTarget_snd source target
  rcases hstep : w.flushedTarget source target with ⟨_ | _, u⟩ <;> rw [hstep] at hs <;>
    subst hs <;> rfl

theorem fdSeek_volume (w : World) (fd : Nat) (offset : Int64) (whence : Whence) :
    (w.fdSeek fd offset whence).2.volume = w.volume := by
  simp only [fdSeek]
  split
  · rfl
  split
  case h_1 => rfl
  case h_2 => rfl
  case h_3 => rfl
  case h_4 => split <;> rfl

theorem fdFdstatSetFlags_volume (w : World) (fd : Nat) (flags : FdFlags) :
    (w.fdFdstatSetFlags fd flags).2.volume = w.volume := by
  rw [fdFdstatSetFlags]
  split
  · rfl
  · split <;> rfl

/-- A call gives other contents to nothing but what it may alter, and leaves every node what it
is. -/
theorem call_evolves (hw : w.Sound) (c : Call) :
    w.volume.Evolves (w.Alters c) (w.call c).2.volume := by
  cases c with
  | fdWrite fd buffers => exact w.fdWrite_evolves fd buffers
  | fdPwrite fd buffers offset => exact w.fdPwrite_evolves fd buffers offset
  | fdFilestatSetSize fd size => exact w.fdFilestatSetSize_evolves fd size
  | fdFilestatSetTimes fd request => exact w.fdFilestatSetTimes_evolves fd request
  | fdRead fd buffers => exact w.fdRead_evolves fd buffers
  | pathCreateDirectory dirfd path => exact pathCreateDirectory_evolves hw dirfd path
  | pathFilestatSetTimes dirfd lookup path request =>
    exact w.pathFilestatSetTimes_evolves dirfd lookup path request
  | pathOpen dirfd lookup path flags rights inheriting fdFlags =>
    exact call_opening_evolves hw ⟨dirfd, lookup, path, flags, rights, inheriting, fdFlags⟩
  | pathRemoveDirectory dirfd path => exact pathRemoveDirectory_evolves hw dirfd path
  | pathUnlinkFile dirfd path => exact pathUnlinkFile_evolves hw dirfd path
  | fdClose fd =>
    rw [show (w.call (.fdClose fd)).2.volume = w.volume from w.fdClose_volume fd]
    exact .refl _
  | fdRenumber source target =>
    rw [show (w.call (.fdRenumber source target)).2.volume = w.volume from
      w.fdRenumber_volume source target]
    exact .refl _
  | fdSeek fd offset whence =>
    rw [show (w.call (.fdSeek fd offset whence)).2.volume = w.volume from
      w.fdSeek_volume fd offset whence]
    exact .refl _
  | fdTell fd =>
    rw [show (w.call (.fdTell fd)).2.volume = w.volume from w.fdSeek_volume fd 0 .current]
    exact .refl _
  | fdFdstatSetFlags fd flags =>
    rw [show (w.call (.fdFdstatSetFlags fd flags)).2.volume = w.volume from
      w.fdFdstatSetFlags_volume fd flags]
    exact .refl _
  | argsGet _ | argsSizesGet | environGet _ | environSizesGet | clockResGet _ | clockTimeGet _ _
  | fdDatasync _ | fdFdstatGet _ | fdFilestatGet _ | fdPread _ _ _ | fdPrestatGet _
  | fdPrestatDirName _ _ | fdReaddir _ _ _ | fdSync _ | pathFilestatGet _ _ _ | procExit _
  | randomGet _ => exact .refl _

/-- After a run every node that was there is still what it was. -/
theorem run_evolves (hw : w.Reachable) (calls : List Call) :
    w.volume.Evolves (fun _ => True) (w.run calls).volume := by
  induction calls generalizing w with
  | nil => exact .refl _
  | cons c rest ih =>
    have hcall : w.volume.Evolves (fun _ => True) (w.call c).2.volume :=
      (call_evolves hw.sound c).mono fun _ _ => trivial
    exact hcall.trans (ih (hw.call c))

end World

end Hostcall
