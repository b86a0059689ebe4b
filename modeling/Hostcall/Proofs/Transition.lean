import Hostcall.Call
import Hostcall.Proofs.Beneath
import Hostcall.Proofs.Table

/-!
# What one call can do

Every call of a guest makes at most one change of its table and one edit of the file
system, whatever it answers.

* `World.Touches` is what a guest may reach: the nodes its descriptors hold, and what
  lies at or beneath its preopens;
* `World.TableStep` lists the changes of the table, `World.Transition` adds the edit and
  what stays as it was;
* `World.call_transition` says so of every call, and `World.run_keeps` carries what calls keep
  through a run.
-/

namespace Hostcall

namespace World

variable {w : World}

/-- What a guest may reach. -/
def Touches (w : World) (i : Ino) : Prop :=
  (∃ fd e, w.table.get? fd = some (.file e) ∧ e.handle.ino = i) ∨
    (∃ fd d, w.table.get? fd = some (.directory d) ∧ d.ino = i) ∨
      ∃ p ∈ w.context.preopens, w.volume.Reaches p.root i

/-- What a resolved path may be opened as: the node lies at or beneath the preopen, or is
new. -/
inductive Opens (w : World) (r : Resolved) : Descriptor → Prop where
  | file {handle : Handle} {access : Access}
      (h : w.volume.Reaches r.preopen.root handle.ino ∨ handle.ino = w.volume.nodes.size) :
      Opens w r (.file ⟨handle, access⟩)
  | directory {i : Ino} (h : w.volume.Reaches r.preopen.root i ∨ i = w.volume.nodes.size) :
      Opens w r (.directory (.nested r.index r.place.names i))

/-- A change that a call makes to the table. -/
inductive TableStep (w : World) : DescriptorTable → Prop where
  | same : TableStep w w.table
  /-- The cursor or the flags of an open file change. -/
  | adjust {fd : Nat} {e : FileEntry} {handle : Handle} (he : w.table.get? fd = some (.file e))
      (hino : handle.ino = e.handle.ino) :
      TableStep w (w.table.update fd (.file (e.withHandle handle)))
  | bind {dirfd : Nat} {path : String} {r : Resolved} {d : Descriptor}
      (hr : w.resolve dirfd path = .ok r) (hd : w.Opens r d) : TableStep w (w.table.allocate d).2
  | close (fd : Nat) : TableStep w (w.table.close fd).2
  | renumber (source target : Nat) : TableStep w (w.table.renumber source target).2

/-- What holds of the descriptors of a table, of a file with another handle on its node, and
of what is opened, holds of the descriptors after a change. -/
theorem TableStep.forall {t : DescriptorTable} {Q : Descriptor → Prop} (h : w.TableStep t)
    (hheld : ∀ fd d, w.table.get? fd = some d → Q d)
    (hadjust : ∀ e handle, Q (.file e) → handle.ino = e.handle.ino →
      Q (.file (e.withHandle handle)))
    (hopens : ∀ dirfd path r d, w.resolve dirfd path = .ok r → w.Opens r d → Q d)
    {fd : Nat} {d : Descriptor} (hd : t.get? fd = some d) : Q d := by
  cases h with
  | same => exact hheld fd d hd
  | adjust he hino =>
    rw [Table.get?_update] at hd
    split at hd
    · cases hd
      exact hadjust _ _ (hheld _ _ he) hino
    · exact hheld fd d hd
  | bind hr ho =>
    rw [Table.get?_allocate] at hd
    split at hd
    · cases hd
      exact hopens _ _ _ _ hr ho
    · exact hheld fd d hd
  | close id =>
    rw [Table.get?_close] at hd
    split at hd
    · cases hd
    · exact hheld fd d hd
  | renumber source target =>
    obtain ⟨fd', hd⟩ := Table.get?_of_renumber hd
    exact hheld fd' d hd

/-- What a call makes of a world. -/
structure Transition (w w' : World) : Prop where
  preopens : w'.context.preopens = w.context.preopens
  peers : w'.host.peers = w.host.peers
  table : w.TableStep w'.table
  volume : w.volume.Edit w.Touches w'.volume

namespace Transition

theorem refl (w : World) : w.Transition w := ⟨rfl, rfl, .same, .same⟩

theorem ofVolume {v : Volume} (h : w.volume.Edit w.Touches v) : w.Transition (w.withVolume v) :=
  ⟨rfl, rfl, .same, h⟩

theorem ofTable {t : DescriptorTable} (h : w.TableStep t) : w.Transition (w.withTable t) :=
  ⟨rfl, rfl, h, .same⟩

theorem ofStreams (w : World) (s : Streams) : w.Transition (w.withStreams s) :=
  ⟨rfl, rfl, .same, .same⟩

theorem ofChanged {o : Outcome Volume} (h : ∀ v, o = .ok v → w.volume.Edit w.Touches v) :
    w.Transition (w.changed o).2 := by
  cases o with
  | ok v => exact ofVolume (h v rfl)
  | error fault => exact refl w

end Transition

/-! ## Closing and renumbering -/

theorem flushed_snd (w : World) (d : Descriptor) : ∃ s, (w.flushed d).2 = w.withStreams s := by
  cases d with
  | stdio e => exact ⟨_, rfl⟩
  | file e => exact ⟨w.host.streams, rfl⟩
  | directory d => exact ⟨w.host.streams, rfl⟩

theorem flushedTarget_snd (w : World) (source target : Nat) :
    ∃ s, (w.flushedTarget source target).2 = w.withStreams s := by
  rw [flushedTarget]
  split
  · split
    · exact w.flushed_snd _
    · exact ⟨w.host.streams, rfl⟩
  · exact ⟨w.host.streams, rfl⟩

theorem fdClose_transition (w : World) (fd : Nat) : w.Transition (w.fdClose fd).2 := by
  simp only [fdClose]
  split
  case h_1 => exact .refl w
  case h_2 d _ =>
    obtain ⟨s, hs⟩ := w.flushed_snd d
    rcases hstep : w.flushed d with ⟨_ | _, w'⟩
    · -- what cannot be flushed keeps its id
      rw [hstep] at hs
      subst hs
      exact .ofStreams w s
    · rw [hstep] at hs
      subst hs
      exact ⟨rfl, rfl, .close fd, .same⟩

theorem fdRenumber_transition (w : World) (source target : Nat) :
    w.Transition (w.fdRenumber source target).2 := by
  rw [fdRenumber]
  obtain ⟨s, hs⟩ := w.flushedTarget_snd source target
  rcases hstep : w.flushedTarget source target with ⟨_ | _, w'⟩
  · rw [hstep] at hs
    subst hs
    exact .ofStreams w s
  · rw [hstep] at hs
    subst hs
    exact ⟨rfl, rfl, .renumber source target, .same⟩

/-! ## Open files -/

theorem touches_of_file {fd : Nat} {e : FileEntry} (he : w.table.get? fd = some (.file e)) :
    w.Touches e.handle.ino := .inl ⟨fd, e, he, rfl⟩

theorem touches_of_directory {fd : Nat} {d : Directory}
    (hd : w.table.get? fd = some (.directory d)) : w.Touches d.ino := .inr (.inl ⟨fd, d, hd, rfl⟩)

theorem get?_of_getFile {fd : Nat} {e : FileEntry} (h : w.table.getFile fd = .ok e) :
    w.table.get? fd = some (.file e) := by
  obtain ⟨d, hd, h⟩ := bind_eq_ok.mp h
  cases d with
  | file e' =>
    cases h
    exact Table.get?_of_get hd
  | directory _ | stdio _ => cases h

theorem fdRead_transition (w : World) (fd : Nat) (buffers : List Bytes) :
    w.Transition (w.fdRead fd buffers).2 := by
  simp only [fdRead]
  split
  case h_1 => exact .refl w
  case h_2 => exact .refl w
  case h_3 => exact .ofStreams w _
  case h_4 e hget =>
    have he := Table.get?_of_get hget
    split
    case h_1 => exact .refl w
    case h_2 taken e' volume hread =>
      obtain ⟨-, handle, hhost, rfl⟩ := FileEntry.read_eq_ok hread
      obtain ⟨hedit, hino⟩ := Handle.read_edit (touches_of_file he) hhost
      exact ⟨rfl, rfl, .adjust he hino, hedit⟩

theorem fdWrite_transition (w : World) (fd : Nat) (buffers : List Bytes) :
    w.Transition (w.fdWrite fd buffers).2 := by
  simp only [fdWrite]
  split
  case h_1 => exact .refl w
  case h_2 => exact .refl w
  case h_3 => exact .ofStreams w _
  case h_4 e hget =>
    have he := Table.get?_of_get hget
    split
    case h_1 => exact .refl w
    case h_2 count e' volume hwrite =>
      obtain ⟨-, handle, hhost, rfl⟩ := FileEntry.write_eq_ok hwrite
      obtain ⟨hedit, hino⟩ := Handle.write_edit (touches_of_file he) hhost
      exact ⟨rfl, rfl, .adjust he hino, hedit⟩

theorem fdPwrite_transition (w : World) (fd : Nat) (buffers : List Bytes) (offset : UInt64) :
    w.Transition (w.fdPwrite fd buffers offset).2 := by
  simp only [fdPwrite]
  split
  case h_1 => exact .refl w
  case h_2 => exact .refl w
  case h_3 => exact .refl w
  case h_4 e hget =>
    split
    case h_1 => exact .refl w
    case h_2 count volume hwrite =>
      obtain ⟨-, hhost⟩ := FileEntry.writeAt_eq_ok hwrite
      exact .ofVolume (Handle.writeAt_edit (touches_of_file (Table.get?_of_get hget)) hhost)

theorem fdSeek_transition (w : World) (fd : Nat) (offset : Int64) (whence : Whence) :
    w.Transition (w.fdSeek fd offset whence).2 := by
  simp only [fdSeek]
  split
  case isTrue => exact .refl w
  case isFalse =>
    split
    case h_1 => exact .refl w
    case h_2 => exact .refl w
    case h_3 => exact .refl w
    case h_4 e hget =>
      split
      case h_1 => exact .refl w
      case h_2 position e' hseek =>
        obtain ⟨handle, hhost, rfl⟩ := FileEntry.seek_eq_ok hseek
        have hino := Handle.seek_ino hhost
        exact .ofTable (.adjust (Table.get?_of_get hget) hino)

theorem fdFdstatSetFlags_transition (w : World) (fd : Nat) (flags : FdFlags) :
    w.Transition (w.fdFdstatSetFlags fd flags).2 := by
  rw [fdFdstatSetFlags]
  split
  case h_1 => exact .refl w
  case h_2 e hget =>
    split
    case h_1 => exact .refl w
    case h_2 e' hset =>
      rw [FileEntry.setFlags] at hset
      split at hset
      · cases hset
      · cases hset
        exact .ofTable (.adjust (get?_of_getFile hget) rfl)

theorem fdFilestatSetSize_transition (w : World) (fd : Nat) (size : UInt64) :
    w.Transition (w.fdFilestatSetSize fd size).2 := by
  refine .ofChanged fun v h => ?_
  obtain ⟨e, he, h⟩ := bind_eq_ok.mp h
  obtain ⟨_, -, h⟩ := bind_eq_ok.mp h
  exact Handle.setSize_edit (touches_of_file (get?_of_getFile he)) (fromHost_eq_ok.mp h)

theorem fdFilestatSetTimes_transition (w : World) (fd : Nat) (request : TimeRequest) :
    w.Transition (w.fdFilestatSetTimes fd request).2 := by
  refine .ofChanged fun v h => ?_
  obtain ⟨u, -, h⟩ := bind_eq_ok.mp h
  obtain ⟨d, hd, h⟩ := bind_eq_ok.mp h
  have hget := Table.get?_of_get hd
  cases d with
  | file e =>
    cases h
    exact .times (touches_of_file hget)
  | directory d =>
    cases h
    exact .times (touches_of_directory hget)
  | stdio e => cases h

/-! ## Paths -/

theorem preopen_mem_of_resolve {dirfd : Nat} {path : String} {r : Resolved}
    (hr : w.resolve dirfd path = .ok r) : r.preopen ∈ w.context.preopens := by
  obtain ⟨d, -, hr⟩ := bind_eq_ok.mp hr
  split at hr
  case h_1 => cases hr
  case h_2 preopen hpreopen =>
    obtain ⟨place, -, hr⟩ := bind_eq_ok.mp hr
    cases hr
    exact List.mem_of_getElem? hpreopen

theorem touches_of_resolve {dirfd : Nat} {path : String} {r : Resolved}
    (hr : w.resolve dirfd path = .ok r) (i : Ino) (hi : w.volume.Reaches r.preopen.root i) :
    w.Touches i := .inr (.inr ⟨r.preopen, preopen_mem_of_resolve hr, hi⟩)

theorem pathCreateDirectory_transition (w : World) (dirfd : Nat) (path : String) :
    w.Transition (w.pathCreateDirectory dirfd path).2 := by
  refine .ofChanged fun v h => ?_
  obtain ⟨r, hr, h⟩ := bind_eq_ok.mp h
  exact (Volume.makeDirectory_edit (Volume.closed_reaches _ _) .refl (fromHost_eq_ok.mp h)).mono
    (touches_of_resolve hr)

theorem pathRemoveDirectory_transition (w : World) (dirfd : Nat) (path : String) :
    w.Transition (w.pathRemoveDirectory dirfd path).2 := by
  refine .ofChanged fun v h => ?_
  obtain ⟨r, hr, h⟩ := bind_eq_ok.mp h
  rw [Resolved.removeDirectory] at h
  split at h
  · cases h
  · exact (Volume.removeDirectory_edit (Volume.closed_reaches _ _) .refl
      (fromHost_eq_ok.mp h)).mono (touches_of_resolve hr)

theorem pathUnlinkFile_transition (w : World) (dirfd : Nat) (path : String) :
    w.Transition (w.pathUnlinkFile dirfd path).2 := by
  refine .ofChanged fun v h => ?_
  obtain ⟨r, hr, h⟩ := bind_eq_ok.mp h
  rw [Resolved.unlink] at h
  split at h
  · obtain ⟨_, -, h⟩ := bind_eq_ok.mp h
    cases h
  · exact (Volume.unlink_edit (Volume.closed_reaches _ _) .refl (fromHost_eq_ok.mp h)).mono
      (touches_of_resolve hr)

theorem pathFilestatSetTimes_transition (w : World) (dirfd : Nat) (lookup : LookupFlags)
    (path : String) (request : TimeRequest) :
    w.Transition (w.pathFilestatSetTimes dirfd lookup path request).2 := by
  refine .ofChanged fun v h => ?_
  obtain ⟨u, -, h⟩ := bind_eq_ok.mp h
  obtain ⟨r, hr, h⟩ := bind_eq_ok.mp h
  have h := fromHost_eq_ok.mp h
  split at h
  · exact (Volume.setTimesAt_edit (Volume.closed_reaches _ _) .refl h).mono
      (touches_of_resolve hr)
  · exact (Volume.setLinkTimes_edit (Volume.closed_reaches _ _) .refl h).mono
      (touches_of_resolve hr)

/-- What opening a resolved path makes of the volume, and what it gives. -/
theorem openNode_transition {r : Resolved} {ends : Ino → Ends} {follow : Bool} {flags : OpenFlags}
    {access : Access} {fdFlags : FdFlags} {opened : Outcome Descriptor} {v : Volume}
    (h : r.openNode w.volume ends follow flags access fdFlags = (opened, v)) :
    w.volume.Edit (w.volume.Reaches r.preopen.root) v ∧ ∀ d, opened = .ok d → w.Opens r d := by
  have hclosed := Volume.closed_reaches w.volume r.preopen.root
  rw [Resolved.openNode] at h
  split at h
  · cases h
    exact ⟨.same, nofun⟩
  · split at h
    · -- asked for as a directory, which nothing creates
      split at h
      · cases h
        exact ⟨.same, nofun⟩
      · cases h
        refine ⟨.same, fun d hd => ?_⟩
        obtain ⟨i, hi, hd⟩ := bind_eq_ok.mp hd
        cases hd
        exact .directory (.inl (Volume.openDirectory_within hclosed .refl (fromHost_eq_ok.mp hi)))
    · rw [Resolved.openFile] at h
      split at h
      case h_1 =>
        cases h
        exact ⟨.same, nofun⟩
      case h_2 i v' hopen =>
        obtain ⟨hedit, hi⟩ := Volume.openFile_edit hclosed .refl hopen
        -- from here on the edit is made, also if what was opened is refused
        split at h
        · cases h
          refine ⟨hedit, fun d hd => ?_⟩
          cases hd
          exact .directory hi
        · split at h
          · cases h
            exact ⟨hedit, nofun⟩
          · cases h
            refine ⟨hedit, fun d hd => ?_⟩
            cases hd
            exact .file hi

theorem pathOpen_transition (w : World) (dirfd : Nat) (lookup : LookupFlags) (path : String)
    (flags : OpenFlags) (rights inheriting : Rights) (fdFlags : FdFlags) :
    w.Transition (w.pathOpen dirfd lookup path flags rights inheriting fdFlags).2 := by
  rw [pathOpen]
  split
  case h_1 => exact .refl w
  case h_2 r hr =>
    rcases hopen : r.openNode w.volume w.ends (lookup.contains LookupFlags.symlinkFollow) flags
      (Access.ofRights rights) fdFlags with ⟨opened, v⟩
    obtain ⟨hedit, hopens⟩ := openNode_transition hopen
    have htouched := hedit.mono (touches_of_resolve hr)
    cases opened with
    | error fault => exact .ofVolume htouched
    | ok d => exact ⟨rfl, rfl, .bind hr (hopens d rfl), htouched⟩

/-! ## Every call -/

/-- Whatever a call asks and whether or not it fails, it is one transition. -/
theorem call_transition (w : World) (c : Call) : w.Transition (w.call c).2 := by
  cases c with
  | fdClose fd => exact w.fdClose_transition fd
  | fdFdstatSetFlags fd flags => exact w.fdFdstatSetFlags_transition fd flags
  | fdFilestatSetSize fd size => exact w.fdFilestatSetSize_transition fd size
  | fdFilestatSetTimes fd request => exact w.fdFilestatSetTimes_transition fd request
  | fdPwrite fd buffers offset => exact w.fdPwrite_transition fd buffers offset
  | fdRead fd buffers => exact w.fdRead_transition fd buffers
  | fdRenumber source target => exact w.fdRenumber_transition source target
  | fdSeek fd offset whence => exact w.fdSeek_transition fd offset whence
  | fdTell fd => exact w.fdSeek_transition fd 0 .current
  | fdWrite fd buffers => exact w.fdWrite_transition fd buffers
  | pathCreateDirectory dirfd path => exact w.pathCreateDirectory_transition dirfd path
  | pathFilestatSetTimes dirfd lookup path request =>
    exact w.pathFilestatSetTimes_transition dirfd lookup path request
  | pathOpen dirfd lookup path flags rights inheriting fdFlags =>
    exact w.pathOpen_transition dirfd lookup path flags rights inheriting fdFlags
  | pathRemoveDirectory dirfd path => exact w.pathRemoveDirectory_transition dirfd path
  | pathUnlinkFile dirfd path => exact w.pathUnlinkFile_transition dirfd path
  | randomGet buffer => exact ⟨rfl, rfl, .same, .same⟩
  -- the others only ask
  | argsGet _ | argsSizesGet | environGet _ | environSizesGet | clockResGet _ | clockTimeGet _ _
  | fdDatasync _ | fdFdstatGet _ | fdFilestatGet _ | fdPread _ _ _ | fdPrestatGet _
  | fdPrestatDirName _ _ | fdReaddir _ _ _ | fdSync _ | pathFilestatGet _ _ _ | procExit _ =>
    exact .refl w

/-- What every call keeps, a run keeps. -/
theorem run_keeps {P : World → Prop} (hcall : ∀ w c, P w → P (w.call c).2) (h : P w)
    (calls : List Call) : P (w.run calls) := by
  induction calls generalizing w with
  | nil => exact h
  | cons c rest ih => exact ih (hcall w c h)

theorem run_preopens (w : World) (calls : List Call) :
    (w.run calls).context.preopens = w.context.preopens := by
  refine run_keeps (P := fun w' => w'.context.preopens = w.context.preopens) ?_ rfl calls
  intro w' c h
  rw [(w'.call_transition c).preopens, h]

end World

end Hostcall
