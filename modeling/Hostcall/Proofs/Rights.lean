import Hostcall.Proofs.Authority
import Hostcall.Proofs.Disclosure
import Hostcall.Proofs.Evolution

/-!
# Rights of open files

What a guest asked for when it opened a file is what it may do with the file, wherever the
descriptor is moved and however wide the host's own handle is.

* `World.Furnished.file_opening` says where a file descriptor comes from, and `World.OpenedBy.file`
  what it carries of its opening;
* `World.Refused` is a call that is answered with a bad descriptor and does nothing;
* `World.read_refused_iff` and `World.write_refused_iff` say which transfers are refused;
* `World.run_rights` is confinement to rights for a guest as its builder left it.
-/

namespace Hostcall

/-! ## Rights and access -/

theorem Access.contains_read_ofRights (r : Rights) :
    (Access.ofRights r).contains Access.read = r.contains Rights.fdRead := by
  simp only [Access.ofRights]
  cases r.contains Rights.fdRead <;> cases r.contains Rights.fdWrite <;> rfl

theorem Access.contains_write_ofRights (r : Rights) :
    (Access.ofRights r).contains Access.write = r.contains Rights.fdWrite := by
  simp only [Access.ofRights]
  cases r.contains Rights.fdRead <;> cases r.contains Rights.fdWrite <;> rfl

theorem Rights.contains_fdRead_ofAccess (a : Access) :
    (Rights.ofAccess a).contains Rights.fdRead = a.contains Access.read := by
  simp only [Rights.ofAccess]
  cases a.contains Access.read <;> cases a.contains Access.write <;> rfl

theorem Rights.contains_fdWrite_ofAccess (a : Access) :
    (Rights.ofAccess a).contains Rights.fdWrite = a.contains Access.write := by
  simp only [Rights.ofAccess]
  cases a.contains Access.read <;> cases a.contains Access.write <;> rfl

/-! ## What a file is opened as -/

/-- Whether bytes can be moved in and out of a node. -/
def Body.holdsBytes : Body → Bool
  | .file _ | .fifo _ | .device _ => true
  | _ => false

theorem Body.Evolves.holdsBytes_eq {P : Prop} {b b' : Body} (h : b.Evolves P b') :
    b'.holdsBytes = b.holdsBytes := by
  cases h <;> rfl

/-- A file under the rights it was opened with: the access says what was asked for, and the
host's handle allows at least that. -/
structure FileEntry.Under (rights : Rights) (e : FileEntry) : Prop where
  access : e.access = Access.ofRights rights
  readable : rights.contains Rights.fdRead = true → e.handle.readable = true
  writable : rights.contains Rights.fdWrite = true → e.handle.writable = true

theorem FileEntry.Under.of_opened {rights : Rights} {e e' : FileEntry} (h : e.Under rights)
    (hopened : (Descriptor.file e').opened = (Descriptor.file e).opened) : e'.Under rights := by
  obtain ⟨⟨ino, readable, writable, append, nonblock, cursor⟩, access⟩ := e
  obtain ⟨⟨ino', readable', writable', append', nonblock', cursor'⟩, access'⟩ := e'
  simp only [Descriptor.opened, FileEntry.withHandle, Handle.opened, Descriptor.file.injEq,
    FileEntry.mk.injEq, Handle.mk.injEq] at hopened
  obtain ⟨⟨-, rfl, rfl, -⟩, rfl⟩ := hopened
  exact ⟨h.access, h.readable, h.writable⟩

theorem FileEntry.ino_eq_of_opened {e e' : FileEntry}
    (hopened : (Descriptor.file e').opened = (Descriptor.file e).opened) :
    e'.handle.ino = e.handle.ino := by
  simp only [Descriptor.opened, FileEntry.withHandle, Handle.opened, Descriptor.file.injEq,
    FileEntry.mk.injEq, Handle.mk.injEq] at hopened
  exact hopened.1.1

namespace Volume

variable {v v' : Volume} {start i : Ino}

theorem holdsBytes_of_permits {r : OpenRequest} {ends : Ends} (h : r.permits ends (v.body i) = .ok ())
    (hnot : v.isDirectory i = false) : (v.body i).holdsBytes = true := by
  rw [isDirectory] at hnot
  cases hbody : v.body i with
  | file | fifo | device => rfl
  | directory =>
    rw [hbody] at hnot
    cases hnot
  | link | socket =>
    -- neither can be opened at all
    rw [hbody, OpenRequest.permits] at h
    split at h
    · cases h
    · split at h <;> cases h

/-- What is opened and is no directory is there and holds bytes. -/
theorem openFile_holdsBytes (hv : v.Grounded) (hstart : start < v.nodes.size) {ends : Ino → Ends}
    {l : Locator} {r : OpenRequest} (h : v.openFile ends start l r = .ok (i, v'))
    (hnot : v'.isDirectory i = false) :
    i < v'.nodes.size ∧ (v'.body i).holdsBytes = true := by
  rcases openFile_cases hv hstart h with ⟨-, hlt, hpermits, rfl⟩ | ⟨dir, name, hdir, rfl, rfl⟩
  · have hevolves := v.openExisting_evolves_true r (ends i) i
    rw [hevolves.isDirectory_eq hlt] at hnot
    refine ⟨Nat.lt_of_lt_of_le hlt hevolves.size_le, ?_⟩
    rw [(hevolves.body i hlt).holdsBytes_eq]
    exact holdsBytes_of_permits hpermits hnot
  · rw [body_create_self hdir, size_create]
    exact ⟨Nat.lt_succ_self _, rfl⟩

end Volume

/-- What is opened and is a file is under the rights that were asked for and holds bytes. -/
theorem Resolved.openNode_file {r : Resolved} {v v' : Volume} {ends : Ino → Ends} {follow : Bool}
    {flags : OpenFlags} {rights : Rights} {fdFlags : FdFlags} {e : FileEntry} (hv : v.Grounded)
    (hroot : r.preopen.root < v.nodes.size)
    (h : r.openNode v ends follow flags (Access.ofRights rights) fdFlags = (.ok (.file e), v')) :
    e.Under rights ∧ e.handle.ino < v'.nodes.size ∧ (v'.body e.handle.ino).holdsBytes = true := by
  rw [Resolved.openNode] at h
  split at h
  · cases h
  split at h
  · split at h
    · cases h
    · obtain ⟨i, -, h⟩ := bind_eq_ok.mp (congrArg Prod.fst h)
      cases h
  · rw [Resolved.openFile] at h
    split at h
    case h_1 => cases h
    case h_2 i u hopen =>
      split at h
      · cases h
      case isFalse hnot =>
        split at h
        · cases h
        · cases h
          have hfile := Volume.openFile_holdsBytes hv hroot hopen (Bool.eq_false_iff.mpr hnot)
          refine ⟨⟨rfl, ?_, ?_⟩, hfile⟩
          · intro hread
            simp [OpenRequest.handle, Resolved.request, Access.contains_read_ofRights, hread]
          · intro hwrite
            simp [OpenRequest.handle, OpenRequest.writes, Resolved.request,
              Access.contains_write_ofRights, hwrite]

/-! ## Where a file descriptor comes from -/

/-- A file that the host gives is under the rights of its opening and holds bytes. -/
theorem Opening.Gives.file {w : World} {o : Opening} {e : FileEntry} (hw : w.Sound)
    (h : o.Gives w (.file e)) :
    e.Under o.rights ∧ e.handle.ino < (w.call o.call).2.volume.nodes.size ∧
      ((w.call o.call).2.volume.body e.handle.ino).holdsBytes = true := by
  obtain ⟨r, hr, hopened⟩ := h
  rcases hnode : r.openNode w.volume w.ends (o.lookup.contains LookupFlags.symlinkFollow) o.flags
    (Access.ofRights o.rights) o.fdFlags with ⟨opened, v⟩
  rw [hnode] at hopened
  obtain rfl : opened = .ok (.file e) := hopened
  have hvolume : (w.call o.call).2.volume = v := by
    simp only [Opening.call, World.call, World.changing, World.pathOpen, hr, hnode]
    rfl
  have hroot := (hw.roots r.preopen (World.preopen_mem_of_resolve hr)).1
  rw [hvolume]
  exact Resolved.openNode_file hw.grounded hroot hnode

namespace World

variable {w : World} {fd : Nat} {calls before : List Call} {o : Opening} {e : FileEntry}

/-- A file is under the rights it was opened with wherever it is now, and still holds bytes. -/
theorem OpenedBy.file (hw : w.Reachable) (h : w.OpenedBy calls fd before o)
    (he : (w.run calls).table.get? fd = some (.file e)) :
    e.Under o.rights ∧ ((w.run calls).volume.body e.handle.ino).holdsBytes = true := by
  obtain ⟨after, id, rfl, hanswer, hfollow⟩ := h
  obtain ⟨x, hgives, -, htable⟩ := call_opening hanswer
  have hx : ((w.run before).call o.call).2.table.get? id = some x := by
    rw [htable, Function.update_self]
  have hthen := (hw.run before).call o.call
  obtain ⟨y, hy, hopened⟩ := get?_follow hthen hx hfollow
  rw [run_append] at he ⊢
  obtain rfl : Descriptor.file e = y := Option.some.inj (he.symm.trans hy)
  cases x with
  | directory _ | stdio _ => cases hopened
  | file e₀ =>
    obtain ⟨hunder, hlt, hbytes⟩ := hgives.file (hw.run before).sound
    have hino : e.handle.ino = e₀.handle.ino := FileEntry.ino_eq_of_opened hopened
    -- what the node is has not changed since
    have hevolves := (run_evolves hthen after).body e₀.handle.ino hlt
    refine ⟨hunder.of_opened hopened, ?_⟩
    rw [hino]
    exact hevolves.holdsBytes_eq.trans hbytes

/-- A guest as its builder left it has no files, so every file was opened in the run. -/
theorem Furnished.file_opening {host : Host} {settings : List Setting} (hw : w.Reachable)
    (h : w.Furnished host settings) (he : (w.run calls).table.get? fd = some (.file e)) :
    ∃ before o, w.OpenedBy calls fd before o := by
  rcases run_origin hw calls he with ⟨id, y, hy, hfollow⟩ | hopening
  · have hinstalled := h.descriptors id y hy
    obtain ⟨z, hz, hopened⟩ := get?_follow hw hy hfollow
    rw [he] at hz
    cases hz
    cases y with
    | file _ => exact hinstalled.elim
    | directory _ | stdio _ => cases hopened
  · exact hopening

end World

/-! ## Refusals -/

section

variable {α β : Type} {o : Outcome α}

/-- The answer that a descriptor is bad. -/
def BadDescriptor (o : Outcome α) : Prop :=
  ∃ fault, o = .error fault ∧ fault.errno? = some .badFileDescriptor

theorem not_badDescriptor_ok (a : α) : ¬ BadDescriptor (.ok a) := by
  rintro ⟨_, h, -⟩
  cases h

theorem badDescriptor_error_iff {fault : Fault} :
    BadDescriptor (.error fault : Outcome α) ↔ fault.errno? = some .badFileDescriptor := by
  simp [BadDescriptor]

theorem not_badDescriptor_of_error {fault : Fault} (h : ¬ BadDescriptor o)
    (ho : o = .error fault) : ¬ BadDescriptor (.error fault : Outcome β) := by
  rw [ho, badDescriptor_error_iff] at h
  exact mt badDescriptor_error_iff.mp h

theorem badDescriptor_map_iff {f : α → β} : BadDescriptor (o.map f) ↔ BadDescriptor o := by
  cases o <;> simp [BadDescriptor, Except.map]

theorem not_badDescriptor_bind {f : α → Outcome β} (ho : ¬ BadDescriptor o)
    (hf : ∀ a, ¬ BadDescriptor (f a)) : ¬ BadDescriptor (o >>= f) := by
  cases o with
  | ok a => exact hf a
  | error fault =>
    rintro ⟨_, h, hfault⟩
    cases h
    exact ho ⟨_, rfl, hfault⟩

theorem not_badDescriptor_ofHost {e : HostError} (h : e.errno? ≠ some .badFileDescriptor) :
    ¬ BadDescriptor (fromHost (.error e) : Outcome α) := by
  rintro ⟨_, hfault, herrno⟩
  cases hfault
  simp only [Fault.ofHost] at herrno
  split at herrno
  case h_1 errno he =>
    cases herrno
    exact h he
  case h_2 => split at herrno <;> cases herrno

theorem not_badDescriptor_countOf (n : Nat) : ¬ BadDescriptor (countOf n) := by
  rw [countOf]
  split
  · exact not_badDescriptor_ok _
  · rintro ⟨_, h, herrno⟩
    cases h
    cases herrno

theorem not_badDescriptor_inBuffers (buffers : List Bytes) (taken : Bytes) :
    ¬ BadDescriptor (World.inBuffers buffers taken) := by
  rw [World.inBuffers, badDescriptor_map_iff]
  exact not_badDescriptor_countOf _

end

/-! ### Handles -/

namespace Handle

variable {v : Volume} {h : Handle}

theorem not_badDescriptor_read (hreadable : h.readable = true) (ends : Ends) (sizes : List Nat) :
    ¬ BadDescriptor (fromHost (h.read v ends sizes)) := by
  simp only [read, hreadable]
  split
  case isTrue hnot => cases hnot
  split
  · exact not_badDescriptor_ok _
  split
  case h_1 =>
    split
    · exact not_badDescriptor_ofHost (by decide)
    · exact not_badDescriptor_ok _
  case h_2 =>
    split
    · exact not_badDescriptor_ok _
    · split
      · exact not_badDescriptor_ok _
      · exact not_badDescriptor_ofHost (by decide)
  case h_3 => exact not_badDescriptor_ok _
  case h_4 => exact not_badDescriptor_ofHost (by decide)

theorem not_badDescriptor_readAt (hreadable : h.readable = true) (sizes : List Nat)
    (offset : Nat) : ¬ BadDescriptor (fromHost (h.readAt v sizes offset)) := by
  simp only [readAt, hreadable]
  split
  · exact not_badDescriptor_ofHost (by decide)
  split
  case h_1 => exact not_badDescriptor_ofHost (by decide)
  case h_2 =>
    split
    case isTrue hnot => cases hnot
    split
    · exact not_badDescriptor_ok _
    split
    · exact not_badDescriptor_ofHost (by decide)
    split
    case h_1 => exact not_badDescriptor_ok _
    case h_2 => exact not_badDescriptor_ok _
    case h_3 => exact not_badDescriptor_ofHost (by decide)

theorem not_badDescriptor_write (hwritable : h.writable = true)
    (hbytes : (v.body h.ino).holdsBytes = true) (ends : Ends) (buffers : List Bytes) :
    ¬ BadDescriptor (fromHost (h.write v ends buffers)) := by
  simp only [write, hwritable]
  split
  case isTrue hnot => cases hnot
  split
  · exact not_badDescriptor_ok _
  generalize v.body h.ino = b at hbytes ⊢
  cases b with
  | file content =>
    dsimp only
    split
    · exact not_badDescriptor_ofHost (by decide)
    · split
      · exact not_badDescriptor_ofHost (by decide)
      · exact not_badDescriptor_ok _
  | fifo queue =>
    dsimp only
    split
    · exact not_badDescriptor_ofHost (by decide)
    · split
      · exact not_badDescriptor_ofHost (by decide)
      · exact not_badDescriptor_ok _
  | device d =>
    cases d with
    | full => exact not_badDescriptor_ofHost (by decide)
    | null | zero => exact not_badDescriptor_ok _
  | directory | link | socket => cases hbytes

theorem not_badDescriptor_writeAt (hwritable : h.writable = true)
    (hbytes : (v.body h.ino).holdsBytes = true) (buffers : List Bytes) (offset : Nat) :
    ¬ BadDescriptor (fromHost (h.writeAt v buffers offset)) := by
  simp only [writeAt, hwritable]
  split
  · exact not_badDescriptor_ofHost (by decide)
  generalize v.body h.ino = b at hbytes ⊢
  split
  case h_1 => exact not_badDescriptor_ofHost (by decide)
  case h_2 hpipe =>
    split
    case isTrue hnot => cases hnot
    split
    · exact not_badDescriptor_ok _
    split
    · exact not_badDescriptor_ofHost (by decide)
    cases b with
    | file content =>
      dsimp only
      split
      · exact not_badDescriptor_ofHost (by decide)
      · exact not_badDescriptor_ok _
    | device d =>
      cases d with
      | full => exact not_badDescriptor_ofHost (by decide)
      | null | zero => exact not_badDescriptor_ok _
    | fifo queue => exact absurd rfl (hpipe queue)
    | directory | link | socket => cases hbytes

theorem not_badDescriptor_setSize (size : Nat) :
    ¬ BadDescriptor (fromHost (h.setSize v size)) := by
  rw [setSize]
  split
  · exact not_badDescriptor_ofHost (by decide)
  split
  case h_1 =>
    split
    · exact not_badDescriptor_ok _
    · exact not_badDescriptor_ofHost (by decide)
  case h_2 => exact not_badDescriptor_ofHost (by decide)

end Handle

/-! ### Open files -/

namespace FileEntry

variable {v : Volume} {e : FileEntry}

/-- The fault of a transfer the file was not opened for. -/
def unopened (mode : Access) : Fault :=
  .because .badFileDescriptor ("descriptor not opened for " ++ mode.debug)

variable {rights : Rights} (h : e.Under rights)
include h

theorem Under.require_read : e.require Access.read =
    if rights.contains Rights.fdRead then .ok () else .error (unopened Access.read) := by
  rw [require, h.access, Access.contains_read_ofRights]
  rfl

theorem Under.require_write : e.require Access.write =
    if rights.contains Rights.fdWrite then .ok () else .error (unopened Access.write) := by
  rw [require, h.access, Access.contains_write_ofRights]
  rfl

theorem Under.not_badDescriptor_read (hread : rights.contains Rights.fdRead = true) (ends : Ends)
    (sizes : List Nat) : ¬ BadDescriptor (e.read v ends sizes) := by
  rw [read, h.require_read, if_pos hread]
  apply not_badDescriptor_bind (Handle.not_badDescriptor_read (h.readable hread) ends sizes)
  exact fun _ => not_badDescriptor_ok _

theorem Under.not_badDescriptor_readAt (hread : rights.contains Rights.fdRead = true)
    (sizes : List Nat) (offset : UInt64) : ¬ BadDescriptor (e.readAt v sizes offset) := by
  rw [readAt, h.require_read, if_pos hread]
  exact Handle.not_badDescriptor_readAt (h.readable hread) sizes _

variable (hwrite : rights.contains Rights.fdWrite = true)
  (hbytes : (v.body e.handle.ino).holdsBytes = true)
include hwrite hbytes

theorem Under.not_badDescriptor_write (ends : Ends) (buffers : List Bytes) :
    ¬ BadDescriptor (e.write v ends buffers) := by
  rw [write, h.require_write, if_pos hwrite]
  apply not_badDescriptor_bind (Handle.not_badDescriptor_write (h.writable hwrite) hbytes ends _)
  exact fun _ => not_badDescriptor_ok _

theorem Under.not_badDescriptor_writeAt (buffers : List Bytes) (offset : UInt64) :
    ¬ BadDescriptor (e.writeAt v buffers offset) := by
  rw [writeAt, h.require_write, if_pos hwrite]
  exact Handle.not_badDescriptor_writeAt (h.writable hwrite) hbytes buffers _

omit hbytes in
theorem Under.not_badDescriptor_setSize (size : UInt64) : ¬ BadDescriptor (e.setSize v size) := by
  rw [setSize, h.require_write, if_pos hwrite]
  exact Handle.not_badDescriptor_setSize _

end FileEntry

/-! ### Calls -/

namespace World

variable {w : World} {fd : Nat} {calls before : List Call} {o : Opening} {e : FileEntry}
  {rights : Rights} {c : Call}

/-- A call that is answered with a bad descriptor and does nothing. -/
def Refused (w : World) (c : Call) : Prop :=
  BadDescriptor (w.call c).1 ∧ (w.call c).2 = w

/-- A transfer on what is neither a file nor a stream is refused. -/
theorem refused_of_not_file (hc : c.reads? = some fd ∨ c.writes? = some fd)
    (hfile : ∀ e, w.table.get? fd ≠ some (.file e))
    (hstream : ∀ e, w.table.get? fd ≠ some (.stdio e)) : w.Refused c := by
  have hget : w.table.get fd = .error (Table.notOpen fd) ∨
      ∃ d, w.table.get fd = .ok (.directory d) := by
    rcases hd : w.table.get? fd with _ | (e | d | e)
    · exact .inl (by rw [Table.get, hd])
    · exact absurd hd (hfile e)
    · exact .inr ⟨d, Table.get_of_get? hd⟩
    · exact absurd hd (hstream e)
  cases c with
  | fdRead | fdWrite | fdPwrite =>
    rcases hc with hc | hc <;> cases hc
    all_goals
      rcases hget with hget | ⟨d, hget⟩ <;>
        simp only [Refused, call, changing, fdRead, fdWrite, fdPwrite, hget, and_true] <;>
        exact ⟨_, rfl, rfl⟩
  | fdPread fd' buffers offset =>
    rcases hc with hc | hc <;> cases hc
    rcases hget with hget | ⟨d, hget⟩ <;>
      simp only [Refused, call, asking, fdPread, hget, and_true] <;>
      exact ⟨_, rfl, rfl⟩
  | fdFilestatSetSize fd' size =>
    rcases hc with hc | hc <;> cases hc
    rcases hget with hget | ⟨d, hget⟩ <;>
      simp only [Refused, call, changing, fdFilestatSetSize, DescriptorTable.getFile, hget] <;>
      exact ⟨⟨_, rfl, rfl⟩, rfl⟩
  | _ => rcases hc with hc | hc <;> cases hc

/-- A call is refused exactly where it lacks a right, if without it nothing else is done and with
it nothing says that the descriptor is bad. -/
theorem refused_iff {α : Type} {answer : α → Answer} {s : Step α} {mode : Access} {right : Bool}
    (hcall : w.call c = changing answer s)
    (hlacks : right = false → s = (.error (FileEntry.unopened mode), w))
    (hholds : right = true → ¬ BadDescriptor s.1) : w.Refused c ↔ right = false := by
  rw [Refused, hcall, changing, badDescriptor_map_iff]
  constructor
  · rintro ⟨hbad, -⟩
    cases right with
    | false => rfl
    | true => exact absurd hbad (hholds rfl)
  · intro hright
    rw [hlacks hright]
    exact ⟨⟨_, rfl, rfl⟩, rfl⟩

section

variable (he : w.table.get? fd = some (.file e)) (hunder : e.Under rights)
include he hunder

theorem fdRead_unopened (hread : rights.contains Rights.fdRead = false) (buffers : List Bytes) :
    w.fdRead fd buffers = (.error (FileEntry.unopened Access.read), w) := by
  have hfails : ∀ ends sizes, e.read w.volume ends sizes =
      .error (FileEntry.unopened Access.read) := by
    intro ends sizes
    rw [FileEntry.read, hunder.require_read, hread]
    rfl
  simp only [fdRead, Table.get_of_get? he, hfails]

theorem not_badDescriptor_fdRead (hread : rights.contains Rights.fdRead = true)
    (buffers : List Bytes) : ¬ BadDescriptor (w.fdRead fd buffers).1 := by
  have hnot := hunder.not_badDescriptor_read (v := w.volume) hread (w.ends e.handle.ino)
    (buffers.map List.length)
  simp only [fdRead, Table.get_of_get? he]
  split
  case h_1 fault hfails => exact not_badDescriptor_of_error hnot hfails
  case h_2 => exact not_badDescriptor_inBuffers _ _

theorem fdPread_unopened (hread : rights.contains Rights.fdRead = false) (buffers : List Bytes)
    (offset : UInt64) :
    w.fdPread fd buffers offset = .error (FileEntry.unopened Access.read) := by
  have hfails : ∀ sizes, e.readAt w.volume sizes offset =
      .error (FileEntry.unopened Access.read) := by
    intro sizes
    rw [FileEntry.readAt, hunder.require_read, hread]
    rfl
  rw [fdPread, Table.get_of_get? he]
  show (do inBuffers buffers (← e.readAt w.volume (buffers.map List.length) offset)) = _
  rw [hfails]
  rfl

theorem not_badDescriptor_fdPread (hread : rights.contains Rights.fdRead = true)
    (buffers : List Bytes) (offset : UInt64) :
    ¬ BadDescriptor (w.fdPread fd buffers offset) := by
  rw [fdPread, Table.get_of_get? he]
  apply not_badDescriptor_bind (hunder.not_badDescriptor_readAt hread _ offset)
  exact fun taken => not_badDescriptor_inBuffers buffers taken

/-- A read from a file is refused exactly where the right to read was not asked for. -/
theorem read_refused_iff (hc : c.reads? = some fd) :
    w.Refused c ↔ rights.contains Rights.fdRead = false := by
  cases c with
  | fdRead _ buffers =>
    cases hc
    apply refused_iff rfl
    · exact fun hread => fdRead_unopened he hunder hread buffers
    · exact fun hread => not_badDescriptor_fdRead he hunder hread buffers
  | fdPread _ buffers offset =>
    cases hc
    -- a call that only asks is a change that changes nothing
    have hcall : w.call (.fdPread fd buffers offset) = changing
      (fun taken => .taken taken.1 taken.2) (w.fdPread fd buffers offset, w) := rfl
    apply refused_iff hcall
    · exact fun hread => congrArg (·, w) (fdPread_unopened he hunder hread buffers offset)
    · exact fun hread => not_badDescriptor_fdPread he hunder hread buffers offset
  | _ => cases hc

theorem fdWrite_unopened (hwrite : rights.contains Rights.fdWrite = false)
    (buffers : List Bytes) :
    w.fdWrite fd buffers = (.error (FileEntry.unopened Access.write), w) := by
  have hfails : ∀ ends, e.write w.volume ends buffers =
      .error (FileEntry.unopened Access.write) := by
    intro ends
    rw [FileEntry.write, hunder.require_write, hwrite]
    rfl
  simp only [fdWrite, Table.get_of_get? he, hfails]

theorem fdPwrite_unopened (hwrite : rights.contains Rights.fdWrite = false)
    (buffers : List Bytes) (offset : UInt64) :
    w.fdPwrite fd buffers offset = (.error (FileEntry.unopened Access.write), w) := by
  have hfails : e.writeAt w.volume buffers offset = .error (FileEntry.unopened Access.write) := by
    rw [FileEntry.writeAt, hunder.require_write, hwrite]
    rfl
  simp only [fdPwrite, Table.get_of_get? he, hfails]

theorem fdFilestatSetSize_unopened (hwrite : rights.contains Rights.fdWrite = false)
    (size : UInt64) :
    w.fdFilestatSetSize fd size = (.error (FileEntry.unopened Access.write), w) := by
  have hfails : e.setSize w.volume size = .error (FileEntry.unopened Access.write) := by
    rw [FileEntry.setSize, hunder.require_write, hwrite]
    rfl
  rw [fdFilestatSetSize, DescriptorTable.getFile, Table.get_of_get? he]
  show w.changed (e.setSize w.volume size) = _
  rw [hfails]
  rfl

variable (hbytes : (w.volume.body e.handle.ino).holdsBytes = true)
include hbytes

theorem not_badDescriptor_fdWrite (hwrite : rights.contains Rights.fdWrite = true)
    (buffers : List Bytes) : ¬ BadDescriptor (w.fdWrite fd buffers).1 := by
  have hnot := hunder.not_badDescriptor_write hwrite hbytes (w.ends e.handle.ino) buffers
  simp only [fdWrite, Table.get_of_get? he]
  split
  case h_1 fault hfails => exact not_badDescriptor_of_error hnot hfails
  case h_2 => exact not_badDescriptor_countOf _

theorem not_badDescriptor_fdPwrite (hwrite : rights.contains Rights.fdWrite = true)
    (buffers : List Bytes) (offset : UInt64) :
    ¬ BadDescriptor (w.fdPwrite fd buffers offset).1 := by
  have hnot := hunder.not_badDescriptor_writeAt hwrite hbytes buffers offset
  simp only [fdPwrite, Table.get_of_get? he]
  split
  case h_1 fault hfails => exact not_badDescriptor_of_error hnot hfails
  case h_2 => exact not_badDescriptor_countOf _

omit hbytes in
theorem not_badDescriptor_fdFilestatSetSize (hwrite : rights.contains Rights.fdWrite = true)
    (size : UInt64) : ¬ BadDescriptor (w.fdFilestatSetSize fd size).1 := by
  have hnot := hunder.not_badDescriptor_setSize (v := w.volume) hwrite size
  rw [fdFilestatSetSize, DescriptorTable.getFile, Table.get_of_get? he]
  show ¬ BadDescriptor (w.changed (e.setSize w.volume size)).1
  cases hset : e.setSize w.volume size with
  | ok v => exact not_badDescriptor_ok _
  | error fault => exact not_badDescriptor_of_error hnot hset

/-- A write to a file is refused exactly where the right to write was not asked for. -/
theorem write_refused_iff (hc : c.writes? = some fd) :
    w.Refused c ↔ rights.contains Rights.fdWrite = false := by
  cases c with
  | fdWrite _ buffers =>
    cases hc
    apply refused_iff rfl
    · exact fun hwrite => fdWrite_unopened he hunder hwrite buffers
    · exact fun hwrite => not_badDescriptor_fdWrite he hunder hbytes hwrite buffers
  | fdPwrite _ buffers offset =>
    cases hc
    apply refused_iff rfl
    · exact fun hwrite => fdPwrite_unopened he hunder hwrite buffers offset
    · exact fun hwrite => not_badDescriptor_fdPwrite he hunder hbytes hwrite buffers offset
  | fdFilestatSetSize _ size =>
    cases hc
    apply refused_iff rfl
    · exact fun hwrite => fdFilestatSetSize_unopened he hunder hwrite size
    · exact fun hwrite => not_badDescriptor_fdFilestatSetSize he hunder hwrite size
  | _ => cases hc

end

/-! ## Runs -/

/-- What an id holds after a run was opened in it with a right. -/
def OpenedWith (w : World) (calls : List Call) (fd : Nat) (right : Rights) : Prop :=
  ∃ before o, w.OpenedBy calls fd before o ∧ o.rights.contains right = true

section

variable {host : Host} {settings : List Setting} (hw : w.Reachable)
  (hfurnished : w.Furnished host settings)
include hw hfurnished

theorem openedWith_read (he : (w.run calls).table.get? fd = some (.file e))
    (hread : e.access.contains Access.read = true) : w.OpenedWith calls fd Rights.fdRead := by
  obtain ⟨before, o, ho⟩ := hfurnished.file_opening hw he
  have haccess := (ho.file hw he).1.access
  rw [haccess, Access.contains_read_ofRights] at hread
  exact ⟨before, o, ho, hread⟩

theorem openedWith_write (he : (w.run calls).table.get? fd = some (.file e))
    (hwrite : e.access.contains Access.write = true) : w.OpenedWith calls fd Rights.fdWrite := by
  obtain ⟨before, o, ho⟩ := hfurnished.file_opening hw he
  have haccess := (ho.file hw he).1.access
  rw [haccess, Access.contains_write_ofRights] at hwrite
  exact ⟨before, o, ho, hwrite⟩

/-- The bytes of a file matter to reads of it only, through what was opened to be read. -/
theorem hides_or_reads (calls : List Call) (c : Call) (i : Ino) :
    (∀ w', (w.run calls).Hides (· = i) w' →
      StepHides (· = i) ((w.run calls).call c) (w'.call c)) ∨
    ∃ fd e, c.reads? = some fd ∧ (w.run calls).table.get? fd = some (.file e) ∧
      e.handle.ino = i ∧ w.OpenedWith calls fd Rights.fdRead := by
  by_cases hreads : (w.run calls).ReadsHidden (· = i) c
  · obtain ⟨fd, e, hc, he, hino, hread⟩ := hreads
    exact .inr ⟨fd, e, hc, he, hino, openedWith_read hw hfurnished he hread⟩
  · exact .inl fun w' h => call_hides h hreads

/-- The bytes of a file change by a write to it, through what was opened to be written, or by an
opening that empties it. -/
theorem unchanged_or_writes (calls : List Call) (c : Call) {i : Ino} {content : Content}
    (hi : (w.run calls).volume.body i = .file content) :
    ((w.run calls).call c).2.volume.body i = .file content ∨
    (∃ fd e, c.writes? = some fd ∧ (w.run calls).table.get? fd = some (.file e) ∧
      e.handle.ino = i ∧ w.OpenedWith calls fd Rights.fdWrite) ∨
    ∃ o : Opening, c = o.call ∧ o.flags.contains OpenFlags.truncate = true := by
  by_cases halters : (w.run calls).Alters c i
  · rcases halters with ⟨fd, e, hc, he, hino, hwrite⟩ | hopens
    · exact .inr (.inl ⟨fd, e, hc, he, hino, openedWith_write hw hfurnished he hwrite⟩)
    · exact .inr (.inr hopens)
  · have hevolves := (call_evolves (hw.run calls).sound c).body i (Volume.lt_size_of_body_file hi)
    exact .inl (hevolves.file_eq hi halters)

theorem refused_of_not_openedWith (hstream : ∀ e, (w.run calls).table.get? fd ≠ some (.stdio e)) :
    (c.reads? = some fd → ¬ w.OpenedWith calls fd Rights.fdRead → (w.run calls).Refused c) ∧
    (c.writes? = some fd → ¬ w.OpenedWith calls fd Rights.fdWrite → (w.run calls).Refused c) := by
  by_cases hfile : ∃ e, (w.run calls).table.get? fd = some (.file e)
  · obtain ⟨e, he⟩ := hfile
    obtain ⟨before, o, ho⟩ := hfurnished.file_opening hw he
    obtain ⟨hunder, hbytes⟩ := ho.file hw he
    constructor
    · intro hc hnot
      apply (read_refused_iff he hunder hc).mpr
      exact Bool.eq_false_iff.mpr fun hread => hnot ⟨before, o, ho, hread⟩
    · intro hc hnot
      apply (write_refused_iff he hunder hbytes hc).mpr
      exact Bool.eq_false_iff.mpr fun hwrite => hnot ⟨before, o, ho, hwrite⟩
  · have hnone : ∀ e, (w.run calls).table.get? fd ≠ some (.file e) := fun e he => hfile ⟨e, he⟩
    constructor
    · exact fun hc _ => refused_of_not_file (.inl hc) hnone hstream
    · exact fun hc _ => refused_of_not_file (.inr hc) hnone hstream

omit hfurnished in
/-- The rights reported for a file are those it was opened with, and they are those in force. -/
theorem OpenedBy.fdstat (h : w.OpenedBy calls fd before o)
    (he : (w.run calls).table.get? fd = some (.file e)) :
    ∃ s, (w.run calls).fdFdstatGet fd = .ok s ∧
      s.rights.contains Rights.fdRead = o.rights.contains Rights.fdRead ∧
      s.rights.contains Rights.fdWrite = o.rights.contains Rights.fdWrite ∧
      ∀ c,
        (c.reads? = some fd →
          ((w.run calls).Refused c ↔ s.rights.contains Rights.fdRead = false)) ∧
        (c.writes? = some fd →
          ((w.run calls).Refused c ↔ s.rights.contains Rights.fdWrite = false)) := by
  obtain ⟨hunder, hbytes⟩ := h.file hw he
  have hread : (Rights.ofAccess e.access).contains Rights.fdRead =
      o.rights.contains Rights.fdRead := by
    rw [hunder.access, Rights.contains_fdRead_ofAccess, Access.contains_read_ofRights]
  have hwrite : (Rights.ofAccess e.access).contains Rights.fdWrite =
      o.rights.contains Rights.fdWrite := by
    rw [hunder.access, Rights.contains_fdWrite_ofAccess, Access.contains_write_ofRights]
  have hstat : ∃ s, (w.run calls).fdFdstatGet fd = .ok s ∧ s.rights = .ofAccess e.access := by
    rw [fdFdstatGet, Table.get_of_get? he]
    exact ⟨_, rfl, rfl⟩
  obtain ⟨s, hs, hrights⟩ := hstat
  rw [← hrights] at hread hwrite
  refine ⟨s, hs, hread, hwrite, fun c => ⟨?_, ?_⟩⟩
  · intro hc
    rw [hread]
    exact read_refused_iff he hunder hc
  · intro hc
    rw [hwrite]
    exact write_refused_iff he hunder hbytes hc

end

/-- After every run of a guest as its builder left it, whichever way descriptors were moved and
ids used again:

* the bytes of a file matter to the answer of no call and to nothing the call does, except for
  reads of the file through a descriptor that was opened with the right to read;
* they are changed by no call except for writes to the file through a descriptor that was opened
  with the right to write, and openings that ask for files to be emptied;
* the other reads and writes are answered with a bad descriptor, where no standard stream is
  asked, and do nothing;
* every file was opened in the run, and the rights reported for it are those it was opened with
  and exactly those in force. -/
theorem run_rights (host : Host) (random : KeyStream) (settings : List Setting)
    (hhost : host.volume.Grounded) (calls : List Call) :
    let start := (fresh host random).build settings
    let w := start.run calls
    (∀ c i,
      (∀ w', w.Hides (· = i) w' → StepHides (· = i) (w.call c) (w'.call c)) ∨
      ∃ fd e, c.reads? = some fd ∧ w.table.get? fd = some (.file e) ∧ e.handle.ino = i ∧
        start.OpenedWith calls fd Rights.fdRead) ∧
    (∀ c i content, w.volume.body i = .file content →
      (w.call c).2.volume.body i = .file content ∨
      (∃ fd e, c.writes? = some fd ∧ w.table.get? fd = some (.file e) ∧ e.handle.ino = i ∧
        start.OpenedWith calls fd Rights.fdWrite) ∨
      ∃ o : Opening, c = o.call ∧ o.flags.contains OpenFlags.truncate = true) ∧
    (∀ c fd, (∀ e, w.table.get? fd ≠ some (.stdio e)) →
      (c.reads? = some fd → ¬ start.OpenedWith calls fd Rights.fdRead → w.Refused c) ∧
      (c.writes? = some fd → ¬ start.OpenedWith calls fd Rights.fdWrite → w.Refused c)) ∧
    ∀ fd e, w.table.get? fd = some (.file e) →
      (∃ before o, start.OpenedBy calls fd before o) ∧
      ∀ before o, start.OpenedBy calls fd before o → ∃ s, w.fdFdstatGet fd = .ok s ∧
        s.rights.contains Rights.fdRead = o.rights.contains Rights.fdRead ∧
        s.rights.contains Rights.fdWrite = o.rights.contains Rights.fdWrite ∧
        ∀ c,
          (c.reads? = some fd → (w.Refused c ↔ s.rights.contains Rights.fdRead = false)) ∧
          (c.writes? = some fd → (w.Refused c ↔ s.rights.contains Rights.fdWrite = false)) := by
  intro start w
  have hfurnished := build_furnished host random settings
  have hreachable : start.Reachable := (Reachable.fresh host random hhost).build settings
  refine ⟨?_, ?_, ?_, ?_⟩
  · exact hides_or_reads hreachable hfurnished calls
  · exact fun c i content hi => unchanged_or_writes hreachable hfurnished calls c hi
  · exact fun c fd hstream => refused_of_not_openedWith hreachable hfurnished hstream
  · intro fd e he
    exact ⟨hfurnished.file_opening hreachable he, fun before o ho => ho.fdstat hreachable he⟩

/-- Creates a file to read from it only, which the host opens for writing as well, and moves it. -/
def borrowingCalls : List Call :=
  [.pathOpen 3 .empty "inner/log" OpenFlags.create Rights.fdRead .empty .empty,
    .fdRenumber 4 7]

theorem run_rights_borrowed :
    nestedHost.volume.Grounded ∧
      (((fresh nestedHost default).build [.preopen "guest" [47]]).run borrowingCalls).Refused
        (.fdPwrite 7 [[1]] 0) := by
  have hrights := run_rights nestedHost default [.preopen "guest" [47]] nestedHost_grounded
    borrowingCalls
  have he : (((fresh nestedHost default).build [.preopen "guest" [47]]).run
      borrowingCalls).table.get? 7 = some (.file ⟨⟨3, true, true, false, false, 0⟩, Access.read⟩) := by
    decide +kernel
  obtain ⟨⟨before, o, ho⟩, hreported⟩ := hrights.2.2.2 7 _ he
  obtain ⟨s, hs, -, -, hforce⟩ := hreported before o ho
  have hreadOnly : s.rights.contains Rights.fdWrite = false := by
    rw [fdFdstatGet, Table.get_of_get? he] at hs
    cases hs
    decide
  exact ⟨nestedHost_grounded, ((hforce (.fdPwrite 7 [[1]] 0)).2 rfl).mpr hreadOnly⟩

end World

end Hostcall
