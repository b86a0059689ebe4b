import Hostcall.Call
import Hostcall.Proofs.Hidden
import Hostcall.Proofs.Table

/-!
# What calls disclose of hidden bytes

Two guests that are the same but for the bytes of hidden files on their hosts get the same
answer to every call that is not a read of such a file, and are the same in this sense after it.

* `Call.reads?` is the id a call reads from, and `World.ReadsHidden` that it is a hidden file
  which the guest may read;
* `World.StepHides` compares two steps;
* `World.call_hides` says so of every call.
-/

namespace Hostcall

/-! ## Open files -/

/-- How much a write leaves behind does not depend on the bytes it is made to. -/
theorem Content.size_write_eq {c c' : Content} (h : c'.size = c.size) (offset : Nat)
    (data : Bytes) : (c'.write offset data).size = (c.write offset data).size := by
  by_cases hdata : data = []
  · rw [hdata, write_nil, write_nil, h]
  · rw [← length_toList, ← length_toList, toList_write c offset hdata, toList_write c' offset hdata]
    simp [h]

theorem Content.size_resize_eq {c c' : Content} (h : c'.size = c.size) (n : Nat) :
    (c'.resize n).size = (c.resize n).size := by
  rw [← length_toList, ← length_toList, toList_resize, toList_resize]
  simp [h]

namespace Handle

variable {H : Ino → Prop} {v v' : Volume}

/-- An amount, a handle and a volume after a transfer. -/
def MovedHides {α : Type} (H : Ino → Prop) (o o' : α × Handle × Volume) : Prop :=
  o'.1 = o.1 ∧ o'.2.1 = o.2.1 ∧ o.2.2.Hides H o'.2.2

theorem read_hides (hv : v.Hides H v') {h : Handle} (hshown : ¬ H h.ino) (ends : Ends)
    (sizes : List Nat) :
    Hostcall.Alike (MovedHides H) (h.read v ends sizes) (h.read v' ends sizes) := by
  simp only [read, (hv.body h.ino).eq_of_not hshown]
  split
  · exact .error _
  split
  · exact .ok ⟨rfl, rfl, hv⟩
  split
  case h_1 =>
    split
    · exact .error _
    · exact .ok ⟨rfl, rfl, hv⟩
  case h_2 =>
    split
    · exact .ok ⟨rfl, rfl, hv.setBody (.same _)⟩
    · split
      · exact .ok ⟨rfl, rfl, hv⟩
      · exact .error _
  case h_3 => exact .ok ⟨rfl, rfl, hv⟩
  case h_4 => exact .error _

theorem readAt_eq_of_hides (hv : v.Hides H v') {h : Handle} (hshown : ¬ H h.ino)
    (sizes : List Nat) (offset : Nat) : h.readAt v' sizes offset = h.readAt v sizes offset := by
  simp only [readAt, (hv.body h.ino).eq_of_not hshown]

theorem write_hides (hv : v.Hides H v') (h : Handle) (ends : Ends) (buffers : List Bytes) :
    Hostcall.Alike (MovedHides H) (h.write v ends buffers) (h.write v' ends buffers) := by
  have hbody := hv.body h.ino
  simp only [write]
  generalize v.body h.ino = b at hbody ⊢
  generalize v'.body h.ino = b' at hbody ⊢
  split
  · exact .error _
  split
  · exact .ok ⟨rfl, rfl, hv⟩
  cases hbody with
  | file hhidden hsize =>
    dsimp only
    rw [hsize]
    split
    · exact .error _
    · split
      · exact .error _
      · exact .ok ⟨rfl, rfl, hv.replaceBody (.file hhidden (Content.size_write_eq hsize _ _))⟩
  | same b =>
    split
    case h_1 =>
      split
      · exact .error _
      · split
        · exact .error _
        · exact .ok ⟨rfl, rfl, hv.replaceBody (.same _)⟩
    case h_2 =>
      split
      · exact .error _
      · split
        · exact .error _
        · exact .ok ⟨rfl, rfl, hv.replaceBody (.same _)⟩
    case h_3 =>
      split
      · exact .error _
      · exact .ok ⟨rfl, rfl, hv⟩
    case h_4 => exact .error _

/-- An amount and a volume after a transfer that leaves the cursor alone. -/
def WrittenHides (H : Ino → Prop) (o o' : Nat × Volume) : Prop :=
  o'.1 = o.1 ∧ o.2.Hides H o'.2

theorem writeAt_hides (hv : v.Hides H v') (h : Handle) (buffers : List Bytes) (offset : Nat) :
    Hostcall.Alike (WrittenHides H) (h.writeAt v buffers offset) (h.writeAt v' buffers offset) := by
  have hbody := hv.body h.ino
  simp only [writeAt]
  generalize v.body h.ino = b at hbody ⊢
  generalize v'.body h.ino = b' at hbody ⊢
  split
  · exact .error _
  cases hbody with
  | file hhidden hsize =>
    dsimp only
    rw [hsize]
    split
    · exact .error _
    split
    · exact .ok ⟨rfl, hv⟩
    split
    · exact .error _
    split
    · exact .error _
    · exact .ok ⟨rfl, hv.replaceBody (.file hhidden (Content.size_write_eq hsize _ _))⟩
  | same b =>
    split
    case h_1 => exact .error _
    case h_2 =>
      split
      · exact .error _
      split
      · exact .ok ⟨rfl, hv⟩
      split
      · exact .error _
      split
      case h_1 =>
        split
        · exact .error _
        · exact .ok ⟨rfl, hv.replaceBody (.same _)⟩
      case h_2 =>
        split
        · exact .error _
        · exact .ok ⟨rfl, hv⟩
      case h_3 => exact .error _

theorem setSize_hides (hv : v.Hides H v') (h : Handle) (size : Nat) :
    Hostcall.Alike (Volume.Hides H) (h.setSize v size) (h.setSize v' size) := by
  have hbody := hv.body h.ino
  simp only [setSize]
  generalize v.body h.ino = b at hbody ⊢
  generalize v'.body h.ino = b' at hbody ⊢
  split
  · exact .error _
  cases hbody with
  | file hhidden hsize =>
    dsimp only
    split
    · exact .ok (hv.replaceBody (.file hhidden (Content.size_resize_eq hsize _)))
    · exact .error _
  | same b =>
    split
    case h_1 =>
      split
      · exact .ok (hv.replaceBody (.same _))
      · exact .error _
    case h_2 => exact .error _

theorem seek_eq_of_hides (hv : v.Hides H v') (h : Handle) (whence : Whence) (offset : Int) :
    h.seek v' whence offset = h.seek v whence offset := by
  have hbody := hv.body h.ino
  simp only [seek]
  generalize v.body h.ino = b at hbody ⊢
  generalize v'.body h.ino = b' at hbody ⊢
  cases hbody with
  | same => rfl
  | file _ hsize => simp only [hsize]

theorem sync_eq_of_hides (hv : v.Hides H v') (h : Handle) : h.sync v' = h.sync v := by
  have hbody := hv.body h.ino
  simp only [sync]
  generalize v.body h.ino = b at hbody ⊢
  generalize v'.body h.ino = b' at hbody ⊢
  cases hbody <;> rfl

end Handle

namespace FileEntry

variable {H : Ino → Prop} {v v' : Volume}

/-- An amount, an open file and a volume after a transfer. -/
def MovedHides {α : Type} (H : Ino → Prop) (o o' : α × FileEntry × Volume) : Prop :=
  o'.1 = o.1 ∧ o'.2.1 = o.2.1 ∧ o.2.2.Hides H o'.2.2

/-- A file that may not be read answers without a look at it. -/
theorem read_hides (hv : v.Hides H v') {e : FileEntry}
    (hshown : e.access.contains Access.read = true → ¬ H e.handle.ino) (ends : Ends)
    (sizes : List Nat) :
    Hostcall.Alike (MovedHides H) (e.read v ends sizes) (e.read v' ends sizes) := by
  rw [read, read, require]
  split
  case isTrue hread =>
    refine (Handle.read_hides hv (hshown hread) ends sizes).fromHost.bind fun o o' ho => ?_
    exact .ok ⟨ho.1, congrArg e.withHandle ho.2.1, ho.2.2⟩
  case isFalse => exact .error _

theorem readAt_eq_of_hides (hv : v.Hides H v') {e : FileEntry}
    (hshown : e.access.contains Access.read = true → ¬ H e.handle.ino) (sizes : List Nat)
    (offset : UInt64) : e.readAt v' sizes offset = e.readAt v sizes offset := by
  rw [readAt, readAt, require]
  split
  case isTrue hread => rw [Handle.readAt_eq_of_hides hv (hshown hread)]
  case isFalse => rfl

theorem write_hides (hv : v.Hides H v') (e : FileEntry) (ends : Ends) (buffers : List Bytes) :
    Hostcall.Alike (MovedHides H) (e.write v ends buffers) (e.write v' ends buffers) := by
  refine (Hostcall.Alike.refl _).bind fun _ _ _ => ?_
  refine (Handle.write_hides hv e.handle ends buffers).fromHost.bind fun o o' ho => ?_
  exact .ok ⟨ho.1, congrArg e.withHandle ho.2.1, ho.2.2⟩

theorem writeAt_hides (hv : v.Hides H v') (e : FileEntry) (buffers : List Bytes)
    (offset : UInt64) :
    Hostcall.Alike (Handle.WrittenHides H) (e.writeAt v buffers offset)
      (e.writeAt v' buffers offset) := by
  refine (Hostcall.Alike.refl _).bind fun _ _ _ => ?_
  exact (Handle.writeAt_hides hv e.handle buffers _).fromHost

theorem setSize_hides (hv : v.Hides H v') (e : FileEntry) (size : UInt64) :
    Hostcall.Alike (Volume.Hides H) (e.setSize v size) (e.setSize v' size) := by
  refine (Hostcall.Alike.refl _).bind fun _ _ _ => ?_
  exact (Handle.setSize_hides hv e.handle _).fromHost

end FileEntry

/-! ## Resolved paths -/

namespace Resolved

variable {H : Ino → Prop} {v v' : Volume}

theorem makeDirectory_hides (hv : v.Hides H v') (r : Resolved) :
    Hostcall.Alike (Volume.Hides H) (r.makeDirectory v) (r.makeDirectory v') :=
  (hv.makeDirectory _ _).fromHost

theorem removeDirectory_hides (hv : v.Hides H v') (r : Resolved) :
    Hostcall.Alike (Volume.Hides H) (r.removeDirectory v) (r.removeDirectory v') := by
  rw [removeDirectory, removeDirectory]
  split
  · exact .error _
  · exact (hv.removeDirectory _ _).fromHost

theorem unlink_hides (hv : v.Hides H v') (r : Resolved) :
    Hostcall.Alike (Volume.Hides H) (r.unlink v) (r.unlink v') := by
  rw [unlink, unlink, hv.statLink_eq]
  split
  · refine (Hostcall.Alike.refl _).bind fun a _ ha => ?_
    subst ha
    exact .error _
  · exact (hv.unlink _ _).fromHost

theorem stat_eq_of_hides (hv : v.Hides H v') (r : Resolved) (follow : Bool) :
    r.stat v' follow = r.stat v follow := by
  rw [stat, stat, hv.stat_eq, hv.statLink_eq]

theorem setTimes_hides (hv : v.Hides H v') (r : Resolved) (ends : Ino → Ends) (follow : Bool)
    (u : TimeUpdates) :
    Hostcall.Alike (Volume.Hides H) (r.setTimes v ends follow u) (r.setTimes v' ends follow u) := by
  rw [setTimes, setTimes]
  split
  · exact (hv.setTimesAt ends _ _ u).fromHost
  · exact (hv.setLinkTimes _ _ u).fromHost

/-- What was opened is the same, and the volumes after it hide the same. -/
theorem openNode_hides (hv : v.Hides H v') (r : Resolved) (ends : Ino → Ends) (follow : Bool)
    (flags : OpenFlags) (access : Access) (fdFlags : FdFlags) :
    (r.openNode v' ends follow flags access fdFlags).1 =
      (r.openNode v ends follow flags access fdFlags).1 ∧
      (r.openNode v ends follow flags access fdFlags).2.Hides H
        (r.openNode v' ends follow flags access fdFlags).2 := by
  rw [openNode, openNode, openDirectory, openDirectory, hv.resembles.openDirectory_eq]
  split
  · exact ⟨rfl, hv⟩
  split
  · split
    · exact ⟨rfl, hv⟩
    · exact ⟨rfl, hv⟩
  · have hopen := hv.openFile ends r.preopen.root r.lookup (request follow flags access fdFlags)
    rw [openFile, openFile]
    generalize v.openFile ends r.preopen.root r.lookup _ = opened at hopen ⊢
    generalize v'.openFile ends r.preopen.root r.lookup _ = opened' at hopen ⊢
    cases hopen with
    | error e => exact ⟨rfl, hv⟩
    | @ok o o' ho =>
      obtain ⟨i, u⟩ := o
      obtain ⟨i', u'⟩ := o'
      obtain ⟨rfl, hu⟩ := ho
      dsimp only
      rw [hu.resembles.isDirectory_eq]
      split
      · exact ⟨rfl, hu⟩
      · split
        · exact ⟨rfl, hu⟩
        · exact ⟨rfl, hu⟩

end Resolved

/-! ## Calls -/

/-- The id that a call reads from. -/
def Call.reads? : Call → Option Nat
  | .fdRead fd _ | .fdPread fd _ _ => some fd
  | _ => none

namespace World

variable {H : Ino → Prop} {w : World} {v : Volume}

@[simp] theorem withVolume_table (w : World) (v : Volume) :
    (w.withVolume v).table = w.table := rfl

@[simp] theorem withVolume_volume (w : World) (v : Volume) : (w.withVolume v).volume = v := rfl

@[simp] theorem withVolume_ends (w : World) (v : Volume) : (w.withVolume v).ends = w.ends := rfl

@[simp] theorem withVolume_resolve (w : World) (v : Volume) :
    (w.withVolume v).resolve = w.resolve := rfl

/-- The same guest on hosts that are the same but for the bytes of hidden files. -/
inductive Hides (H : Ino → Prop) (w : World) : World → Prop where
  | mk {v : Volume} (h : w.volume.Hides H v) : Hides H w (w.withVolume v)

/-- Whether a call reads a hidden file through a descriptor that may be read from. -/
def ReadsHidden (H : Ino → Prop) (w : World) (c : Call) : Prop :=
  ∃ fd e, c.reads? = some fd ∧ w.table.get? fd = some (.file e) ∧ H e.handle.ino ∧
    e.access.contains Access.read = true

/-- Steps with the same answer, after which the guests are the same but for hidden bytes. -/
def StepHides {α : Type} (H : Ino → Prop) (s s' : Step α) : Prop :=
  s'.1 = s.1 ∧ s.2.Hides H s'.2

theorem StepHides.changing {α : Type} {s s' : Step α} (h : StepHides H s s')
    (answer : α → Answer) : StepHides H (World.changing answer s) (World.changing answer s') :=
  ⟨congrArg (Except.map answer) h.1, h.2⟩

theorem asking_hides {α : Type} (h : w.volume.Hides H v) {o o' : Outcome α} (ho : o' = o)
    (answer : α → Answer) : StepHides H (w.asking answer o) ((w.withVolume v).asking answer o') := by
  subst ho
  exact ⟨rfl, .mk h⟩

theorem changed_hides (h : w.volume.Hides H v) {o o' : Outcome Volume}
    (ho : Hostcall.Alike (Volume.Hides H) o o') :
    StepHides H (w.changed o) ((w.withVolume v).changed o') := by
  cases ho with
  | ok hv => exact ⟨rfl, .mk hv⟩
  | error fault => exact ⟨rfl, .mk h⟩

/-! ### Closing and renumbering -/

theorem flushed_withVolume (w : World) (v : Volume) (d : Descriptor) :
    (w.withVolume v).flushed d = ((w.flushed d).1, (w.flushed d).2.withVolume v) ∧
      (w.flushed d).2.volume = w.volume := by
  cases d <;> exact ⟨rfl, rfl⟩

theorem fdClose_hides (h : w.volume.Hides H v) (fd : Nat) :
    StepHides H (w.fdClose fd) ((w.withVolume v).fdClose fd) := by
  simp only [fdClose, withVolume_table]
  split
  · exact ⟨rfl, .mk h⟩
  case h_2 d _ =>
    obtain ⟨hflush, hvolume⟩ := w.flushed_withVolume v d
    rw [hflush]
    rcases hstep : w.flushed d with ⟨_ | _, u⟩
    all_goals
      rw [hstep] at hvolume
      rw [← hvolume] at h
      exact ⟨rfl, .mk h⟩

theorem fdRenumber_hides (h : w.volume.Hides H v) (source target : Nat) :
    StepHides H (w.fdRenumber source target) ((w.withVolume v).fdRenumber source target) := by
  have hflushed : (w.withVolume v).flushedTarget source target =
      ((w.flushedTarget source target).1, (w.flushedTarget source target).2.withVolume v) ∧
      (w.flushedTarget source target).2.volume = w.volume := by
    rw [flushedTarget, flushedTarget, withVolume_table]
    split
    · split
      · exact w.flushed_withVolume v _
      · exact ⟨rfl, rfl⟩
    · exact ⟨rfl, rfl⟩
  obtain ⟨hflush, hvolume⟩ := hflushed
  rw [fdRenumber, fdRenumber, hflush]
  rcases hstep : w.flushedTarget source target with ⟨_ | _, u⟩
  all_goals
    rw [hstep] at hvolume
    rw [← hvolume] at h
    exact ⟨rfl, .mk h⟩

/-! ### Transfers -/

theorem fdRead_hides (h : w.volume.Hides H v) {fd : Nat}
    (hquiet : ∀ e, w.table.get? fd = some (.file e) →
      e.access.contains Access.read = true → ¬ H e.handle.ino) (buffers : List Bytes) :
    StepHides H (w.fdRead fd buffers) ((w.withVolume v).fdRead fd buffers) := by
  simp only [fdRead, withVolume_table, withVolume_volume, withVolume_ends]
  split
  case h_1 => exact ⟨rfl, .mk h⟩
  case h_2 => exact ⟨rfl, .mk h⟩
  case h_3 => exact ⟨rfl, .mk h⟩
  case h_4 e hget =>
    have hread := FileEntry.read_hides h (hquiet e (Table.get?_of_get hget))
      (w.ends e.handle.ino) (buffers.map List.length)
    generalize e.read w.volume _ _ = o at hread ⊢
    generalize e.read v _ _ = o' at hread ⊢
    cases hread with
    | error fault => exact ⟨rfl, .mk h⟩
    | @ok a a' ha =>
      obtain ⟨taken, e₁, u⟩ := a
      obtain ⟨taken', e₁', u'⟩ := a'
      obtain ⟨rfl, rfl, hu⟩ := ha
      exact ⟨rfl, .mk hu⟩

theorem fdPread_eq_of_hides (h : w.volume.Hides H v) {fd : Nat}
    (hquiet : ∀ e, w.table.get? fd = some (.file e) →
      e.access.contains Access.read = true → ¬ H e.handle.ino) (buffers : List Bytes)
    (offset : UInt64) : (w.withVolume v).fdPread fd buffers offset = w.fdPread fd buffers offset := by
  rw [fdPread, fdPread, withVolume_table]
  cases hget : w.table.get fd with
  | error fault => rfl
  | ok d =>
    cases d with
    | directory _ | stdio _ => rfl
    | file e =>
      change (do inBuffers buffers (← e.readAt v _ offset)) = (do
        inBuffers buffers (← e.readAt w.volume _ offset))
      rw [FileEntry.readAt_eq_of_hides h (hquiet e (Table.get?_of_get hget))]

theorem fdWrite_hides (h : w.volume.Hides H v) (fd : Nat) (buffers : List Bytes) :
    StepHides H (w.fdWrite fd buffers) ((w.withVolume v).fdWrite fd buffers) := by
  simp only [fdWrite, withVolume_table, withVolume_volume, withVolume_ends]
  split
  case h_1 => exact ⟨rfl, .mk h⟩
  case h_2 => exact ⟨rfl, .mk h⟩
  case h_3 => exact ⟨rfl, .mk h⟩
  case h_4 e _ =>
    have hwrite := FileEntry.write_hides h e (w.ends e.handle.ino) buffers
    generalize e.write w.volume _ _ = o at hwrite ⊢
    generalize e.write v _ _ = o' at hwrite ⊢
    cases hwrite with
    | error fault => exact ⟨rfl, .mk h⟩
    | @ok a a' ha =>
      obtain ⟨count, e₁, u⟩ := a
      obtain ⟨count', e₁', u'⟩ := a'
      obtain ⟨rfl, rfl, hu⟩ := ha
      exact ⟨rfl, .mk hu⟩

theorem fdPwrite_hides (h : w.volume.Hides H v) (fd : Nat) (buffers : List Bytes)
    (offset : UInt64) :
    StepHides H (w.fdPwrite fd buffers offset) ((w.withVolume v).fdPwrite fd buffers offset) := by
  simp only [fdPwrite, withVolume_table, withVolume_volume]
  split
  case h_1 => exact ⟨rfl, .mk h⟩
  case h_2 => exact ⟨rfl, .mk h⟩
  case h_3 => exact ⟨rfl, .mk h⟩
  case h_4 e hget =>
    have hwrite := FileEntry.writeAt_hides h e buffers offset
    generalize e.writeAt w.volume _ _ = o at hwrite ⊢
    generalize e.writeAt v _ _ = o' at hwrite ⊢
    cases hwrite with
    | error fault => exact ⟨rfl, .mk h⟩
    | @ok a a' ha =>
      obtain ⟨count, u⟩ := a
      obtain ⟨count', u'⟩ := a'
      obtain ⟨rfl, hu⟩ := ha
      exact ⟨rfl, .mk hu⟩

theorem fdSeek_hides (h : w.volume.Hides H v) (fd : Nat) (offset : Int64) (whence : Whence) :
    StepHides H (w.fdSeek fd offset whence) ((w.withVolume v).fdSeek fd offset whence) := by
  have hseek : ∀ e : FileEntry, e.seek (w.withVolume v).volume whence offset =
      e.seek w.volume whence offset := by
    intro e
    rw [FileEntry.seek, FileEntry.seek]
    exact congrArg (fun o => fromHost o >>= _) (Handle.seek_eq_of_hides h e.handle whence _)
  simp only [fdSeek, withVolume_table, hseek]
  split
  · exact ⟨rfl, .mk h⟩
  split
  case h_1 => exact ⟨rfl, .mk h⟩
  case h_2 => exact ⟨rfl, .mk h⟩
  case h_3 => exact ⟨rfl, .mk h⟩
  case h_4 e _ =>
    split
    · exact ⟨rfl, .mk h⟩
    · exact ⟨rfl, .mk h⟩

/-! ### Files and directories -/

theorem fdDatasync_eq_of_hides (h : w.volume.Hides H v) (fd : Nat) :
    (w.withVolume v).fdDatasync fd = w.fdDatasync fd := by
  simp only [fdDatasync, withVolume_table, withVolume_volume, Handle.sync_eq_of_hides h]

theorem fdFilestatSetSize_hides (h : w.volume.Hides H v) (fd : Nat) (size : UInt64) :
    StepHides H (w.fdFilestatSetSize fd size) ((w.withVolume v).fdFilestatSetSize fd size) := by
  refine changed_hides h ((Hostcall.Alike.refl _).bind fun e _ he => ?_)
  subst he
  exact FileEntry.setSize_hides h e size

theorem fdFdstatSetFlags_hides (h : w.volume.Hides H v) (fd : Nat) (flags : FdFlags) :
    StepHides H (w.fdFdstatSetFlags fd flags) ((w.withVolume v).fdFdstatSetFlags fd flags) := by
  simp only [fdFdstatSetFlags, withVolume_table]
  split
  · exact ⟨rfl, .mk h⟩
  · split
    · exact ⟨rfl, .mk h⟩
    · exact ⟨rfl, .mk h⟩

theorem fdFdstatGet_eq_of_hides (h : w.volume.Hides H v) (fd : Nat) :
    (w.withVolume v).fdFdstatGet fd = w.fdFdstatGet fd := by
  simp only [fdFdstatGet, withVolume_table, withVolume_volume, h.attributes_eq]

theorem fdFilestatGet_eq_of_hides (h : w.volume.Hides H v) (fd : Nat) :
    (w.withVolume v).fdFilestatGet fd = w.fdFilestatGet fd := by
  have hattributes : (w.withVolume v).attributes = w.attributes := by
    funext d
    cases d with
    | file e => exact h.attributes_eq e.handle.ino
    | directory d => exact h.attributes_eq d.ino
    | stdio e => rfl
  rw [fdFilestatGet, fdFilestatGet, withVolume_table, hattributes]

theorem fdFilestatSetTimes_hides (h : w.volume.Hides H v) (fd : Nat) (request : TimeRequest) :
    StepHides H (w.fdFilestatSetTimes fd request)
      ((w.withVolume v).fdFilestatSetTimes fd request) := by
  refine changed_hides h ((Hostcall.Alike.refl _).bind fun u _ hu => ?_)
  subst hu
  refine (Hostcall.Alike.refl _).bind fun d _ hd => ?_
  subst hd
  cases d with
  | file e => exact .ok (h.setTimes e.handle.ino u)
  | directory d => exact .ok (h.setTimes d.ino u)
  | stdio => exact .error _

theorem fdReaddir_eq_of_hides (h : w.volume.Hides H v) (fd : Nat) (buffer : Bytes)
    (cookie : UInt64) :
    (w.withVolume v).fdReaddir fd buffer cookie = w.fdReaddir fd buffer cookie := by
  simp only [fdReaddir, withVolume_table, withVolume_volume, h.entities_eq]

/-! ### Paths -/

theorem pathFilestatGet_eq_of_hides (h : w.volume.Hides H v) (dirfd : Nat) (lookup : LookupFlags)
    (path : String) :
    (w.withVolume v).pathFilestatGet dirfd lookup path = w.pathFilestatGet dirfd lookup path := by
  simp only [pathFilestatGet, withVolume_resolve, withVolume_volume, Resolved.stat_eq_of_hides h]

theorem changed_resolve_hides (h : w.volume.Hides H v) (dirfd : Nat) (path : String)
    {f f' : Resolved → Outcome Volume} (hf : ∀ r, Hostcall.Alike (Volume.Hides H) (f r) (f' r)) :
    StepHides H (w.changed (w.resolve dirfd path >>= f))
      ((w.withVolume v).changed ((w.withVolume v).resolve dirfd path >>= f')) := by
  refine changed_hides h ((Hostcall.Alike.refl _).bind fun r _ hr => ?_)
  subst hr
  exact hf r

theorem pathFilestatSetTimes_hides (h : w.volume.Hides H v) (dirfd : Nat) (lookup : LookupFlags)
    (path : String) (request : TimeRequest) :
    StepHides H (w.pathFilestatSetTimes dirfd lookup path request)
      ((w.withVolume v).pathFilestatSetTimes dirfd lookup path request) := by
  refine changed_hides h ((Hostcall.Alike.refl _).bind fun u _ hu => ?_)
  subst hu
  refine (Hostcall.Alike.refl _).bind fun r _ hr => ?_
  subst hr
  exact r.setTimes_hides h w.ends _ u

theorem pathOpen_hides (h : w.volume.Hides H v) (dirfd : Nat) (lookup : LookupFlags)
    (path : String) (flags : OpenFlags) (rights inheriting : Rights) (fdFlags : FdFlags) :
    StepHides H (w.pathOpen dirfd lookup path flags rights inheriting fdFlags)
      ((w.withVolume v).pathOpen dirfd lookup path flags rights inheriting fdFlags) := by
  simp only [pathOpen, withVolume_resolve, withVolume_ends, withVolume_volume]
  split
  case h_1 => exact ⟨rfl, .mk h⟩
  case h_2 r _ =>
    obtain ⟨hopened, hvolumes⟩ := r.openNode_hides h w.ends
      (lookup.contains LookupFlags.symlinkFollow) flags (Access.ofRights rights) fdFlags
    generalize r.openNode w.volume w.ends _ flags _ fdFlags = o at hopened hvolumes ⊢
    generalize r.openNode v w.ends _ flags _ fdFlags = o' at hopened hvolumes ⊢
    obtain ⟨outcome, u⟩ := o
    obtain ⟨outcome', u'⟩ := o'
    obtain rfl : outcome = outcome' := hopened.symm
    cases outcome with
    | error fault => exact ⟨rfl, .mk hvolumes⟩
    | ok d => exact ⟨rfl, .mk hvolumes⟩

/-! ### Every call -/

/-- Guests that are the same but for the bytes of hidden files get the same answer to every call
that reads none of these files, and are the same but for these bytes after it. -/
theorem call_hides {w' : World} (h : w.Hides H w') {c : Call} (hquiet : ¬ w.ReadsHidden H c) :
    StepHides H (w.call c) (w'.call c) := by
  obtain ⟨h⟩ := h
  cases c with
  | argsGet _ | argsSizesGet | environGet _ | environSizesGet | clockResGet _ | clockTimeGet _ _
  | fdPrestatGet _ | fdPrestatDirName _ _ | procExit _ | randomGet _ => exact ⟨rfl, .mk h⟩
  | fdClose fd => exact (fdClose_hides h fd).changing _
  | fdDatasync fd => exact asking_hides h (fdDatasync_eq_of_hides h fd) _
  | fdFdstatGet fd => exact asking_hides h (fdFdstatGet_eq_of_hides h fd) _
  | fdFdstatSetFlags fd flags => exact (fdFdstatSetFlags_hides h fd flags).changing _
  | fdFilestatGet fd => exact asking_hides h (fdFilestatGet_eq_of_hides h fd) _
  | fdFilestatSetSize fd size => exact (fdFilestatSetSize_hides h fd size).changing _
  | fdFilestatSetTimes fd request => exact (fdFilestatSetTimes_hides h fd request).changing _
  | fdPread fd buffers offset =>
    have hshown : ∀ e, w.table.get? fd = some (.file e) →
        e.access.contains Access.read = true → ¬ H e.handle.ino :=
      fun e he hread hhidden => hquiet ⟨fd, e, rfl, he, hhidden, hread⟩
    exact asking_hides h (fdPread_eq_of_hides h hshown buffers offset) _
  | fdPwrite fd buffers offset => exact (fdPwrite_hides h fd buffers offset).changing _
  | fdRead fd buffers =>
    have hshown : ∀ e, w.table.get? fd = some (.file e) →
        e.access.contains Access.read = true → ¬ H e.handle.ino :=
      fun e he hread hhidden => hquiet ⟨fd, e, rfl, he, hhidden, hread⟩
    exact (fdRead_hides h hshown buffers).changing _
  | fdReaddir fd buffer cookie =>
    exact asking_hides h (fdReaddir_eq_of_hides h fd buffer cookie) _
  | fdRenumber source target => exact (fdRenumber_hides h source target).changing _
  | fdSeek fd offset whence => exact (fdSeek_hides h fd offset whence).changing _
  | fdSync fd => exact asking_hides h (fdDatasync_eq_of_hides h fd) _
  | fdTell fd => exact (fdSeek_hides h fd 0 .current).changing _
  | fdWrite fd buffers => exact (fdWrite_hides h fd buffers).changing _
  | pathCreateDirectory dirfd path =>
    exact (changed_resolve_hides h dirfd path fun r => r.makeDirectory_hides h).changing _
  | pathFilestatGet dirfd lookup path =>
    exact asking_hides h (pathFilestatGet_eq_of_hides h dirfd lookup path) _
  | pathFilestatSetTimes dirfd lookup path request =>
    exact (pathFilestatSetTimes_hides h dirfd lookup path request).changing _
  | pathOpen dirfd lookup path flags rights inheriting fdFlags =>
    exact (pathOpen_hides h dirfd lookup path flags rights inheriting fdFlags).changing _
  | pathRemoveDirectory dirfd path =>
    exact (changed_resolve_hides h dirfd path fun r => r.removeDirectory_hides h).changing _
  | pathUnlinkFile dirfd path =>
    exact (changed_resolve_hides h dirfd path fun r => r.unlink_hides h).changing _

end World

end Hostcall
