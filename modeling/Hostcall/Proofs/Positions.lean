import Hostcall.Proofs.Building
import Hostcall.Proofs.FileBytes
import Hostcall.Proofs.Transition

/-!
# Positions of open files

Every file that is open stands at a position the host has, from its opening on and whatever is
transferred or sought.

* `Handle.read_cursor_lt`, `Handle.write_cursor_lt` and `Handle.seek_cursor_lt` are the operations
  that move;
* `World.Positioned` says it of a guest, `Positioned.call` and `Positioned.run` that calls keep it,
  and `Positioned.fresh` and `Positioned.build` that a builder begins with it.
-/

namespace Hostcall

open Handle (positionLimit)

namespace Handle

variable {v v' : Volume} {h h' : Handle}

theorem read_cursor_lt {ends : Ends} {sizes : List Nat} {taken : Bytes}
    (hread : h.read v ends sizes = .ok (taken, h', v')) (hlt : h.cursor < positionLimit) :
    h'.cursor < positionLimit := by
  simp only [read] at hread
  split at hread
  · cases hread
  split at hread
  · cases hread
    exact hlt
  split at hread
  case h_1 content _ =>
    split at hread
    · cases hread
    · cases hread
      show h.cursor + (content.slice h.cursor (requested sizes)).length < positionLimit
      rw [Content.slice_eq, List.length_take]
      omega
  case h_2 =>
    split at hread
    · cases hread
      exact hlt
    · split at hread
      · cases hread
        exact hlt
      · cases hread
  case h_3 =>
    cases hread
    exact hlt
  case h_4 => cases hread

theorem write_cursor_lt {ends : Ends} {buffers : List Bytes} {count : Nat}
    (hwrite : h.write v ends buffers = .ok (count, h', v')) (hlt : h.cursor < positionLimit) :
    h'.cursor < positionLimit := by
  simp only [write] at hwrite
  split at hwrite
  · cases hwrite
  split at hwrite
  · cases hwrite
    exact hlt
  split at hwrite
  case h_1 =>
    split at hwrite
    · cases hwrite
    split at hwrite
    · cases hwrite
    case isFalse hfits =>
      cases hwrite
      exact end_fitting_lt hfits
  case h_2 =>
    split at hwrite
    · cases hwrite
    · split at hwrite
      · cases hwrite
      · cases hwrite
        exact hlt
  case h_3 =>
    split at hwrite
    · cases hwrite
    · cases hwrite
      exact hlt
  case h_4 => cases hwrite

theorem seek_cursor_lt {whence : Whence} {offset : Int} {position : Nat}
    (hseek : h.seek v whence offset = .ok (position, h')) (hlt : h.cursor < positionLimit) :
    h'.cursor < positionLimit := by
  cases hbody : v.body h.ino with
  | file content =>
    rw [seek_file hbody] at hseek
    dsimp only at hseek
    split at hseek
    case isTrue htarget =>
      cases hseek
      exact (Int.toNat_lt htarget.1).mpr htarget.2
    case isFalse => cases hseek
  | fifo =>
    simp only [seek, hbody] at hseek
    cases hseek
  | directory | link | device | socket =>
    simp only [seek, hbody] at hseek
    cases hseek
    exact hlt

end Handle

theorem Resolved.openNode_cursor {r : Resolved} {v v' : Volume} {ends : Ino → Ends} {follow : Bool}
    {flags : OpenFlags} {access : Access} {fdFlags : FdFlags} {e : FileEntry}
    (h : r.openNode v ends follow flags access fdFlags = (.ok (.file e), v')) :
    e.handle.cursor = 0 := by
  rw [openNode] at h
  split at h
  · cases h
  split at h
  · split at h
    · cases h
    · obtain ⟨i, -, h⟩ := bind_eq_ok.mp (congrArg Prod.fst h)
      cases h
  · rw [openFile] at h
    split at h
    case h_1 => cases h
    case h_2 =>
      split at h
      · cases h
      · split at h
        · cases h
        · cases h
          rfl

namespace World

/-- Every open file stands at a position. -/
def Positioned (w : World) : Prop :=
  ∀ fd e, w.table.get? fd = some (.file e) → e.handle.cursor < positionLimit

namespace Positioned

variable {w w' : World} {fd : Nat} {e : FileEntry}

/-- Nothing matters but what the ids stand for. -/
theorem of_held (h : w.Positioned)
    (hheld : ∀ fd e, w'.table.get? fd = some (.file e) →
      (∃ id, w.table.get? id = some (.file e)) ∨ e.handle.cursor < positionLimit) :
    w'.Positioned := by
  intro fd e he
  rcases hheld fd e he with ⟨id, hid⟩ | hlt
  · exact h id e hid
  · exact hlt

theorem of_table (h : w.Positioned) (htable : w'.table = w.table) : w'.Positioned :=
  h.of_held fun fd _ he => .inl ⟨fd, htable ▸ he⟩

theorem withStreams (h : w.Positioned) (streams : Streams) : (w.withStreams streams).Positioned :=
  h.of_table rfl

theorem update (h : w.Positioned) (he : e.handle.cursor < positionLimit) :
    (w.update fd (.file e)).Positioned := by
  refine h.of_held fun id e' he' => ?_
  change (w.table.update fd (.file e)).get? id = _ at he'
  rw [Table.get?_update] at he'
  split at he'
  · cases he'
    exact .inr he
  · exact .inl ⟨id, he'⟩

theorem allocate (h : w.Positioned) {d : Descriptor}
    (hd : ∀ e, d = .file e → e.handle.cursor < positionLimit) : (w.allocate d).2.Positioned := by
  refine h.of_held fun id e he => ?_
  change (w.table.allocate d).2.get? id = _ at he
  rw [Table.get?_allocate] at he
  split at he
  · exact .inr (hd e (Option.some.inj he))
  · exact .inl ⟨id, he⟩

theorem setStdio (h : w.Positioned) (kind : StdioKind) (stream : Stream) :
    (w.setStdio kind stream).Positioned := by
  refine h.of_held fun id e he => ?_
  change (w.table.insertAt kind.fd _).2.get? id = _ at he
  rw [Table.get?_insertAt (by cases kind <;> decide)] at he
  split at he
  · cases he
  · exact .inl ⟨id, he⟩

theorem close (h : w.Positioned) (fd : Nat) : (w.withTable (w.table.close fd).2).Positioned := by
  refine h.of_held fun id e he => ?_
  change (w.table.close fd).2.get? id = _ at he
  rw [Table.get?_close] at he
  split at he
  · cases he
  · exact .inl ⟨id, he⟩

theorem renumber (h : w.Positioned) (source target : Nat) :
    (w.withTable (w.table.renumber source target).2).Positioned :=
  h.of_held fun _ _ he => .inl (Table.get?_of_renumber he)

/-! ### Calls -/

theorem fdClose (h : w.Positioned) (fd : Nat) : (w.fdClose fd).2.Positioned := by
  simp only [World.fdClose]
  split
  case h_1 => exact h
  case h_2 d _ =>
    obtain ⟨streams, hstreams⟩ := w.flushed_snd d
    rcases hstep : w.flushed d with ⟨_ | _, w'⟩
    · rw [hstep] at hstreams
      subst hstreams
      exact h
    · rw [hstep] at hstreams
      subst hstreams
      exact h.close fd

theorem fdRenumber (h : w.Positioned) (source target : Nat) :
    (w.fdRenumber source target).2.Positioned := by
  rw [World.fdRenumber]
  obtain ⟨streams, hstreams⟩ := w.flushedTarget_snd source target
  rcases hstep : w.flushedTarget source target with ⟨_ | _, w'⟩
  · rw [hstep] at hstreams
    subst hstreams
    exact h
  · rw [hstep] at hstreams
    subst hstreams
    exact h.renumber source target

theorem fdRead (h : w.Positioned) (fd : Nat) (buffers : List Bytes) :
    (w.fdRead fd buffers).2.Positioned := by
  simp only [World.fdRead]
  split
  case h_1 => exact h
  case h_2 => exact h
  case h_3 => exact h
  case h_4 e hget =>
    split
    case h_1 => exact h
    case h_2 hread =>
      obtain ⟨-, handle, hhost, rfl⟩ := FileEntry.read_eq_ok hread
      have hlt := Handle.read_cursor_lt hhost (h fd e (Table.get?_of_get hget))
      exact h.update (e := e.withHandle handle) hlt

theorem fdWrite (h : w.Positioned) (fd : Nat) (buffers : List Bytes) :
    (w.fdWrite fd buffers).2.Positioned := by
  simp only [World.fdWrite]
  split
  case h_1 => exact h
  case h_2 => exact h
  case h_3 => exact h
  case h_4 e hget =>
    split
    case h_1 => exact h
    case h_2 hwrite =>
      obtain ⟨-, handle, hhost, rfl⟩ := FileEntry.write_eq_ok hwrite
      have hlt := Handle.write_cursor_lt hhost (h fd e (Table.get?_of_get hget))
      exact h.update (e := e.withHandle handle) hlt

theorem fdPwrite (h : w.Positioned) (fd : Nat) (buffers : List Bytes) (offset : UInt64) :
    (w.fdPwrite fd buffers offset).2.Positioned := by
  apply h.of_table
  simp only [World.fdPwrite]
  split
  case h_4 => split <;> rfl
  all_goals rfl

theorem fdSeek (h : w.Positioned) (fd : Nat) (offset : Int64) (whence : Whence) :
    (w.fdSeek fd offset whence).2.Positioned := by
  simp only [World.fdSeek]
  split
  · exact h
  split
  case h_1 => exact h
  case h_2 => exact h
  case h_3 => exact h
  case h_4 e hget =>
    split
    case h_1 => exact h
    case h_2 hseek =>
      obtain ⟨handle, hhost, rfl⟩ := FileEntry.seek_eq_ok hseek
      have hlt := Handle.seek_cursor_lt hhost (h fd e (Table.get?_of_get hget))
      exact h.update (e := e.withHandle handle) hlt

theorem fdFdstatSetFlags (h : w.Positioned) (fd : Nat) (flags : FdFlags) :
    (w.fdFdstatSetFlags fd flags).2.Positioned := by
  rw [World.fdFdstatSetFlags]
  split
  case h_1 => exact h
  case h_2 e hget =>
    split
    case h_1 => exact h
    case h_2 hset =>
      rw [FileEntry.setFlags] at hset
      split at hset
      · cases hset
      · cases hset
        exact h.update (h fd e (get?_of_getFile hget))

theorem pathOpen (h : w.Positioned) (dirfd : Nat) (lookup : LookupFlags) (path : String)
    (flags : OpenFlags) (rights inheriting : Rights) (fdFlags : FdFlags) :
    (w.pathOpen dirfd lookup path flags rights inheriting fdFlags).2.Positioned := by
  rw [World.pathOpen]
  split
  case h_1 => exact h
  case h_2 r _ =>
    rcases hopen : r.openNode w.volume w.ends (lookup.contains LookupFlags.symlinkFollow) flags
      (Access.ofRights rights) fdFlags with ⟨_ | d, v⟩
    · exact h
    · refine Positioned.allocate (w := w.withVolume v) h fun e hd => ?_
      rw [hd] at hopen
      rw [Resolved.openNode_cursor hopen]
      decide

/-- A file that the embedder opened may be given to the guest. -/
theorem pushFile (h : w.Positioned) {handle : Handle} (hlt : handle.cursor < positionLimit)
    (access : Access) : (w.pushFile handle access).2.Positioned := by
  refine h.allocate fun e he => ?_
  cases he
  exact hlt

theorem changed (h : w.Positioned) (outcome : Outcome Volume) :
    (w.changed outcome).2.Positioned := by
  cases outcome <;> exact h

theorem call (h : w.Positioned) (c : Call) : (w.call c).2.Positioned := by
  cases c with
  | fdClose fd => exact h.fdClose fd
  | fdRenumber source target => exact h.fdRenumber source target
  | fdRead fd buffers => exact h.fdRead fd buffers
  | fdWrite fd buffers => exact h.fdWrite fd buffers
  | fdPwrite fd buffers offset => exact h.fdPwrite fd buffers offset
  | fdSeek fd offset whence => exact h.fdSeek fd offset whence
  | fdTell fd => exact h.fdSeek fd 0 .current
  | fdFdstatSetFlags fd flags => exact h.fdFdstatSetFlags fd flags
  | pathOpen dirfd lookup path flags rights inheriting fdFlags =>
    exact h.pathOpen dirfd lookup path flags rights inheriting fdFlags
  -- these change the file system at most
  | fdFilestatSetSize _ _ | fdFilestatSetTimes _ _ | pathCreateDirectory _ _
  | pathFilestatSetTimes _ _ _ _ | pathRemoveDirectory _ _ | pathUnlinkFile _ _ =>
    exact h.changed _
  | argsGet _ | argsSizesGet | environGet _ | environSizesGet | clockResGet _ | clockTimeGet _ _
  | fdDatasync _ | fdFdstatGet _ | fdFilestatGet _ | fdPread _ _ _ | fdPrestatGet _
  | fdPrestatDirName _ _ | fdReaddir _ _ _ | fdSync _ | pathFilestatGet _ _ _ | procExit _
  | randomGet _ => exact h

/-! ### Guests -/

theorem configure (h : w.Positioned) (s : Setting) : (w.configure s).2.Positioned := by
  have hconfigured := w.configure_configured s
  generalize (w.configure s).2 = w' at hconfigured ⊢
  cases hconfigured with
  | refused => exact h
  | strings => exact h
  | stdio kind stream => exact h.setStdio kind stream
  | preopen => exact Positioned.allocate h nofun

theorem fresh (host : Host) (random : KeyStream) : (World.fresh host random).Positioned := by
  have hempty : World.Positioned ⟨⟨.empty, .empty, random, .empty, []⟩, host⟩ := by
    intro fd e he
    change (Table.empty : DescriptorTable).get? fd = _ at he
    rw [Table.get?_empty] at he
    cases he
  have hinput := (hempty.withStreams (host.streams.addReader .empty).2).setStdio .stdin
    (host.streams.addReader .empty).1
  exact (((hinput.withStreams _).setStdio .stdout _).withStreams _).setStdio .stderr _

theorem build (h : w.Positioned) (settings : List Setting) : (w.build settings).Positioned := by
  induction settings generalizing w with
  | nil => exact h
  | cons s rest ih => exact ih (h.configure s)

theorem run (h : w.Positioned) (calls : List Call) : (w.run calls).Positioned :=
  run_keeps (P := Positioned) (fun _ c h => h.call c) h calls

end Positioned

end World

end Hostcall
