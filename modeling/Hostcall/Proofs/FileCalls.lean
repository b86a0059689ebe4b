import Hostcall.Proofs.FileBytes
import Hostcall.Proofs.Lifecycle

/-!
# Calls on a regular file

What the calls that transfer, seek and set a size do to a regular file that is open under an id:
their answer, the bytes of the file and where the descriptor stands afterwards.

* `FileEntry.Reads` and `FileEntry.Writes` are the access that a guest has and can use;
* `World.placed` and `World.stored` are the only changes these calls make;
* each `_file` lemma is the equation of one call.
-/

namespace Hostcall

open Handle (positionLimit allowance OutOfReach)

/-- A file that the guest may read and the host lets be read. -/
def FileEntry.Reads (e : FileEntry) : Prop :=
  e.access.contains Access.read = true ∧ e.handle.readable = true

/-- A file that the guest may write and the host lets be written. -/
def FileEntry.Writes (e : FileEntry) : Prop :=
  e.access.contains Access.write = true ∧ e.handle.writable = true

namespace FileEntry

variable {e : FileEntry} (v : Volume)

theorem read_eq (h : e.access.contains Access.read = true) (ends : Ends) (sizes : List Nat) :
    e.read v ends sizes =
      (fromHost (e.handle.read v ends sizes)).map fun r => (r.1, e.withHandle r.2.1, r.2.2) := by
  rw [read, require, if_pos h]
  rcases e.handle.read v ends sizes with _ | ⟨_, _, _⟩ <;> rfl

theorem readAt_eq (h : e.access.contains Access.read = true) (sizes : List Nat) (offset : UInt64) :
    e.readAt v sizes offset = fromHost (e.handle.readAt v sizes offset.toNat) := by
  rw [readAt, require, if_pos h]
  rfl

theorem write_eq (h : e.access.contains Access.write = true) (ends : Ends) (buffers : List Bytes) :
    e.write v ends buffers =
      (fromHost (e.handle.write v ends buffers)).map fun r => (r.1, e.withHandle r.2.1, r.2.2) := by
  rw [write, require, if_pos h]
  rcases e.handle.write v ends buffers with _ | ⟨_, _, _⟩ <;> rfl

theorem writeAt_eq (h : e.access.contains Access.write = true) (buffers : List Bytes)
    (offset : UInt64) :
    e.writeAt v buffers offset = fromHost (e.handle.writeAt v buffers offset.toNat) := by
  rw [writeAt, require, if_pos h]
  rfl

theorem setSize_eq (h : e.access.contains Access.write = true) (size : UInt64) :
    e.setSize v size = fromHost (e.handle.setSize v size.toNat) := by
  rw [setSize, require, if_pos h]
  rfl

end FileEntry

theorem countOf_length_take (s : Bytes) (buffers : List Bytes) :
    countOf (s.take (allowance buffers)).length =
      .ok (UInt32.ofNat (s.take (allowance buffers)).length) := by
  apply countOf_of_le_transferLimit
  rw [List.length_take, allowance]
  omega

theorem countOf_length_fitting (start : Nat) (buffers : List Bytes) :
    countOf (Handle.fitting start (Handle.offered buffers)).length =
      .ok (UInt32.ofNat (Handle.fitting start (Handle.offered buffers)).length) :=
  countOf_of_le_transferLimit
    (Nat.le_trans (Handle.length_fitting_le ..) (Handle.length_offered_le buffers))

namespace World

/-- The world in which a file stands at another position. -/
def placed (w : World) (fd : Nat) (e : FileEntry) (position : Nat) : World :=
  w.update fd (.file (e.withHandle { e.handle with cursor := position }))

/-- The world in which a node holds another content. -/
def stored (w : World) (ino : Ino) (content : Content) : World :=
  w.withVolume (w.volume.replaceBody ino (.file content))

variable {w : World} {fd : Nat} {e : FileEntry} {content : Content} {ino : Ino}

theorem body_stored (hbody : w.volume.body ino = .file content) (content' : Content) :
    (w.stored ino content').volume.body ino = .file content' := by
  show (w.volume.replaceBody ino (.file content')).body ino = _
  rw [Volume.body_replaceBody, if_pos ⟨rfl, Volume.lt_size_of_body_file hbody⟩]

theorem get?_placed (he : w.table.get? fd = some (.file e)) (position id : Nat) :
    (w.placed fd e position).table.get? id =
      if id = fd then some (.file (e.withHandle { e.handle with cursor := position }))
      else w.table.get? id := by
  have hopen : w.table.contains fd = true := Table.contains_iff.mpr ⟨_, he⟩
  show (w.table.update fd _).get? id = _
  rw [Table.get?_update]
  simp [hopen]

section

variable (he : w.table.get? fd = some (.file e))
  (hbody : w.volume.body e.handle.ino = .file content)
include he hbody

theorem fdRead_file (haccess : e.Reads) (buffers : List Bytes) :
    w.fdRead fd buffers =
      let taken := (content.toList.drop e.handle.cursor).take (allowance buffers)
      if OutOfReach e.handle.cursor (allowance buffers) then (.error (.ofErrno .invalidArgument), w)
      else
        (.ok (UInt32.ofNat taken.length, scatter buffers taken),
          w.placed fd e (e.handle.cursor + taken.length)) := by
  simp only [fdRead, Table.get_of_get? he, FileEntry.read_eq _ haccess.1,
    Handle.read_file hbody haccess.2, Handle.requested_map_length]
  by_cases hreach : OutOfReach e.handle.cursor (allowance buffers)
  · simp only [if_pos hreach]
    rfl
  · have hcount := countOf_length_take (content.toList.drop e.handle.cursor) buffers
    simp only [if_neg hreach, fromHost, Except.map, inBuffers, hcount]
    rfl

theorem fdPread_file (haccess : e.Reads) (buffers : List Bytes) (offset : UInt64) :
    w.fdPread fd buffers offset =
      let taken := (content.toList.drop offset.toNat).take (allowance buffers)
      if positionLimit ≤ offset.toNat + allowance buffers then
        .error (.ofErrno .invalidArgument)
      else .ok (UInt32.ofNat taken.length, scatter buffers taken) := by
  have hread : w.fdPread fd buffers offset =
      e.readAt w.volume (buffers.map List.length) offset >>= inBuffers buffers := by
    rw [fdPread, Table.get_of_get? he]
    rfl
  rw [hread, FileEntry.readAt_eq _ haccess.1, Handle.readAt_file hbody haccess.2,
    Handle.requested_map_length]
  split
  case isTrue => rfl
  case isFalse =>
    have hcount := countOf_length_take (content.toList.drop offset.toNat) buffers
    simp only [fromHost, bind, Except.bind, inBuffers, hcount]
    rfl

theorem fdWrite_file (haccess : e.Writes) (buffers : List Bytes) :
    w.fdWrite fd buffers =
      let data := Handle.offered buffers
      let start := Handle.writeStart e.handle.append content.size e.handle.cursor
      let accepted := Handle.fitting start data
      if OutOfReach e.handle.cursor data.length then (.error (.ofErrno .invalidArgument), w)
      else if data = [] then (.ok 0, w.placed fd e e.handle.cursor)
      else if accepted = [] then (.error (.ofErrno .fileTooLarge), w)
      else
        (.ok (UInt32.ofNat accepted.length),
          (w.stored e.handle.ino (content.write start accepted)).placed fd e
            (start + accepted.length)) := by
  simp only [fdWrite, Table.get_of_get? he, FileEntry.write_eq _ haccess.1,
    Handle.write_file hbody haccess.2]
  generalize Handle.writeStart e.handle.append content.size e.handle.cursor = start
  by_cases hreach : OutOfReach e.handle.cursor (Handle.offered buffers).length
  · simp only [if_pos hreach]
    rfl
  by_cases hdata : Handle.offered buffers = []
  · simp only [if_neg hreach, if_pos hdata]
    rfl
  by_cases hfull : Handle.fitting start (Handle.offered buffers) = []
  · simp only [if_neg hreach, if_neg hdata, if_pos hfull]
    rfl
  · simp only [if_neg hreach, if_neg hdata, if_neg hfull, fromHost, Except.map,
      countOf_length_fitting]
    rfl

theorem fdPwrite_file (haccess : e.Writes) (buffers : List Bytes) (offset : UInt64) :
    w.fdPwrite fd buffers offset =
      let data := Handle.offered buffers
      let start := Handle.writeStart e.handle.append content.size offset.toNat
      let accepted := Handle.fitting start data
      if positionLimit ≤ offset.toNat + data.length then
        (.error (.ofErrno .invalidArgument), w)
      else if data = [] then (.ok 0, w)
      else if accepted = [] then (.error (.ofErrno .fileTooLarge), w)
      else
        (.ok (UInt32.ofNat accepted.length),
          w.stored e.handle.ino (content.write start accepted)) := by
  simp only [fdPwrite, Table.get_of_get? he, FileEntry.writeAt_eq _ haccess.1,
    Handle.writeAt_file hbody haccess.2]
  generalize Handle.writeStart e.handle.append content.size offset.toNat = start
  by_cases hreach : positionLimit ≤ offset.toNat + (Handle.offered buffers).length
  · simp only [if_pos hreach]
    rfl
  by_cases hdata : Handle.offered buffers = []
  · simp only [if_neg hreach, if_pos hdata]
    rfl
  by_cases hfull : Handle.fitting start (Handle.offered buffers) = []
  · simp only [if_neg hreach, if_neg hdata, if_pos hfull]
    rfl
  · simp only [if_neg hreach, if_neg hdata, if_neg hfull, fromHost, countOf_length_fitting]
    rfl

theorem fdFilestatSetSize_file (haccess : e.Writes) (size : UInt64) :
    w.fdFilestatSetSize fd size =
      if positionLimit ≤ size.toNat then (.error (.ofErrno .invalidArgument), w)
      else (.ok (), w.stored e.handle.ino (content.resize size.toNat)) := by
  have hset : w.fdFilestatSetSize fd size = w.changed (e.setSize w.volume size) := by
    rw [fdFilestatSetSize, DescriptorTable.getFile, Table.get_of_get? he]
    rfl
  rw [hset, FileEntry.setSize_eq _ haccess.1, Handle.setSize_file hbody haccess.2]
  split <;> rfl

theorem fdSeek_file (offset : Int64) (whence : Whence) :
    w.fdSeek fd offset whence =
      let target := (e.handle.origin content.size whence : Int) + offset.toInt
      if whence = .set ∧ offset < 0 then
        (.error (.because .invalidArgument "negative seek offset"), w)
      else if 0 ≤ target ∧ target < positionLimit then
        (.ok (UInt64.ofNat target.toNat), w.placed fd e target.toNat)
      else (.error (.ofErrno .invalidArgument), w) := by
  simp only [fdSeek, Table.get_of_get? he, FileEntry.seek, Handle.seek_file hbody]
  split
  case isTrue => rfl
  case isFalse =>
    generalize (e.handle.origin content.size whence : Int) + offset.toInt = target
    by_cases htarget : 0 ≤ target ∧ target < positionLimit
    · simp only [if_pos htarget]
      rfl
    · simp only [if_neg htarget]
      rfl

end

end World

end Hostcall
