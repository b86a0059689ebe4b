import Hostcall.Proofs.Authority
import Hostcall.Proofs.FileCalls
import Hostcall.Proofs.Noninterference
import Hostcall.Proofs.Positions

/-!
# Files as byte stores

However many ids stand for a regular file, their reads, writes, seeks and changes of its size are
those of one byte string with a cursor for each id, and nothing of how the host keeps the file
shows.

* `FileRequest` is a request on a file, `ByteStore.answer` what a byte store makes of it;
* `World.byteStore` is the store that a guest sees behind a node;
* `World.Positioned` holds of every guest, whatever it calls;
* `World.call_eq_byteStore` is one request, `World.run_eq_byteStore` a run of them.
-/

namespace Hostcall

open Handle (positionLimit allowance OutOfReach)

/-! ## Byte stores -/

/-- A request on the file that an id stands for. -/
inductive FileRequest where
  | read (fd : Nat) (buffers : List Bytes)
  | pread (fd : Nat) (buffers : List Bytes) (offset : UInt64)
  | write (fd : Nat) (buffers : List Bytes)
  | pwrite (fd : Nat) (buffers : List Bytes) (offset : UInt64)
  | seek (fd : Nat) (offset : Int64) (whence : Whence)
  | tell (fd : Nat)
  | setSize (fd : Nat) (size : UInt64)
  deriving Repr

namespace FileRequest

/-- The id that a request names. -/
def fd : FileRequest → Nat
  | read fd _ | pread fd _ _ | write fd _ | pwrite fd _ _ | seek fd _ _ | tell fd | setSize fd _ => fd

/-- The call that makes a request. -/
def call : FileRequest → Call
  | read fd buffers => .fdRead fd buffers
  | pread fd buffers offset => .fdPread fd buffers offset
  | write fd buffers => .fdWrite fd buffers
  | pwrite fd buffers offset => .fdPwrite fd buffers offset
  | seek fd offset whence => .fdSeek fd offset whence
  | tell fd => .fdTell fd
  | setSize fd size => .fdFilestatSetSize fd size

end FileRequest

/-- One byte string, with a cursor for each id and the ids whose writes go to its end. -/
structure ByteStore where
  bytes : Bytes
  cursor : Nat → Nat
  appends : Nat → Bool

namespace ByteStore

/-- The store with the cursor of an id elsewhere. -/
def move (s : ByteStore) (fd position : Nat) : ByteStore :=
  { s with cursor := Function.update s.cursor fd position }

/-- The store with other bytes. -/
def store (s : ByteStore) (bytes : Bytes) : ByteStore := { s with bytes }

/-- What a read from a position on takes. -/
def portion (s : ByteStore) (position : Nat) (buffers : List Bytes) : Bytes :=
  (s.bytes.drop position).take (allowance buffers)

/-- What a write offers: the front of the buffers, joined. -/
def offer (buffers : List Bytes) : Bytes := (gather buffers).take (allowance buffers)

/-- The place an offset is counted from. -/
def origin (s : ByteStore) (fd : Nat) : Whence → Nat
  | .set => 0
  | .current => s.cursor fd
  | .endOfFile => s.bytes.length

/-- The answer to what would leave the positions there are. -/
def invalid : Outcome Answer := .error (.ofErrno .invalidArgument)

/-- The answer to a read. -/
def taking (buffers : List Bytes) (taken : Bytes) : Outcome Answer :=
  .ok (.taken (UInt32.ofNat taken.length) (scatter buffers taken))

/-- The answer to a write. -/
def writing (data : Bytes) : Outcome Answer := .ok (.written (UInt32.ofNat data.length))

/-- What a store makes of a request.  Positions and sizes are below `Handle.positionLimit`, and a
write to the end takes as much as has its end there too. -/
def answer (s : ByteStore) : FileRequest → Outcome Answer × ByteStore
  | .read fd buffers =>
    let taken := s.portion (s.cursor fd) buffers
    if OutOfReach (s.cursor fd) (allowance buffers) then (invalid, s)
    else (taking buffers taken, s.move fd (s.cursor fd + taken.length))
  | .pread _ buffers offset =>
    if positionLimit ≤ offset.toNat + allowance buffers then (invalid, s)
    else (taking buffers (s.portion offset.toNat buffers), s)
  | .write fd buffers =>
    let data := offer buffers
    let start := if s.appends fd then s.bytes.length else s.cursor fd
    let accepted := Handle.fitting start data
    if OutOfReach (s.cursor fd) data.length then (invalid, s)
    else if data = [] then (writing [], s)
    else if accepted = [] then (.error (.ofErrno .fileTooLarge), s)
    else
      (writing accepted, (s.store (patched s.bytes start accepted)).move fd (start + accepted.length))
  | .pwrite _ buffers offset =>
    let data := offer buffers
    if positionLimit ≤ offset.toNat + data.length then (invalid, s)
    else (writing data, s.store (patched s.bytes offset.toNat data))
  | .seek fd offset whence =>
    let target : Int := s.origin fd whence + offset.toInt
    if whence = .set ∧ offset < 0 then (.error (.because .invalidArgument "negative seek offset"), s)
    else if 0 ≤ target ∧ target < positionLimit then
      (.ok (.position (UInt64.ofNat target.toNat)), s.move fd target.toNat)
    else (invalid, s)
  | .tell fd => (.ok (.position (UInt64.ofNat (s.cursor fd))), s)
  | .setSize _ size =>
    if positionLimit ≤ size.toNat then (invalid, s)
    else (.ok .done, s.store (resized s.bytes size.toNat))

/-- What a store makes of requests one after another. -/
def answers (s : ByteStore) : List FileRequest → List (Outcome Answer) × ByteStore
  | [] => ([], s)
  | r :: rest =>
    let (first, s) := s.answer r
    let (later, s) := s.answers rest
    (first :: later, s)

@[simp] theorem move_self (s : ByteStore) (fd : Nat) : s.move fd (s.cursor fd) = s := by
  rw [move, Function.update_eq_self]

end ByteStore

/-! ## The store behind a node -/

/-- What a request needs of the file: the access, and for a write at an offset that the handle
does not append. -/
def FileEntry.Allows (e : FileEntry) : FileRequest → Prop
  | .read .. | .pread .. => e.Reads
  | .write .. | .setSize .. => e.Writes
  | .pwrite .. => e.Writes ∧ e.handle.append = false
  | .seek .. | .tell .. => True

namespace World

/-- The store that a guest sees behind a node. -/
def byteStore (w : World) (ino : Ino) : ByteStore where
  bytes := match w.volume.body ino with
    | .file content => content.toList
    | _ => []
  cursor fd := match w.table.get? fd with
    | some (.file e) => e.handle.cursor
    | _ => 0
  appends fd := match w.table.get? fd with
    | some (.file e) => e.handle.append
    | _ => false

/-- A node is a regular file, whether or not it still has a name. -/
def Regular (w : World) (ino : Ino) : Prop := ∃ content, w.volume.body ino = .file content

theorem regular_of_fileType {w : World} {ino : Ino}
    (h : (w.volume.body ino).fileType = .regularFile) : w.Regular ino := by
  rw [Regular]
  cases hbody : w.volume.body ino with
  | file content => exact ⟨content, rfl⟩
  | directory | link | fifo | device | socket =>
    rw [hbody] at h
    cases h

/-- A request names an id that a file is open under with what the request needs. -/
def OpenFor (w : World) (ino : Ino) (r : FileRequest) : Prop :=
  ∃ e, w.table.get? r.fd = some (.file e) ∧ e.handle.ino = ino ∧ e.Allows r

variable {w : World} {fd : Nat} {e : FileEntry} {content : Content} {ino : Ino}

theorem byteStore_stored (hbody : w.volume.body ino = .file content) (content' : Content) :
    (w.stored ino content').byteStore ino = (w.byteStore ino).store content'.toList := by
  rw [byteStore, body_stored hbody]
  rfl

theorem byteStore_placed (he : w.table.get? fd = some (.file e)) (position : Nat) :
    (w.placed fd e position).byteStore ino = (w.byteStore ino).move fd position := by
  have hmoved := get?_placed he position
  simp only [byteStore, ByteStore.move, hmoved, ByteStore.mk.injEq]
  refine ⟨rfl, ?_, ?_⟩
  · funext id
    by_cases hid : id = fd
    · simp [hid, FileEntry.withHandle]
    · simp [hid]
  · funext id
    by_cases hid : id = fd
    · simp [hid, he, FileEntry.withHandle]
    · simp [hid]

/-! ## What requests leave as it is -/

/-- Apart from positions every open file is as it was, and a regular file is still one. -/
structure Continues (ino : Ino) (w w' : World) : Prop where
  positioned : w.Positioned → w'.Positioned
  regular : w.Regular ino → w'.Regular ino
  entry : ∀ fd e, w.table.get? fd = some (.file e) →
    ∃ position, w'.table.get? fd = some (.file (e.withHandle { e.handle with cursor := position }))

namespace Continues

variable {w' w'' : World}

theorem refl (ino : Ino) (w : World) : Continues ino w w :=
  ⟨id, id, fun _ e he => ⟨e.handle.cursor, he⟩⟩

theorem trans (h : Continues ino w w') (h' : Continues ino w' w'') : Continues ino w w'' := by
  refine ⟨h'.positioned ∘ h.positioned, h'.regular ∘ h.regular, fun fd e he => ?_⟩
  obtain ⟨_, hmoved⟩ := h.entry fd e he
  obtain ⟨position, hmoved'⟩ := h'.entry fd _ hmoved
  exact ⟨position, hmoved'⟩

theorem placed (he : w.table.get? fd = some (.file e)) {position : Nat}
    (hposition : position < positionLimit) : Continues ino w (w.placed fd e position) := by
  refine ⟨fun hpositioned id e' he' => ?_, id, fun id e' he' => ?_⟩
  · rw [get?_placed he] at he'
    split at he'
    · cases he'
      exact hposition
    · exact hpositioned id e' he'
  · rw [get?_placed he]
    split
    case isTrue hid =>
      rw [hid, he] at he'
      cases he'
      exact ⟨position, rfl⟩
    case isFalse => exact ⟨e'.handle.cursor, he'⟩

theorem stored (w : World) (ino : Ino) (content' : Content) :
    Continues ino w (w.stored ino content') := by
  refine ⟨id, ?_, fun _ e he => ⟨e.handle.cursor, he⟩⟩
  rintro ⟨content, hbody⟩
  exact ⟨content', body_stored hbody content'⟩

theorem openFor (h : Continues ino w w') {r : FileRequest} (hr : w.OpenFor ino r) :
    w'.OpenFor ino r := by
  obtain ⟨e, he, hino, hallows⟩ := hr
  obtain ⟨position, hmoved⟩ := h.entry _ e he
  refine ⟨_, hmoved, hino, ?_⟩
  cases r <;> exact hallows

end Continues

/-! ## One request -/

/-- A call that does to a node what a store does. -/
structure Refines (ino : Ino) (w : World) (step : Step Answer) (a : Outcome Answer × ByteStore) :
    Prop where
  answer : step.1 = a.1
  store : step.2.byteStore ino = a.2
  continues : Continues ino w step.2

theorem Refines.unchanged (ino : Ino) (w : World) (answer : Outcome Answer) :
    Refines ino w (answer, w) (answer, w.byteStore ino) := ⟨rfl, rfl, .refl ino w⟩

section

variable (he : w.table.get? fd = some (.file e))
  (hbody : w.volume.body e.handle.ino = .file content)

include hbody in
theorem bytes_byteStore : (w.byteStore e.handle.ino).bytes = content.toList := by
  simp [byteStore, hbody]

include he in
theorem cursor_byteStore (ino : Ino) : (w.byteStore ino).cursor fd = e.handle.cursor := by
  simp [byteStore, he]

include he in
theorem appends_byteStore (ino : Ino) : (w.byteStore ino).appends fd = e.handle.append := by
  simp [byteStore, he]

include he hbody

theorem read_refines (haccess : e.Reads) (hcursor : e.handle.cursor < positionLimit)
    (buffers : List Bytes) :
    Refines e.handle.ino w (w.call (.fdRead fd buffers))
      ((w.byteStore e.handle.ino).answer (.read fd buffers)) := by
  simp only [call, changing, fdRead_file he hbody haccess,
    ByteStore.answer, ByteStore.portion, cursor_byteStore he, bytes_byteStore hbody]
  split
  case isTrue => exact .unchanged ..
  case isFalse hreach =>
    refine ⟨rfl, byteStore_placed he _, .placed he ?_⟩
    rw [List.length_take]
    by_contra hpast
    exact hreach ⟨by omega, by omega⟩

theorem pread_refines (haccess : e.Reads) (buffers : List Bytes)
    (offset : UInt64) :
    Refines e.handle.ino w (w.call (.fdPread fd buffers offset))
      ((w.byteStore e.handle.ino).answer (.pread fd buffers offset)) := by
  simp only [call, asking, fdPread_file he hbody haccess,
    ByteStore.answer, ByteStore.portion, bytes_byteStore hbody]
  split <;> exact .unchanged ..

theorem write_refines (haccess : e.Writes) (hcursor : e.handle.cursor < positionLimit)
    (buffers : List Bytes) :
    Refines e.handle.ino w (w.call (.fdWrite fd buffers))
      ((w.byteStore e.handle.ino).answer (.write fd buffers)) := by
  simp only [call, changing, fdWrite_file he hbody haccess,
    ByteStore.answer, ByteStore.offer, cursor_byteStore he, appends_byteStore he,
    bytes_byteStore hbody, Content.length_toList, ← Handle.offered_eq_take]
  rw [Handle.writeStart]
  generalize (if e.handle.append = true then content.size else e.handle.cursor) = start
  by_cases hreach : OutOfReach e.handle.cursor (Handle.offered buffers).length
  · simp only [if_pos hreach]
    exact .unchanged ..
  by_cases hdata : Handle.offered buffers = []
  · simp only [if_neg hreach, if_pos hdata]
    refine ⟨rfl, ?_, .placed he hcursor⟩
    rw [byteStore_placed he, ← cursor_byteStore he e.handle.ino, ByteStore.move_self]
  simp only [if_neg hreach, if_neg hdata]
  by_cases hfull : Handle.fitting start (Handle.offered buffers) = []
  · simp only [if_pos hfull]
    exact .unchanged ..
  · simp only [if_neg hfull]
    have hend := Handle.end_fitting_lt hfull
    generalize Handle.fitting start (Handle.offered buffers) = accepted at hend ⊢
    have he' : (w.stored e.handle.ino (content.write start accepted)).table.get? fd =
        some (.file e) := he
    refine ⟨rfl, ?_, (Continues.stored ..).trans (.placed he' hend)⟩
    rw [byteStore_placed he', byteStore_stored hbody, Content.toList_write_eq_patched]

/-- A write at an offset takes all that is offered, for the end of it is checked first. -/
theorem pwrite_refines (haccess : e.Writes)
    (hplain : e.handle.append = false) (buffers : List Bytes) (offset : UInt64) :
    Refines e.handle.ino w (w.call (.fdPwrite fd buffers offset))
      ((w.byteStore e.handle.ino).answer (.pwrite fd buffers offset)) := by
  simp only [call, changing, fdPwrite_file he hbody haccess,
    ByteStore.answer, ByteStore.offer, bytes_byteStore hbody, ← Handle.offered_eq_take,
    Handle.writeStart, hplain]
  by_cases hreach : positionLimit ≤ offset.toNat + (Handle.offered buffers).length
  · simp only [if_pos hreach]
    exact .unchanged ..
  have hfits : Handle.fitting offset.toNat (Handle.offered buffers) = Handle.offered buffers :=
    Handle.fitting_eq_self (Nat.not_le.mp hreach)
  by_cases hdata : Handle.offered buffers = []
  · simp only [if_neg hreach, if_pos hdata]
    rw [hdata, patched_nil, ← bytes_byteStore hbody]
    exact .unchanged ..
  · simp only [if_neg hreach, if_neg hdata, Bool.false_eq_true, if_false, hfits]
    refine ⟨rfl, ?_, .stored ..⟩
    rw [byteStore_stored hbody, Content.toList_write_eq_patched]

theorem setSize_refines (haccess : e.Writes) (size : UInt64) :
    Refines e.handle.ino w (w.call (.fdFilestatSetSize fd size))
      ((w.byteStore e.handle.ino).answer (.setSize fd size)) := by
  simp only [call, changing, fdFilestatSetSize_file he hbody haccess,
    ByteStore.answer, bytes_byteStore hbody]
  split
  case isTrue => exact .unchanged ..
  case isFalse =>
    refine ⟨rfl, ?_, .stored ..⟩
    rw [byteStore_stored hbody, Content.toList_resize_eq_resized]

theorem origin_byteStore (whence : Whence) :
    (w.byteStore e.handle.ino).origin fd whence = e.handle.origin content.size whence := by
  cases whence with
  | set => rfl
  | current => exact cursor_byteStore he _
  | endOfFile =>
    rw [ByteStore.origin, bytes_byteStore hbody, Content.length_toList]
    rfl

theorem seek_refines (offset : Int64) (whence : Whence) :
    Refines e.handle.ino w (w.call (.fdSeek fd offset whence))
      ((w.byteStore e.handle.ino).answer (.seek fd offset whence)) := by
  simp only [call, changing, fdSeek_file he hbody, ByteStore.answer, origin_byteStore he hbody]
  generalize (e.handle.origin content.size whence : Int) + offset.toInt = target
  split
  case isTrue => exact .unchanged ..
  case isFalse =>
    split
    case isTrue htarget => exact ⟨rfl, byteStore_placed he _, .placed he (by omega)⟩
    case isFalse => exact .unchanged ..

/-- A cursor stands at a position, so it can be sought where it is. -/
theorem tell_refines (hcursor : e.handle.cursor < positionLimit) :
    Refines e.handle.ino w (w.call (.fdTell fd))
      ((w.byteStore e.handle.ino).answer (.tell fd)) := by
  have htell : w.fdTell fd =
      (.ok (UInt64.ofNat e.handle.cursor), w.placed fd e e.handle.cursor) := by
    rw [fdTell, fdSeek_file he hbody]
    simp [Handle.origin, hcursor]
  simp only [call, changing, htell, ByteStore.answer, cursor_byteStore he]
  refine ⟨rfl, ?_, .placed he hcursor⟩
  rw [byteStore_placed he, ← cursor_byteStore he e.handle.ino, ByteStore.move_self]

end

theorem call_eq_byteStore (hw : w.Positioned) (hregular : w.Regular ino) {r : FileRequest}
    (hr : w.OpenFor ino r) :
    Refines ino w (w.call r.call) ((w.byteStore ino).answer r) := by
  obtain ⟨e, he, rfl, hallows⟩ := hr
  obtain ⟨content, hbody⟩ := hregular
  cases r with
  | read fd buffers => exact read_refines he hbody hallows (hw fd e he) buffers
  | pread fd buffers offset => exact pread_refines he hbody hallows buffers offset
  | write fd buffers => exact write_refines he hbody hallows (hw fd e he) buffers
  | pwrite fd buffers offset => exact pwrite_refines he hbody hallows.1 hallows.2 buffers offset
  | seek _ offset whence => exact seek_refines he hbody offset whence
  | tell fd => exact tell_refines he hbody (hw fd e he)
  | setSize fd size => exact setSize_refines he hbody hallows size

/-! ## Runs of requests -/

/-- In a run of requests on a regular file, each on an id that the file is open under with what
the request needs, every answer is that of a byte store, and the store behind the node is in the
end what the requests make of it. -/
theorem run_eq_byteStore (hw : w.Positioned) (hregular : w.Regular ino) (requests : List FileRequest)
    (hopen : ∀ r ∈ requests, w.OpenFor ino r) :
    w.answers (requests.map FileRequest.call) = ((w.byteStore ino).answers requests).1 ∧
      (w.run (requests.map FileRequest.call)).byteStore ino =
        ((w.byteStore ino).answers requests).2 := by
  induction requests generalizing w with
  | nil => exact ⟨rfl, rfl⟩
  | cons r rest ih =>
    obtain ⟨hanswer, hstore, hcontinues⟩ :=
      call_eq_byteStore hw hregular (hopen r List.mem_cons_self)
    -- what the file is open for does not change, so the rest runs on the store that is left
    obtain ⟨hanswers, hfinal⟩ := ih (hcontinues.positioned hw) (hcontinues.regular hregular)
      fun r' hr' => hcontinues.openFor (hopen r' (List.mem_cons_of_mem _ hr'))
    rw [hstore] at hanswers hfinal
    refine ⟨?_, hfinal⟩
    rw [List.map_cons, answers, hanswer, hanswers]
    rfl

/-- Opens a new file twice, the second time to append, and takes its only name off. -/
def sharingCalls : List Call :=
  [.pathOpen 3 .empty "log" OpenFlags.create (Rights.fdRead.union Rights.fdWrite) .empty .empty,
    .pathOpen 3 .empty "log" .empty (Rights.fdRead.union Rights.fdWrite) .empty FdFlags.append,
    .pathUnlinkFile 3 "log"]

/-- A guest that holds a file without a name under two ids. -/
def sharing : World := ((fresh nestedHost default).build [.preopen "guest" [47]]).run sharingCalls

/-- Leaves a gap, appends, and cuts the file below a cursor. -/
def sharedRequests : List FileRequest :=
  [.pwrite 4 [[1, 2], [3]] 2, .write 5 [[4]], .seek 4 (-1) .endOfFile, .read 4 [[0, 0]],
    .setSize 5 3, .tell 4]

theorem sharing_positioned : sharing.Positioned :=
  ((Positioned.fresh nestedHost default).build _).run _

theorem get?_sharing :
    sharing.table.get? 4 = some (.file ⟨⟨3, true, true, false, false, 0⟩, Access.ofRights ⟨0x42⟩⟩) ∧
      sharing.table.get? 5 =
        some (.file ⟨⟨3, true, true, true, false, 0⟩, Access.ofRights ⟨0x42⟩⟩) := by
  decide +kernel

theorem run_eq_byteStore_sharing :
    sharing.Positioned ∧ sharing.Regular 3 ∧ (∀ r ∈ sharedRequests, sharing.OpenFor 3 r) ∧
      sharing.answers (sharedRequests.map FileRequest.call) =
        ((sharing.byteStore 3).answers sharedRequests).1 ∧
      (sharing.run (sharedRequests.map FileRequest.call)).byteStore 3 =
        ((sharing.byteStore 3).answers sharedRequests).2 := by
  have hregular : sharing.Regular 3 := regular_of_fileType (by decide +kernel)
  have hopen : ∀ r ∈ sharedRequests, sharing.OpenFor 3 r := by
    obtain ⟨h4, h5⟩ := get?_sharing
    have hread : (Access.ofRights ⟨0x42⟩).contains Access.read = true := by decide
    have hwrite : (Access.ofRights ⟨0x42⟩).contains Access.write = true := by decide
    simp only [sharedRequests, List.forall_mem_cons]
    exact ⟨⟨_, h4, rfl, ⟨hwrite, rfl⟩, rfl⟩, ⟨_, h5, rfl, hwrite, rfl⟩, ⟨_, h4, rfl, trivial⟩,
      ⟨_, h4, rfl, hread, rfl⟩, ⟨_, h5, rfl, hwrite, rfl⟩, ⟨_, h4, rfl, trivial⟩, nofun⟩
  exact ⟨sharing_positioned, hregular, hopen,
    run_eq_byteStore sharing_positioned hregular sharedRequests hopen⟩

/-- There is a last position: a cursor behind one byte cannot be moved on by as much as an offset
can tell, although nothing is negative there. -/
theorem seek_past_last_position :
    let w := (sharing.call (.fdWrite 4 [[97]])).2
    w.Regular 3 ∧ w.OpenFor 3 (.seek 4 9223372036854775807 .current) ∧
      (w.call (.fdTell 4)).1 = .ok (.position 1) ∧
      (w.call (.fdSeek 4 9223372036854775807 .current)).1 = .error (.ofErrno .invalidArgument) := by
  intro w
  have he : w.table.get? 4 =
      some (.file ⟨⟨3, true, true, false, false, 1⟩, Access.ofRights ⟨0x42⟩⟩) := by
    decide +kernel
  obtain ⟨content, hbody⟩ : w.Regular 3 := regular_of_fileType (by decide +kernel)
  have hlimit : positionLimit = 9223372036854775808 := by decide
  have hfar : (9223372036854775807 : Int64).toInt = 9223372036854775807 := by decide
  refine ⟨⟨content, hbody⟩, ⟨_, he, rfl, trivial⟩, ?_, ?_⟩
  · simp [call, changing, fdTell, fdSeek_file he hbody, Handle.origin, Except.map, hlimit]
  · simp [call, changing, fdSeek_file he hbody, Handle.origin, Except.map, hlimit, hfar]

end World

end Hostcall
