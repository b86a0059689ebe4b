import Hostcall.Proofs.FileBytes
import Hostcall.Proofs.Lifecycle

/-!
# Transfers that fail

A transfer that fails moves no bytes, with one exception: what passes a standard stream is counted
only afterwards, and a count that 32 bits do not tell is a failure of a transfer that took place.

* `Reader.Backed` and `Writer.Backed` are the devices over bytes in memory, and `Streams.position`
  says how much has passed one of them;
* `Streams.read_backed` and `Streams.write_backed` are what such a device can do;
* `World.failed_transfer` says of every failing transfer what it leaves;
* `World.write_fills` follows an array behind an output that is filled past what 32 bits count.
-/

namespace Hostcall

/-! ## Devices over bytes in memory -/

/-- A device that reads bytes in memory. -/
def Reader.Backed : Reader → Prop
  | .cursor _ _ => True
  | _ => False

/-- A device that writes bytes in memory. -/
def Writer.Backed : Writer → Prop
  | .memory _ | .fixed _ _ _ => True
  | _ => False

/-- How much was read from a device. -/
def Reader.position : Reader → Nat
  | .cursor _ position => position
  | _ => 0

/-- How much was written to a device. -/
def Writer.position : Writer → Nat
  | .memory data => data.length
  | .fixed _ position _ => position
  | _ => 0

theorem Reader.read_backed {device : Reader} (h : device.Backed) (sizes : List Nat) :
    ∃ taken after, device.read sizes = (.done taken, after) ∧ taken.length ≤ totalSize sizes ∧
      after.position = device.position + taken.length := by
  cases device with
  | cursor data position => exact ⟨_, _, rfl, List.length_take_le _ _, rfl⟩
  | scripted _ | empty => exact h.elim

/-- An array takes all that it has space for. -/
theorem Writer.cut_fst (space : Nat) (buffers : List Bytes) :
    (Writer.cut space buffers).1 = min space (room buffers) := by
  induction buffers generalizing space with
  | nil => simp [cut, room]
  | cons b rest ih =>
    have hroom := room_cons b rest
    rw [cut]
    split
    · have := ih (space - b.length)
      show b.length + (cut (space - b.length) rest).1 = _
      omega
    · show space = _
      omega

theorem Writer.write_backed {device : Writer} (h : device.Backed) (buffers : List Bytes) :
    ∃ count after, device.write buffers = (.done count, after) ∧ count ≤ room buffers ∧
      after.position = device.position + count := by
  cases device with
  | memory data => exact ⟨_, _, rfl, (length_gather buffers).le, List.length_append⟩
  | fixed pieces position size =>
    refine ⟨(cut (size - position) buffers).1, _, rfl, ?_, rfl⟩
    rw [cut_fst]
    exact Nat.min_le_right _ _
  | scripted _ _ | sink => exact h.elim

namespace Streams

/-- A stream over bytes in memory. -/
def Backed (s : Streams) : Stream → Prop
  | .reader pipe => ∃ cell, s.readers[pipe]? = some cell ∧ cell.device.Backed
  | .writer pipe => ∃ cell, s.writers[pipe]? = some cell ∧ cell.device.Backed
  | _ => False

/-- How much has passed a stream. -/
def position (s : Streams) : Stream → Nat
  | .reader pipe => (s.readers[pipe]?.map fun cell => cell.device.position).getD 0
  | .writer pipe => (s.writers[pipe]?.map fun cell => cell.device.position).getD 0
  | _ => 0

theorem setIfInBounds_self {α : Type} {cells : Array α} {pipe : Nat} {cell : α}
    (h : cells[pipe]? = some cell) : cells.setIfInBounds pipe cell = cells := by
  obtain ⟨hlt, rfl⟩ := Array.getElem?_eq_some_iff.mp h
  rw [Array.setIfInBounds, dif_pos hlt, Array.set_getElem_self]

/-- A transfer that a stream over bytes in memory refuses does nothing, and one that it makes
moves it by what it takes. -/
theorem read_backed {s : Streams} {stream : Stream} (h : s.Backed stream) (sizes : List Nat) :
    (∃ fault, s.read stream sizes = (.error fault, s) ∧ fault ≠ .overflow) ∨
      ∃ taken after, s.read stream sizes = (.ok taken, after) ∧
        taken.length ≤ totalSize sizes ∧
        after.position stream = s.position stream + taken.length := by
  cases stream with
  | reader pipe =>
    obtain ⟨cell, hcell, hbacked⟩ := h
    simp only [read, hcell, Cell.read]
    split
    · rw [setIfInBounds_self hcell]
      exact .inl ⟨_, rfl, nofun⟩
    · obtain ⟨taken, after, hread, hlength, hposition⟩ := Reader.read_backed hbacked sizes
      obtain ⟨hlt, rfl⟩ := Array.getElem?_eq_some_iff.mp hcell
      rw [hread, Cell.settle]
      exact .inr ⟨taken, _, rfl, hlength, by simp [position, hlt, hposition]⟩
  | writer _ => exact .inl ⟨_, rfl, nofun⟩
  | plain _ | hostInput | hostOutput | hostErrors => exact h.elim

theorem write_backed {s : Streams} {stream : Stream} (h : s.Backed stream) (buffers : List Bytes) :
    (∃ fault, s.write stream buffers = (.error fault, s) ∧ fault ≠ .overflow) ∨
      ∃ count after, s.write stream buffers = (.ok count, after) ∧
        count ≤ room buffers ∧ after.position stream = s.position stream + count := by
  cases stream with
  | reader _ => exact .inl ⟨_, rfl, nofun⟩
  | writer pipe =>
    obtain ⟨cell, hcell, hbacked⟩ := h
    simp only [write, hcell, Cell.write]
    split
    · rw [setIfInBounds_self hcell]
      exact .inl ⟨_, rfl, nofun⟩
    · obtain ⟨count, after, hwrite, hcount, hposition⟩ := Writer.write_backed hbacked buffers
      obtain ⟨hlt, rfl⟩ := Array.getElem?_eq_some_iff.mp hcell
      rw [hwrite, Cell.settle]
      exact .inr ⟨count, _, rfl, hcount, by simp [position, hlt, hposition]⟩
  | plain _ | hostInput | hostOutput | hostErrors => exact h.elim

end Streams

theorem Handle.writeAt_le {h : Handle} {v v' : Volume} {buffers : List Bytes} {offset count : Nat}
    (hwrite : h.writeAt v buffers offset = .ok (count, v')) : count ≤ transferLimit := by
  have limit := length_offered_le buffers
  simp only [writeAt] at hwrite
  split at hwrite
  · cases hwrite
  split at hwrite
  case h_1 => cases hwrite
  case h_2 =>
    split at hwrite
    · cases hwrite
    split at hwrite
    · cases hwrite
      exact Nat.zero_le _
    split at hwrite
    · cases hwrite
    split at hwrite
    case h_1 =>
      split at hwrite
      · cases hwrite
      · cases hwrite
        exact Nat.le_trans (length_fitting_le _ _) limit
    case h_2 device _ =>
      split at hwrite
      · cases hwrite
      · rename_i accepted haccepted
        cases hwrite
        cases device <;> cases haccepted <;> exact limit
    case h_3 => cases hwrite

/-- The id and the buffers between which a call moves bytes. -/
def Call.transfers? : Call → Option (Nat × List Bytes)
  | .fdRead fd buffers | .fdPread fd buffers _ | .fdWrite fd buffers | .fdPwrite fd buffers _ =>
    some (fd, buffers)
  | _ => none

namespace World

variable {w : World} {fd : Nat} {fault : Fault}

/-- The streams were used for a transfer of more bytes than a guest can be told. -/
def Overran (w : World) (stream : Stream) (buffers : List Bytes) (w' : World) : Prop :=
  ∃ streams moved, w' = w.withStreams streams ∧ UInt32.size ≤ moved ∧ moved ≤ room buffers ∧
    streams.position stream = w.host.streams.position stream + moved

/-- What a transfer of a standard stream leaves when it fails. -/
def FailsBy (w : World) (stream : Stream) (buffers : List Bytes) (fault : Fault) (w' : World) :
    Prop :=
  if fault = .overflow then w.Overran stream buffers w' else w' = w

theorem failsBy_unchanged {stream : Stream} {buffers : List Bytes} (h : fault ≠ .overflow) :
    w.FailsBy stream buffers fault w := by
  rw [FailsBy, if_neg h]

theorem failsBy_overflow {stream : Stream} {buffers : List Bytes} {streams : Streams} {moved : Nat}
    (hlarge : UInt32.size ≤ moved) (hroom : moved ≤ room buffers)
    (hposition : streams.position stream = w.host.streams.position stream + moved) :
    w.FailsBy stream buffers .overflow (w.withStreams streams) := by
  rw [FailsBy, if_pos rfl]
  exact ⟨streams, moved, rfl, hlarge, hroom, hposition⟩

theorem countOf_eq_error {n : Nat} :
    countOf n = .error fault ↔ fault = .overflow ∧ UInt32.size ≤ n := by
  rw [countOf]
  split
  case isTrue hn =>
    constructor
    · rintro ⟨⟩
    · exact fun h => absurd h.2 (Nat.not_le.mpr hn)
  case isFalse hn =>
    constructor
    · rintro ⟨⟩
      exact ⟨rfl, Nat.not_lt.mp hn⟩
    · rintro ⟨rfl, -⟩
      rfl

section

variable {e : StdioEntry} (he : w.table.get? fd = some (.stdio e))
  (hbacked : w.host.streams.Backed e.stream)
include he hbacked

theorem fdRead_stdio_failed {buffers : List Bytes} (h : (w.fdRead fd buffers).1 = .error fault) :
    w.FailsBy e.stream buffers fault (w.fdRead fd buffers).2 := by
  simp only [fdRead, Table.get_of_get? he, StdioEntry.read] at h ⊢
  split at h
  case isFalse hkind =>
    rw [if_neg hkind]
    cases h
    exact failsBy_unchanged fun h => by cases h
  case isTrue hkind =>
    rw [if_pos hkind]
    rcases Streams.read_backed hbacked (buffers.map List.length) with
      ⟨fault', hread, hfault⟩ | ⟨taken, after, hread, hlength, hposition⟩
    · rw [hread] at h ⊢
      cases h
      exact failsBy_unchanged hfault
    · rw [hread] at h ⊢
      -- the stream has moved already, so all that can have failed is the count
      obtain ⟨rfl, hlarge⟩ := countOf_eq_error.mp (map_eq_error.mp h)
      exact failsBy_overflow hlarge hlength hposition

theorem fdWrite_stdio_failed {buffers : List Bytes} (h : (w.fdWrite fd buffers).1 = .error fault) :
    w.FailsBy e.stream buffers fault (w.fdWrite fd buffers).2 := by
  simp only [fdWrite, Table.get_of_get? he, StdioEntry.write] at h ⊢
  split at h
  case isFalse hkind =>
    rw [if_neg hkind]
    cases h
    exact failsBy_unchanged fun h => by cases h
  case isTrue hkind =>
    rw [if_pos hkind]
    rcases Streams.write_backed hbacked buffers with
      ⟨fault', hwrite, hfault⟩ | ⟨count, after, hwrite, hcount, hposition⟩
    · rw [hwrite] at h ⊢
      cases h
      exact failsBy_unchanged hfault
    · rw [hwrite] at h ⊢
      obtain ⟨rfl, hlarge⟩ := countOf_eq_error.mp (show countOf count = .error fault from h)
      exact failsBy_overflow hlarge hcount hposition

end

/-! ## Files -/

section

variable {e : FileEntry} (he : w.table.get? fd = some (.file e))
include he

/-- Nothing fails behind the host's own read, for it never gives more than 32 bits count. -/
theorem fdRead_file_failed {buffers : List Bytes} (h : (w.fdRead fd buffers).1 = .error fault) :
    (w.fdRead fd buffers).2 = w := by
  simp only [fdRead, Table.get_of_get? he] at h ⊢
  split at h
  case h_1 => rfl
  case h_2 taken e' volume hread =>
    obtain ⟨-, handle, hhost, rfl⟩ := FileEntry.read_eq_ok hread
    obtain ⟨-, hlength⟩ := Handle.read_moves hhost
    rw [inBuffers, countOf_of_le_transferLimit hlength] at h
    cases h

theorem fdWrite_file_failed {buffers : List Bytes} (h : (w.fdWrite fd buffers).1 = .error fault) :
    (w.fdWrite fd buffers).2 = w := by
  simp only [fdWrite, Table.get_of_get? he] at h ⊢
  split at h
  case h_1 => rfl
  case h_2 count e' volume hwrite =>
    obtain ⟨-, handle, hhost, rfl⟩ := FileEntry.write_eq_ok hwrite
    obtain ⟨-, hcount⟩ := Handle.write_moves hhost
    rw [countOf_of_le_transferLimit hcount] at h
    cases h

theorem fdPwrite_file_failed {buffers : List Bytes} {offset : UInt64}
    (h : (w.fdPwrite fd buffers offset).1 = .error fault) :
    (w.fdPwrite fd buffers offset).2 = w := by
  simp only [fdPwrite, Table.get_of_get? he] at h ⊢
  split at h
  case h_1 => rfl
  case h_2 count volume hwrite =>
    obtain ⟨-, hhost⟩ := FileEntry.writeAt_eq_ok hwrite
    rw [countOf_of_le_transferLimit (Handle.writeAt_le hhost)] at h
    cases h

end

/-- A call that does not get as far as a transfer changes nothing. -/
theorem transfer_refused {c : Call} {buffers : List Bytes} (hc : c.transfers? = some (fd, buffers))
    (hfile : ∀ e, w.table.get? fd ≠ some (.file e))
    (hstdio : ∀ e, w.table.get? fd ≠ some (.stdio e)) : (w.call c).2 = w := by
  have hother : (∃ d, w.table.get fd = .ok (.directory d)) ∨ ∃ f, w.table.get fd = .error f := by
    rw [Table.get]
    cases hget : w.table.get? fd with
    | none => exact .inr ⟨_, rfl⟩
    | some d =>
      cases d with
      | directory d => exact .inl ⟨d, rfl⟩
      | file e => exact absurd hget (hfile e)
      | stdio e => exact absurd hget (hstdio e)
  cases c with
  | fdPread => rfl
  | fdRead _ _ | fdWrite _ _ | fdPwrite _ _ _ =>
    cases hc
    simp only [call, changing, fdRead, fdWrite, fdPwrite]
    rcases hother with ⟨d, hget⟩ | ⟨f, hget⟩ <;> rw [hget]
  | _ => cases hc

theorem transfer_file_failed {c : Call} {buffers : List Bytes} {e : FileEntry}
    (hc : c.transfers? = some (fd, buffers)) (he : w.table.get? fd = some (.file e))
    (hfail : (w.call c).1 = .error fault) : (w.call c).2 = w := by
  cases c with
  | fdPread => rfl
  | fdRead =>
    cases hc
    exact fdRead_file_failed he (map_eq_error.mp hfail)
  | fdWrite =>
    cases hc
    exact fdWrite_file_failed he (map_eq_error.mp hfail)
  | fdPwrite =>
    cases hc
    exact fdPwrite_file_failed he (map_eq_error.mp hfail)
  | _ => cases hc

theorem transfer_stdio_failed {c : Call} {buffers : List Bytes} {e : StdioEntry}
    (hc : c.transfers? = some (fd, buffers)) (he : w.table.get? fd = some (.stdio e))
    (hbacked : w.host.streams.Backed e.stream) (hfail : (w.call c).1 = .error fault) :
    w.FailsBy e.stream buffers fault (w.call c).2 := by
  cases c with
  | fdRead =>
    cases hc
    exact fdRead_stdio_failed he hbacked (map_eq_error.mp hfail)
  | fdWrite =>
    cases hc
    exact fdWrite_stdio_failed he hbacked (map_eq_error.mp hfail)
  | fdPread _ _ offset =>
    cases hc
    have hrefused : w.fdPread fd buffers offset = .error noPosition := by
      rw [fdPread, Table.get_of_get? he]
      rfl
    have hfault := map_eq_error.mp hfail
    rw [hrefused] at hfault
    cases hfault
    exact failsBy_unchanged nofun
  | fdPwrite _ _ offset =>
    cases hc
    have hrefused : w.fdPwrite fd buffers offset = (.error noPosition, w) := by
      simp only [fdPwrite, Table.get_of_get? he]
    simp only [call, changing, hrefused] at hfail ⊢
    cases map_eq_error.mp hfail
    exact failsBy_unchanged nofun
  | _ => cases hc

/-- A transfer that fails leaves everything as it was, unless it was on a standard stream over
bytes in memory and more bytes passed than the guest can be told: then it fails with an overflow
after the stream has moved.  Buffers of less than that are safe. -/
theorem failed_transfer {c : Call} {buffers : List Bytes}
    (hc : c.transfers? = some (fd, buffers))
    (hbacked : ∀ e, w.table.get? fd = some (.stdio e) → w.host.streams.Backed e.stream)
    (hfail : (w.call c).1 = .error fault) :
    ((∀ e, w.table.get? fd ≠ some (.stdio e)) → (w.call c).2 = w) ∧
    (∀ e, w.table.get? fd = some (.stdio e) → w.FailsBy e.stream buffers fault (w.call c).2) ∧
    (room buffers < UInt32.size → (w.call c).2 = w) := by
  have hother (hstdio : ∀ e, w.table.get? fd ≠ some (.stdio e)) : (w.call c).2 = w := by
    by_cases hfile : ∃ e, w.table.get? fd = some (.file e)
    · obtain ⟨e, he⟩ := hfile
      exact transfer_file_failed hc he hfail
    · exact transfer_refused hc (fun e he => hfile ⟨e, he⟩) hstdio
  have hstdio (e : StdioEntry) (he : w.table.get? fd = some (.stdio e)) :
      w.FailsBy e.stream buffers fault (w.call c).2 :=
    transfer_stdio_failed hc he (hbacked e he) hfail
  refine ⟨hother, hstdio, fun hsmall => ?_⟩
  by_cases hopen : ∃ e, w.table.get? fd = some (.stdio e)
  · obtain ⟨e, he⟩ := hopen
    have hleft := hstdio e he
    rw [FailsBy] at hleft
    split at hleft
    · obtain ⟨_, moved, -, hlarge, hroom, -⟩ := hleft
      omega
    · exact hleft
  · exact hother fun e he => hopen ⟨e, he⟩

/-! ## Arrays behind outputs -/

/-- An id writes to an array of some size, of which so much is written. -/
structure Fills (w : World) (fd pipe position size : Nat) : Prop where
  opened : ∃ kind, w.table.get? fd = some (.stdio ⟨kind, .writer pipe⟩) ∧
    kind.access.contains Access.write = true
  array : ∃ pieces, w.host.streams.writers[pipe]? = some (.new (.fixed pieces position size))

/-- A write to an array takes all that there is space for, also when it cannot tell how much. -/
theorem write_fills {pipe position size count : Nat} {buffers : List Bytes}
    (h : w.Fills fd pipe position size) (hroom : min (size - position) (room buffers) = count) :
    (w.call (.fdWrite fd buffers)).1 = (countOf count).map .written ∧
      (w.call (.fdWrite fd buffers)).2.Fills fd pipe (position + count) size := by
  obtain ⟨kind, hopen, hwrites⟩ := h.opened
  obtain ⟨pieces, hcell⟩ := h.array
  obtain ⟨hlt, -⟩ := Array.getElem?_eq_some_iff.mp hcell
  have hcount : (Writer.cut (size - position) buffers).1 = count :=
    (Writer.cut_fst _ _).trans hroom
  let cell : Cell Writer :=
    .new (.fixed (pieces ++ (Writer.cut (size - position) buffers).2) (position + count) size)
  let writers := w.host.streams.writers.setIfInBounds pipe cell
  have hwrite : w.fdWrite fd buffers =
      (countOf count, w.withStreams { w.host.streams with writers }) := by
    simp only [fdWrite, Table.get_of_get? hopen, StdioEntry.write, if_pos hwrites, Streams.write,
      hcell, writers, cell, ← hcount]
    rfl
  rw [call, changing, hwrite]
  exact ⟨rfl, ⟨kind, hopen, hwrites⟩, _, Array.getElem?_setIfInBounds_self_of_lt hlt⟩

/-- A host with an array behind a pipe that is larger than 32 bits count. -/
def wideHost : Host :=
  ⟨.new default, ⟨#[], #[.new (.ofSize UInt32.size)], default⟩, default, []⟩

/-- A guest whose output goes to that array. -/
def wide : World := ((fresh wideHost default).configure (.stdio .stdout (.writer 0))).2

/-- Buffers that fill the array: four thousand and ninety-six times the same mebibyte. -/
def wideBuffers : List Bytes := List.replicate 4096 (List.replicate 1048576 97)

theorem room_replicate (count : Nat) (b : Bytes) :
    room (List.replicate count b) = count * b.length := by
  induction count with
  | zero => simp [room]
  | succ count ih =>
    rw [List.replicate_succ, room_cons, ih]
    grind

theorem room_wideBuffers : room wideBuffers = UInt32.size := by
  rw [wideBuffers, room_replicate, List.length_replicate]

theorem wide_open : wide.table.get? 1 = some (.stdio ⟨.stdout, .writer 0⟩) := by rfl

theorem wide_fills : wide.Fills 1 0 0 UInt32.size :=
  ⟨⟨.stdout, wide_open, by decide⟩, [], rfl⟩

/-- The array takes more than the guest can be told, and is full afterwards. -/
theorem wide_overflow :
    (wide.call (.fdWrite 1 wideBuffers)).1 = .error .overflow ∧
      (wide.call (.fdWrite 1 wideBuffers)).2.Fills 1 0 UInt32.size UInt32.size := by
  -- the buffers themselves are far too many to evaluate, and their room is all that counts
  have hroom : min (UInt32.size - 0) (room wideBuffers) = UInt32.size := by
    rw [room_wideBuffers, Nat.sub_zero, Nat.min_self]
  have hcount : countOf UInt32.size = .error .overflow :=
    countOf_eq_error.mpr ⟨rfl, Nat.le_refl _⟩
  obtain ⟨hanswer, hfull⟩ := write_fills wide_fills hroom
  rw [Nat.zero_add] at hfull
  rw [hcount] at hanswer
  exact ⟨hanswer, hfull⟩

theorem failed_transfer_wide :
    wide.host.streams.Backed (.writer 0) ∧
      (wide.call (.fdWrite 1 wideBuffers)).1 = .error .overflow ∧
      wide.Overran (.writer 0) wideBuffers (wide.call (.fdWrite 1 wideBuffers)).2 := by
  have hbacked : wide.host.streams.Backed (.writer 0) := ⟨_, rfl, trivial⟩
  have hopen (e : StdioEntry) (he : wide.table.get? 1 = some (.stdio e)) :
      wide.host.streams.Backed e.stream := by
    cases wide_open.symm.trans he
    exact hbacked
  have hleft := (failed_transfer (c := .fdWrite 1 wideBuffers) rfl hopen wide_overflow.1).2.1 _
    wide_open
  rw [FailsBy, if_pos rfl] at hleft
  exact ⟨hbacked, wide_overflow.1, hleft⟩

/-- A write that fails is not as if it had never been made: it leaves no space behind for the byte
that could be written before. -/
theorem failed_write_fills_array :
    (wide.call (.fdWrite 1 wideBuffers)).1 = .error .overflow ∧
      (wide.call (.fdWrite 1 [[97]])).1 = .ok (.written 1) ∧
      ((wide.call (.fdWrite 1 wideBuffers)).2.call (.fdWrite 1 [[97]])).1 = .ok (.written 0) := by
  obtain ⟨hfail, hfull⟩ := wide_overflow
  have hspace : min (UInt32.size - 0) (room [[97]]) = 1 := by decide
  have hnone : min (UInt32.size - UInt32.size) (room [[97]]) = 0 := by decide
  exact ⟨hfail, (write_fills wide_fills hspace).1, (write_fills hfull hnone).1⟩

end World

end Hostcall
