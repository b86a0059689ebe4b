import Hostcall.Descriptor
import Hostcall.Proofs.Volume
import Mathlib.Data.List.OfFn

/-!
# Regular files as byte strings

What transfers, positions and sizes do to a regular file, told of the bytes of the file alone.

* `byteAt` is the byte at a place of a file; `patched` and `resized` are a file after a write and
  after a change of its size, given by the byte at each place;
* `allowance` is how much a transfer moves at most, `OutOfReach` where it would end too far;
* `Content.toList_write_eq_patched` and `Content.toList_resize_eq_resized` say that the runs which
  a content is kept as never show;
* the lemmas on `Handle` give each operation on a regular file in these terms.
-/

namespace Hostcall

/-! ## Places of a file -/

/-- The byte at a place of a file, which is zero behind its end. -/
def byteAt (s : Bytes) (place : Nat) : UInt8 := s.getD place 0

/-- A file after data was written at an offset.  A gap before the data is zeros, and no data
changes nothing. -/
def patched (s : Bytes) (offset : Nat) (data : Bytes) : Bytes :=
  if data = [] then s
  else List.ofFn fun place : Fin (max s.length (offset + data.length)) =>
    if offset ≤ place ∧ place < offset + data.length then byteAt data (place - offset)
    else byteAt s place

/-- A file of another size.  What is cut off is lost, and what is added is zeros. -/
def resized (s : Bytes) (size : Nat) : Bytes := List.ofFn fun place : Fin size => byteAt s place

variable {s data : Bytes} {place : Nat}

theorem byteAt_of_lt (h : place < s.length) : byteAt s place = s[place] := by
  simp [byteAt, h]

theorem byteAt_of_le (h : s.length ≤ place) : byteAt s place = 0 := by
  simp [byteAt, h]

theorem byteAt_append (s t : Bytes) (place : Nat) : byteAt (s ++ t) place =
    if place < s.length then byteAt s place else byteAt t (place - s.length) := by
  simp only [byteAt]
  grind

theorem byteAt_take (n : Nat) (s : Bytes) (place : Nat) :
    byteAt (s.take n) place = if place < n then byteAt s place else 0 := by
  simp only [byteAt]
  grind

theorem byteAt_drop (n : Nat) (s : Bytes) (place : Nat) :
    byteAt (s.drop n) place = byteAt s (n + place) := by
  simp [byteAt]

@[simp] theorem byteAt_replicate (n place : Nat) : byteAt (List.replicate n 0) place = 0 := by
  simp only [byteAt]
  grind

@[simp] theorem patched_nil (s : Bytes) (offset : Nat) : patched s offset [] = s := rfl

theorem length_patched (h : data ≠ []) (s : Bytes) (offset : Nat) :
    (patched s offset data).length = max s.length (offset + data.length) := by
  simp [patched, h]

@[simp] theorem length_resized (s : Bytes) (size : Nat) : (resized s size).length = size := by
  simp [resized]

/-- Every place of a patched file holds what was written there, or else what it held before. -/
theorem byteAt_patched (s : Bytes) (offset : Nat) (data : Bytes) (place : Nat) :
    byteAt (patched s offset data) place =
      if offset ≤ place ∧ place < offset + data.length then byteAt data (place - offset)
      else byteAt s place := by
  by_cases h : data = []
  · rw [h, patched_nil, if_neg (by simp)]
  have hlength := length_patched h s offset
  by_cases hplace : place < (patched s offset data).length
  · rw [byteAt_of_lt hplace]
    simp [patched, h]
  · rw [byteAt_of_le (Nat.not_lt.mp hplace), if_neg (by omega), byteAt_of_le (by omega)]

theorem byteAt_resized (s : Bytes) (size place : Nat) :
    byteAt (resized s size) place = if place < size then byteAt s place else 0 := by
  split
  case isTrue h =>
    rw [byteAt_of_lt (by rwa [length_resized])]
    simp [resized]
  case isFalse h => exact byteAt_of_le (by rw [length_resized]; omega)

theorem eq_of_byteAt_eq {s t : Bytes} (hlength : s.length = t.length)
    (h : ∀ place, byteAt s place = byteAt t place) : s = t := by
  apply List.ext_getElem hlength
  intro place hs ht
  rw [← byteAt_of_lt hs, ← byteAt_of_lt ht, h]

/-- Data written at the end is appended. -/
theorem patched_length (s data : Bytes) : patched s s.length data = s ++ data := by
  by_cases h : data = []
  · rw [h, patched_nil, List.append_nil]
  apply eq_of_byteAt_eq
  · rw [length_patched h, List.length_append]
    omega
  · intro place
    rw [byteAt_patched, byteAt_append]
    grind [byteAt_of_le]

namespace Content

/-- A write on the runs of a content is a write on its bytes. -/
theorem toList_write_eq_patched (c : Content) (offset : Nat) (data : Bytes) :
    (c.write offset data).toList = patched c.toList offset data := by
  by_cases h : data = []
  · rw [h, write_nil, patched_nil]
  have hlength := c.length_toList
  apply eq_of_byteAt_eq
  · rw [toList_write c offset h, length_patched h]
    simp
    omega
  · intro place
    rw [byteAt_patched, toList_write c offset h]
    simp only [byteAt_append, byteAt_take, byteAt_drop, byteAt_replicate, List.length_append,
      List.length_take, List.length_replicate]
    -- the place lies before the gap, in it, in the data or behind the data
    grind [byteAt_of_le]

theorem toList_resize_eq_resized (c : Content) (size : Nat) :
    (c.resize size).toList = resized c.toList size := by
  have hlength := c.length_toList
  apply eq_of_byteAt_eq
  · simp [toList_resize]
    omega
  · intro place
    rw [byteAt_resized, toList_resize, byteAt_append, byteAt_take, byteAt_replicate]
    grind [byteAt_of_le]

end Content

namespace Handle

/-! ## How much is moved -/

/-- How much a transfer into or out of buffers moves at most. -/
def allowance (buffers : List Bytes) : Nat := min (room (buffers.take bufferLimit)) transferLimit

/-- A transfer of so many bytes from a position on would end behind the last position. -/
def OutOfReach (position count : Nat) : Prop := count ≠ 0 ∧ positionLimit ≤ position + count

instance (position count : Nat) : Decidable (OutOfReach position count) :=
  inferInstanceAs (Decidable (_ ∧ _))

theorem requested_map_length (buffers : List Bytes) :
    requested (buffers.map List.length) = allowance buffers := by
  rw [requested, allowance, room, List.map_take]

/-- What a write offers is the front of the buffers. -/
theorem offered_eq_take (buffers : List Bytes) :
    offered buffers = (gather buffers).take (allowance buffers) := by
  have hfront : gather (buffers.take bufferLimit) =
      (gather buffers).take (room (buffers.take bufferLimit)) := by
    have hsplit : gather buffers =
        gather (buffers.take bufferLimit) ++ gather (buffers.drop bufferLimit) := by
      rw [gather, gather, gather, ← List.flatten_append, List.take_append_drop]
    rw [hsplit, ← length_gather, List.take_left]
  rw [offered, hfront, List.take_take, allowance, Nat.min_comm]

theorem fitting_eq_self {start : Nat} {data : Bytes} (h : start + data.length < positionLimit) :
    fitting start data = data := List.take_of_length_le (by omega)

/-- What a file can take ends before the last position. -/
theorem end_fitting_lt {start : Nat} {data : Bytes} (h : fitting start data ≠ []) :
    start + (fitting start data).length < positionLimit := by
  have hpos := List.length_pos_iff.mpr h
  rw [fitting, List.length_take] at hpos ⊢
  omega

/-! ## Operations on a regular file -/

variable {v : Volume} {h : Handle} {content : Content}

theorem read_file (hbody : v.body h.ino = .file content) (hreadable : h.readable = true)
    (ends : Ends) (sizes : List Nat) :
    h.read v ends sizes =
      if OutOfReach h.cursor (requested sizes) then .error .invalid
      else
        let taken := (content.toList.drop h.cursor).take (requested sizes)
        .ok (taken, { h with cursor := h.cursor + taken.length }, v) := by
  simp only [read, hbody, hreadable, OutOfReach, Content.slice_eq]
  by_cases hcount : requested sizes = 0
  · simp [hcount, ← hreadable]
  · simp [hcount]

theorem readAt_file (hbody : v.body h.ino = .file content) (hreadable : h.readable = true)
    (sizes : List Nat) (offset : Nat) :
    h.readAt v sizes offset =
      if positionLimit ≤ offset + requested sizes then .error .invalid
      else .ok ((content.toList.drop offset).take (requested sizes)) := by
  simp only [readAt, hbody, hreadable, Content.slice_eq]
  by_cases hoffset : positionLimit ≤ offset
  · rw [if_pos hoffset, if_pos (by omega)]
  · by_cases hcount : requested sizes = 0
    · simp [hoffset, hcount]
    · simp [hoffset, hcount]

theorem write_file (hbody : v.body h.ino = .file content) (hwritable : h.writable = true)
    (ends : Ends) (buffers : List Bytes) :
    h.write v ends buffers =
      if OutOfReach h.cursor (offered buffers).length then .error .invalid
      else if offered buffers = [] then .ok (0, h, v)
      else
        let start := writeStart h.append content.size h.cursor
        let accepted := fitting start (offered buffers)
        if accepted = [] then .error .tooLarge
        else
          .ok (accepted.length, { h with cursor := start + accepted.length },
            v.replaceBody h.ino (.file (content.write start accepted))) := by
  simp only [write, hbody, hwritable, OutOfReach]
  by_cases hdata : offered buffers = []
  · simp [hdata]
  · simp [hdata]

theorem writeAt_file (hbody : v.body h.ino = .file content) (hwritable : h.writable = true)
    (buffers : List Bytes) (offset : Nat) :
    h.writeAt v buffers offset =
      if positionLimit ≤ offset + (offered buffers).length then .error .invalid
      else if offered buffers = [] then .ok (0, v)
      else
        let start := writeStart h.append content.size offset
        let accepted := fitting start (offered buffers)
        if accepted = [] then .error .tooLarge
        else
          .ok (accepted.length,
            v.replaceBody h.ino (.file (content.write start accepted))) := by
  simp only [writeAt, hbody, hwritable]
  by_cases hoffset : positionLimit ≤ offset
  · rw [if_pos hoffset, if_pos (by omega)]
  · by_cases hdata : offered buffers = []
    · simp [hoffset, hdata]
    · simp [hoffset, hdata]

theorem setSize_file (hbody : v.body h.ino = .file content) (hwritable : h.writable = true)
    (size : Nat) :
    h.setSize v size =
      if positionLimit ≤ size then .error .invalid
      else .ok (v.replaceBody h.ino (.file (content.resize size))) := by
  simp only [setSize, hbody, hwritable]
  rfl

/-- The place an offset is counted from. -/
def origin (h : Handle) (size : Nat) : Whence → Nat
  | .set => 0
  | .current => h.cursor
  | .endOfFile => size

theorem seek_file (hbody : v.body h.ino = .file content) (whence : Whence) (offset : Int) :
    h.seek v whence offset =
      let target := (h.origin content.size whence : Int) + offset
      if 0 ≤ target ∧ target < positionLimit then
        .ok (target.toNat, { h with cursor := target.toNat })
      else .error .invalid := by
  simp only [seek, hbody]
  cases whence <;> rfl

end Handle

end Hostcall
