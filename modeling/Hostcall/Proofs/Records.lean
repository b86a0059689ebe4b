import Hostcall.Listing.Records
import Hostcall.Proofs.Alike.Listing

/-!
# Records in a buffer

A buffer holds the front of the records that are still to be told, and the last of them may be
cut off anywhere.

* `Record.encode` lays a record out, and `Record.parse_encode_append` reads it back;
* `Record.fitting` are the records that a room holds whole, and `Record.parse_take` says that
  these are read back from a buffer of that room.
-/

namespace Hostcall

namespace Record

/-- The fixed part of a record. -/
def header (r : Record) : Bytes :=
  littleEndian 8 r.next ++ littleEndian 8 r.inode ++ littleEndian 4 r.name.length ++
    [r.kind, 0, 0, 0]

/-- The bytes of a record. -/
def encode (r : Record) : Bytes := r.header ++ r.name

/-- The numbers of a record fit the widths they are told in. -/
structure Fits (r : Record) : Prop where
  next : r.next < UInt64.size
  inode : r.inode < UInt64.size
  name : r.name.length < UInt32.size

variable {r : Record}

theorem length_header (r : Record) : r.header.length = Dirent.size := by
  simp [header, length_littleEndian, Dirent.size]

theorem length_encode (r : Record) : r.encode.length = Dirent.size + r.name.length := by
  rw [encode, List.length_append, length_header]

/-! ## Reading a record back -/

theorem next_header (h : r.Fits) (rest : Bytes) : number ((r.header ++ rest).take 8) = r.next := by
  simp only [header, List.append_assoc]
  rw [List.take_left' (length_littleEndian 8 r.next), number_littleEndian]
  exact Nat.mod_eq_of_lt h.next

theorem inode_header (h : r.Fits) (rest : Bytes) :
    number (((r.header ++ rest).drop 8).take 8) = r.inode := by
  simp only [header, List.append_assoc]
  rw [List.drop_left' (length_littleEndian 8 r.next),
    List.take_left' (length_littleEndian 8 r.inode), number_littleEndian]
  exact Nat.mod_eq_of_lt h.inode

theorem nameLength_header (h : r.Fits) (rest : Bytes) :
    number (((r.header ++ rest).drop 16).take 4) = r.name.length := by
  have hfront : (littleEndian 8 r.next ++ littleEndian 8 r.inode).length = 16 := by
    simp [length_littleEndian]
  rw [header, List.append_assoc, List.append_assoc, List.drop_left' hfront,
    List.take_left' (length_littleEndian 4 r.name.length), number_littleEndian]
  exact Nat.mod_eq_of_lt h.name

theorem kind_header (r : Record) (rest : Bytes) : (r.header ++ rest).getD 20 0 = r.kind := by
  have hfront : (littleEndian 8 r.next ++ littleEndian 8 r.inode ++
      littleEndian 4 r.name.length).length = 20 := by simp [length_littleEndian]
  rw [header, List.append_assoc, List.getD_eq_getElem?_getD,
    List.getElem?_append_right (Nat.le_of_eq hfront), hfront]
  rfl

theorem parse_encode_append (h : r.Fits) (rest : Bytes) :
    parse (r.encode ++ rest) = (r :: (parse rest).1, (parse rest).2) := by
  have hlength := length_header r
  have hreach : Dirent.size + r.name.length ≤ (r.header ++ (r.name ++ rest)).length := by
    simp only [List.length_append, hlength]
    omega
  rw [encode, List.append_assoc, parse]
  simp only [next_header h, inode_header h, nameLength_header h, kind_header]
  rw [if_pos hreach, List.drop_left' hlength, List.take_left, ← List.drop_drop,
    List.drop_left' hlength, List.drop_left]

/-- A record that is cut off anywhere is not read. -/
theorem parse_take_encode (h : r.Fits) {room : Nat} (hroom : room < r.encode.length) :
    (parse (r.encode.take room)).1 = [] := by
  have hlength : (r.encode.take room).length = room := by
    rw [List.length_take]
    omega
  by_cases hshort : room < Dirent.size
  · rw [parse, if_neg (by omega)]
  · -- the fixed part is whole and tells that more is to come
    have hcut : r.encode.take room = r.header ++ r.name.take (room - Dirent.size) := by
      rw [encode, List.take_append, length_header, List.take_of_length_le]
      rw [length_header]
      omega
    have hname := nameLength_header h (r.name.take (room - Dirent.size))
    rw [← hcut] at hname
    rw [length_encode] at hroom
    rw [parse, hname, if_neg (by omega)]

/-! ## The records that fit -/

/-- The bytes of records, one behind the other. -/
def encodeAll (records : List Record) : Bytes := records.flatMap encode

/-- The records at the front that a room holds whole. -/
def fitting : Nat → List Record → List Record
  | _, [] => []
  | room, r :: rest =>
    if r.encode.length ≤ room then r :: fitting (room - r.encode.length) rest else []

variable {records : List Record}

theorem parse_take (h : ∀ r ∈ records, r.Fits) (room : Nat) :
    (parse ((encodeAll records).take room)).1 = fitting room records := by
  induction records generalizing room with
  | nil =>
    rw [encodeAll, List.flatMap_nil, List.take_nil, parse]
    rfl
  | cons r rest ih =>
    obtain ⟨hr, hrest⟩ := List.forall_mem_cons.mp h
    rw [encodeAll, List.flatMap_cons, fitting, List.take_append]
    by_cases hroom : r.encode.length ≤ room
    · rw [if_pos hroom, List.take_of_length_le hroom, parse_encode_append hr]
      exact congrArg (r :: ·) (ih hrest _)
    · rw [if_neg hroom, Nat.sub_eq_zero_of_le (by omega), List.take_zero, List.append_nil]
      exact parse_take_encode hr (by omega)

theorem fitting_prefix (room : Nat) (records : List Record) : fitting room records <+: records := by
  induction records generalizing room with
  | nil => exact List.nil_prefix
  | cons r rest ih =>
    rw [fitting]
    split
    · exact List.prefix_cons_inj r |>.mpr (ih _)
    · exact List.nil_prefix

/-- What has room for everything holds everything. -/
theorem fitting_of_le {room : Nat} (h : (encodeAll records).length ≤ room) :
    fitting room records = records := by
  induction records generalizing room with
  | nil => rfl
  | cons r rest ih =>
    rw [encodeAll, List.flatMap_cons, List.length_append] at h
    change r.encode.length + (encodeAll rest).length ≤ room at h
    rw [fitting, if_pos (by omega), ih (by omega)]

theorem fitting_ne_nil {room : Nat} (h : ∀ r ∈ records, r.encode.length ≤ room)
    (hrecords : records ≠ []) : fitting room records ≠ [] := by
  cases records with
  | nil => exact absurd rfl hrecords
  | cons r rest => simp [fitting, h r List.mem_cons_self]

theorem length_encodeAll_drop_le (cookie : Nat) (records : List Record) :
    (encodeAll (records.drop cookie)).length ≤ (encodeAll records).length := by
  have hsplit : encodeAll records =
      encodeAll (records.take cookie) ++ encodeAll (records.drop cookie) := by
    rw [encodeAll, encodeAll, encodeAll, ← List.flatMap_append, List.take_append_drop]
  rw [hsplit, List.length_append]
  omega

end Record

end Hostcall
