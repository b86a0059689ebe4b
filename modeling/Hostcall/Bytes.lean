/-!
# Bytes

Host names, file contents and guest buffers are byte strings.  Text meets them
through UTF-8 only.

* `utf8` and `text?` go from text to bytes and back;
* `littleEndian` lays out a number in a given count of bytes;
* `scatter` fills a list of buffers in order, `gather` joins one.
-/

namespace Hostcall

/-- A byte string. -/
abbrev Bytes := List UInt8

/-- The UTF-8 form of a text. -/
def utf8 (s : String) : Bytes := s.toList.flatMap String.utf8EncodeChar

theorem length_utf8 (s : String) : (utf8 s).length = s.utf8ByteSize := by
  have hbytes : (utf8 s).toByteArray = s.toByteArray := String.utf8Encode_toList
  rw [← String.size_toByteArray, ← hbytes, List.size_toByteArray]

/-- The text a byte string is the UTF-8 form of. -/
def text? (b : Bytes) : Option String := String.fromUTF8? b.toByteArray

/-- The low `count` bytes of a number, lowest first. -/
def littleEndian : Nat → Nat → Bytes
  | 0, _ => []
  | count + 1, n => UInt8.ofNat n :: littleEndian count (n / 256)

theorem length_littleEndian (count n : Nat) : (littleEndian count n).length = count := by
  induction count generalizing n with
  | zero => rfl
  | succ count ih => simp [littleEndian, ih]

/-- Writes `data` over the front of a buffer and keeps the rest of it. -/
def overwrite (buffer data : Bytes) : Bytes := data ++ buffer.drop data.length

theorem length_overwrite {buffer data : Bytes} (h : data.length ≤ buffer.length) :
    (overwrite buffer data).length = buffer.length := by
  simp [overwrite, Nat.add_sub_cancel' h]

/-- How much some sizes are together. -/
def totalSize (sizes : List Nat) : Nat := sizes.foldr (· + ·) 0

@[simp] theorem totalSize_nil : totalSize [] = 0 := rfl

@[simp] theorem totalSize_cons (size : Nat) (sizes : List Nat) :
    totalSize (size :: sizes) = size + totalSize sizes := rfl

theorem totalSize_append (sizes sizes' : List Nat) :
    totalSize (sizes ++ sizes') = totalSize sizes + totalSize sizes' := by
  induction sizes with
  | nil => simp
  | cons size rest ih => simp [ih, Nat.add_assoc]

theorem length_flatMap {α : Type} (bytes : α → Bytes) (list : List α) :
    (list.flatMap bytes).length = totalSize (list.map fun a => (bytes a).length) := by
  induction list with
  | nil => rfl
  | cons a rest ih => simp [ih]

/-- The room of a list of buffers. -/
def room (buffers : List Bytes) : Nat := totalSize (buffers.map List.length)

theorem room_cons (b : Bytes) (rest : List Bytes) : room (b :: rest) = b.length + room rest := rfl

/-- Fills buffers in order.  What the data does not reach stays as it was. -/
def scatter : List Bytes → Bytes → List Bytes
  | [], _ => []
  | b :: rest, data => overwrite b (data.take b.length) :: scatter rest (data.drop b.length)

/-- The bytes of a list of buffers, in order. -/
def gather (buffers : List Bytes) : Bytes := buffers.flatten

theorem length_gather (buffers : List Bytes) : (gather buffers).length = room buffers := by
  rw [gather, ← List.flatMap_id, length_flatMap]
  rfl

end Hostcall
