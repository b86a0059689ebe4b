import Hostcall.Bytes

/-!
# Contents of files

A file is a byte string.  Files may be far longer than what was ever written to them,
so a content is kept as runs, and a run of zeros costs nothing.

* `Content.toList` is the byte string a content stands for;
* `Content.slice` reads, `Content.write` writes, `Content.resize` cuts or extends;
* `Content.toList_write`, `Content.slice_eq` and `Content.toList_resize` say what they
  do to the byte string.
-/

namespace Hostcall

/-- A piece of a content. -/
inductive Run where
  | zeros (count : Nat)
  | bytes (data : Bytes)
  deriving Repr, Inhabited

namespace Run

/-- How many bytes a run has. -/
def size : Run → Nat
  | zeros count => count
  | bytes data => data.length

/-- The bytes of a run. -/
def toList : Run → Bytes
  | zeros count => List.replicate count 0
  | bytes data => data

/-- The front of a run. -/
def take (n : Nat) : Run → Run
  | zeros count => zeros (min n count)
  | bytes data => bytes (data.take n)

/-- A run without its front. -/
def drop (n : Nat) : Run → Run
  | zeros count => zeros (count - n)
  | bytes data => bytes (data.drop n)

@[simp] theorem length_toList (r : Run) : r.toList.length = r.size := by
  cases r <;> simp [toList, size]

@[simp] theorem toList_take (n : Nat) (r : Run) : (r.take n).toList = r.toList.take n := by
  cases r <;> simp [toList, take, List.take_replicate]

@[simp] theorem toList_drop (n : Nat) (r : Run) : (r.drop n).toList = r.toList.drop n := by
  cases r <;> simp [toList, drop]

end Run

/-- The content of a file. -/
structure Content where
  runs : List Run
  deriving Repr, Inhabited

namespace Content

/-- The content without bytes. -/
def empty : Content := ⟨[]⟩

/-- A content of given bytes. -/
def ofBytes (data : Bytes) : Content := ⟨[.bytes data]⟩

/-- The bytes of a content. -/
def toList (c : Content) : Bytes := c.runs.flatMap Run.toList

/-- How many bytes a content has. -/
def size (c : Content) : Nat := totalSize (c.runs.map Run.size)

/-- The front of a list of runs. -/
def takeRuns : Nat → List Run → List Run
  | _, [] => []
  | n, r :: rest => if n ≤ r.size then [r.take n] else r :: takeRuns (n - r.size) rest

/-- A list of runs without its front. -/
def dropRuns : Nat → List Run → List Run
  | _, [] => []
  | n, r :: rest => if n < r.size then r.drop n :: rest else dropRuns (n - r.size) rest

/-- At most `count` bytes from an offset on. -/
def slice (c : Content) (offset count : Nat) : Bytes :=
  (takeRuns count (dropRuns offset c.runs)).flatMap Run.toList

/-- Writes data at an offset.  A gap before it is filled with zeros, and no data
changes nothing. -/
def write (c : Content) (offset : Nat) (data : Bytes) : Content :=
  if data = [] then c
  else ⟨takeRuns offset c.runs ++ [.zeros (offset - c.size), .bytes data] ++
    dropRuns (offset + data.length) c.runs⟩

/-- Cuts a content to a size or extends it with zeros. -/
def resize (c : Content) (n : Nat) : Content :=
  ⟨takeRuns n c.runs ++ [.zeros (n - c.size)]⟩

/-! ## What the operations do to the bytes -/

@[simp] theorem toList_empty : empty.toList = [] := rfl

@[simp] theorem length_toList (c : Content) : c.toList.length = c.size := by
  rw [toList, length_flatMap, size]
  simp

theorem flatMap_takeRuns (n : Nat) (runs : List Run) :
    (takeRuns n runs).flatMap Run.toList = (runs.flatMap Run.toList).take n := by
  induction runs generalizing n with
  | nil => simp [takeRuns]
  | cons r rest ih =>
    unfold takeRuns
    split
    · rename_i h
      simp [List.take_append, Nat.sub_eq_zero_of_le h]
    · rename_i h
      have hr : r.toList.length ≤ n := by simp; omega
      simp [List.take_append, ih, List.take_of_length_le hr]

theorem flatMap_dropRuns (n : Nat) (runs : List Run) :
    (dropRuns n runs).flatMap Run.toList = (runs.flatMap Run.toList).drop n := by
  induction runs generalizing n with
  | nil => simp [dropRuns]
  | cons r rest ih =>
    unfold dropRuns
    split
    · rename_i h
      simp [List.drop_append, Nat.sub_eq_zero_of_le (Nat.le_of_lt h)]
    · rename_i h
      have hr : r.toList.length ≤ n := by simp; omega
      simp [List.drop_append, ih, List.drop_of_length_le hr]

theorem slice_eq (c : Content) (offset count : Nat) :
    c.slice offset count = (c.toList.drop offset).take count := by
  simp [slice, flatMap_takeRuns, flatMap_dropRuns, toList]

theorem toList_write (c : Content) (offset : Nat) {data : Bytes} (h : data ≠ []) :
    (c.write offset data).toList =
      c.toList.take offset ++ List.replicate (offset - c.size) 0 ++ data ++
        c.toList.drop (offset + data.length) := by
  simp [write, h, toList, flatMap_takeRuns, flatMap_dropRuns, Run.toList]

@[simp] theorem write_nil (c : Content) (offset : Nat) : c.write offset [] = c := by
  simp [write]

theorem toList_resize (c : Content) (n : Nat) :
    (c.resize n).toList = c.toList.take n ++ List.replicate (n - c.size) 0 := by
  simp [resize, toList, flatMap_takeRuns, Run.toList]

end Content

end Hostcall
