import Hostcall.Bytes

/-!
# Bytes in a named pipe

The host keeps the bytes of a named pipe in pages, of which it has a fixed number.  A
page is given back when its last byte was read; the room in front of unread bytes is
not used again.  A write tops up the last page with the bytes that would not fill a page
of their own, if they fit, and goes on in fresh pages, as far as there are any.

* `Fifo.toList` is the unread bytes, in the order they were written;
* `Fifo.read` takes bytes from the front, `Fifo.write` appends what finds room;
* `Fifo.toList_read` and `Fifo.toList_write` say so of the unread bytes.
-/

namespace Hostcall

/-- A page of a named pipe. -/
structure Page where
  /-- How many of its bytes have been read. -/
  used : Nat
  unread : Bytes
  deriving DecidableEq, Repr, Inhabited

/-- The pages of a named pipe, the oldest first. -/
structure Fifo where
  pages : List Page
  deriving DecidableEq, Repr, Inhabited

namespace Fifo

/-- The bytes of a page. -/
def pageSize : Nat := 4096

/-- The most pages. -/
def pageLimit : Nat := 16

/-- A pipe without bytes. -/
def empty : Fifo := ⟨[]⟩

/-- The unread bytes of pages. -/
def unread (pages : List Page) : Bytes := pages.flatMap Page.unread

/-- The unread bytes. -/
def toList (q : Fifo) : Bytes := unread q.pages

/-! ## Reading -/

/-- Pages without so many unread bytes at their front. -/
def dropPages : Nat → List Page → List Page
  | _, [] => []
  | n, p :: rest =>
    if p.unread.length ≤ n then dropPages (n - p.unread.length) rest
    else ⟨p.used + n, p.unread.drop n⟩ :: rest

/-- At most so many bytes from the front, and the pipe without them. -/
def read (q : Fifo) (count : Nat) : Bytes × Fifo :=
  (q.toList.take count, ⟨dropPages count q.pages⟩)

/-! ## Writing -/

/-- Bytes in fresh pages, of which there are so many. -/
def freshPages : Nat → Bytes → List Page
  | 0, _ => []
  | count + 1, data =>
    if data = [] then [] else ⟨0, data.take pageSize⟩ :: freshPages count (data.drop pageSize)

/-- How many bytes of a write go to the last page: those that would not fill a page of
their own, if they fit. -/
def toppingUp : List Page → Bytes → Nat
  | [], _ => 0
  | [p], data =>
    let odd := data.length % pageSize
    if p.used + p.unread.length + odd ≤ pageSize then odd else 0
  | _ :: rest, data => toppingUp rest data

/-- Pages with bytes behind those of the last one. -/
def topUp : List Page → Bytes → List Page
  | [], _ => []
  | [p], data => [⟨p.used, p.unread ++ data⟩]
  | p :: rest, data => p :: topUp rest data

/-- Appends as much as finds room, and tells how much that is. -/
def write (q : Fifo) (data : Bytes) : Nat × Fifo :=
  let odd := toppingUp q.pages data
  let fresh := freshPages (pageLimit - q.pages.length) (data.drop odd)
  (odd + (unread fresh).length, ⟨topUp q.pages (data.take odd) ++ fresh⟩)

/-! ## What the operations do to the bytes -/

@[simp] theorem toList_empty : empty.toList = [] := rfl

@[simp] theorem unread_append (a b : List Page) : unread (a ++ b) = unread a ++ unread b := by
  simp [unread]

theorem unread_dropPages (n : Nat) (pages : List Page) :
    unread (dropPages n pages) = (unread pages).drop n := by
  induction pages generalizing n with
  | nil => simp [dropPages, unread]
  | cons p rest ih =>
    unfold dropPages
    split
    · rename_i h
      rw [ih]
      simp [unread, List.drop_append, List.drop_of_length_le h]
    · rename_i h
      simp [unread, List.drop_append, Nat.sub_eq_zero_of_le (Nat.le_of_not_le h)]

/-- What is read comes off the front. -/
theorem toList_read (q : Fifo) (count : Nat) :
    (q.read count).1 ++ (q.read count).2.toList = q.toList := by
  simp [read, toList, unread_dropPages]

theorem unread_topUp (pages : List Page) (data : Bytes) (h : pages ≠ []) :
    unread (topUp pages data) = unread pages ++ data := by
  fun_induction topUp pages data with
  | case1 => exact absurd rfl h
  | case2 p data => simp [unread]
  | case3 p rest data hr ih =>
    have hr' : rest ≠ [] := fun e => hr e
    simpa [unread] using ih hr'

theorem unread_freshPages (count : Nat) (data : Bytes) :
    unread (freshPages count data) = data.take (count * pageSize) := by
  induction count generalizing data with
  | zero => simp [freshPages, unread]
  | succ count ih =>
    unfold freshPages
    split
    · rename_i h
      simp [h, unread]
    · have hs : (count + 1) * pageSize = pageSize + count * pageSize := by
        rw [Nat.add_mul, Nat.one_mul, Nat.add_comm]
      rw [hs, List.take_add]
      simpa [unread] using ih (data.drop pageSize)

theorem unread_topUp_toppingUp (pages : List Page) (data : Bytes) :
    unread (topUp pages (data.take (toppingUp pages data))) =
      unread pages ++ data.take (toppingUp pages data) := by
  by_cases h : pages = []
  · simp [h, topUp, toppingUp, unread]
  · exact unread_topUp _ _ h

/-- What was written and found room is appended. -/
theorem toList_write (q : Fifo) (data : Bytes) :
    (q.write data).2.toList = q.toList ++ data.take (q.write data).1 := by
  simp only [write, toList, unread_append, unread_topUp_toppingUp, unread_freshPages]
  rw [List.append_assoc, List.take_add]
  simp

end Fifo

end Hostcall
