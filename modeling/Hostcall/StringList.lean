import Hostcall.Bytes
import Hostcall.Fault

/-!
# Lists of strings in guest memory

Arguments and environment variables reach the guest as one flat buffer, every
string followed by a NUL.  A list of strings is kept so that its count and its
byte total always fit in 32 bits.

* `StringList.push` appends what fits and says what does not;
* `StringList.count` and `StringList.cumulativeSize` are the two sizes;
* `StringList.encode` is the flat form, `StringList.writeTo` copies it to a buffer.
-/

namespace Hostcall

/-- Why a string cannot be appended. -/
inductive StringListError where
  /-- It holds a NUL at this byte position. -/
  | nul (position : Nat)
  | numberElements
  | elementSize
  | cumulativeSize
  deriving DecidableEq, Repr

/-- The name of the reason. -/
def StringListError.name : StringListError → String
  | .nul _ => "Nul"
  | .numberElements => "NumberElements"
  | .elementSize => "ElementSize"
  | .cumulativeSize => "CumulativeSize"

/-- The line shown for a refused string. -/
def StringListError.message : StringListError → String
  | .nul position => "Nul byte in string at position " ++ toString position
  | .numberElements => "Number of elements exceeds 2^32"
  | .elementSize => "Element size exceeds 2^32"
  | .cumulativeSize => "Cumulative size exceeds 2^32"

/-- Strings in the order they were appended. -/
structure StringList where
  elements : List String
  deriving DecidableEq, Repr, Inhabited

namespace StringList

/-- The largest count and byte total. -/
def limit : Nat := 4294967295

/-- No strings. -/
def empty : StringList := ⟨[]⟩

/-- The bytes of one string with its NUL. -/
def element (s : String) : Bytes := utf8 s ++ [0]

/-- How many bytes strings take, each with its NUL. -/
def total (elements : List String) : Nat :=
  totalSize (elements.map fun s => s.utf8ByteSize + 1)

/-- How many strings there are. -/
def count (l : StringList) : Nat := l.elements.length

/-- How many bytes the strings take, each with its NUL, as far as 32 bits tell. -/
def cumulativeSize (l : StringList) : Nat := min (total l.elements) limit

/-- Appends a string, unless the list would outgrow its limits or the string holds
a NUL. -/
def push (l : StringList) (s : String) : Except StringListError StringList :=
  if limit < l.count + 1 then .error .numberElements
  else if limit < s.utf8ByteSize + 1 then .error .elementSize
  else if limit < l.cumulativeSize + s.utf8ByteSize + 1 then .error .cumulativeSize
  else
    match (utf8 s).findIdx? (· = 0) with
    | some position => .error (.nul position)
    | none => .ok ⟨l.elements ++ [s]⟩

/-- The flat form of the list. -/
def encode (l : StringList) : Bytes := l.elements.flatMap element

/-- Where strings begin in the flat form, the first one at `start`. -/
def offsetsFrom (start : Nat) : List String → List Nat
  | [] => []
  | s :: rest => start :: offsetsFrom (start + s.utf8ByteSize + 1) rest

/-- Copies the flat form to the front of a buffer and tells where each string
begins.  A buffer that is too short stays as it was. -/
def writeTo (l : StringList) (buffer : Bytes) : Outcome (List UInt32) × Bytes :=
  if buffer.length < l.cumulativeSize then
    (.error (.because .invalidArgument
      ("buffer of " ++ toString buffer.length ++ " bytes cannot hold " ++
        toString l.cumulativeSize ++ " bytes of strings")), buffer)
  else
    match (offsetsFrom 0 l.elements).mapM countOf with
    | .error fault => (.error fault, buffer)
    | .ok offsets => (.ok offsets, overwrite buffer l.encode)

end StringList

end Hostcall
