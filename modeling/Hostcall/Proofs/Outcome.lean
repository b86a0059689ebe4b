import Hostcall.Descriptor

/-!
# Chains of steps that may fail

Inversion of a chain: what succeeded as a whole succeeded at every step.

* `bind_eq_ok`, `map_eq_ok` and `fromHost_eq_ok` take a step off any chain;
* the lemmas on `FileEntry` say what the host did for an operation on a file that succeeded.
-/

namespace Hostcall

variable {ε α β : Type}

theorem bind_eq_ok {x : Except ε α} {f : α → Except ε β} {b : β} :
    (x >>= f) = .ok b ↔ ∃ a, x = .ok a ∧ f a = .ok b := by
  cases x with
  | error e =>
    constructor
    · intro h
      cases h
    · rintro ⟨a, ha, -⟩
      cases ha
  | ok a =>
    constructor
    · exact fun h => ⟨a, rfl, h⟩
    · rintro ⟨a', ha, h⟩
      cases ha
      exact h

theorem map_eq_ok {x : Except ε α} {f : α → β} {b : β} :
    x.map f = .ok b ↔ ∃ a, x = .ok a ∧ f a = b := by
  cases x <;> simp [Except.map]

theorem map_eq_error {x : Except ε α} {f : α → β} {e : ε} : x.map f = .error e ↔ x = .error e := by
  cases x <;> simp [Except.map]

theorem fromHost_eq_ok {x : Except HostError α} {a : α} : fromHost x = .ok a ↔ x = .ok a := by
  cases x <;> simp [fromHost]

/-! ## Operations on a file -/

namespace FileEntry

variable {e e' : FileEntry} {v v' : Volume} {ends : Ends} {mode : Access}

theorem access_of_require (h : e.require mode = .ok ()) : e.access.contains mode = true := by
  rw [require] at h
  split at h
  case isTrue hmode => exact hmode
  case isFalse => cases h

theorem read_eq_ok {sizes : List Nat} {taken : Bytes}
    (h : e.read v ends sizes = .ok (taken, e', v')) :
    e.access.contains Access.read = true ∧
      ∃ handle, e.handle.read v ends sizes = .ok (taken, handle, v') ∧ e' = e.withHandle handle := by
  obtain ⟨_, hrequire, h⟩ := bind_eq_ok.mp h
  obtain ⟨⟨_, handle, _⟩, hhost, h⟩ := bind_eq_ok.mp h
  cases h
  exact ⟨access_of_require hrequire, handle, fromHost_eq_ok.mp hhost, rfl⟩

theorem write_eq_ok {buffers : List Bytes} {count : Nat}
    (h : e.write v ends buffers = .ok (count, e', v')) :
    e.access.contains Access.write = true ∧
      ∃ handle, e.handle.write v ends buffers = .ok (count, handle, v') ∧
        e' = e.withHandle handle := by
  obtain ⟨_, hrequire, h⟩ := bind_eq_ok.mp h
  obtain ⟨⟨_, handle, _⟩, hhost, h⟩ := bind_eq_ok.mp h
  cases h
  exact ⟨access_of_require hrequire, handle, fromHost_eq_ok.mp hhost, rfl⟩

theorem writeAt_eq_ok {buffers : List Bytes} {offset : UInt64} {count : Nat}
    (h : e.writeAt v buffers offset = .ok (count, v')) :
    e.access.contains Access.write = true ∧
      e.handle.writeAt v buffers offset.toNat = .ok (count, v') := by
  obtain ⟨_, hrequire, h⟩ := bind_eq_ok.mp h
  exact ⟨access_of_require hrequire, fromHost_eq_ok.mp h⟩

theorem seek_eq_ok {whence : Whence} {offset : Int64} {position : Nat}
    (h : e.seek v whence offset = .ok (position, e')) :
    ∃ handle, e.handle.seek v whence offset.toInt = .ok (position, handle) ∧
      e' = e.withHandle handle := by
  obtain ⟨⟨_, handle⟩, hhost, h⟩ := bind_eq_ok.mp h
  cases h
  exact ⟨handle, fromHost_eq_ok.mp hhost, rfl⟩

end FileEntry

end Hostcall
