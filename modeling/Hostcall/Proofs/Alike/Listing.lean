import Hostcall.Listing.Records
import Hostcall.Proofs.Alike.Host
import Hostcall.Proofs.Names

/-!
# Listings that look alike

The record of an entry holds the inode number of a node, in which volumes that look alike
may differ.  `Listing.veil` blanks these numbers out of a buffer, record by record and in the
piece of a record that the buffer cuts off, and listings of related directories are equal
behind it.
-/

namespace Hostcall

/-! ## Numbers in records -/

theorem number_littleEndian (count n : Nat) :
    Record.number (littleEndian count n) = n % Nat.pow 256 count := by
  induction count generalizing n with
  | zero => exact (Nat.mod_one n).symm
  | succ count ih =>
    have hcons : Record.number (littleEndian (count + 1) n) =
        (UInt8.ofNat n).toNat + 256 * Record.number (littleEndian count (n / 256)) := rfl
    have hbyte : (UInt8.ofNat n).toNat = n % 256 := UInt8.toNat_ofNat'
    have hpow : Nat.pow 256 (count + 1) = 256 * Nat.pow 256 count := Nat.pow_succ'
    rw [hcons, ih, hbyte, hpow, Nat.mod_mul]

namespace Listing

/-- The front of a buffer as far as one record may reach, its inode number blanked out. -/
def veilFront (b : Bytes) : Bytes :=
  b.take 8 ++ List.replicate ((b.drop 8).take 8).length 0 ++ b.drop 16

/-- A buffer of records with every inode number blanked out. -/
def veil (b : Bytes) : Bytes :=
  if b = [] then []
  else
    let length := Dirent.size + Record.number ((b.drop 16).take 4)
    veilFront (b.take length) ++ veil (b.drop length)
termination_by b.length
decreasing_by
  rename_i h
  have : b.length ≠ 0 := mt List.length_eq_zero_iff.mp h
  simp only [List.length_drop, Dirent.size]
  omega

theorem veil_nil : veil [] = [] := by
  rw [veil, if_pos rfl]

variable {next inode tail : Bytes}

/-- A record with its inode number blanked out. -/
def blanked (next tail : Bytes) : Bytes := next ++ List.replicate 8 0 ++ tail

theorem drop_take_record (hnext : next.length = 8) (hinode : inode.length = 8) (k : Nat) :
    ((next ++ inode ++ tail).take k).drop 16 = tail.take (k - 16) := by
  have hfront : (next ++ inode).length = 16 := by
    rw [List.length_append, hnext, hinode]
  rw [List.drop_take, List.drop_append_of_le_length (Nat.le_of_eq hfront.symm), ← hfront,
    List.drop_length, List.nil_append]

theorem veilFront_take_record (hnext : next.length = 8) (hinode : inode.length = 8) (k : Nat) :
    veilFront ((next ++ inode ++ tail).take k) = (blanked next tail).take k := by
  have hstart : ((next ++ inode ++ tail).take k).take 8 = next.take k := by
    rw [List.take_take, List.append_assoc, List.take_append_of_le_length (by omega),
      ← List.take_take, ← hnext, List.take_take, Nat.min_comm, ← List.take_take, List.take_length]
  have hmiddle : ((((next ++ inode ++ tail).take k).drop 8).take 8).length = min 8 (k - 8) := by
    simp only [List.length_take, List.length_drop, List.length_append, hnext, hinode]
    omega
  rw [veilFront, hstart, hmiddle, drop_take_record hnext hinode, blanked]
  simp only [List.take_append, List.take_replicate, List.length_append, List.length_replicate,
    hnext, Nat.min_comm]

/-- The front of one record, cut off anywhere. -/
theorem veil_take_record (hnext : next.length = 8) (hinode : inode.length = 8)
    (htail : tail.length = 8 + Record.number (tail.take 4)) (k : Nat) :
    veil ((next ++ inode ++ tail).take k) = (blanked next tail).take k := by
  have hblanked : veilFront ((next ++ inode ++ tail).take k) = (blanked next tail).take k :=
    veilFront_take_record hnext hinode k
  have hdrop : ((next ++ inode ++ tail).take k).drop 16 = tail.take (k - 16) :=
    drop_take_record hnext hinode k
  have hlength : ((next ++ inode ++ tail).take k).length = min k (16 + tail.length) := by
    simp only [List.length_take, List.length_append, hnext, hinode]
  generalize (next ++ inode ++ tail).take k = front at hblanked hdrop hlength ⊢
  rw [veil]
  split
  case isTrue hempty =>
    rw [← hblanked, hempty]
    rfl
  case isFalse =>
    -- the length of the name stands in the front unless the front ends before it
    have hreach : front.length ≤ Dirent.size + Record.number ((front.drop 16).take 4) := by
      by_cases hk : k < 20
      · have hsize : Dirent.size = 24 := rfl
        omega
      · have hnumber : (front.drop 16).take 4 = tail.take 4 := by
          rw [hdrop, List.take_take, Nat.min_eq_left (by omega)]
        rw [hnumber, hlength, htail, Dirent.size]
        omega
    dsimp only
    rw [List.take_of_length_le hreach, List.drop_of_length_le hreach, veil_nil, hblanked,
      List.append_nil]

/-- A record and what stands behind it. -/
theorem veil_record_append (hnext : next.length = 8) (hinode : inode.length = 8)
    (htail : tail.length = 8 + Record.number (tail.take 4)) (rest : Bytes) :
    veil (next ++ inode ++ tail ++ rest) = blanked next tail ++ veil rest := by
  have hlength : (next ++ inode ++ tail).length = 16 + tail.length := by
    simp only [List.length_append, hnext, hinode]
  have hdrop : (next ++ inode ++ tail).drop 16 = tail := by
    have hwhole : ((next ++ inode ++ tail).take (16 + tail.length)).drop 16 =
        tail.take (16 + tail.length - 16) := drop_take_record hnext hinode _
    rwa [← hlength, List.take_length, hlength, Nat.add_sub_cancel_left, List.take_length] at hwhole
  have hnumber : ((next ++ inode ++ tail ++ rest).drop 16).take 4 = tail.take 4 := by
    rw [List.drop_append_of_le_length (by omega), hdrop, List.take_append_of_le_length (by omega)]
  have hreach : Dirent.size + Record.number (tail.take 4) = (next ++ inode ++ tail).length := by
    rw [hlength, Dirent.size]
    omega
  have hwhole : veilFront ((next ++ inode ++ tail).take (next ++ inode ++ tail).length) =
      (blanked next tail).take (next ++ inode ++ tail).length :=
    veilFront_take_record hnext hinode _
  have hblanked : (blanked next tail).length = (next ++ inode ++ tail).length := by
    simp only [blanked, List.length_append, List.length_replicate, hnext, hinode]
  rw [List.take_length, ← hblanked, List.take_length] at hwhole
  have hne : next ++ inode ++ tail ++ rest ≠ [] := by
    refine List.ne_nil_of_length_pos ?_
    rw [List.length_append, hlength]
    omega
  rw [veil, if_neg hne]
  dsimp only
  rw [hnumber, hreach, List.take_left, List.drop_left, hwhole]

end Listing

/-! ## Entries -/

/-- Entries that differ in inode numbers only. -/
def Entity.Alike (e e' : Entity) : Prop :=
  e.next = e'.next ∧ e.name = e'.name ∧ e.fileType = e'.fileType

/-- Bytes of a listing that differ in inode numbers only. -/
def RecordsAlike (b b' : Bytes) : Prop := b.length = b'.length ∧ Listing.veil b = Listing.veil b'

namespace Listing

variable {R : Ino → Ino → Prop} {v v' : Volume}

theorem hostEntry_alike (h : v.Alike R v') {e e' : Name × Ino} (he : EntryAlike R e e')
    (next : UInt64) : Alike Entity.Alike (hostEntry v e next) (hostEntry v' e' next) := by
  rw [hostEntry, hostEntry, he.1]
  split
  · exact .error _
  · exact .ok ⟨rfl, rfl, (h.body he.2).fileType_eq⟩

theorem mapIdx_alike {α β γ δ : Type} {S : α → β → Prop} {T : γ → δ → Prop} {l : List α}
    {l' : List β} {f : Nat → α → γ} {g : Nat → β → δ} (h : List.Forall₂ S l l')
    (hfg : ∀ k a b, S a b → T (f k a) (g k b)) :
    List.Forall₂ T (l.mapIdx f) (l'.mapIdx g) := by
  induction h generalizing f g with
  | nil => exact .nil
  | cons hab _ ih =>
    rw [List.mapIdx_cons, List.mapIdx_cons]
    exact .cons (hfg 0 _ _ hab) (ih fun k a b hab => hfg (k + 1) a b hab)

theorem entities_alike (h : v.Alike R v') {i j : Ino} (hij : R i j) (cookie : Nat) :
    List.Forall₂ (Alike Entity.Alike) (entities v i cookie) (entities v' j cookie) := by
  have hlisted : List.Forall₂ (fun f f' => ∀ next, Alike Entity.Alike (f next) (f' next))
      (listed v i) (listed v' j) := by
    refine .cons (fun _ => .ok ⟨rfl, rfl, rfl⟩) (.cons (fun _ => .ok ⟨rfl, rfl, rfl⟩) ?_)
    exact List.rel_map (fun e e' he => hostEntry_alike h he) (h.entries hij)
  exact List.forall₂_drop cookie (mapIdx_alike hlisted fun k f f' hf => hf _)

/-! ## Records -/

/-- Two records of one entry, whose inode numbers may differ. -/
structure SameRecord (b b' : Bytes) : Prop where
  split : ∃ next inode inode' tail : Bytes,
    b = next ++ inode ++ tail ∧ b' = next ++ inode' ++ tail ∧
      next.length = 8 ∧ inode.length = 8 ∧ inode'.length = 8 ∧
        tail.length = 8 + Record.number (tail.take 4)

theorem encode_alike {e e' : Entity} (h : e.Alike e') : Alike SameRecord e.encode e'.encode := by
  obtain ⟨hnext, hname, htype⟩ := h
  have hnumber : e.name.utf8ByteSize < UInt32.size →
      Record.number (littleEndian 4 (UInt32.ofNat e.name.utf8ByteSize).toNat) =
        e.name.utf8ByteSize := by
    intro hlt
    rw [UInt32.toNat_ofNat_of_lt' hlt, number_littleEndian]
    exact Nat.mod_eq_of_lt hlt
  rw [Entity.encode, Entity.encode, ← hname, countOf]
  split
  · refine .ok ⟨⟨littleEndian 8 e.next.toNat, littleEndian 8 e.inode.toNat,
      littleEndian 8 e'.inode.toNat,
      littleEndian 4 (UInt32.ofNat e.name.utf8ByteSize).toNat ++ [e.fileType.raw, 0, 0, 0] ++
        utf8 e.name, ?_, ?_, length_littleEndian .., length_littleEndian .., length_littleEndian ..,
      ?_⟩⟩
    · simp only [Dirent.toBytes, List.append_assoc]
    · simp only [Dirent.toBytes, List.append_assoc, hnext, htype]
    · -- the length of the name is the first number behind the inode number
      have hsize := length_littleEndian 4 (UInt32.ofNat e.name.utf8ByteSize).toNat
      rw [List.append_assoc, List.take_append_of_le_length (Nat.le_of_eq hsize.symm),
        List.take_of_length_le (Nat.le_of_eq hsize), hnumber ‹_›]
      simp only [List.length_append, length_littleEndian, List.length_cons, List.length_nil,
        length_utf8]
      omega
  · exact .error _

theorem SameRecord.length_eq {b b' : Bytes} (h : SameRecord b b') : b.length = b'.length := by
  obtain ⟨next, inode, inode', tail, rfl, rfl, -, hinode, hinode', -⟩ := h.split
  simp only [List.length_append, hinode, hinode']

theorem SameRecord.take {b b' : Bytes} (h : SameRecord b b') (k : Nat) :
    RecordsAlike (b.take k) (b'.take k) := by
  refine ⟨by rw [List.length_take, List.length_take, h.length_eq], ?_⟩
  obtain ⟨next, inode, inode', tail, rfl, rfl, hnext, hinode, hinode', htail⟩ := h.split
  rw [veil_take_record hnext hinode htail, veil_take_record hnext hinode' htail]

theorem SameRecord.append {b b' rest rest' : Bytes} (h : SameRecord b b')
    (hrest : RecordsAlike rest rest') : RecordsAlike (b ++ rest) (b' ++ rest') := by
  refine ⟨by rw [List.length_append, List.length_append, h.length_eq, hrest.1], ?_⟩
  obtain ⟨next, inode, inode', tail, rfl, rfl, hnext, hinode, hinode', htail⟩ := h.split
  rw [veil_record_append hnext hinode htail, veil_record_append hnext hinode' htail, hrest.2]

/-- What fits a buffer, the record that is cut off included. -/
theorem pack_alike {entries entries' : List Entry}
    (h : List.Forall₂ (Alike Entity.Alike) entries entries') (room : Nat) :
    Alike RecordsAlike (pack room entries) (pack room entries') := by
  induction h generalizing room with
  | nil => exact .ok ⟨rfl, rfl⟩
  | cons hentry _ ih =>
    rw [pack, pack]
    refine hentry.bind fun e e' he => ?_
    refine (encode_alike he).bind fun b b' hb => ?_
    rw [hb.length_eq]
    split
    · exact (ih _).bind fun rest rest' hrest => .ok (hb.append hrest)
    · -- there is room for the front of this record only
      exact .ok (hb.take room)

end Listing

end Hostcall
