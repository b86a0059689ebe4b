import Hostcall.Proofs.ByteStore

/-!
# Writes at an offset and append mode

A write at an offset goes there only if the descriptor does not append.  In append mode it goes to
the end of the file whatever offset was asked for, although the offset is still checked.

* `World.WritesTo` is a regular file that is open to be written, in append mode or not;
* `World.pwrite_plain` and `World.pwrite_append` are the two modes;
* `World.pwrite_modes_agree_iff` says when nobody can tell them apart.
-/

namespace Hostcall

open Handle (positionLimit)

namespace World

/-- An id stands for a regular file with these bytes that the guest may write. -/
def WritesTo (w : World) (fd : Nat) (append : Bool) (bytes : Bytes) : Prop :=
  ∃ e content, w.table.get? fd = some (.file e) ∧ e.Writes ∧ e.handle.append = append ∧
    w.volume.body e.handle.ino = .file content ∧ content.toList = bytes

variable {w w' : World} {fd fd' : Nat} {append : Bool} {bytes : Bytes}

theorem writesTo_byteStore {e : FileEntry} (he : w.table.get? fd = some (.file e)) (hwrites : e.Writes)
    (hregular : w.Regular e.handle.ino) :
    w.WritesTo fd e.handle.append (w.byteStore e.handle.ino).bytes := by
  obtain ⟨content, hbody⟩ := hregular
  exact ⟨e, content, he, hwrites, rfl, hbody, (bytes_byteStore hbody).symm⟩

/-- A file has one content. -/
theorem WritesTo.bytes_eq {append' : Bool} {bytes' : Bytes} (h : w.WritesTo fd append bytes)
    (h' : w.WritesTo fd append' bytes') : bytes = bytes' := by
  obtain ⟨e, content, he, -, -, hbody, rfl⟩ := h
  obtain ⟨e', content', he', -, -, hbody', rfl⟩ := h'
  rw [he] at he'
  cases he'
  rw [hbody] at hbody'
  cases hbody'
  rfl

/-- Flags that can be had put a file into append mode or out of it. -/
theorem WritesTo.setFlags (h : w.WritesTo fd append bytes) (flags : FdFlags)
    (hflags : flags.intersects FdFlags.syncFamily = false) :
    (w.call (.fdFdstatSetFlags fd flags)).2.WritesTo fd (flags.contains FdFlags.append) bytes := by
  obtain ⟨e, content, he, hwrites, -, hbody, hbytes⟩ := h
  have hcall : (w.call (.fdFdstatSetFlags fd flags)).2 =
      w.update fd (.file (e.withHandle (e.handle.setFlags flags))) := by
    simp only [call, changing, fdFdstatSetFlags, DescriptorTable.getFile, Table.get_of_get? he,
      FileEntry.setFlags, hflags]
    rfl
  have hopen : w.table.contains fd = true := Table.contains_iff.mpr ⟨_, he⟩
  rw [hcall]
  refine ⟨e.withHandle (e.handle.setFlags flags), content, ?_, hwrites, rfl, hbody, hbytes⟩
  change (w.table.update fd _).get? fd = _
  rw [Table.get?_update, if_pos ⟨rfl, hopen⟩]

/-- Where a write at an offset begins decides what it leaves. -/
theorem pwrite_cases (h : w.WritesTo fd append bytes) (buffers : List Bytes) (offset : UInt64) :
    let step := w.call (.fdPwrite fd buffers offset)
    let data := ByteStore.offer buffers
    let start := Handle.writeStart append bytes.length offset.toNat
    let accepted := Handle.fitting start data
    if positionLimit ≤ offset.toNat + data.length then
      step = (.error (.ofErrno .invalidArgument), w)
    else if data = [] then step = (.ok (.written 0), w)
    else if accepted = [] then step = (.error (.ofErrno .fileTooLarge), w)
    else step.1 = .ok (.written (UInt32.ofNat accepted.length)) ∧
      step.2.WritesTo fd append (patched bytes start accepted) := by
  obtain ⟨e, content, he, hwrites, rfl, hbody, rfl⟩ := h
  simp only [call, changing, fdPwrite_file he hbody hwrites, ByteStore.offer,
    ← Handle.offered_eq_take, Content.length_toList]
  generalize Handle.writeStart e.handle.append content.size offset.toNat = start
  by_cases hreach : positionLimit ≤ offset.toNat + (Handle.offered buffers).length
  · simp only [if_pos hreach]
    rfl
  by_cases hdata : Handle.offered buffers = []
  · simp only [if_neg hreach, if_pos hdata]
    rfl
  by_cases hfull : Handle.fitting start (Handle.offered buffers) = []
  · simp only [if_neg hreach, if_neg hdata, if_pos hfull]
    rfl
  · simp only [if_neg hreach, if_neg hdata, if_neg hfull]
    exact ⟨rfl, e, _, he, hwrites, rfl, body_stored hbody _, Content.toList_write_eq_patched ..⟩

/-- Out of append mode a write lands at its offset. -/
theorem pwrite_plain (h : w.WritesTo fd false bytes) (buffers : List Bytes) (offset : UInt64)
    (hreach : offset.toNat + (ByteStore.offer buffers).length < positionLimit) :
    let step := w.call (.fdPwrite fd buffers offset)
    let data := ByteStore.offer buffers
    step.1 = .ok (.written (UInt32.ofNat data.length)) ∧
      step.2.WritesTo fd false (patched bytes offset.toNat data) := by
  intro step data
  have hstep := pwrite_cases h buffers offset
  dsimp only at hstep
  rw [if_neg (Nat.not_le.mpr hreach), Handle.writeStart, if_neg Bool.false_ne_true,
    Handle.fitting_eq_self hreach] at hstep
  by_cases hdata : data = []
  · rw [if_pos hdata] at hstep
    rw [show step = (.ok (.written 0), w) from hstep, hdata, patched_nil]
    exact ⟨rfl, h⟩
  · rw [if_neg hdata, if_neg hdata] at hstep
    exact hstep

/-- In append mode it lands at the end, as much of it as has its end at a position. -/
theorem pwrite_append (h : w.WritesTo fd true bytes) (buffers : List Bytes) (offset : UInt64)
    (hdata : ByteStore.offer buffers ≠ [])
    (hreach : offset.toNat + (ByteStore.offer buffers).length < positionLimit) :
    let step := w.call (.fdPwrite fd buffers offset)
    let accepted := Handle.fitting bytes.length (ByteStore.offer buffers)
    if accepted = [] then step = (.error (.ofErrno .fileTooLarge), w)
    else step.1 = .ok (.written (UInt32.ofNat accepted.length)) ∧
      step.2.WritesTo fd true (bytes ++ accepted) := by
  intro step accepted
  have hstep := pwrite_cases h buffers offset
  dsimp only at hstep
  rw [if_neg (Nat.not_le.mpr hreach), if_neg hdata, Handle.writeStart, if_pos rfl,
    patched_length] at hstep
  exact hstep

/-- What has nothing to write or is refused for its offset is so in both modes. -/
theorem pwrite_idle (h : w.WritesTo fd append bytes) (buffers : List Bytes) (offset : UInt64)
    (hidle : ByteStore.offer buffers = [] ∨
      positionLimit ≤ offset.toNat + (ByteStore.offer buffers).length) :
    w.call (.fdPwrite fd buffers offset) =
      (if positionLimit ≤ offset.toNat + (ByteStore.offer buffers).length then
        .error (.ofErrno .invalidArgument) else .ok (.written 0), w) := by
  have hstep := pwrite_cases h buffers offset
  dsimp only at hstep
  split
  case isTrue hlimit => rwa [if_pos hlimit] at hstep
  case isFalse hlimit => rwa [if_neg hlimit, if_pos (hidle.resolve_right hlimit)] at hstep

/-- A count of what is offered, or of a part of it, tells how much it is. -/
theorem length_eq_of_counts_eq {start : Nat} {buffers : List Bytes}
    (h : UInt32.ofNat (ByteStore.offer buffers).length =
      UInt32.ofNat (Handle.fitting start (ByteStore.offer buffers)).length) :
    (ByteStore.offer buffers).length = (Handle.fitting start (ByteStore.offer buffers)).length := by
  have hpart := Handle.length_fitting_le start (ByteStore.offer buffers)
  have hlimit : (ByteStore.offer buffers).length ≤ Handle.transferLimit := by
    rw [ByteStore.offer, ← Handle.offered_eq_take]
    exact Handle.length_offered_le buffers
  have hsmall : Handle.transferLimit < UInt32.size := by decide
  have hcounts := congrArg UInt32.toNat h
  rwa [UInt32.toNat_ofNat_of_lt' (Nat.lt_of_le_of_lt hlimit hsmall),
    UInt32.toNat_ofNat_of_lt' (Nat.lt_of_le_of_lt (Nat.le_trans hpart hlimit) hsmall)] at hcounts

/-- Two guests write the same buffers at the same offset of files with the same bytes, one through
a descriptor that does not append and the other through one that does.  The first write lands at
the offset and the second at the end of the file, so answers and bytes agree only if there is
nothing to write, the offset is refused in both modes, or it is the end of the file. -/
theorem pwrite_modes_agree_iff (h : w.WritesTo fd false bytes) (h' : w'.WritesTo fd' true bytes)
    (buffers : List Bytes) (offset : UInt64) :
    let plain := w.call (.fdPwrite fd buffers offset)
    let appending := w'.call (.fdPwrite fd' buffers offset)
    let data := ByteStore.offer buffers
    let accepted := Handle.fitting bytes.length data
    let Transfers := data ≠ [] ∧ offset.toNat + data.length < positionLimit
    (Transfers →
      plain.1 = .ok (.written (UInt32.ofNat data.length)) ∧
        plain.2.WritesTo fd false (patched bytes offset.toNat data)) ∧
    (Transfers →
      if accepted = [] then appending = (.error (.ofErrno .fileTooLarge), w')
      else appending.1 = .ok (.written (UInt32.ofNat accepted.length)) ∧
        appending.2.WritesTo fd' true (bytes ++ accepted)) ∧
    ((plain.1 = appending.1 ∧
        ∃ left, plain.2.WritesTo fd false left ∧ appending.2.WritesTo fd' true left) ↔
      ¬ Transfers ∨ offset.toNat = bytes.length) := by
  intro plain appending data accepted Transfers
  have hplain : Transfers → _ := fun ht => pwrite_plain h buffers offset ht.2
  have happend : Transfers → _ := fun ht => pwrite_append h' buffers offset ht.1 ht.2
  refine ⟨hplain, happend, ?_⟩
  by_cases ht : Transfers
  case neg =>
    have hnot : data = [] ∨ positionLimit ≤ offset.toNat + data.length := by
      rwa [← Nat.not_lt, ← not_ne_iff, ← not_and_or]
    have hplain := pwrite_idle h buffers offset hnot
    have happend := pwrite_idle h' buffers offset hnot
    refine iff_of_true ⟨?_, bytes, ?_, ?_⟩ (.inl ht)
    · exact (congrArg Prod.fst hplain).trans (congrArg Prod.fst happend).symm
    · exact (congrArg Prod.snd hplain) ▸ h
    · exact (congrArg Prod.snd happend) ▸ h'
  case pos =>
    obtain ⟨hanswer, hleft⟩ := hplain ht
    replace happend := happend ht
    constructor
    · rintro ⟨hsame, left, hplain', happend'⟩
      obtain rfl := hleft.bytes_eq hplain'
      by_cases hfull : accepted = []
      · -- what does not fit is told as an error, and the other write gave a count
        rw [if_pos hfull] at happend
        cases hanswer.symm.trans (hsame.trans (congrArg Prod.fst happend))
      rw [if_neg hfull] at happend
      have hcounts := hanswer.symm.trans (hsame.trans happend.1)
      have hbytes : patched bytes offset.toNat data = bytes ++ accepted :=
        happend'.bytes_eq happend.2
      have hlength := congrArg List.length hbytes
      rw [length_patched ht.1, List.length_append] at hlength
      have hcount : data.length = accepted.length :=
        length_eq_of_counts_eq (Answer.written.inj (Except.ok.inj hcounts))
      have hpos := List.length_pos_iff.mpr ht.1
      exact .inr (by omega)
    · intro hend
      replace hend : offset.toNat = bytes.length := hend.resolve_left (not_not_intro ht)
      have hfits : accepted = data := Handle.fitting_eq_self (hend ▸ ht.2)
      have hfull : accepted ≠ [] := hfits ▸ ht.1
      rw [if_neg hfull] at happend
      obtain ⟨hanswer', hleft'⟩ : appending.1 = .ok (.written (UInt32.ofNat accepted.length)) ∧
        appending.2.WritesTo fd' true (bytes ++ accepted) := happend
      rw [hfits] at hanswer' hleft'
      refine ⟨hanswer.trans hanswer'.symm, _, hleft, ?_⟩
      rw [hend, patched_length]
      exact hleft'

/-- The guest of `sharing` with three bytes in its file. -/
def lettered : World := (sharing.call (.fdWrite 4 [[97, 98, 99]])).2

theorem lettered_writesTo :
    lettered.WritesTo 4 false [97, 98, 99] ∧ lettered.WritesTo 5 true [97, 98, 99] := by
  have hplain : lettered.table.get? 4 =
      some (.file ⟨⟨3, true, true, false, false, 3⟩, Access.ofRights ⟨0x42⟩⟩) := by decide +kernel
  have happend : lettered.table.get? 5 =
      some (.file ⟨⟨3, true, true, true, false, 0⟩, Access.ofRights ⟨0x42⟩⟩) := by decide +kernel
  have hwrites : (Access.ofRights ⟨0x42⟩).contains Access.write = true := by decide
  have hregular : lettered.Regular 3 := regular_of_fileType (by decide +kernel)
  have hbytes : (lettered.byteStore 3).bytes = [97, 98, 99] := by decide +kernel
  rw [← hbytes]
  exact ⟨writesTo_byteStore hplain ⟨hwrites, rfl⟩ hregular,
    writesTo_byteStore happend ⟨hwrites, rfl⟩ hregular⟩

/-- One descriptor of the file, before and after it was put into append mode. -/
theorem pwrite_modes_agree_iff_lettered :
    let switched := (lettered.call (.fdFdstatSetFlags 4 FdFlags.append)).2
    lettered.WritesTo 4 false [97, 98, 99] ∧ switched.WritesTo 4 true [97, 98, 99] ∧
      ¬ ((lettered.call (.fdPwrite 4 [[88]] 0)).1 = (switched.call (.fdPwrite 4 [[88]] 0)).1 ∧
        ∃ left, (lettered.call (.fdPwrite 4 [[88]] 0)).2.WritesTo 4 false left ∧
          (switched.call (.fdPwrite 4 [[88]] 0)).2.WritesTo 4 true left) := by
  intro switched
  have hplain := lettered_writesTo.1
  have hswitched : switched.WritesTo 4 true [97, 98, 99] :=
    hplain.setFlags FdFlags.append (by decide)
  refine ⟨hplain, hswitched, ?_⟩
  rw [(pwrite_modes_agree_iff hplain hswitched [[88]] 0).2.2]
  decide

/-- The same write through the two descriptors of one file is answered in the same way and leaves
different bytes: only without append mode it goes to its offset. -/
theorem pwrite_ignores_offset :
    (lettered.call (.fdPwrite 4 [[88]] 0)).1 = .ok (.written 1) ∧
      (lettered.call (.fdPwrite 4 [[88]] 0)).2.WritesTo 4 false [88, 98, 99] ∧
      (lettered.call (.fdPwrite 5 [[88]] 0)).1 = .ok (.written 1) ∧
      (lettered.call (.fdPwrite 5 [[88]] 0)).2.WritesTo 5 true [97, 98, 99, 88] := by
  obtain ⟨hplain, happend⟩ := lettered_writesTo
  have hfirst := pwrite_plain hplain [[88]] 0 (by decide)
  have hsecond := pwrite_append happend [[88]] 0 (by decide) (by decide)
  exact ⟨hfirst.1, hfirst.2, hsecond.1, hsecond.2⟩

end World

end Hostcall
