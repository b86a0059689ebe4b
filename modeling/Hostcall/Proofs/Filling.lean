import Hostcall.Proofs.Walking

/-!
# Listings in buffers of any length

One request tells the records from its cookie on, as far as the buffer goes, and fails for a record
that cannot be told only if the buffer has room for all before it.

* `Listing.fill?` copies records into a buffer in place, part by part, and gives up where an index
  is out of range; `Listing.fill?_eq` says that none ever is, and that the buffer holds what
  `Listing.pack` gives;
* `World.readdir_exact` is the law for one request, whatever is listed and whatever is asked for.
-/

namespace Hostcall

/-! ## Copying in place -/

/-- The bytes between two indices, if these are in order and in range. -/
def slice? (b : Bytes) (first last : Nat) : Option Bytes :=
  if first ≤ last ∧ last ≤ b.length then some ((b.drop first).take (last - first)) else none

/-- Copies data over the bytes between two indices, if these are in order and in range and the data
is as long. -/
def copyOver? (b : Bytes) (first last : Nat) (data : Bytes) : Option Bytes :=
  if first ≤ last ∧ last ≤ b.length ∧ data.length = last - first then
    some (b.take first ++ data ++ b.drop last)
  else none

/-- Copies as much of the data as there is room for behind the bytes in use.  How much that is comes
with the buffer. -/
def copyFront? (b : Bytes) (used : Nat) (data : Bytes) : Option (Nat × Bytes) :=
  if used ≤ b.length then
    let count := min data.length (b.length - used)
    (slice? data 0 count).bind fun front =>
      (copyOver? b used (used + count) front).map (count, ·)
  else none

theorem slice?_front {data : Bytes} {count : Nat} (h : count ≤ data.length) :
    slice? data 0 count = some (data.take count) := by
  simp [slice?, h]

theorem copyOver?_behind (written : Bytes) {free data : Bytes} (h : data.length ≤ free.length) :
    copyOver? (written ++ free) written.length (written.length + data.length) data =
      some (written ++ overwrite free data) := by
  simp [copyOver?, overwrite, h]

theorem copyFront?_whole (written : Bytes) {free data : Bytes} (h : data.length ≤ free.length) :
    copyFront? (written ++ free) written.length data =
      some (data.length, (written ++ data) ++ free.drop data.length) := by
  have hroom : (written ++ free).length - written.length = free.length := by simp
  rw [copyFront?, if_pos (by simp)]
  simp only [hroom, Nat.min_eq_left h, slice?_front (Nat.le_refl _), List.take_length,
    Option.bind_some, copyOver?_behind written h, Option.map_some, overwrite, List.append_assoc]

/-- What is longer than the room is cut off at the end of the buffer. -/
theorem copyFront?_cut (written : Bytes) {free data : Bytes} (h : free.length < data.length) :
    copyFront? (written ++ free) written.length data =
      some (free.length, written ++ data.take free.length) := by
  have hroom : (written ++ free).length - written.length = free.length := by simp
  have hlength : (data.take free.length).length = free.length := by
    rw [List.length_take]
    omega
  have hcopy := copyOver?_behind written (Nat.le_of_eq hlength)
  rw [hlength, overwrite, hlength, List.drop_length, List.append_nil] at hcopy
  rw [copyFront?, if_pos (by simp)]
  simp only [hroom, Nat.min_eq_right (Nat.le_of_lt h), slice?_front (Nat.le_of_lt h),
    Option.bind_some, hcopy, Option.map_some]

/-! ## Records in place -/

/-- The fixed part of the record of an entry, and its name. -/
def Entity.parts (e : Entity) : Outcome (Bytes × Bytes) := do
  let length ← countOf e.name.utf8ByteSize
  return (Dirent.toBytes ⟨e.next, e.inode, length, e.fileType⟩, utf8 e.name)

theorem Entity.encode_eq_parts (e : Entity) :
    e.encode = e.parts.map fun part => part.1 ++ part.2 := by
  rw [encode, parts]
  cases countOf e.name.utf8ByteSize <;> rfl

namespace Listing

/-- Copies the records of entries into a buffer behind the bytes in use, each in its two parts, up
to the first part that is cut off.  Nothing is given where an index is out of range. -/
def fill? (b : Bytes) (used : Nat) : List Entry → Option (Outcome Nat × Bytes)
  | [] => some (.ok used, b)
  | entry :: rest =>
    match entry >>= Entity.parts with
    | .error fault => some (.error fault, b)
    | .ok (header, name) =>
      (copyFront? b used header).bind fun (count, b) =>
        if count < header.length then some (.ok b.length, b)
        else
          let used := used + count
          (copyFront? b used name).bind fun (count, b) =>
            if count < name.length then some (.ok b.length, b) else fill? b (used + count) rest

section

variable {entry : Entry} {header name : Bytes}

theorem encode_of_parts (h : (entry >>= Entity.parts) = .ok (header, name)) :
    (entry >>= Entity.encode) = .ok (header ++ name) := by
  cases entry with
  | error fault => cases h
  | ok e =>
    change e.parts = _ at h
    change e.encode = _
    rw [Entity.encode_eq_parts, h]
    rfl

theorem encode_of_fault {fault : Fault} (h : (entry >>= Entity.parts) = .error fault) :
    (entry >>= Entity.encode) = .error fault := by
  cases entry with
  | error e =>
    cases h
    rfl
  | ok e =>
    change e.parts = _ at h
    change e.encode = _
    rw [Entity.encode_eq_parts, h]
    rfl

/-- A record that the room holds whole is copied part after part. -/
theorem fill?_whole (hparts : (entry >>= Entity.parts) = .ok (header, name)) (rest : List Entry)
    (written free : Bytes) (h : (header ++ name).length ≤ free.length) :
    fill? (written ++ free) written.length (entry :: rest) =
      fill? (written ++ (header ++ name) ++ free.drop (header ++ name).length)
        (written ++ (header ++ name)).length rest := by
  rw [List.length_append] at h
  have hheader : header.length ≤ free.length := by omega
  have hname : name.length ≤ (free.drop header.length).length := by
    rw [List.length_drop]
    omega
  have hused : written.length + header.length = (written ++ header).length := by simp
  rw [fill?, hparts]
  simp only [copyFront?_whole written hheader, Option.bind_some, Nat.lt_irrefl, if_false, hused,
    copyFront?_whole (written ++ header) hname]
  simp [Nat.add_assoc]

/-- A record that the room does not hold whole fills it, wherever it is cut off. -/
theorem fill?_cut (hparts : (entry >>= Entity.parts) = .ok (header, name)) (rest : List Entry)
    (written free : Bytes) (h : free.length < (header ++ name).length) :
    fill? (written ++ free) written.length (entry :: rest) =
      some (.ok (written.length + free.length), written ++ (header ++ name).take free.length) := by
  rw [List.length_append] at h
  rw [fill?, hparts]
  by_cases hheader : header.length ≤ free.length
  · have hname : (free.drop header.length).length < name.length := by
      rw [List.length_drop]
      omega
    have hused : written.length + header.length = (written ++ header).length := by simp
    simp only [copyFront?_whole written hheader, Option.bind_some, Nat.lt_irrefl, if_false, hused,
      copyFront?_cut (written ++ header) hname, hname, if_true]
    rw [List.length_drop] at hname
    simp [List.take_append, List.take_of_length_le hheader]
    omega
  · have hcut : free.length < header.length := Nat.not_le.mp hheader
    simp only [copyFront?_cut written hcut, Option.bind_some, hcut, if_true]
    rw [List.take_append_of_le_length (Nat.le_of_lt hcut)]
    simp
    omega

end

/-- In place the records come to what they are packed to, and no index is out of range. -/
theorem fill?_eq (entries : List Entry) (written free : Bytes) :
    ∃ filled, fill? (written ++ free) written.length entries =
        some ((pack free.length entries).map (written.length + ·.length), filled) ∧
      ∀ packed, pack free.length entries = .ok packed →
        filled = written ++ overwrite free packed := by
  induction entries generalizing written free with
  | nil =>
    refine ⟨written ++ free, by simp [fill?, pack, Except.map], fun packed hpacked => ?_⟩
    cases hpacked
    rfl
  | cons entry rest ih =>
    cases hparts : entry >>= Entity.parts with
    | error fault =>
      rw [fill?, hparts, pack_cons_of_error (encode_of_fault hparts)]
      refine ⟨written ++ free, rfl, fun packed hpacked => ?_⟩
      cases hpacked
    | ok part =>
      obtain ⟨header, name⟩ := part
      rw [pack_cons_of_ok (encode_of_parts hparts)]
      have hwhole := fill?_whole hparts rest written free
      have hcut := fill?_cut hparts rest written free
      generalize header ++ name = record at hwhole hcut ⊢
      by_cases hroom : record.length ≤ free.length
      · obtain ⟨filled, hfill, hfilled⟩ := ih (written ++ record) (free.drop record.length)
        rw [hwhole hroom, if_pos hroom, hfill]
        rw [List.length_drop] at hfilled ⊢
        generalize pack (free.length - record.length) rest = later at hfilled ⊢
        cases later with
        | error fault =>
          refine ⟨filled, rfl, fun packed hpacked => ?_⟩
          cases hpacked
        | ok later =>
          refine ⟨filled, by simp [Except.map, Nat.add_assoc], fun packed hpacked => ?_⟩
          cases hpacked
          rw [hfilled later rfl]
          simp [overwrite]
      · have hlength : (record.take free.length).length = free.length := by
          rw [List.length_take]
          omega
        rw [hcut (Nat.not_le.mp hroom), if_neg hroom]
        refine ⟨_, by rw [Except.map, hlength], fun packed hpacked => ?_⟩
        cases hpacked
        rw [overwrite, hlength, List.drop_length, List.append_nil]

end Listing

/-! ## One request -/

namespace World

variable {w : World} {fd : Nat} {d : Directory}

/-- What a directory lists from a cookie on, copied into a buffer in place. -/
def fillReaddir? (w : World) (fd : Nat) (buffer : Bytes) (cookie : UInt64) :
    Option (Outcome UInt32 × Bytes) :=
  match w.table.getDirectory fd with
  | .error fault => some (.error fault, buffer)
  | .ok dir =>
    (Listing.fill? buffer 0 (Listing.entities w.volume dir.ino cookie.toNat)).map
      fun (used, buffer) => (used >>= countOf, buffer)

theorem fillReaddir?_eq (w : World) (fd : Nat) (buffer : Bytes) (cookie : UInt64) :
    ∃ answer filled, w.fillReaddir? fd buffer cookie = some (answer, filled) ∧
      w.fdReaddir fd buffer cookie = answer.map (·, filled) := by
  rw [fillReaddir?, fdReaddir]
  cases w.table.getDirectory fd with
  | error fault => exact ⟨.error fault, buffer, rfl, rfl⟩
  | ok dir =>
    obtain ⟨filled, hfill, hfilled⟩ :=
      Listing.fill?_eq (Listing.entities w.volume dir.ino cookie.toNat) [] buffer
    simp only [List.nil_append, List.length_nil, Nat.zero_add] at hfill hfilled
    simp only [hfill]
    refine ⟨_, filled, rfl, ?_⟩
    generalize hpack : Listing.pack buffer.length _ = packed at hfilled ⊢
    cases packed with
    | error fault => simp [Bind.bind, Except.bind, hpack, Except.map]
    | ok records =>
      rw [hfilled records rfl]
      simp only [Bind.bind, Except.bind, hpack, Except.map]
      cases countOf records.length <;> rfl

/-- The answer of a request that tells the first `n` of some bytes: how many these are, and the
buffer with them at its front.  A number that does not fit its width is not told. -/
def answerFront (buffer bytes : Bytes) (n : Nat) : Outcome (UInt32 × Bytes) :=
  if n < UInt32.size then .ok (UInt32.ofNat n, bytes.take n ++ buffer.drop n)
  else .error .overflow

theorem fdReaddir_eq (hd : w.table.get? fd = some (.directory d)) (buffer : Bytes)
    (cookie : UInt64) :
    w.fdReaddir fd buffer cookie =
      (Listing.pack buffer.length (Listing.entities w.volume d.ino cookie.toNat)).bind
        fun records => answerFront buffer records records.length := by
  rw [fdReaddir, getDirectory_of_get? hd]
  simp only [Bind.bind, Except.bind]
  cases Listing.pack buffer.length _ with
  | error fault => rfl
  | ok records =>
    simp only [countOf, answerFront, List.take_length]
    by_cases hcount : records.length < UInt32.size
    · simp only [if_pos hcount]
      rfl
    · simp only [if_neg hcount]

theorem answerFront_take (buffer bytes : Bytes) :
    answerFront buffer (bytes.take buffer.length) (bytes.take buffer.length).length =
      answerFront buffer bytes (min buffer.length bytes.length) := by
  have htake : bytes.take (min buffer.length bytes.length) = bytes.take buffer.length := by
    rw [List.take_eq_take_iff]
    omega
  rw [answerFront, answerFront, List.take_length, List.length_take, htake]

/-- However long a buffer is, a request fills it with the front of the records from its cookie on,
and leaves the rest as it was.  It fails for a record that cannot be told only where all before it
have room, whatever stands before the cookie.  The copying in place that comes to this takes no
index out of range. -/
theorem readdir_exact (hd : w.table.get? fd = some (.directory d)) (buffer : Bytes)
    (cookie : UInt64) :
    let listed := Listing.records w.volume d.ino
    let told := listed.drop cookie.toNat
    let answer := w.fdReaddir fd buffer cookie
    ((∀ r ∈ told, r.fault? = none) →
      answer = answerFront buffer (Record.encodeAll told)
        (min buffer.length (Record.encodeAll told).length)) ∧
    (∀ front r rest fault, told = front ++ r :: rest → (∀ r ∈ front, r.fault? = none) →
      r.fault? = some fault →
        answer =
          if (Record.encodeAll front).length ≤ buffer.length then .error fault
          else answerFront buffer (Record.encodeAll front) buffer.length) ∧
    (listed.length ≤ cookie.toNat → answer = .ok (0, buffer)) ∧
    ∃ outcome filled, w.fillReaddir? fd buffer cookie = some (outcome, filled) ∧
      answer = outcome.map (·, filled) := by
  intro listed told answer
  have htold : (∀ r ∈ told, r.fault? = none) →
      answer = answerFront buffer (Record.encodeAll told)
        (min buffer.length (Record.encodeAll told).length) := by
    intro hfaults
    change w.fdReaddir fd buffer cookie = _
    rw [fdReaddir_eq hd, Listing.pack_entities hfaults]
    exact answerFront_take buffer _
  refine ⟨htold, ?_, ?_, w.fillReaddir?_eq fd buffer cookie⟩
  · intro front r rest fault hsplit hfront hr
    change w.fdReaddir fd buffer cookie = _
    rw [fdReaddir_eq hd, Listing.pack_entities_of_fault hsplit hfront hr]
    split
    case isTrue => rfl
    case isFalse hroom =>
      refine (answerFront_take buffer _).trans ?_
      rw [Nat.min_eq_left (by omega)]
  · intro hend
    have hnil : told = [] := List.drop_of_length_le hend
    rw [htold (by simp [hnil]), hnil]
    simp [Record.encodeAll, answerFront]

/-- A host with three files, of which the second has a name that is no text. -/
def scrawledHost : Host :=
  let v := ((Volume.new default).create Volume.top (utf8 "a") (.file .empty)).2
  let v := (v.create Volume.top [0xff] (.file .empty)).2
  ⟨(v.create Volume.top (utf8 "b") (.file .empty)).2, default, default, []⟩

/-- A guest that is granted everything on it. -/
def scrawled : World := (fresh scrawledHost default).build [.preopen "/" [47]]

theorem readdir_exact_scrawled :
    scrawled.fdReaddir 3 (List.replicate 76 170) 0 =
        .error (.because .illegalByteSequence "filename") ∧
      scrawled.fdReaddir 3 (List.replicate 60 170) 0 =
        answerFront (List.replicate 60 170)
          (Record.encodeAll ((Listing.records scrawled.volume 0).take 3)) 60 ∧
      scrawled.fdReaddir 3 (List.replicate 30 170) 4 =
        .ok (25, Record.encodeAll ((Listing.records scrawled.volume 0).drop 4) ++
          List.replicate 5 170) := by
  have hd : scrawled.table.get? 3 = some (.directory (.root 0 [47] 0)) := by decide +kernel
  have hsplit : (Listing.records scrawled.volume 0).drop (0 : UInt64).toNat =
      (Listing.records scrawled.volume 0).take 3 ++ (Listing.records scrawled.volume 0)[3]! ::
        (Listing.records scrawled.volume 0).drop 4 := by decide +kernel
  have hfront : ∀ r ∈ (Listing.records scrawled.volume 0).take 3, r.fault? = none := by
    decide +kernel
  have hfault : ((Listing.records scrawled.volume 0)[3]!).fault? =
      some (.because .illegalByteSequence "filename") := by decide +kernel
  have hlast : ∀ r ∈ (Listing.records scrawled.volume 0).drop (4 : UInt64).toNat,
      r.fault? = none := by decide +kernel
  refine ⟨?_, ?_, ?_⟩
  · rw [(readdir_exact hd (List.replicate 76 170) 0).2.1 _ _ _ _ hsplit hfront hfault]
    decide +kernel
  · rw [(readdir_exact hd (List.replicate 60 170) 0).2.1 _ _ _ _ hsplit hfront hfault]
    decide +kernel
  · rw [(readdir_exact hd (List.replicate 30 170) 4).1 hlast]
    decide +kernel

end World

end Hostcall
