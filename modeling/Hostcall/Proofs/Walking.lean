import Hostcall.Embedder
import Hostcall.Proofs.Records
import Hostcall.Proofs.Table
import Mathlib.Algebra.Group.Nat.Defs

/-!
# A walk through a directory

A guest that asks for a listing again and again behind the last whole record finds every entry
once, whatever the size of its buffers, as long as every record fits one.

* `Record.outcome` is what becomes of a record that is to be told;
* `Listing.records` are the records of a directory, `Listing.Legible` says that they can be told
  in buffers of a given size;
* `World.listedAt_eq` says what one request tells, `Walk.run_complete` what a loop of them does;
* `World.walk_complete` is the walk of a guest, with any buffers and with fresh ones.
-/

namespace Hostcall

/-! ## Records that can be told -/

theorem littleEndian_mod (count n : Nat) :
    littleEndian count (n % 256 ^ count) = littleEndian count n := by
  induction count generalizing n with
  | zero => rfl
  | succ count ih =>
    have hlow : UInt8.ofNat (n % 256 ^ (count + 1)) = UInt8.ofNat n := by
      apply UInt8.toNat_inj.mp
      rw [UInt8.toNat_ofNat', UInt8.toNat_ofNat', Nat.pow_succ']
      exact Nat.mod_mul_right_mod n 256 _
    have hhigh : n % 256 ^ (count + 1) / 256 = n / 256 % 256 ^ count := by
      rw [Nat.pow_succ', Nat.mod_mul_right_div_self]
    rw [littleEndian, littleEndian, hlow, hhigh, ih]

/-- Why a record cannot be told: its name is no text, or is longer than is ever counted. -/
def Record.fault? (r : Record) : Option Fault :=
  if (text? r.name).isNone then some (.because .illegalByteSequence "filename")
  else if UInt32.size ≤ r.name.length then some .overflow
  else none

/-- The bytes of a record, if it can be told. -/
def Record.outcome (r : Record) : Outcome Bytes :=
  match r.fault? with
  | some fault => .error fault
  | none => .ok r.encode

theorem Record.outcome_of_none {r : Record} (h : r.fault? = none) : r.outcome = .ok r.encode := by
  rw [outcome, h]

theorem Record.outcome_of_some {r : Record} {fault : Fault} (h : r.fault? = some fault) :
    r.outcome = .error fault := by
  rw [outcome, h]

/-- The position in a record is told in its low bits. -/
theorem Entity.encode_eq (k : Nat) (inode : UInt64) (name : String) (kind : FileType) :
    Entity.encode ⟨UInt64.ofNat k, inode, name, kind⟩ =
      Record.outcome ⟨k, inode.toNat, kind.raw, utf8 name⟩ := by
  have hnext : littleEndian 8 (UInt64.ofNat k).toNat = littleEndian 8 k := by
    rw [UInt64.toNat_ofNat']
    exact littleEndian_mod 8 k
  rw [Entity.encode, Record.outcome, Record.fault?, text?_utf8, length_utf8, countOf]
  by_cases hname : name.utf8ByteSize < UInt32.size
  · have hlength : (UInt32.ofNat name.utf8ByteSize).toNat = (utf8 name).length := by
      rw [UInt32.toNat_ofNat_of_lt' hname, length_utf8]
    rw [if_pos hname, if_neg (by simp), if_neg (by omega)]
    change Except.ok (Dirent.toBytes _ ++ utf8 name) = _
    simp only [Dirent.toBytes, hnext, hlength, Record.encode, Record.header]
  · rw [if_neg hname, if_neg (by simp), if_pos (by omega)]
    rfl

namespace Listing

variable {v : Volume} {dir : Ino} {size : Nat}

/-! ## What a directory lists -/

/-- The names of a listing, in order. -/
def names (v : Volume) (dir : Ino) : List Name :=
  utf8 "." :: utf8 ".." :: (v.entries dir).map Prod.fst

/-- The bytes that records of given names take. -/
def bytes (names : List Name) : Nat :=
  totalSize (names.map fun name => Dirent.size + name.length)

/-- The listing of a directory can be told in buffers of a size: names are text, every record fits
a buffer, those of `.` and `..` too, and positions and counts of bytes fit the widths they are
told in. -/
structure Legible (v : Volume) (dir : Ino) (size : Nat) : Prop where
  text : ∀ entry ∈ v.entries dir, ∃ s, entry.1 = utf8 s
  room : ∀ name ∈ names v dir, Dirent.size + name.length ≤ size
  positions : (names v dir).length < UInt64.size
  bytes : size < UInt32.size ∨ bytes (names v dir) < UInt32.size

/-- What a directory lists, in order: names with their nodes and kinds. -/
def told (v : Volume) (dir : Ino) : List (Name × Ino × FileType) :=
  (utf8 ".", dir, .directory) :: (utf8 "..", dir, .directory) ::
    (v.entries dir).map fun (name, i) => (name, i, (v.body i).fileType)

/-- The record of something that is listed at a position. -/
def record (v : Volume) (k : Nat) (t : Name × Ino × FileType) : Record :=
  { next := k + 1
    inode := (v.attributes t.2.1).inode.toNat
    kind := t.2.2.raw
    name := t.1 }

/-- The records of a directory, each with the position of the one behind it. -/
def records (v : Volume) (dir : Ino) : List Record := (told v dir).mapIdx (record v)

theorem map_name_records (v : Volume) (dir : Ino) :
    (records v dir).map Record.name = names v dir := by
  have htold : (told v dir).map Prod.fst = names v dir := by simp [told, names]
  rw [← htold]
  apply List.ext_getElem?
  intro k
  simp [records, record, Function.comp_def]

theorem length_records (v : Volume) (dir : Ino) :
    (records v dir).length = (names v dir).length := by
  rw [← map_name_records, List.length_map]

theorem length_names (v : Volume) (dir : Ino) :
    (names v dir).length = (v.entries dir).length + 2 := by
  simp [names]

theorem name_mem_names {r : Record} (hr : r ∈ records v dir) : r.name ∈ names v dir := by
  rw [← map_name_records]
  exact List.mem_map_of_mem hr

theorem next_of_getElem? {k : Nat} {r : Record} (h : (records v dir)[k]? = some r) :
    r.next = k + 1 := by
  rw [records, List.getElem?_mapIdx, Option.map_eq_some_iff] at h
  obtain ⟨t, -, rfl⟩ := h
  rfl

theorem length_encodeAll (rs : List Record) :
    (Record.encodeAll rs).length = bytes (rs.map Record.name) := by
  rw [Record.encodeAll, length_flatMap, bytes, List.map_map]
  simp only [Record.length_encode, Function.comp_def]

theorem le_bytes {list : List Name} {name : Name} (h : name ∈ list) :
    Dirent.size + name.length ≤ bytes list := by
  induction list with
  | nil => cases h
  | cons first rest ih =>
    rw [bytes, List.map_cons, totalSize_cons]
    rcases List.mem_cons.mp h with rfl | h
    · omega
    · have := ih h
      rw [bytes] at this
      omega

theorem bytes_le_of_sublist {list list' : List Name} (h : list'.Sublist list) :
    bytes list' ≤ bytes list := by
  induction h with
  | slnil => exact Nat.le_refl _
  | cons name _ ih =>
    simp only [bytes, List.map_cons, totalSize_cons] at ih ⊢
    omega
  | cons_cons name _ ih =>
    simp only [bytes, List.map_cons, totalSize_cons] at ih ⊢
    omega

namespace Legible

theorem name_lt (h : Legible v dir size) {r : Record} (hr : r ∈ records v dir) :
    r.name.length < UInt32.size := by
  have hname := name_mem_names hr
  have hroom := h.room _ hname
  have htotal := le_bytes hname
  rcases h.bytes with hbytes | hbytes <;> omega

theorem size_pos (h : Legible v dir size) : 0 < size := by
  have hroom := h.room (utf8 ".") List.mem_cons_self
  rw [Dirent.size] at hroom
  omega

theorem encode_le (h : Legible v dir size) : ∀ r ∈ records v dir, r.encode.length ≤ size := by
  intro r hr
  rw [Record.length_encode]
  exact h.room _ (name_mem_names hr)

theorem fits (h : Legible v dir size) : ∀ r ∈ records v dir, r.Fits := by
  intro r hr
  obtain ⟨k, hk⟩ := List.getElem?_of_mem hr
  have hlt : k < (records v dir).length := (List.getElem?_eq_some_iff.mp hk).1
  have hnext := next_of_getElem? hk
  have hpositions := h.positions
  rw [length_records] at hlt
  refine ⟨by omega, ?_, h.name_lt hr⟩
  obtain ⟨k', hk', rfl⟩ := List.mem_mapIdx.mp hr
  exact UInt64.toNat_lt _

theorem sublist {v' : Volume} (h : Legible v dir size)
    (hentries : (v'.entries dir).Sublist (v.entries dir)) : Legible v' dir size := by
  have hnames : (names v' dir).Sublist (names v dir) :=
    ((hentries.map Prod.fst).cons_cons _).cons_cons _
  refine ⟨fun entry he => h.text entry (hentries.subset he),
    fun name hname => h.room name (hnames.subset hname),
    Nat.lt_of_le_of_lt hnames.length_le h.positions, h.bytes.imp_right ?_⟩
  exact Nat.lt_of_le_of_lt (bytes_le_of_sublist hnames)

end Legible

/-! ## One request -/

theorem encode_hostEntry (entry : Name × Ino) (k : Nat) :
    (hostEntry v entry (UInt64.ofNat (k + 1)) >>= Entity.encode) =
      (record v k (entry.1, entry.2, (v.body entry.2).fileType)).outcome := by
  rw [hostEntry]
  cases htext : text? entry.1 with
  | none =>
    simp only [Record.outcome, Record.fault?, record, htext]
    rfl
  | some name =>
    rw [record, ← utf8_of_text? htext]
    exact Entity.encode_eq (k + 1) _ name _

/-- Every entry from a cookie on is told as its record is, or fails as it does. -/
theorem map_encode_entities (v : Volume) (dir : Ino) (cookie : Nat) :
    (entities v dir cookie).map (· >>= Entity.encode) =
      ((records v dir).drop cookie).map Record.outcome := by
  rw [entities, List.map_drop, List.map_drop]
  congr 1
  apply List.ext_getElem?
  intro k
  simp only [records, List.getElem?_map, List.getElem?_mapIdx, Option.map_map]
  -- the first two are put before what the host lists
  match k with
  | 0 => exact congrArg some (Entity.encode_eq 1 _ "." .directory)
  | 1 => exact congrArg some (Entity.encode_eq 2 _ ".." .directory)
  | k + 2 =>
    simp only [listed, told, List.getElem?_cons_succ, List.getElem?_map, Option.map_map]
    cases (v.entries dir)[k]? with
    | none => rfl
    | some entry => exact congrArg some (encode_hostEntry entry (k + 2))

section

variable {entry : Entry} {rest : List Entry} {room : Nat}

theorem pack_cons_of_ok {bytes : Bytes} (h : (entry >>= Entity.encode) = .ok bytes) :
    pack room (entry :: rest) =
      if bytes.length ≤ room then (pack (room - bytes.length) rest).map (bytes ++ ·)
      else .ok (bytes.take room) := by
  cases entry with
  | error fault => cases h
  | ok e =>
    change e.encode = _ at h
    simp only [pack, Bind.bind, Except.bind, h]
    split
    · cases pack _ rest <;> rfl
    · rfl

theorem pack_cons_of_error {fault : Fault} (h : (entry >>= Entity.encode) = .error fault) :
    pack room (entry :: rest) = .error fault := by
  cases entry with
  | error e =>
    cases h
    rfl
  | ok e =>
    change e.encode = _ at h
    simp only [pack, Bind.bind, Except.bind, h]

end

/-- Entries that can be told are packed in front of the rest, unless they fill the room. -/
theorem pack_append {front rest : List Entry} {rs : List Record}
    (h : front.map (· >>= Entity.encode) = rs.map fun r => .ok r.encode) (room : Nat) :
    pack room (front ++ rest) =
      if (Record.encodeAll rs).length ≤ room then
        (pack (room - (Record.encodeAll rs).length) rest).map (Record.encodeAll rs ++ ·)
      else .ok ((Record.encodeAll rs).take room) := by
  induction rs generalizing front room with
  | nil =>
    obtain rfl : front = [] := List.map_eq_nil_iff.mp h
    simp only [Record.encodeAll, List.flatMap_nil, List.nil_append, List.length_nil, Nat.zero_le,
      if_true, Nat.sub_zero]
    cases pack room rest <;> rfl
  | cons r rs ih =>
    obtain ⟨entry, front, rfl, hentry, hfront⟩ := List.map_eq_cons_iff.mp h
    have hall : Record.encodeAll (r :: rs) = r.encode ++ Record.encodeAll rs := rfl
    rw [List.cons_append, pack_cons_of_ok hentry, hall, List.length_append, ← Nat.sub_sub]
    by_cases hroom : r.encode.length ≤ room
    · rw [if_pos hroom, ih hfront]
      by_cases hrest : (Record.encodeAll rs).length ≤ room - r.encode.length
      · rw [if_pos hrest, if_pos (by omega)]
        cases pack _ rest <;> simp [Except.map]
      · rw [if_neg hrest, if_neg (by omega), List.take_append, List.take_of_length_le hroom]
        rfl
    · rw [if_neg hroom, if_neg (by omega), List.take_append_of_le_length (by omega)]

theorem map_outcome_of_none {rs : List Record} (h : ∀ r ∈ rs, r.fault? = none) :
    rs.map Record.outcome = rs.map fun r => .ok r.encode :=
  List.map_congr_left fun r hr => Record.outcome_of_none (h r hr)

/-- Records that can all be told fill a room as far as they go. -/
theorem pack_entities {cookie : Nat}
    (h : ∀ r ∈ (records v dir).drop cookie, r.fault? = none) (room : Nat) :
    pack room (entities v dir cookie) =
      .ok ((Record.encodeAll ((records v dir).drop cookie)).take room) := by
  have hencode := map_encode_entities v dir cookie
  rw [map_outcome_of_none h] at hencode
  rw [← List.append_nil (entities v dir cookie), pack_append hencode]
  split
  case isTrue hroom =>
    rw [List.take_of_length_le hroom]
    simp [pack, Except.map]
  case isFalse => rfl

/-- A record that cannot be told is reached only if there is room for all before it. -/
theorem pack_entities_of_fault {cookie : Nat} {front rest : List Record} {r : Record}
    {fault : Fault} (hsplit : (records v dir).drop cookie = front ++ r :: rest)
    (hfront : ∀ r ∈ front, r.fault? = none) (hr : r.fault? = some fault) (room : Nat) :
    pack room (entities v dir cookie) =
      if (Record.encodeAll front).length ≤ room then .error fault
      else .ok ((Record.encodeAll front).take room) := by
  have hencode := map_encode_entities v dir cookie
  rw [hsplit, List.map_append, List.map_cons] at hencode
  obtain ⟨entries, rest', heq, hentries, hrest⟩ := List.map_eq_append_iff.mp hencode
  obtain ⟨entry, behind, rfl, hentry, -⟩ := List.map_eq_cons_iff.mp hrest
  rw [map_outcome_of_none hfront] at hentries
  rw [Record.outcome_of_some hr] at hentry
  rw [heq, pack_append hentries, pack_cons_of_error hentry]
  rfl

theorem Legible.fault? (h : Legible v dir size) : ∀ r ∈ records v dir, r.fault? = none := by
  intro r hr
  have hname := h.name_lt hr
  have htext : ∃ s, r.name = utf8 s := by
    have hmem := name_mem_names hr
    simp only [names, List.mem_cons, List.mem_map] at hmem
    obtain hdot | hdot | ⟨entry, hentry, hname⟩ := hmem
    · exact ⟨".", hdot⟩
    · exact ⟨"..", hdot⟩
    · obtain ⟨s, hs⟩ := h.text entry hentry
      exact ⟨s, hname.symm.trans hs⟩
  obtain ⟨s, hs⟩ := htext
  rw [Record.fault?, if_neg (by simp [hs, text?_utf8]), if_neg (by omega)]

end Listing

/-! ## The loop -/

namespace Walk

variable {all : List Record} {size cookie : Nat}

theorem parse_of_short (hfits : ∀ r ∈ all, r.Fits)
    (hshort : ((Record.encodeAll (all.drop cookie)).take size).length < size) :
    (Record.parse ((Record.encodeAll (all.drop cookie)).take size)).1 = all.drop cookie := by
  rw [List.length_take] at hshort
  rw [Record.parse_take fun r hr => hfits r (List.mem_of_mem_drop hr)]
  exact Record.fitting_of_le (by omega)

/-- A buffer that is filled holds some of the records that are left, and the last of them tells
where to go on. -/
theorem parse_of_full (hsize : 0 < size) (hfits : ∀ r ∈ all, r.Fits)
    (hroom : ∀ r ∈ all, r.encode.length ≤ size)
    (hnext : ∀ k r, all[k]? = some r → r.next = k + 1)
    (hfull : ¬ ((Record.encodeAll (all.drop cookie)).take size).length < size) :
    ∃ count last, 0 < count ∧ cookie + count ≤ all.length ∧
      (Record.parse ((Record.encodeAll (all.drop cookie)).take size)).1 =
        (all.drop cookie).take count ∧
      ((all.drop cookie).take count).getLast? = some last ∧ last.next = cookie + count := by
  have hpending : all.drop cookie ≠ [] := by
    intro hnil
    rw [hnil] at hfull
    exact hfull (by simpa [Record.encodeAll] using hsize)
  rw [Record.parse_take fun r hr => hfits r (List.mem_of_mem_drop hr)]
  -- a record is left and fits, so the walk does not stand still
  have hne := Record.fitting_ne_nil (fun r hr => hroom r (List.mem_of_mem_drop hr)) hpending
  have hprefix := Record.fitting_prefix size (all.drop cookie)
  generalize Record.fitting size (all.drop cookie) = told at *
  have hlength := hprefix.length_le
  have hpos := List.length_pos_iff.mpr hne
  rw [List.length_drop] at hlength
  have hlast : told.getLast? = some (told.getLast hne) := List.getLast?_eq_some_getLast hne
  have htake := List.prefix_iff_eq_take.mp hprefix
  refine ⟨told.length, told.getLast hne, hpos, by omega, htake, by rw [← htake, hlast], ?_⟩
  have hget : all[cookie + (told.length - 1)]? = some (told.getLast hne) := by
    obtain ⟨rest, hrest⟩ := hprefix
    rw [← hlast, List.getLast?_eq_getElem?, ← List.getElem?_drop, ← hrest,
      List.getElem?_append_left (by omega)]
  rw [hnext _ _ hget]
  omega

theorem run_complete {read : Nat → Outcome Bytes} (hsize : 0 < size)
    (hfits : ∀ r ∈ all, r.Fits) (hroom : ∀ r ∈ all, r.encode.length ≤ size)
    (hnext : ∀ k r, all[k]? = some r → r.next = k + 1)
    (hread : ∀ cookie, cookie ≤ all.length →
      read cookie = .ok ((Record.encodeAll (all.drop cookie)).take size))
    {times : Nat} (hcookie : cookie ≤ all.length) (htimes : all.length - cookie < times) :
    run read size times cookie = .ok ⟨all.drop cookie, false⟩ := by
  induction times generalizing cookie with
  | zero => omega
  | succ times ih =>
    rw [run, hread cookie hcookie]
    by_cases hshort : ((Record.encodeAll (all.drop cookie)).take size).length < size
    · simp only [Bind.bind, Except.bind, parse_of_short hfits hshort, if_pos hshort]
      rfl
    · obtain ⟨count, last, hpos, hle, htold, hlast, hgo⟩ :=
        parse_of_full hsize hfits hroom hnext hshort
      -- every request that goes on has told at least one record more
      have hlater := ih hle (by omega)
      simp only [Bind.bind, Except.bind, htold, if_neg hshort, hlast, hgo, hlater]
      simp only [← List.drop_drop, List.take_append_drop]
      rfl

end Walk

namespace World

variable {w : World} {fd size : Nat} {d : Directory}

/-- The bytes that one request of a guest fills, from a buffer of its own. -/
def listedAt (w : World) (fd : Nat) (buffer : Bytes) (cookie : Nat) : Outcome Bytes := do
  let (count, filled) ← w.fdReaddir fd buffer (UInt64.ofNat cookie)
  return filled.take count.toNat

theorem getDirectory_of_get? (hd : w.table.get? fd = some (.directory d)) :
    w.table.getDirectory fd = .ok d := by
  rw [DescriptorTable.getDirectory, Table.get_of_get? hd]
  rfl

theorem listedAt_eq (hd : w.table.get? fd = some (.directory d))
    (h : Listing.Legible w.volume d.ino size) {buffer : Bytes} (hbuffer : buffer.length = size)
    {cookie : Nat} (hcookie : cookie < UInt64.size) :
    w.listedAt fd buffer cookie =
      .ok ((Record.encodeAll ((Listing.records w.volume d.ino).drop cookie)).take size) := by
  have hwide : (UInt64.ofNat cookie).toNat = cookie :=
    UInt64.toNat_ofNat_of_lt' hcookie
  have htellable : ∀ r ∈ (Listing.records w.volume d.ino).drop cookie, r.fault? = none :=
    fun r hr => h.fault? r (List.mem_of_mem_drop hr)
  have hpack := Listing.pack_entities htellable size
  generalize hbytes : (Record.encodeAll ((Listing.records w.volume d.ino).drop cookie)).take size =
    bytes at hpack ⊢
  have hcount : bytes.length < UInt32.size := by
    have hle := Record.length_encodeAll_drop_le cookie (Listing.records w.volume d.ino)
    rw [Listing.length_encodeAll (Listing.records w.volume d.ino), Listing.map_name_records] at hle
    rw [← hbytes, List.length_take]
    rcases h.bytes with hlt | hlt <;> omega
  rw [listedAt, fdReaddir, getDirectory_of_get? hd]
  change ((do
    let records ← Listing.pack buffer.length (Listing.entities w.volume d.ino (UInt64.ofNat cookie).toNat)
    return (← countOf records.length, overwrite buffer records)) >>= _) = _
  rw [hwide, hbuffer, hpack]
  change ((do return (← countOf bytes.length, overwrite buffer bytes)) >>= _) = _
  rw [countOf, if_pos hcount]
  change Except.ok ((overwrite buffer bytes).take (UInt32.ofNat bytes.length).toNat) = _
  rw [UInt32.toNat_ofNat_of_lt' hcount, overwrite, List.take_left]

/-- Whatever a directory lists, in whatever order, and whatever stands in the buffers of a guest
before, its walk ends and reads every record once, as long as every record fits a buffer. -/
theorem walk_complete (hd : w.table.get? fd = some (.directory d))
    (h : Listing.Legible w.volume d.ino size) :
    (∀ buffers : Nat → Bytes, (∀ cookie, (buffers cookie).length = size) →
      ∀ times, (w.volume.entries d.ino).length + 2 < times →
        Walk.run (fun cookie => w.listedAt fd (buffers cookie) cookie) size times 0 =
          .ok ⟨Listing.records w.volume d.ino, false⟩) ∧
    w.walkDirectory fd size = .ok ⟨Listing.records w.volume d.ino, false⟩ := by
  have hlength := Listing.length_records w.volume d.ino
  rw [Listing.length_names] at hlength
  have hrun : ∀ buffers : Nat → Bytes, (∀ cookie, (buffers cookie).length = size) →
      ∀ times, (w.volume.entries d.ino).length + 2 < times →
        Walk.run (fun cookie => w.listedAt fd (buffers cookie) cookie) size times 0 =
          .ok ⟨Listing.records w.volume d.ino, false⟩ := by
    intro buffers hbuffers times htimes
    refine Walk.run_complete h.size_pos h.fits h.encode_le (fun _ _ => Listing.next_of_getElem?) ?_
      (Nat.zero_le _) (by omega)
    intro cookie hcookie
    rw [Listing.length_records] at hcookie
    exact listedAt_eq hd h (hbuffers cookie) (Nat.lt_of_le_of_lt hcookie h.positions)
  refine ⟨hrun, ?_⟩
  rw [walkDirectory, getDirectory_of_get? hd]
  exact hrun (fun _ => List.replicate size 0) (fun _ => List.length_replicate) _ (Nat.lt_succ_self _)

/-- A host with a file and a directory. -/
def shelfHost : Host :=
  let v := ((Volume.new default).create Volume.top (utf8 "a") (.file .empty)).2
  ⟨(v.create Volume.top (utf8 "b") (.directory [])).2, default, default, []⟩

/-- A guest that is granted everything on it. -/
def shelf : World := (fresh shelfHost default).build [.preopen "/" [47]]

theorem shelf_directory : shelf.table.get? 3 = some (.directory (.root 0 [47] 0)) := by
  decide +kernel

theorem shelf_legible {size : Nat} (hsize : 26 ≤ size) (hbytes : size < UInt32.size) :
    Listing.Legible shelf.volume 0 size := by
  have hentries : shelf.volume.entries 0 = [(utf8 "a", 1), (utf8 "b", 2)] := by decide +kernel
  have hroom : ∀ name ∈ Listing.names shelf.volume 0, Dirent.size + name.length ≤ 26 := by
    decide +kernel
  refine ⟨?_, fun name hname => Nat.le_trans (hroom name hname) hsize, by decide +kernel, .inl hbytes⟩
  rw [hentries]
  simp only [List.forall_mem_cons]
  exact ⟨⟨_, rfl⟩, ⟨_, rfl⟩, nofun⟩

theorem walk_complete_shelf :
    shelf.walkDirectory 3 26 = .ok ⟨Listing.records shelf.volume 0, false⟩ ∧
      (Listing.records shelf.volume 0).map (fun r => (r.name, r.kind)) =
        [(utf8 ".", 3), (utf8 "..", 3), (utf8 "a", 4), (utf8 "b", 3)] :=
  ⟨(walk_complete shelf_directory (shelf_legible (Nat.le_refl 26) (by decide))).2,
    by decide +kernel⟩

end World

end Hostcall
