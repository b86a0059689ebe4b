import Hostcall.Proofs.Layout
import Hostcall.Proofs.Rights

/-!
# Preopens

A guest finds its preopens by asking for one id after another, from the first id behind the
standard streams up to the first that is refused.

* `World.Tells` is an id that tells the name of a preopen, `World.Denies` one that tells nothing,
  and `World.Scans` is the guest's search;
* `World.exists_follow_of_root` is that a root is always one of those the guest started with;
* `World.preopens_enumerated` puts them together.
-/

namespace Hostcall

namespace World

variable {w : World} {fd fd' : Nat} {calls : List Call} {guest : Bytes} {guests : List Bytes}

/-! ## What an id tells -/

/-- An id that tells how long the name of a preopen is, and puts the name at the front of every
buffer that is long enough.  A buffer that is too short stays as it was. -/
structure Tells (w : World) (fd : Nat) (guest : Bytes) : Prop where
  length : ∃ n : UInt32, n.toNat = guest.length ∧ w.fdPrestatGet fd = .ok n
  name : ∀ buffer, guest.length ≤ buffer.length →
    w.fdPrestatDirName fd buffer = (.ok (), guest ++ buffer.drop guest.length)
  short : ∀ buffer, buffer.length < guest.length →
    ∃ fault, fault.errno? = some .nameTooLong ∧
      w.fdPrestatDirName fd buffer = (.error fault, buffer)

/-- An id that is refused as a preopen. -/
structure Denies (w : World) (fd : Nat) : Prop where
  length : BadDescriptor (w.fdPrestatGet fd)
  name : ∀ buffer, ∃ fault, fault.errno? = some .badFileDescriptor ∧
    w.fdPrestatDirName fd buffer = (.error fault, buffer)

theorem preopenName_root {d : Directory} {name : String}
    (hd : w.table.get? fd = some (.directory d)) (hname : d.guestName = some (utf8 name)) :
    w.preopenName fd = .ok name := by
  rw [preopenName, Table.get_of_get? hd]
  simp only [bind, Except.bind, hname, text?_utf8]
  rfl

/-- Nothing but a directory that was granted under a name is a preopen. -/
theorem preopenName_of_unnamed
    (h : ∀ d, w.table.get? fd = some (.directory d) → d.guestName = none) :
    BadDescriptor (w.preopenName fd) := by
  rw [preopenName, Table.get]
  cases hget : w.table.get? fd with
  | none => exact ⟨_, rfl, rfl⟩
  | some x =>
    cases x with
    | directory d =>
      simp only [bind, Except.bind, h d hget]
      exact ⟨_, rfl, rfl⟩
    | file _ | stdio _ => exact ⟨_, rfl, rfl⟩

theorem Tells.of_root {d : Directory} {name : String}
    (hd : w.table.get? fd = some (.directory d)) (hname : d.guestName = some (utf8 name))
    (hlength : (utf8 name).length < UInt32.size) : w.Tells fd (utf8 name) := by
  have htold := preopenName_root hd hname
  rw [length_utf8] at hlength
  refine ⟨⟨UInt32.ofNat name.utf8ByteSize, ?_, ?_⟩, fun buffer hbuffer => ?_,
    fun buffer hbuffer => ?_⟩
  · rw [length_utf8]
    exact UInt32.toNat_ofNat_of_lt' hlength
  · rw [fdPrestatGet, htold]
    exact if_pos hlength
  · rw [length_utf8] at hbuffer
    rw [fdPrestatDirName, htold]
    exact if_neg (Nat.not_lt.mpr hbuffer)
  · rw [length_utf8] at hbuffer
    rw [fdPrestatDirName, htold]
    exact ⟨_, rfl, if_pos hbuffer⟩

theorem Denies.of_unnamed (h : ∀ d, w.table.get? fd = some (.directory d) → d.guestName = none) :
    w.Denies fd := by
  obtain ⟨fault, hname, herrno⟩ := preopenName_of_unnamed h
  refine ⟨⟨fault, ?_, herrno⟩, fun buffer => ⟨fault, herrno, ?_⟩⟩
  · rw [fdPrestatGet, hname]
    rfl
  · rw [fdPrestatDirName, hname]

/-! ## The search -/

/-- A search for preopens from an id on, up to the first id that is refused, with the lengths of
the names that were found. -/
inductive Scans (w : World) : Nat → List UInt32 → Prop where
  | stop {fd : Nat} (h : BadDescriptor (w.fdPrestatGet fd)) : Scans w fd []
  | next {fd : Nat} {n : UInt32} {rest : List UInt32} (h : w.fdPrestatGet fd = .ok n)
      (hrest : Scans w (fd + 1) rest) : Scans w fd (n :: rest)

theorem scans_of_tells
    (htells : ∀ i guest, guests[i]? = some guest → w.Tells (fd + i) guest)
    (hend : w.Denies (fd + guests.length)) :
    ∃ lengths, w.Scans fd lengths ∧ lengths.map UInt32.toNat = guests.map List.length := by
  induction guests generalizing fd with
  | nil => exact ⟨[], .stop hend.length, rfl⟩
  | cons guest rest ih =>
    obtain ⟨n, hn, hget⟩ := (htells 0 guest rfl).length
    have hrest : ∀ i guest, rest[i]? = some guest → w.Tells (fd + 1 + i) guest := by
      intro i guest hi
      rw [Nat.add_right_comm]
      exact htells (i + 1) guest hi
    rw [List.length_cons, ← Nat.add_assoc, Nat.add_right_comm] at hend
    obtain ⟨lengths, hscans, hlengths⟩ := ih hrest hend
    exact ⟨n :: lengths, .next hget hscans, by rw [List.map_cons, List.map_cons, hn, hlengths]⟩

/-- A search has one outcome. -/
theorem Scans.unique {lengths lengths' : List UInt32} (h : w.Scans fd lengths)
    (h' : w.Scans fd lengths') : lengths = lengths' := by
  induction h generalizing lengths' with
  | stop hbad =>
    cases h' with
    | stop => rfl
    | next hget =>
      obtain ⟨fault, hfault, -⟩ := hbad
      rw [hget] at hfault
      cases hfault
  | next hget _ ih =>
    cases h' with
    | stop hbad =>
      obtain ⟨fault, hfault, -⟩ := hbad
      rw [hget] at hfault
      cases hfault
    | next hget' hrest' =>
      rw [hget] at hget'
      cases hget'
      rw [ih hrest']

/-! ## Roots through a run -/

/-- A root is always one of those that the guest started with. -/
theorem exists_follow_of_root (hw : w.Reachable) (hnumbered : w.Numbered guests) {d : Directory}
    (hd : (w.run calls).table.get? fd = some (.directory d)) (hname : d.guestName ≠ none) :
    d.preopen < guests.length ∧ w.follow calls (Table.firstAllocated + d.preopen) = some fd := by
  rcases run_origin hw calls hd with ⟨fd₀, y, hy, hfollow⟩ | ⟨before, o, hopened⟩
  · obtain ⟨z, hz, hzy⟩ := get?_follow hw hy hfollow
    rw [hd] at hz
    cases hz
    obtain rfl := eq_directory_of_opened hzy.symm
    -- the guest started with streams and roots only
    by_cases hfd₀ : fd₀ < Table.firstAllocated
    · obtain ⟨e, he, -⟩ := hnumbered.streams fd₀ hfd₀
      rw [hy] at he
      cases he
    · obtain ⟨i, rfl⟩ := Nat.exists_eq_add_of_le (Nat.le_of_not_lt hfd₀)
      rw [hnumbered.roots, Option.map_eq_some_iff] at hy
      obtain ⟨p, hp, hroot⟩ := hy
      cases hroot
      refine ⟨?_, hfollow⟩
      rw [← hnumbered.guests_eq, List.length_map]
      exact (List.getElem?_eq_some_iff.mp hp).1
  · -- what was opened has no name
    obtain ⟨r, i, -, rfl⟩ := (hopened.directory hw hd).directory
    exact absurd rfl hname

theorem OpenedBy.denies (hw : w.Reachable) {before : List Call} {o : Opening}
    (h : w.OpenedBy calls fd before o) : (w.run calls).Denies fd := by
  apply Denies.of_unnamed
  intro d hd
  obtain ⟨r, i, -, rfl⟩ := (h.directory hw hd).directory
  rfl

theorem Numbered.get?_of_getElem? (h : w.Numbered guests) {i : Nat} (hi : guests[i]? = some guest) :
    ∃ root, w.table.get? (Table.firstAllocated + i) = some (.directory (.root i guest root)) := by
  rw [← h.guests_eq, List.getElem?_map, Option.map_eq_some_iff] at hi
  obtain ⟨p, hp, rfl⟩ := hi
  rw [h.roots, hp]
  exact ⟨p.root, rfl⟩

theorem Numbered.tells_follow (hw : w.Reachable) (h : w.Numbered guests)
    (hnames : ∀ guest ∈ guests, guest.length < UInt32.size ∧ ∃ name, utf8 name = guest) {i : Nat}
    (hi : guests[i]? = some guest)
    (hfollow : w.follow calls (Table.firstAllocated + i) = some fd) :
    (∃ root, w.table.get? (Table.firstAllocated + i) = some (.directory (.root i guest root)) ∧
      (w.run calls).table.get? fd = some (.directory (.root i guest root))) ∧
    (w.run calls).Tells fd guest := by
  obtain ⟨root, hroot⟩ := h.get?_of_getElem? hi
  have hget := get?_follow_directory hw hroot hfollow
  obtain ⟨hlength, name, rfl⟩ := hnames guest (List.mem_of_getElem? hi)
  exact ⟨⟨root, hroot, hget⟩, .of_root hget rfl hlength⟩

/-- An id that no preopen was followed to is refused. -/
theorem Numbered.denies (hw : w.Reachable) (h : w.Numbered guests)
    (hfd : ∀ i < guests.length, w.follow calls (Table.firstAllocated + i) ≠ some fd) :
    (w.run calls).Denies fd := by
  apply Denies.of_unnamed
  intro d hd
  by_contra hname
  obtain ⟨hlt, hfollow⟩ := exists_follow_of_root hw h hd hname
  exact hfd d.preopen hlt hfollow

/-- A preopen is at no more than one id. -/
theorem Numbered.root_unique (hw : w.Reachable) (h : w.Numbered guests) {i : Nat}
    {name name' : Bytes} {root root' : Ino}
    (hd : (w.run calls).table.get? fd = some (.directory (.root i name root)))
    (hd' : (w.run calls).table.get? fd' = some (.directory (.root i name' root'))) : fd = fd' := by
  obtain ⟨-, hfollow⟩ := exists_follow_of_root hw h hd nofun
  obtain ⟨-, hfollow'⟩ := exists_follow_of_root hw h hd' nofun
  exact Option.some.inj (hfollow.symm.trans hfollow')

/-- The search behind the streams finds the preopens that were added, in order, and stops. -/
theorem Numbered.scans (hw : w.Reachable) (h : w.Numbered guests)
    (hnames : ∀ guest ∈ guests, guest.length < UInt32.size ∧ ∃ name, utf8 name = guest) :
    ∃ lengths, (∀ found, w.Scans Table.firstAllocated found ↔ found = lengths) ∧
      lengths.map UInt32.toNat = guests.map List.length := by
  have hstart : ∀ fd, w.follow [] fd = some fd := fun _ => rfl
  have htells : ∀ i guest, guests[i]? = some guest → w.Tells (Table.firstAllocated + i) guest :=
    fun i guest hi => (h.tells_follow hw hnames hi (hstart _)).2
  have hend : (w.run []).Denies (Table.firstAllocated + guests.length) := by
    refine h.denies hw fun i hlt hfollow => ?_
    rw [hstart, Option.some_inj] at hfollow
    exact Nat.ne_of_lt hlt (Nat.add_left_cancel hfollow)
  obtain ⟨lengths, hscans, hlengths⟩ := scans_of_tells htells hend
  refine ⟨lengths, fun found => ⟨fun hfound => hfound.unique hscans, ?_⟩, hlengths⟩
  rintro rfl
  exact hscans

/-- A builder opens the standard streams and the preopens that it adds, which a guest finds by
asking for one id after another.  Through every later run a preopen is told of where its own root
was moved to, and nowhere else. -/
theorem preopens_enumerated (host : Host) (random : KeyStream) (settings : List Setting)
    (hhost : host.volume.Grounded)
    (hnames : ∀ guest ∈ (fresh host random).granted settings,
      guest.length < UInt32.size ∧ ∃ name, utf8 name = guest) :
    let w := (fresh host random).build settings
    let guests := (fresh host random).granted settings
    w.table.keys = List.range (3 + guests.length) ∧
    (∃ lengths, (∀ found, w.Scans 3 found ↔ found = lengths) ∧
      lengths.map UInt32.toNat = guests.map List.length) ∧
    ∀ calls,
      (∀ i guest fd, guests[i]? = some guest → w.follow calls (3 + i) = some fd →
        (∃ root, w.table.get? (3 + i) = some (.directory (.root i guest root)) ∧
          (w.run calls).table.get? fd = some (.directory (.root i guest root))) ∧
        (w.run calls).Tells fd guest) ∧
      (∀ fd, (∀ i < guests.length, w.follow calls (3 + i) ≠ some fd) →
        (w.run calls).Denies fd) ∧
      (∀ i name name' root root' fd fd',
        (w.run calls).table.get? fd = some (.directory (.root i name root)) →
        (w.run calls).table.get? fd' = some (.directory (.root i name' root')) → fd = fd') ∧
      ∀ fd, ((w.run calls).table.get? fd = none ∨
          (∃ e, (w.run calls).table.get? fd = some (.file e)) ∨
          (∃ e, (w.run calls).table.get? fd = some (.stdio e)) ∨
          ∃ before o, w.OpenedBy calls fd before o) → (w.run calls).Denies fd := by
  intro w guests
  have hw : w.Reachable := (Reachable.fresh host random hhost).build settings
  have hnumbered : w.Numbered guests := (Numbered.fresh host random).build settings
  refine ⟨hnumbered.keys_eq, hnumbered.scans hw hnames, fun calls => ⟨?_, ?_, ?_, ?_⟩⟩
  · intro i guest fd hi hfollow
    exact hnumbered.tells_follow hw hnames hi hfollow
  · intro fd hfd
    exact hnumbered.denies hw hfd
  · intro i name name' root root' fd fd' hd hd'
    exact hnumbered.root_unique hw hd hd'
  · rintro fd (hnone | ⟨e, he⟩ | ⟨e, he⟩ | ⟨before, o, hopened⟩)
    · exact .of_unnamed fun d hd => by simp [hnone] at hd
    · exact .of_unnamed fun d hd => by simp [he] at hd
    · exact .of_unnamed fun d hd => by simp [he] at hd
    · exact hopened.denies hw

/-- Two preopens around one that fails. -/
def twoPreopens : List Setting :=
  [.preopen "guest" [47], .preopen "missing" [109], .preopen "guest/inner" [46]]

/-- Opens the second preopen once more, moves it onto a stream and closes the first. -/
def preopenMoves : List Call :=
  [.pathOpen 4 .empty "." OpenFlags.directory .empty .empty .empty, .fdRenumber 4 0, .fdClose 3]

theorem preopens_enumerated_two :
    let w := (fresh nestedHost default).build twoPreopens
    nestedHost.volume.Grounded ∧
      (∀ guest ∈ (fresh nestedHost default).granted twoPreopens,
        guest.length < UInt32.size ∧ ∃ name, utf8 name = guest) ∧
      w.table.keys = List.range 5 ∧
      (w.run preopenMoves).Tells 0 [46] ∧ (w.run preopenMoves).Denies 3 ∧
      (w.run preopenMoves).Denies 5 := by
  intro w
  have hgranted : (fresh nestedHost default).granted twoPreopens = [[47], [46]] := by
    decide +kernel
  have hnames : ∀ guest ∈ (fresh nestedHost default).granted twoPreopens,
      guest.length < UInt32.size ∧ ∃ name, utf8 name = guest := by
    rw [hgranted]
    simp only [List.forall_mem_cons]
    exact ⟨⟨by decide, "/", rfl⟩, ⟨by decide, ".", rfl⟩, nofun⟩
  obtain ⟨hkeys, -, hrun⟩ :=
    preopens_enumerated nestedHost default twoPreopens nestedHost_grounded hnames
  rw [hgranted] at hkeys hrun
  obtain ⟨htells, hdenies, -, -⟩ := hrun preopenMoves
  have hfollow : w.follow preopenMoves 3 = none ∧ w.follow preopenMoves 4 = some 0 := by
    decide +kernel
  have hrefused : ∀ fd, fd ≠ 0 → (w.run preopenMoves).Denies fd := by
    intro fd hfd
    refine hdenies fd fun i hi => ?_
    have hcases : i = 0 ∨ i = 1 := by
      change i < 2 at hi
      omega
    rcases hcases with rfl | rfl
    · exact hfollow.1 ▸ nofun
    · exact hfollow.2 ▸ fun heq => hfd (Option.some.inj heq).symm
  exact ⟨nestedHost_grounded, hnames, hkeys, (htells 1 [46] 0 rfl hfollow.2).2,
    hrefused 3 (by decide), hrefused 5 (by decide)⟩

end World

end Hostcall
