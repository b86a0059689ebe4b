import Hostcall.Proofs.OpenEffects

/-!
# A trailing slash means a directory

A slash behind a path gets to the host as a final dot, behind which there can only be a directory.
It is lost in one place: a single name whose attributes are asked for without following links is
looked at as it stands.

* `Volume.find_dotted` is what a dot behind a path does to a lookup;
* `Resolved.openNode_slashed`, `Resolved.setTimes_slashed` and `Resolved.statNode_slashed` are what
  a slash does to the operations on a place;
* `World.trailing_slash` puts them together, with `World.SlashIgnored` as the one exception, and
  `World.slash_ignored_linked` shows it.
-/

namespace Hostcall

theorem Body.fileType_eq_directory_iff {b : Body} :
    b.fileType = .directory ↔ b.isDirectory = true := by
  cases b <;> simp [Body.fileType, Body.isDirectory]

theorem Filestat.fileType_of_attributes {a : Attributes} {s : Filestat}
    (h : Filestat.ofAttributes a = .ok s) : s.fileType = a.fileType := by
  rw [ofAttributes] at h
  split at h <;> cases h
  rfl

namespace Volume

variable {v v' : Volume} {start i : Ino} {names : List Name} {name : Name} {follow : Bool}
  {ends : Ino → Ends} {q : OpenRequest} {u : TimeUpdates}

/-! ## Paths with a dot behind them -/

theorem isDirectory_of_locate_dotted {mode : Lookup.Mode} (hmode : mode.beneath = true)
    (hstart : v.isDirectory start = true) {place : Place}
    (h : v.locate mode start ⟨names, true⟩ = .ok place) : place.IsDirectory v := by
  rw [locate] at h
  split at h
  · cases h
  · exact Lookup.walk_isDirectory hmode hstart (by simp) (dotted_components names) h

theorem openDirectory_of_find (h : v.find start follow ⟨names, true⟩ = .ok i)
    (hi : v.isDirectory i = true) : v.openDirectory start true ⟨names, false⟩ = .ok i :=
  (openDirectory_dot_iff.mp (openDirectory_iff.mpr ⟨find_iff.mp h, hi⟩)).2

/-- With a dot behind it a path leads to a directory, with all links followed. -/
theorem find_dotted (hstart : v.isDirectory start = true)
    (h : v.find start follow ⟨names, true⟩ = .ok i) :
    v.isDirectory i = true ∧ v.openDirectory start true ⟨names, false⟩ = .ok i := by
  have hplace : (Place.node i).IsDirectory v :=
    isDirectory_of_locate_dotted rfl hstart (find_iff.mp h)
  exact ⟨hplace, openDirectory_of_find h hplace⟩

theorem Opens.of_dotted (h : v.Opens ends start ⟨names, true⟩ q i v')
    (hstart : v.isDirectory start = true) :
    v' = v ∧ v.openDirectory start true ⟨names, false⟩ = .ok i := by
  cases h with
  | found hfind => exact ⟨rfl, (find_dotted hstart hfind).2⟩
  | drained hfind _ hbody =>
    have hi := (find_dotted hstart hfind).1
    rw [isDirectory, hbody] at hi
    cases hi
  | emptied hfind _ hbody =>
    have hi := (find_dotted hstart hfind).1
    rw [isDirectory, hbody] at hi
    cases hi
  | created _ hlocate => exact (isDirectory_of_locate_dotted rfl hstart hlocate).elim

/-- Times are set of the node that a path leads to, which is opened for that without being
changed. -/
theorem setTimesAt_eq_ok (hv : v.Grounded) (hstart : v.HasDirectory start) {l : Locator}
    (h : v.setTimesAt ends start l u = .ok v') :
    ∃ i, v.find start true l = .ok i ∧ v' = v.setTimes i u := by
  rw [setTimesAt] at h
  split at h
  case h_1 i opened hopen =>
    cases h
    cases openFile_opens hv hstart hopen with
    | found hfind => exact ⟨i, hfind, rfl⟩
    | drained _ hpermits hbody hends =>
      -- a named pipe that nobody reads is not opened for writing
      rw [hbody, hends] at hpermits
      cases hpermits
    | emptied _ _ _ hempties => cases hempties
    | created hcreates => cases hcreates
  case h_2 =>
    obtain ⟨i, hi, h⟩ := map_eq_ok.mp h
    exact ⟨i, hi, h.symm⟩
  case h_3 => cases h

theorem setLinkTimes_dotted (hstart : v.isDirectory start = true)
    (h : v.setLinkTimes start ⟨names, true⟩ u = .ok v') :
    ∃ i, v.openDirectory start true ⟨names, true⟩ = .ok i ∧ v' = v.setTimes i u := by
  rw [setLinkTimes] at h
  split at h
  case h_1 hnone =>
    obtain rfl := List.getLast?_eq_none_iff.mp hnone
    cases h
    exact ⟨start, openDirectory_nil hstart true true, rfl⟩
  case h_2 =>
    rw [if_pos rfl] at h
    obtain ⟨i, hi, h⟩ := bind_eq_ok.mp h
    cases h
    exact ⟨i, hi, rfl⟩

/-- The node that is told of when a link in the last place is not followed. -/
def findLink (v : Volume) (start : Ino) (l : Locator) : Except HostError Ino :=
  match l.names with
  | [name] => v.entry start name
  | _ => v.find start false l

theorem findLink_of_ne {l : Locator} (h : ∀ name, l.names ≠ [name]) :
    v.findLink start l = v.find start false l := by
  rw [findLink]
  split
  case h_1 name hname => exact absurd hname (h name)
  case h_2 => rfl

theorem statLink_eq (v : Volume) (start : Ino) (l : Locator) :
    v.statLink start l = (v.findLink start l).map v.attributes := by
  obtain ⟨_ | ⟨name, _ | ⟨_, _⟩⟩, dot⟩ := l <;> rfl

/-- A single name is looked at as it stands; if that is a directory, the dot would not have
mattered. -/
theorem openDirectory_of_entry (hstart : v.isDirectory start = true)
    (h : v.entry start name = .ok i) (hi : v.isDirectory i = true) :
    v.openDirectory start true ⟨[name], false⟩ = .ok i := by
  have hshort : (Locator.mk [name] false).textLength ≤ Lookup.pathLimit := by
    have hname := (entry_iff.mp h).1
    simp only [Locator.textLength, Lookup.nameLimit, Lookup.pathLimit, List.map_cons, List.map_nil,
      totalSize_cons, totalSize_nil, reduceCtorEq, if_false] at hname ⊢
    omega
  have hfind : v.find start false ⟨[] ++ [name], false⟩ = .ok i :=
    (find_last_iff hstart).mpr ⟨hshort, start, rfl, h⟩
  exact (openDirectory_nofollow_iff.mp (openDirectory_iff.mpr ⟨find_iff.mp hfind, hi⟩)).1

theorem openDirectory_hasDirectory (hv : v.Grounded) (hstart : v.HasDirectory start) {l : Locator}
    (h : v.openDirectory start follow l = .ok i) : v.HasDirectory i :=
  ⟨openDirectory_within hv.closed hstart.1 h, (openDirectory_eq_ok h).2⟩

end Volume

/-! ## Operations on a place -/

namespace Resolved

variable {r : Resolved} {v v' : Volume} {ends : Ino → Ends} {follow : Bool}

/-- The node that is told of at the place. -/
def statNode (r : Resolved) (v : Volume) (follow : Bool) : Except HostError Ino :=
  if follow then v.find r.preopen.root true r.lookup else v.findLink r.preopen.root r.lookup

theorem stat_eq (r : Resolved) (v : Volume) (follow : Bool) :
    r.stat v follow = fromHost ((r.statNode v follow).map v.attributes) := by
  rw [stat, Volume.statLink_eq, statNode]
  cases follow <;> rfl

/-- A slash behind the place is ignored: its only name is looked at as it stands, and that is no
directory. -/
def SlashIgnored (r : Resolved) (v : Volume) (follow : Bool) : Prop :=
  follow = false ∧ ∃ name i, r.names = [name] ∧ v.child? r.preopen.root name = some i ∧
    v.isDirectory i = false

section

variable (hroot : v.HasDirectory r.preopen.root) (hslash : r.place.mustBeDir = true)
include hroot hslash

theorem openNode_slashed (hv : v.Grounded) {flags : OpenFlags} {access : Access}
    {fdFlags : FdFlags} {opened : Outcome Descriptor}
    (h : r.openNode v ends follow flags access fdFlags = (opened, v')) :
    v' = v ∧ ∀ d, opened = .ok d →
      ∃ i, r.LeadsTo v i ∧ d = .directory (.nested r.index r.place.names i) := by
  cases opened with
  | error fault => exact ⟨openNode_failed hroot.2 h, nofun⟩
  | ok d =>
    rcases openNode_eq_ok h with ⟨-, -, rfl, i, hi, rfl⟩ | ⟨-, i, hfile, hd⟩
    · refine ⟨rfl, ?_⟩
      rintro _ ⟨⟩
      exact ⟨i, (Volume.openDirectory_last_iff.mp hi).1, rfl⟩
    · rw [lookup, hslash] at hfile
      obtain ⟨rfl, hi⟩ := (Volume.openFile_opens hv hroot hfile).of_dotted hroot.2
      refine ⟨rfl, ?_⟩
      rintro _ ⟨⟩
      rcases hd with ⟨-, rfl⟩ | ⟨-, hnot, -⟩
      · exact ⟨i, hi, rfl⟩
      · rw [hslash] at hnot
        cases hnot

theorem setTimes_slashed (hv : v.Grounded) {u : TimeUpdates}
    (h : r.setTimes v ends follow u = .ok v') : ∃ i, r.LeadsTo v i ∧ v' = v.setTimes i u := by
  rw [setTimes, fromHost_eq_ok, lookup, hslash] at h
  cases follow with
  | true =>
    obtain ⟨i, hi, rfl⟩ := Volume.setTimesAt_eq_ok hv hroot h
    exact ⟨i, (Volume.find_dotted hroot.2 hi).2, rfl⟩
  | false =>
    obtain ⟨i, hi, rfl⟩ := Volume.setLinkTimes_dotted hroot.2 h
    exact ⟨i, (Volume.openDirectory_dot_iff.mp hi).2, rfl⟩

/-- What is told of at a place with a slash behind it is a directory, unless the slash is
ignored. -/
theorem statNode_slashed {i : Ino} (h : r.statNode v follow = .ok i) :
    (v.isDirectory i = false ↔ r.SlashIgnored v follow) ∧
      (v.isDirectory i = true → r.LeadsTo v i) := by
  -- what is looked up with the dot is a directory, and then nothing was ignored
  have hdotted : ∀ {follow'}, ¬ r.SlashIgnored v follow →
      v.find r.preopen.root follow' ⟨r.names, true⟩ = .ok i →
        (v.isDirectory i = false ↔ r.SlashIgnored v follow) ∧
          (v.isDirectory i = true → r.LeadsTo v i) := by
    intro follow' hnot hi
    obtain ⟨hdirectory, hleads⟩ := Volume.find_dotted hroot.2 hi
    refine ⟨iff_of_false ?_ hnot, fun _ => hleads⟩
    rw [hdirectory]
    decide
  rw [statNode, lookup, hslash] at h
  cases follow with
  | true => exact hdotted (fun hignored => Bool.noConfusion hignored.1) h
  | false =>
    by_cases hsingle : ∃ name, r.names = [name]
    · obtain ⟨name, hname⟩ := hsingle
      rw [hname] at h
      have hchild := (Volume.entry_iff.mp h).2
      refine ⟨⟨fun hnot => ⟨rfl, name, i, hname, hchild, hnot⟩, ?_⟩, fun hdirectory => ?_⟩
      · rintro ⟨-, name', j, hname', hchild', hnot⟩
        cases hname.symm.trans hname'
        cases hchild.symm.trans hchild'
        exact hnot
      · rw [LeadsTo, locator, hname]
        exact Volume.openDirectory_of_entry hroot.2 h hdirectory
    · have hne : ∀ name, r.names ≠ [name] := fun name hname => hsingle ⟨name, hname⟩
      rw [if_neg (by decide), Volume.findLink_of_ne hne] at h
      refine hdotted ?_ h
      rintro ⟨-, name, -, hname, -⟩
      exact hne name hname

end

end Resolved

/-! ## Calls of a guest -/

namespace World

variable {w : World} {dirfd : Nat} {path : String} {r : Resolved}

/-- A path leads to a directory, with all links followed. -/
def LeadsTo (w : World) (dirfd : Nat) (path : String) (i : Ino) : Prop :=
  w.volume.HasDirectory i ∧ ∃ r, w.resolve dirfd path = .ok r ∧ r.LeadsTo w.volume i

/-- A slash behind a path is ignored. -/
def SlashIgnored (w : World) (dirfd : Nat) (lookup : LookupFlags) (path : String) : Prop :=
  ∃ r, w.resolve dirfd path = .ok r ∧
    r.SlashIgnored w.volume (lookup.contains LookupFlags.symlinkFollow)

section

variable (hw : w.Reachable) (hslash : path.toList.getLast? = some '/')
include hw

theorem root_hasDirectory (hr : w.resolve dirfd path = .ok r) :
    w.volume.HasDirectory r.preopen.root :=
  hw.sound.roots r.preopen (preopen_mem_of_resolve hr)

theorem leadsTo_of_resolve (hr : w.resolve dirfd path = .ok r) {i : Ino}
    (h : r.LeadsTo w.volume i) : w.LeadsTo dirfd path i :=
  ⟨Volume.openDirectory_hasDirectory hw.sound.grounded (root_hasDirectory hw hr) h, r, hr, h⟩

include hslash

theorem pathOpen_slashed (dirfd : Nat) (lookup : LookupFlags) (flags : OpenFlags)
    (rights inheriting : Rights) (fdFlags : FdFlags) :
    let s := w.pathOpen dirfd lookup path flags rights inheriting fdFlags
    s.2.host = w.host ∧ ∀ fd, s.1 = .ok fd →
      ∃ d, s.2.table.get? fd = some (.directory d) ∧ w.LeadsTo dirfd path d.ino := by
  have hopened : ∀ {r opened v}, w.resolve dirfd path = .ok r →
      r.openNode w.volume w.ends (lookup.contains LookupFlags.symlinkFollow) flags
        (Access.ofRights rights) fdFlags = (opened, v) →
      v = w.volume ∧ ∀ d, opened = .ok d →
        ∃ i, r.LeadsTo w.volume i ∧ d = .directory (.nested r.index r.place.names i) :=
    fun hr => Resolved.openNode_slashed (root_hasDirectory hw hr)
      ((resolve_mustBeDir hw hr).mpr hslash) hw.sound.grounded
  intro s
  constructor
  · simp only [s, pathOpen]
    cases hr : w.resolve dirfd path with
    | error fault => rfl
    | ok r =>
      rcases hopen : r.openNode w.volume w.ends (lookup.contains LookupFlags.symlinkFollow) flags
        (Access.ofRights rights) fdFlags with ⟨opened, v⟩
      obtain ⟨rfl, -⟩ := hopened hr hopen
      simp only [hopen]
      cases opened <;> rfl
  · intro fd hfd
    obtain ⟨r, d, hr, hgives, hopen⟩ := pathOpen_gives hfd
    obtain ⟨i, hi, rfl⟩ := (hopened hr hopen).2 d rfl
    refine ⟨.nested r.index r.place.names i, ?_, leadsTo_of_resolve hw hr hi⟩
    rw [hgives.table, Function.update_self]

theorem pathFilestatSetTimes_slashed (dirfd : Nat) (lookup : LookupFlags) (request : TimeRequest) :
    let s := w.pathFilestatSetTimes dirfd lookup path request
    (∀ fault, s.1 = .error fault → s.2 = w) ∧
    (s.1 = .ok () → ∃ i u, w.LeadsTo dirfd path i ∧ request.updates = .ok u ∧
      s.2 = w.withVolume (w.volume.setTimes i u)) := by
  refine ⟨fun fault hfault => changed_failed hfault, fun hok => ?_⟩
  obtain ⟨v, hv, hworld⟩ := changed_eq_ok hok
  obtain ⟨u, hu, hv⟩ := bind_eq_ok.mp hv
  obtain ⟨r, hr, hv⟩ := bind_eq_ok.mp hv
  obtain ⟨i, hi, rfl⟩ := Resolved.setTimes_slashed (root_hasDirectory hw hr)
    ((resolve_mustBeDir hw hr).mpr hslash) hw.sound.grounded hv
  exact ⟨i, u, leadsTo_of_resolve hw hr hi, hu, hworld⟩

theorem pathFilestatGet_slashed {lookup : LookupFlags} {s : Filestat}
    (h : w.pathFilestatGet dirfd lookup path = .ok s) :
    (s.fileType ≠ .directory ↔ w.SlashIgnored dirfd lookup path) ∧
    ∃ i, Filestat.ofAttributes (w.volume.attributes i) = .ok s ∧
      (s.fileType = .directory → w.LeadsTo dirfd path i) := by
  obtain ⟨r, hr, h⟩ := bind_eq_ok.mp h
  obtain ⟨a, ha, h⟩ := bind_eq_ok.mp h
  rw [Resolved.stat_eq, fromHost_eq_ok] at ha
  obtain ⟨i, hi, rfl⟩ := map_eq_ok.mp ha
  obtain ⟨hignored, hleads⟩ := Resolved.statNode_slashed (root_hasDirectory hw hr)
    ((resolve_mustBeDir hw hr).mpr hslash) hi
  have hkind : s.fileType = .directory ↔ w.volume.isDirectory i = true := by
    rw [Filestat.fileType_of_attributes h]
    exact Body.fileType_eq_directory_iff
  refine ⟨?_, i, h, fun hdirectory => leadsTo_of_resolve hw hr (hleads (hkind.mp hdirectory))⟩
  rw [ne_eq, hkind, Bool.not_eq_true, hignored]
  constructor
  · exact fun hplace => ⟨r, hr, hplace⟩
  · rintro ⟨r', hr', hplace⟩
    cases hr.symm.trans hr'
    exact hplace

end

/-- With a slash behind it a path is opened only as a directory, and whatever becomes of the call
the host is as it was; only a directory gets other times; and a directory is told of, unless the
slash is ignored. -/
theorem trailing_slash (hw : w.Reachable) {path : String}
    (hslash : path.toList.getLast? = some '/') (dirfd : Nat) (lookup : LookupFlags) :
    (∀ flags rights inheriting fdFlags,
      let s := w.pathOpen dirfd lookup path flags rights inheriting fdFlags
      s.2.host = w.host ∧ ∀ fd, s.1 = .ok fd →
        ∃ d, s.2.table.get? fd = some (.directory d) ∧ w.LeadsTo dirfd path d.ino) ∧
    (∀ request : TimeRequest,
      let s := w.pathFilestatSetTimes dirfd lookup path request
      (∀ fault, s.1 = .error fault → s.2 = w) ∧
      (s.1 = .ok () → ∃ i u, w.LeadsTo dirfd path i ∧ request.updates = .ok u ∧
        s.2 = w.withVolume (w.volume.setTimes i u))) ∧
    (∀ s, w.pathFilestatGet dirfd lookup path = .ok s →
      (s.fileType ≠ .directory ↔ w.SlashIgnored dirfd lookup path) ∧
      ∃ i, Filestat.ofAttributes (w.volume.attributes i) = .ok s ∧
        (s.fileType = .directory → w.LeadsTo dirfd path i)) :=
  ⟨pathOpen_slashed hw hslash dirfd lookup, pathFilestatSetTimes_slashed hw hslash dirfd lookup,
    fun _ => pathFilestatGet_slashed hw hslash⟩

/-- Behind a slash a link to a directory is opened as that directory, and it is the directory that
gets other times. -/
theorem trailing_slash_linked :
    linkedGuest.Reachable ∧
      (let s := linkedGuest.pathOpen 3 .empty "l/" OpenFlags.truncate .empty .empty .empty
       s.1 = .error (.ofHost .isADirectory) ∧ s.2.host = linkedGuest.host) ∧
      (∃ u, (linkedGuest.pathFilestatSetTimes 3 .empty "l/" ⟨5, 7, TimeFlags.accessed⟩).2 =
        linkedGuest.withVolume (linkedGuest.volume.setTimes 2 u)) ∧
      (∀ s, linkedGuest.pathFilestatGet 3 LookupFlags.symlinkFollow "l/" = .ok s →
        s.fileType = .directory) := by
  have hslash : "l/".toList.getLast? = some '/' := by decide +kernel
  have hresolve : linkedGuest.resolve 3 "l/" =
      .ok ⟨⟨3, [47], "guest", 1⟩, 0, ⟨["l"], true⟩⟩ := by decide +kernel
  have hleads : ∀ i, linkedGuest.LeadsTo 3 "l/" i → i = 2 := by
    rintro i ⟨-, r, hr, h⟩
    cases hresolve.symm.trans hr
    have htarget : linkedGuest.volume.openDirectory 1 true ⟨[utf8 "l"], false⟩ = .ok 2 := by
      decide +kernel
    exact Except.ok.inj (h.symm.trans htarget)
  have hmeans := trailing_slash linkedGuest_reachable hslash 3
  refine ⟨linkedGuest_reachable, ⟨by decide +kernel, ?_⟩, ?_, fun s hs => ?_⟩
  · exact ((hmeans .empty).1 OpenFlags.truncate .empty .empty .empty).1
  · obtain ⟨i, u, hi, -, hworld⟩ :=
      ((hmeans .empty).2.1 ⟨5, 7, TimeFlags.accessed⟩).2 (by decide +kernel)
    rw [hleads i hi] at hworld
    exact ⟨u, hworld⟩
  · by_contra hkind
    obtain ⟨r, -, hfollow, -⟩ := (((hmeans LookupFlags.symlinkFollow).2.2 s hs).1).mp hkind
    cases hfollow

/-- The slash is ignored where a single name is looked at without following links: the link is told
of, though the directory behind it is what the path leads to. -/
theorem slash_ignored_linked :
    linkedGuest.SlashIgnored 3 .empty "l/" ∧ linkedGuest.LeadsTo 3 "l/" 2 ∧
      ∃ s, linkedGuest.pathFilestatGet 3 .empty "l/" = .ok s ∧ s.fileType = .symbolicLink := by
  have hresolve : linkedGuest.resolve 3 "l/" =
      .ok ⟨⟨3, [47], "guest", 1⟩, 0, ⟨["l"], true⟩⟩ := by decide +kernel
  refine ⟨⟨_, hresolve, rfl, utf8 "l", 3, rfl, by decide +kernel, by decide +kernel⟩, ?_, ?_⟩
  · exact ⟨⟨by decide +kernel, by decide +kernel⟩, _, hresolve, show _ = _ by decide +kernel⟩
  · have htold : (linkedGuest.pathFilestatGet 3 .empty "l/").map Filestat.fileType =
        .ok .symbolicLink := by decide +kernel
    exact map_eq_ok.mp htold

end World

end Hostcall
