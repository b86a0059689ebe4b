import Hostcall.Proofs.EntryEdits
import Hostcall.Proofs.LastNames

/-!
# Making directories and removing names

Three calls change one name each.  The name is the last one of the path as it stands: the names
before it lead to its directory, and no link is followed behind it.

* `Volume.makeDirectory_iff`, `Volume.removeDirectory_iff` and `Volume.unlink_iff` say when the
  host makes the change and which one it makes;
* `World.resolve_mustBeDir` is that a trailing slash of the guest gets to the host;
* `World.path_entries_exact` says of all three calls what they did, whether they succeed or not.
-/

namespace Hostcall

namespace Volume

variable {v v' : Volume} {start dir i : Ino} {front names : List Name} {last name : Name}

/-! ## On the host -/

theorem makeDirectory_iff : v.makeDirectory start names = .ok v' ↔
    ∃ dir name, v.NamesIn start names dir name ∧
      v.entry? dir name = .ok none ∧ v.isGone dir = false ∧
      v' = (v.create dir name (.directory [])).2 := by
  rcases List.eq_nil_or_concat' names with rfl | ⟨front, last, rfl⟩
  · refine iff_of_false nofun ?_
    rintro ⟨dir, name, hname, -⟩
    exact hname.ne_nil rfl
  · rw [makeDirectory, List.getLast?_concat]
    simp only
    rw [parentOf_bind_iff]
    constructor
    · rintro ⟨dir, hdir, h⟩
      obtain ⟨found, hfound, h⟩ := bind_eq_ok.mp h
      cases found with
      | some i => cases h
      | none =>
        simp only at h
        split at h
        case isTrue => cases h
        case isFalse hgone =>
          cases h
          exact ⟨dir, last, namesIn_append_iff.mpr ⟨rfl, hdir⟩, hfound, by simpa using hgone, rfl⟩
    · rintro ⟨dir, name, hname, hfree, hgone, rfl⟩
      obtain ⟨rfl, hdir⟩ := namesIn_append_iff.mp hname
      refine ⟨dir, hdir, ?_⟩
      rw [hfree]
      simp only [Bind.bind, Except.bind, hgone]
      rfl

theorem removeDirectory_iff : v.removeDirectory start names = .ok v' ↔
    ∃ dir name i, v.NamesIn start names dir name ∧ v.entry dir name = .ok i ∧
      v.body i = .directory [] ∧ v' = v.unbind dir name i := by
  rcases List.eq_nil_or_concat' names with rfl | ⟨front, last, rfl⟩
  · refine iff_of_false nofun ?_
    rintro ⟨dir, name, i, hname, -⟩
    exact hname.ne_nil rfl
  · rw [removeDirectory, List.getLast?_concat]
    simp only
    rw [parentOf_bind_iff]
    constructor
    · rintro ⟨dir, hdir, h⟩
      obtain ⟨i, hi, h⟩ := bind_eq_ok.mp h
      split at h
      case h_1 hbody =>
        cases h
        exact ⟨dir, last, i, namesIn_append_iff.mpr ⟨rfl, hdir⟩, hi, hbody, rfl⟩
      case h_2 => cases h
      case h_3 => cases h
    · rintro ⟨dir, name, i, hname, hi, hbody, rfl⟩
      obtain ⟨rfl, hdir⟩ := namesIn_append_iff.mp hname
      refine ⟨dir, hdir, ?_⟩
      rw [hi]
      simp only [Bind.bind, Except.bind, hbody]
      rfl

theorem unlink_iff : v.unlink start names = .ok v' ↔
    ∃ dir name i, v.NamesIn start names dir name ∧ v.entry dir name = .ok i ∧
      v.isDirectory i = false ∧ v' = v.unbind dir name i := by
  rcases List.eq_nil_or_concat' names with rfl | ⟨front, last, rfl⟩
  · refine iff_of_false nofun ?_
    rintro ⟨dir, name, i, hname, -⟩
    exact hname.ne_nil rfl
  · rw [unlink, List.getLast?_concat]
    simp only
    rw [parentOf_bind_iff]
    constructor
    · rintro ⟨dir, hdir, h⟩
      obtain ⟨i, hi, h⟩ := bind_eq_ok.mp h
      split at h
      case isTrue => cases h
      case isFalse hbody =>
        cases h
        exact ⟨dir, last, i, namesIn_append_iff.mpr ⟨rfl, hdir⟩, hi, by simpa using hbody, rfl⟩
    · rintro ⟨dir, name, i, hname, hi, hbody, rfl⟩
      obtain ⟨rfl, hdir⟩ := namesIn_append_iff.mp hname
      refine ⟨dir, hdir, ?_⟩
      rw [hi]
      simp only [Bind.bind, Except.bind, hbody]
      rfl

/-! ## What is there afterwards -/

theorem NamesIn.hasDirectory (h : v.NamesIn start names dir name) (hv : v.Grounded)
    (hstart : v.HasDirectory start) : v.HasDirectory dir := by
  obtain ⟨front, -, hdir⟩ := h
  have hparent : v.parentOf start (front ++ [name]) name = .ok (dir, name) := by
    rw [parentOf, List.dropLast_concat, hdir]
    rfl
  exact ⟨parentOf_within hv.closed hstart.1 hparent, ((walkTo_iff hstart.2).mp hdir).2.1⟩

theorem entries_of_not_directory (h : v.isDirectory i = false) : v.entries i = [] := by
  rw [isDirectory] at h
  rw [entries]
  cases hbody : v.body i with
  | directory _ =>
    rw [hbody] at h
    cases h
  | file | link | fifo | socket | device => rfl

end Volume

/-- A call that makes a change of the file system, and none of anything else, if that change can be
made.  Otherwise it leaves everything as it was. -/
structure Step.Makes (w : World) (s : Step Unit) (change : Volume → Prop) : Prop where
  ok_iff : s.1 = .ok () ↔ ∃ v, change v
  done : s.1 = .ok () → ∃ v, s.2 = w.withVolume v ∧ change v
  failed : ∀ fault, s.1 = .error fault → s.2 = w

namespace World

variable {w : World} {dirfd : Nat} {path : String} {dir i : Ino} {name : Name}

theorem changed_failed {outcome : Outcome Volume} {fault : Fault}
    (h : (w.changed outcome).1 = .error fault) : (w.changed outcome).2 = w := by
  cases outcome with
  | error => rfl
  | ok => cases h

theorem changed_eq_ok {outcome : Outcome Volume} (h : (w.changed outcome).1 = .ok ()) :
    ∃ v, outcome = .ok v ∧ (w.changed outcome).2 = w.withVolume v := by
  cases outcome with
  | error => cases h
  | ok v => exact ⟨v, rfl, rfl⟩

theorem changed_makes {outcome : Outcome Volume} {change : Volume → Prop}
    (hmade : ∀ v, outcome = .ok v → change v)
    (hcan : ∀ v, change v → ∃ v', outcome = .ok v') :
    (w.changed outcome).Makes w change := by
  have hdone : (w.changed outcome).1 = .ok () →
      ∃ v, (w.changed outcome).2 = w.withVolume v ∧ change v := by
    intro h
    obtain ⟨v, hv, hworld⟩ := changed_eq_ok h
    exact ⟨v, hworld, hmade v hv⟩
  refine ⟨⟨fun h => ?_, ?_⟩, hdone, fun _ => changed_failed⟩
  · obtain ⟨v, -, hv⟩ := hdone h
    exact ⟨v, hv⟩
  · rintro ⟨v, hv⟩
    obtain ⟨v', hv'⟩ := hcan v hv
    rw [hv']
    rfl

/-! ## What a guest asks for -/

/-- A guest's trailing slash is noted with the place. -/
theorem resolve_mustBeDir {r : Resolved} (hw : w.Reachable) (hr : w.resolve dirfd path = .ok r) :
    r.place.mustBeDir = true ↔ path.toList.getLast? = some '/' := by
  obtain ⟨d, hd, -⟩ := hw.placed.liesAt hr
  obtain ⟨p, -, hresolve⟩ := hw.resolve_eq hd
  rw [hresolve] at hr
  obtain ⟨c, hc, rfl⟩ := map_eq_ok.mp hr
  obtain ⟨-, -, -, stack, -, rfl⟩ := foldPath_eq_ok.mp hc
  simp

theorem Names.hasDirectory (h : w.Names dirfd path dir name) (hw : w.Reachable) :
    w.volume.HasDirectory dir := by
  obtain ⟨r, hr, hname⟩ := h
  exact hname.hasDirectory hw.sound.grounded (hw.sound.roots r.preopen (preopen_mem_of_resolve hr))

theorem pathCreateDirectory_makes (hw : w.Reachable) (dirfd : Nat) (path : String) :
    (w.pathCreateDirectory dirfd path).Makes w fun v =>
      ∃ dir name, w.Names dirfd path dir name ∧ name.length ≤ Lookup.nameLimit ∧
        w.volume.isGone dir = false ∧ w.volume.Added v dir name (.directory []) := by
  apply changed_makes
  · intro v h
    obtain ⟨r, hr, h⟩ := bind_eq_ok.mp h
    obtain ⟨dir, name, hname, hentry, hgone, rfl⟩ :=
      Volume.makeDirectory_iff.mp (fromHost_eq_ok.mp h)
    obtain ⟨hlength, hfree⟩ := Volume.entry?_iff.mp hentry
    have hnames : w.Names dirfd path dir name := ⟨r, hr, hname⟩
    exact ⟨dir, name, hnames, hlength, hgone,
      Volume.added_create (hnames.hasDirectory hw) hfree rfl⟩
  · rintro v ⟨dir, name, ⟨r, hr, hname⟩, hlength, hgone, hadded⟩
    refine ⟨(w.volume.create dir name (.directory [])).2, bind_eq_ok.mpr ⟨r, hr, ?_⟩⟩
    rw [Resolved.makeDirectory, fromHost_eq_ok]
    exact Volume.makeDirectory_iff.mpr
      ⟨dir, name, hname, Volume.entry?_iff.mpr ⟨hlength, hadded.free⟩, hgone, rfl⟩

theorem pathRemoveDirectory_makes (hw : w.Reachable) (dirfd : Nat) (path : String) :
    (w.pathRemoveDirectory dirfd path).Makes w fun v =>
      ∃ dir name i, w.Names dirfd path dir name ∧ name.length ≤ Lookup.nameLimit ∧
        w.volume.body i = .directory [] ∧ w.volume.Removed v dir name i ∧
        (w.volume.Hierarchical → ¬ v.InTree i) := by
  apply changed_makes
  · intro v h
    obtain ⟨r, hr, h⟩ := bind_eq_ok.mp h
    rw [Resolved.removeDirectory] at h
    split at h
    · cases h
    obtain ⟨dir, name, i, hname, hentry, hbody, rfl⟩ :=
      Volume.removeDirectory_iff.mp (fromHost_eq_ok.mp h)
    obtain ⟨hlength, hbound⟩ := Volume.entry_iff.mp hentry
    have hnames : w.Names dirfd path dir name := ⟨r, hr, hname⟩
    have hleaf : w.volume.entries i = [] := by rw [Volume.entries, hbody]; rfl
    have hi : w.volume.isDirectory i = true := by rw [Volume.isDirectory, hbody]; rfl
    have hremoved := Volume.removed_unbind (hnames.hasDirectory hw) hbound hleaf
    exact ⟨dir, name, i, hnames, hlength, hbody, hremoved, (hremoved.not_inTree · hi)⟩
  · rintro v ⟨dir, name, i, ⟨r, hr, hname⟩, hlength, hbody, hremoved, -⟩
    refine ⟨w.volume.unbind dir name i, bind_eq_ok.mpr ⟨r, hr, ?_⟩⟩
    -- the root has no name to be removed
    have hroot : r.place.names ≠ [] := by
      intro hnil
      exact hname.ne_nil (by rw [Resolved.names, hnil, List.map_nil])
    rw [Resolved.removeDirectory, if_neg hroot, fromHost_eq_ok]
    exact Volume.removeDirectory_iff.mpr
      ⟨dir, name, i, hname, Volume.entry_iff.mpr ⟨hlength, hremoved.bound⟩, hbody, rfl⟩

theorem pathUnlinkFile_makes (hw : w.Reachable) (dirfd : Nat) (path : String) :
    (w.pathUnlinkFile dirfd path).Makes w fun v =>
      path.toList.getLast? ≠ some '/' ∧
        ∃ dir name i, w.Names dirfd path dir name ∧ name.length ≤ Lookup.nameLimit ∧
          w.volume.isDirectory i = false ∧ w.volume.Removed v dir name i := by
  apply changed_makes
  · intro v h
    obtain ⟨r, hr, h⟩ := bind_eq_ok.mp h
    rw [Resolved.unlink] at h
    split at h
    case isTrue =>
      -- whatever is there, with a slash behind it it is not unlinked
      obtain ⟨_, -, h⟩ := bind_eq_ok.mp h
      cases h
    case isFalse hslash =>
      obtain ⟨dir, name, i, hname, hentry, hbody, rfl⟩ := Volume.unlink_iff.mp (fromHost_eq_ok.mp h)
      obtain ⟨hlength, hbound⟩ := Volume.entry_iff.mp hentry
      have hnames : w.Names dirfd path dir name := ⟨r, hr, hname⟩
      exact ⟨mt (resolve_mustBeDir hw hr).mpr hslash, dir, name, i, hnames, hlength, hbody,
        Volume.removed_unbind (hnames.hasDirectory hw) hbound
          (Volume.entries_of_not_directory hbody)⟩
  · rintro v ⟨hslash, dir, name, i, ⟨r, hr, hname⟩, hlength, hbody, hremoved⟩
    refine ⟨w.volume.unbind dir name i, bind_eq_ok.mpr ⟨r, hr, ?_⟩⟩
    rw [Resolved.unlink, if_neg (mt (resolve_mustBeDir hw hr).mp hslash), fromHost_eq_ok]
    exact Volume.unlink_iff.mpr
      ⟨dir, name, i, hname, Volume.entry_iff.mpr ⟨hlength, hremoved.bound⟩, hbody, rfl⟩

/-! ## All three -/

/-- Making a directory adds one empty directory under a name that was free; removing one takes away
one name of an empty directory; unlinking takes away one name of something else, and never behind a
slash.  The name is that of the path, whatever it is bound to, everything else stays where it was
and what it was, and what cannot be done leaves everything as it was. -/
theorem path_entries_exact (hw : w.Reachable) (dirfd : Nat) (path : String) :
    ((w.pathCreateDirectory dirfd path).Makes w fun v =>
      ∃ dir name, w.Names dirfd path dir name ∧ name.length ≤ Lookup.nameLimit ∧
        w.volume.isGone dir = false ∧ w.volume.Added v dir name (.directory [])) ∧
    ((w.pathRemoveDirectory dirfd path).Makes w fun v =>
      ∃ dir name i, w.Names dirfd path dir name ∧ name.length ≤ Lookup.nameLimit ∧
        w.volume.body i = .directory [] ∧ w.volume.Removed v dir name i ∧
        (w.volume.Hierarchical → ¬ v.InTree i)) ∧
    ((w.pathUnlinkFile dirfd path).Makes w fun v =>
      path.toList.getLast? ≠ some '/' ∧
        ∃ dir name i, w.Names dirfd path dir name ∧ name.length ≤ Lookup.nameLimit ∧
          w.volume.isDirectory i = false ∧ w.volume.Removed v dir name i) :=
  ⟨pathCreateDirectory_makes hw dirfd path, pathRemoveDirectory_makes hw dirfd path,
    pathUnlinkFile_makes hw dirfd path⟩

/-- Beneath a link a directory is made where the link leads, but it is the link itself that is
unlinked. -/
theorem path_entries_exact_linked :
    linkedGuest.Reachable ∧
      (∃ v, (linkedGuest.pathCreateDirectory 3 "l/new/").2 = linkedGuest.withVolume v ∧
        linkedGuest.volume.Added v 2 (utf8 "new") (.directory [])) ∧
      (∃ v, (linkedGuest.pathRemoveDirectory 3 "d/").2 = linkedGuest.withVolume v ∧
        linkedGuest.volume.Removed v 1 (utf8 "d") 2 ∧ ¬ v.InTree 2) ∧
      (∃ v, (linkedGuest.pathUnlinkFile 3 "l").2 = linkedGuest.withVolume v ∧
        linkedGuest.volume.Removed v 1 (utf8 "l") 3) ∧
      (linkedGuest.pathUnlinkFile 3 "l/").1 ≠ .ok () := by
  have hnew : linkedGuest.Names 3 "l/new/" 2 (utf8 "new") :=
    ⟨⟨⟨3, [47], "guest", 1⟩, 0, ⟨["l", "new"], true⟩⟩, by decide +kernel, [utf8 "l"], rfl,
      by decide +kernel⟩
  have hd : linkedGuest.Names 3 "d/" 1 (utf8 "d") :=
    ⟨⟨⟨3, [47], "guest", 1⟩, 0, ⟨["d"], true⟩⟩, by decide +kernel, [], rfl, rfl⟩
  have hl : linkedGuest.Names 3 "l" 1 (utf8 "l") :=
    ⟨⟨⟨3, [47], "guest", 1⟩, 0, ⟨["l"], false⟩⟩, by decide +kernel, [], rfl, rfl⟩
  have hexact := path_entries_exact linkedGuest_reachable 3
  refine ⟨linkedGuest_reachable, ?_, ?_, ?_, ?_⟩
  · obtain ⟨v, hv, dir, name, hname, -, -, hadded⟩ :=
      (hexact "l/new/").1.done (by decide +kernel)
    obtain ⟨rfl, rfl⟩ := hname.unique hnew
    exact ⟨v, hv, hadded⟩
  · obtain ⟨v, hv, dir, name, i, hname, -, -, hremoved, hgone⟩ :=
      (hexact "d/").2.1.done (by decide +kernel)
    obtain ⟨rfl, rfl⟩ := hname.unique hd
    have hchild : linkedGuest.volume.child? 1 (utf8 "d") = some 2 := by decide +kernel
    cases hchild.symm.trans hremoved.bound
    have hshape : linkedGuest.volume.Hierarchical := by
      rw [linkedGuest_volume]
      exact linkedHost_hierarchical
    exact ⟨v, hv, hremoved, hgone hshape⟩
  · obtain ⟨v, hv, -, dir, name, i, hname, -, -, hremoved⟩ :=
      (hexact "l").2.2.done (by decide +kernel)
    obtain ⟨rfl, rfl⟩ := hname.unique hl
    have hchild : linkedGuest.volume.child? 1 (utf8 "l") = some 3 := by decide +kernel
    cases hchild.symm.trans hremoved.bound
    exact ⟨v, hv, hremoved⟩
  · intro hok
    obtain ⟨v, hslash, -⟩ := (hexact "l/").2.2.ok_iff.mp hok
    exact hslash (by decide +kernel)

end World

end Hostcall
