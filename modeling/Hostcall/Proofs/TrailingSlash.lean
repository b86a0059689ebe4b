import Hostcall.Proofs.DirectoryPaths
import Hostcall.Proofs.Opening
import Hostcall.Proofs.Rights

/-!
# Two ways to open a directory

A path can be opened as a directory or as whatever is there.  The host is asked for the same place
both times, but for a trailing slash only the second time: behind a dot a link in the last place is
followed in any case, and the path is longer.

* `Volume.Leads.walk_dot` is the lookup of a path with a dot behind it;
* `Resolved.openDirectory_iff` and `Resolved.openFile_reading_iff` say when each way opens a
  directory, `Resolved.slashMatters_iff` when only one of them does;
* `World.directory_opens_agree_iff` is that they agree in all other cases, and
  `World.slash_opens_one` shows one of these.
-/

namespace Hostcall

/-- An open for reading only of whatever is there. -/
def OpenRequest.reading (follow nonblock : Bool) : OpenRequest :=
  { forReading with follow, nonblock }

namespace Volume

variable {v : Volume} {i dir start : Ino} {above : List Ino} {budget : Nat}
  {components : List Component} {trail : List Hop} {names : List Name}

/-! ## Paths with a dot behind them -/

/-- With a dot behind a path its last link is followed, whether or not links in the last place
are. -/
theorem Leads.walk_dot (h : v.Leads i budget dir above components trail) {mode : Lookup.Mode}
    (hcreating : mode.creating = false) (slashed : Bool) :
    Lookup.walk v mode budget dir above ⟨components ++ [.current], slashed⟩ = .ok (.node i) := by
  induction h generalizing slashed with
  | here => rw [List.nil_append, Lookup.walk_current, Lookup.walk_nil]
  | current _ ih => rw [List.cons_append, Lookup.walk_current, ih]
  | parent _ ih => rw [List.cons_append, Lookup.walk_parent, ih]
  | down hname hchild hbody _ ih =>
    rw [List.cons_append, Lookup.walk_directory hcreating hname hchild hbody, ih]
  | @through _ _ _ _ _ target rest _ hname hchild hbody _ ih =>
    have hmiddle : rest ++ [.current] ≠ [] := by simp
    rw [List.cons_append, Lookup.walk_link hcreating hname hchild hbody fun h => absurd h hmiddle]
    rw [Lookup.Route.through, ← List.append_assoc]
    exact ih _

theorem openDirectory_iff {follow : Bool} {l : Locator} :
    v.openDirectory start follow l = .ok i ↔
      v.locate ⟨true, follow, false⟩ start l = .ok (.node i) ∧ v.isDirectory i = true := by
  constructor
  · exact openDirectory_eq_ok
  · rintro ⟨hlocate, hi⟩
    rw [openDirectory, hlocate]
    simp [Bind.bind, Except.bind, directoryAt, hi]

/-- A path leads to a directory, if a link in the last place is followed. -/
theorem openDirectory_follow_iff :
    v.openDirectory start true ⟨names, false⟩ = .ok i ↔
      (Locator.mk names false).textLength ≤ Lookup.pathLimit ∧ v.isDirectory i = true ∧
        ∃ trail, v.Leads i Lookup.linkBudget start [] (names.map Component.name) trail := by
  rw [openDirectory_iff]
  constructor
  · rintro ⟨hlocate, hi⟩
    obtain ⟨hlength, htrail⟩ := locate_leads rfl hi hlocate
    exact ⟨hlength, hi, htrail⟩
  · rintro ⟨hlength, hi, trail, htrail⟩
    refine ⟨?_, hi⟩
    rw [locate, if_neg (Nat.not_lt.mpr hlength)]
    simpa [Locator.components] using htrail.walk_follow rfl rfl false

/-- With a dot behind it a path leads there too, if it is not too long then. -/
theorem openDirectory_dot_iff {follow : Bool} :
    v.openDirectory start follow ⟨names, true⟩ = .ok i ↔
      (Locator.mk names true).textLength ≤ Lookup.pathLimit ∧
        v.openDirectory start true ⟨names, false⟩ = .ok i := by
  rw [openDirectory_iff, openDirectory_follow_iff]
  constructor
  · rintro ⟨hlocate, hi⟩
    obtain ⟨hlength, htrail⟩ := locate_leads rfl hi hlocate
    have hdotted : (Locator.mk names true).textLength ≤ Lookup.pathLimit := by
      by_contra hlong
      rw [locate, if_pos (Nat.not_le.mp hlong)] at hlocate
      cases hlocate
    exact ⟨hdotted, hlength, hi, htrail⟩
  · rintro ⟨hdotted, -, hi, trail, htrail⟩
    refine ⟨?_, hi⟩
    rw [locate, if_neg (Nat.not_lt.mpr hdotted)]
    exact htrail.walk_dot rfl false

/-- The last name of a path stands for a link. -/
def EndsInLink (v : Volume) (start : Ino) (names : List Name) : Prop :=
  ∃ i target, v.locate ⟨true, false, false⟩ start ⟨names, false⟩ = .ok (.node i) ∧
    v.body i = .link target

/-- Where links in the last place are not followed, a path leads where it led, unless there is
one. -/
theorem openDirectory_nofollow_iff :
    v.openDirectory start false ⟨names, false⟩ = .ok i ↔
      v.openDirectory start true ⟨names, false⟩ = .ok i ∧ ¬ v.EndsInLink start names := by
  rw [openDirectory_iff, openDirectory_follow_iff]
  constructor
  · rintro ⟨hlocate, hi⟩
    obtain ⟨hlength, htrail⟩ := locate_leads rfl hi hlocate
    refine ⟨⟨hlength, hi, htrail⟩, ?_⟩
    rintro ⟨j, target, hj, hbody⟩
    rw [hlocate] at hj
    cases hj
    rw [isDirectory, hbody] at hi
    cases hi
  · rintro ⟨⟨hlength, hi, trail, htrail⟩, hlink⟩
    refine ⟨?_, hi⟩
    have hlocate : v.locate ⟨true, false, false⟩ start ⟨names, false⟩ =
        Lookup.walk v ⟨true, false, false⟩ Lookup.linkBudget start []
          ⟨names.map Component.name, false⟩ := by
      rw [locate, if_neg (Nat.not_lt.mpr hlength)]
      simp [Locator.components]
    have hmode : (Lookup.Mode.mk true false false).creating = false := rfl
    obtain ⟨hwalk, -⟩ | ⟨hop, -, ⟨target, hbody⟩, hwalk⟩ := htrail.walk_nofollow hmode rfl
    · rw [hlocate, hwalk]
    · exact absurd ⟨hop.node, target, hlocate.trans hwalk, hbody⟩ hlink

theorem openDirectory_last_iff {follow : Bool} :
    v.openDirectory start follow ⟨names, false⟩ = .ok i ↔
      v.openDirectory start true ⟨names, false⟩ = .ok i ∧
        (follow = true ∨ ¬ v.EndsInLink start names) := by
  cases follow with
  | true => simp
  | false => simp [openDirectory_nofollow_iff]

/-- No names lead to the start, whatever is put behind them. -/
theorem openDirectory_nil (hstart : v.isDirectory start = true) (follow dot : Bool) :
    v.openDirectory start follow ⟨[], dot⟩ = .ok start := by
  rw [openDirectory_iff]
  refine ⟨?_, hstart⟩
  rw [locate, if_neg (by simp [Locator.textLength, Lookup.pathLimit])]
  cases dot with
  | false => exact Lookup.walk_nil
  | true => exact Lookup.walk_current.trans Lookup.walk_nil

theorem openExisting_reading {follow nonblock : Bool} {ends : Ends} :
    (v.openExisting (.reading follow nonblock) ends i).isDirectory i = v.isDirectory i ∧
      (v.isDirectory i = true → v.openExisting (.reading follow nonblock) ends i = v) := by
  rw [openExisting]
  cases hbody : v.body i with
  | directory _ | link _ | socket | device _ => exact ⟨rfl, fun _ => rfl⟩
  | file c =>
    have hkeeps : (OpenRequest.reading follow nonblock).empties = false := rfl
    simp [hkeeps]
  | fifo q =>
    have hnot : v.isDirectory i = false := by rw [isDirectory, hbody]; rfl
    refine ⟨?_, fun h => by rw [hnot] at h; cases h⟩
    dsimp only
    by_cases hidle : ends = ⟨0, 0⟩
    · -- it starts empty again, and is a pipe as before
      rw [if_pos hidle, isDirectory, body_setBody]
      split
      · exact hnot.symm
      · rfl
    · rw [if_neg hidle]

/-- A node that is opened for reading and found to be a directory could have been opened as one,
and nothing happens to it. -/
theorem openFile_reading_iff {ends : Ino → Ends} {l : Locator} {follow nonblock : Bool}
    {v' : Volume} :
    (v.openFile ends start l (.reading follow nonblock) = .ok (i, v') ∧ v'.isDirectory i = true) ↔
      v' = v ∧ v.openDirectory start follow l = .ok i := by
  rw [openDirectory_iff]
  have hcheck : (OpenRequest.reading follow nonblock).check = .ok () := rfl
  have hmode : (OpenRequest.reading follow nonblock).mode true = ⟨true, follow, false⟩ := by
    simp [OpenRequest.mode, OpenRequest.reading, OpenRequest.forReading, OpenRequest.creates]
  have hopen : v.openFile ends start l (.reading follow nonblock) =
      (v.locate ⟨true, follow, false⟩ start l).bind
        (v.openPlace ends (.reading follow nonblock)) := by
    rw [openFile, hcheck, hmode]
    rfl
  rw [hopen]
  constructor
  · rintro ⟨h, hi⟩
    obtain ⟨place, hlocate, h⟩ := bind_eq_ok.mp h
    cases place with
    | vacant dir name => cases h
    | node j =>
      obtain ⟨_, -, h⟩ := bind_eq_ok.mp h
      cases h
      rw [openExisting_reading.1] at hi
      exact ⟨openExisting_reading.2 hi, hlocate, hi⟩
  · rintro ⟨rfl, hlocate, hi⟩
    obtain ⟨entries, hbody⟩ := exists_directory hi
    have hpermits : (OpenRequest.reading follow nonblock).permits (ends i) (v'.body i) = .ok () := by
      rw [hbody]
      rfl
    rw [hlocate]
    simp [Except.bind, openPlace, hpermits, Bind.bind, openExisting_reading.2 hi, hi, Pure.pure,
      Except.pure]

end Volume

/-! ## Opening a place -/

namespace Resolved

variable {r : Resolved} {v v' : Volume} {ends : Ino → Ends} {follow nonblock : Bool} {i : Ino}
  {access : Access} {d : Directory}

/-- The place leads to a directory, if a link in the last place is followed. -/
def LeadsTo (r : Resolved) (v : Volume) (i : Ino) : Prop :=
  v.openDirectory r.preopen.root true r.locator = .ok i

/-- The last name of the place stands for a link. -/
def EndsInLink (r : Resolved) (v : Volume) : Prop := v.EndsInLink r.preopen.root r.names

/-- The guest wrote a slash behind the place, and it is not the root. -/
def Slashed (r : Resolved) : Prop := r.place.mustBeDir = true ∧ r.place.names ≠ []

/-- The place is opened if it is asked for as a directory. -/
def OpensAsDirectory (r : Resolved) (v : Volume) (follow : Bool) (i : Ino) : Prop :=
  r.LeadsTo v i ∧ (follow = true ∨ ¬ r.EndsInLink v)

/-- The place is opened and found to be a directory. -/
def OpensAsFound (r : Resolved) (v : Volume) (follow : Bool) (i : Ino) : Prop :=
  r.LeadsTo v i ∧
    ((r.Slashed ∧ r.lookup.textLength ≤ Lookup.pathLimit) ∨
      (¬ r.Slashed ∧ (follow = true ∨ ¬ r.EndsInLink v)))

/-- A trailing slash matters: the path leads to a directory, but either its last name stands for a
link that is followed only for the slash, or it is too long only with the slash. -/
def SlashMatters (r : Resolved) (v : Volume) (follow : Bool) : Prop :=
  r.Slashed ∧ (∃ i, r.LeadsTo v i) ∧
    ((follow = false ∧ r.EndsInLink v ∧ r.lookup.textLength ≤ Lookup.pathLimit) ∨
      ((follow = true ∨ ¬ r.EndsInLink v) ∧ Lookup.pathLimit < r.lookup.textLength))

/-- Where a slash matters, and only there, one of the two ways opens a directory and the other does
not. -/
theorem slashMatters_iff :
    r.SlashMatters v follow ↔
      ¬ ((∃ i, r.OpensAsDirectory v follow i) ↔ ∃ i, r.OpensAsFound v follow i) := by
  have hlong : Lookup.pathLimit < r.lookup.textLength ↔
      ¬ r.lookup.textLength ≤ Lookup.pathLimit := Nat.not_le.symm
  simp only [SlashMatters, OpensAsDirectory, OpensAsFound, exists_and_right, hlong]
  -- what is left only combines whether there is a slash, a link, a flag and the room
  generalize (r.lookup.textLength ≤ Lookup.pathLimit) = short
  generalize (∃ i, r.LeadsTo v i) = leads
  cases follow <;> grind

theorem openDirectory_iff (hroot : v.isDirectory r.preopen.root = true) :
    r.openDirectory v follow = .ok (.directory d) ↔
      r.OpensAsDirectory v follow d.ino ∧ d = .nested r.index r.place.names d.ino := by
  -- for the root itself a last link is followed, but there is none
  have hfollow : v.openDirectory r.preopen.root (follow || r.place.names.isEmpty) r.locator =
      v.openDirectory r.preopen.root follow r.locator := by
    cases hnames : r.place.names with
    | nil =>
      have hlocator : r.locator = ⟨[], false⟩ := by simp [locator, names, hnames]
      rw [hlocator, Volume.openDirectory_nil hroot, Volume.openDirectory_nil hroot]
    | cons name rest => simp
  rw [openDirectory, hfollow, OpensAsDirectory, LeadsTo, EndsInLink, locator,
    ← Volume.openDirectory_last_iff]
  constructor
  · intro h
    obtain ⟨i, hi, h⟩ := bind_eq_ok.mp h
    cases h
    exact ⟨fromHost_eq_ok.mp hi, rfl⟩
  · rintro ⟨hi, hd⟩
    rw [hi, hd]
    rfl

theorem openDirectory_lookup_iff (hroot : v.isDirectory r.preopen.root = true) :
    v.openDirectory r.preopen.root follow r.lookup = .ok i ↔ r.OpensAsFound v follow i := by
  by_cases hslash : r.Slashed
  · have hlookup : r.lookup = ⟨r.names, true⟩ := by rw [lookup, hslash.1]
    rw [hlookup, Volume.openDirectory_dot_iff]
    simp [OpensAsFound, hslash, LeadsTo, locator, hlookup, and_comm]
  · -- nothing is put behind the path, or there are no names
    have hsame : v.openDirectory r.preopen.root follow r.lookup =
        v.openDirectory r.preopen.root follow r.locator := by
      cases hdot : r.place.mustBeDir with
      | false => rw [lookup, locator, hdot]
      | true =>
        have hnames : r.place.names = [] := by
          by_contra hne
          exact hslash ⟨hdot, hne⟩
        have hnil : r.names = [] := by rw [names, hnames, List.map_nil]
        rw [lookup, locator, hnil, Volume.openDirectory_nil hroot, Volume.openDirectory_nil hroot]
    rw [hsame, locator, Volume.openDirectory_last_iff]
    simp [OpensAsFound, hslash, LeadsTo, EndsInLink, locator]

theorem openFile_reading_iff (hroot : v.isDirectory r.preopen.root = true) :
    r.openFile v ends (OpenRequest.reading follow nonblock) access = (.ok (.directory d), v') ↔
      v' = v ∧ r.OpensAsFound v follow d.ino ∧ d = .nested r.index r.place.names d.ino := by
  have hopen : (v.openFile ends r.preopen.root r.lookup (OpenRequest.reading follow nonblock) =
      .ok (d.ino, v') ∧ v'.isDirectory d.ino = true) ↔
        v' = v ∧ r.OpensAsFound v follow d.ino := by
    rw [Volume.openFile_reading_iff, openDirectory_lookup_iff hroot]
  rw [openFile]
  constructor
  · intro h
    split at h
    case h_1 => cases h
    case h_2 j u heq =>
      by_cases hj : u.isDirectory j = true
      · rw [if_pos hj] at h
        cases h
        obtain ⟨hsame, hfound⟩ := hopen.mp ⟨heq, hj⟩
        exact ⟨hsame, hfound, rfl⟩
      · rw [if_neg hj] at h
        split at h <;> cases h
  · rintro ⟨hsame, hfound, hd⟩
    obtain ⟨heq, hdirectory⟩ := hopen.mpr ⟨hsame, hfound⟩
    rw [heq]
    simp only [hdirectory, if_true]
    rw [← hd]

end Resolved

/-! ## Opening a path -/

namespace World

variable {w : World} {dirfd : Nat} {lookup : LookupFlags} {path : String}
  {rights inheriting : Rights} {fdFlags : FdFlags} {r : Resolved}

/-- A call gave an id to a directory. -/
def GivesDirectory (step : Step Nat) : Prop :=
  ∃ fd d, step.1 = .ok fd ∧ step.2.table.get? fd = some (.directory d)

/-- An open as a directory and one as whatever is there: both give an id to a directory, and in the
same way, or neither does. -/
structure OpensAlike (asDirectory asFound : Step Nat) : Prop where
  iff : (∃ fd, asDirectory.1 = .ok fd) ↔ GivesDirectory asFound
  same : ∀ fd, asDirectory.1 = .ok fd →
    asDirectory = asFound ∧ ∃ d, asDirectory.2.table.get? fd = some (.directory d)

/-- A trailing slash matters for a path, and there is an id that could be given. -/
def SlashMatters (w : World) (dirfd : Nat) (lookup : LookupFlags) (path : String) : Prop :=
  ∃ r fd, w.resolve dirfd path = .ok r ∧ w.table.leastFree? = some fd ∧
    r.SlashMatters w.volume (lookup.contains LookupFlags.symlinkFollow)

section

variable {flags : OpenFlags} {opens : Ino → Prop}

variable (hr : w.resolve dirfd path = .ok r)
  (hnode : ∀ d v, r.openNode w.volume w.ends (lookup.contains LookupFlags.symlinkFollow) flags
      (Access.ofRights rights) fdFlags = (.ok (.directory d), v) ↔
    v = w.volume ∧ opens d.ino ∧ d = .nested r.index r.place.names d.ino)
include hr hnode

theorem pathOpen_of_opens {i : Ino} (hi : opens i) :
    w.pathOpen dirfd lookup path flags rights inheriting fdFlags =
      w.allocate (.directory (.nested r.index r.place.names i)) := by
  have hopen := (hnode (.nested r.index r.place.names i) w.volume).mpr ⟨rfl, hi, rfl⟩
  simp only [pathOpen, hr, hopen]
  rfl

/-- An open gives an id to a directory if it opens one and there is an id. -/
theorem givesDirectory_iff :
    GivesDirectory (w.pathOpen dirfd lookup path flags rights inheriting fdFlags) ↔
      (∃ i, opens i) ∧ ∃ fd, w.table.leastFree? = some fd := by
  constructor
  · rintro ⟨fd, d, hfd, hd⟩
    obtain ⟨r', x, v, hr', hopen, hfree, hget⟩ := pathOpen_eq_ok hfd
    cases hr.symm.trans hr'
    rw [hget, Function.update_self] at hd
    cases hd
    exact ⟨⟨_, ((hnode d v).mp hopen).2.1⟩, fd, hfree⟩
  · rintro ⟨⟨i, hi⟩, fd, hfree⟩
    rw [pathOpen_of_opens hr hnode hi, allocate_of_free hfree]
    refine ⟨fd, .nested r.index r.place.names i, rfl, ?_⟩
    change (w.table.allocate _).2.get? fd = _
    rw [Table.get?_allocate, if_pos hfree]

end

/-- Opening as a directory, on the host. -/
theorem openNode_asDirectory_iff (hroot : w.volume.isDirectory r.preopen.root = true)
    (hsync : fdFlags.intersects FdFlags.syncFamily = false) {follow : Bool} {access : Access}
    (d : Directory) (v : Volume) :
    r.openNode w.volume w.ends follow OpenFlags.directory access fdFlags =
        (.ok (.directory d), v) ↔
      v = w.volume ∧ r.OpensAsDirectory w.volume follow d.ino ∧
        d = .nested r.index r.place.names d.ino := by
  have hnode : r.openNode w.volume w.ends follow OpenFlags.directory access fdFlags =
      (r.openDirectory w.volume follow, w.volume) := by
    rw [Resolved.openNode, hsync]
    rfl
  rw [hnode, Prod.mk.injEq, Resolved.openDirectory_iff hroot, and_comm, eq_comm]

theorem request_reading (follow : Bool) {access : Access}
    (hwrite : access.contains Access.write = false)
    (happend : fdFlags.contains FdFlags.append = false) :
    Resolved.request follow .empty access fdFlags =
      OpenRequest.reading follow (fdFlags.contains FdFlags.nonblock) := by
  have hread : (access.contains Access.read || !false) = true := Bool.or_true _
  simp only [Resolved.request, hwrite, happend, hread]
  rfl

/-- Opening as whatever is there, on the host, for anything but writing. -/
theorem openNode_asFound_iff (hroot : w.volume.isDirectory r.preopen.root = true)
    (hsync : fdFlags.intersects FdFlags.syncFamily = false) {follow : Bool} {access : Access}
    (hwrite : access.contains Access.write = false)
    (happend : fdFlags.contains FdFlags.append = false) (d : Directory) (v : Volume) :
    r.openNode w.volume w.ends follow .empty access fdFlags = (.ok (.directory d), v) ↔
      v = w.volume ∧ r.OpensAsFound w.volume follow d.ino ∧
        d = .nested r.index r.place.names d.ino := by
  have hnode : r.openNode w.volume w.ends follow .empty access fdFlags =
      r.openFile w.volume w.ends
        (OpenRequest.reading follow (fdFlags.contains FdFlags.nonblock)) access := by
    rw [Resolved.openNode, hsync, request_reading follow hwrite happend]
    rfl
  rw [hnode, Resolved.openFile_reading_iff hroot]

/-- What gets an id as a directory is one. -/
theorem givesDirectory_of_ok (hsync : fdFlags.intersects FdFlags.syncFamily = false) {fd : Nat}
    (h : (w.pathOpen dirfd lookup path OpenFlags.directory rights inheriting fdFlags).1 = .ok fd) :
    ∃ d, (w.pathOpen dirfd lookup path OpenFlags.directory rights inheriting
      fdFlags).2.table.get? fd = some (.directory d) := by
  obtain ⟨r, x, v, -, hopen, -, hget⟩ := pathOpen_eq_ok h
  rw [Resolved.openNode, hsync] at hopen
  obtain ⟨i, -, hx⟩ := bind_eq_ok.mp (Prod.mk.inj hopen).1
  cases hx
  rw [hget, Function.update_self]
  exact ⟨_, rfl⟩

theorem slashMatters_iff (hr : w.resolve dirfd path = .ok r) :
    w.SlashMatters dirfd lookup path ↔ (∃ fd, w.table.leastFree? = some fd) ∧
      ¬ ((∃ i, r.OpensAsDirectory w.volume (lookup.contains LookupFlags.symlinkFollow) i) ↔
        ∃ i, r.OpensAsFound w.volume (lookup.contains LookupFlags.symlinkFollow) i) := by
  rw [← Resolved.slashMatters_iff]
  constructor
  · rintro ⟨r', fd, hr', hfree, h⟩
    rw [hr] at hr'
    cases hr'
    exact ⟨⟨fd, hfree⟩, h⟩
  · rintro ⟨⟨fd, hfree⟩, h⟩
    exact ⟨r, fd, hr, hfree, h⟩

theorem exists_ok_iff_givesDirectory (hsync : fdFlags.intersects FdFlags.syncFamily = false) :
    (∃ fd, (w.pathOpen dirfd lookup path OpenFlags.directory rights inheriting fdFlags).1 =
        .ok fd) ↔
      GivesDirectory
        (w.pathOpen dirfd lookup path OpenFlags.directory rights inheriting fdFlags) := by
  constructor
  · rintro ⟨fd, hfd⟩
    obtain ⟨d, hd⟩ := givesDirectory_of_ok hsync hfd
    exact ⟨fd, d, hfd, hd⟩
  · rintro ⟨fd, d, hfd, -⟩
    exact ⟨fd, hfd⟩

theorem OpensAlike.refused (fault : Fault) (w w' : World) :
    OpensAlike (.error fault, w) (.error fault, w') := by
  refine ⟨iff_of_false ?_ ?_, fun fd hfd => ?_⟩
  · rintro ⟨fd, hfd⟩
    cases hfd
  · rintro ⟨fd, d, hfd, -⟩
    cases hfd
  · cases hfd

/-- Whatever is there and however it is asked for, the two ways to open a directory agree unless a
trailing slash matters. -/
theorem directory_opens_agree_iff (hw : w.Reachable) (dirfd : Nat) (lookup : LookupFlags)
    (path : String) {rights : Rights} (inheriting : Rights) {fdFlags : FdFlags}
    (hwrite : rights.contains Rights.fdWrite = false)
    (happend : fdFlags.contains FdFlags.append = false)
    (hsync : fdFlags.intersects FdFlags.syncFamily = false) :
    OpensAlike (w.pathOpen dirfd lookup path OpenFlags.directory rights inheriting fdFlags)
        (w.pathOpen dirfd lookup path .empty rights inheriting fdFlags) ↔
      ¬ w.SlashMatters dirfd lookup path := by
  cases hr : w.resolve dirfd path with
  | error fault =>
    have hnot : ¬ w.SlashMatters dirfd lookup path := by
      rintro ⟨r, -, hr', -⟩
      rw [hr] at hr'
      cases hr'
    have hfailed : ∀ flags, w.pathOpen dirfd lookup path flags rights inheriting fdFlags =
        (.error fault, w) := by
      intro flags
      simp only [pathOpen, hr]
    rw [hfailed, hfailed]
    exact iff_of_true (.refused fault w w) hnot
  | ok r =>
    have hroot := (hw.sound.roots r.preopen (preopen_mem_of_resolve hr)).2
    have hsafe : (Access.ofRights rights).contains Access.write = false := by
      rw [Access.contains_write_ofRights, hwrite]
    have hdirectory : GivesDirectory
        (w.pathOpen dirfd lookup path OpenFlags.directory rights inheriting fdFlags) ↔ _ :=
      givesDirectory_iff hr (openNode_asDirectory_iff hroot hsync)
    have hfound : GivesDirectory
        (w.pathOpen dirfd lookup path .empty rights inheriting fdFlags) ↔ _ :=
      givesDirectory_iff hr (openNode_asFound_iff hroot hsync hsafe happend)
    rw [slashMatters_iff hr]
    constructor
    · rintro ⟨hiff, -⟩ ⟨hfree, hdiffer⟩
      rw [exists_ok_iff_givesDirectory hsync, hdirectory, hfound] at hiff
      simp only [hfree, and_true] at hiff
      exact hdiffer hiff
    · intro hnot
      have hsame : (∃ fd, w.table.leastFree? = some fd) →
          ((∃ i, r.OpensAsDirectory w.volume (lookup.contains LookupFlags.symlinkFollow) i) ↔
            ∃ i, r.OpensAsFound w.volume (lookup.contains LookupFlags.symlinkFollow) i) := by
        intro hfree
        by_contra hdiffer
        exact hnot ⟨hfree, hdiffer⟩
      constructor
      case iff =>
        rw [exists_ok_iff_givesDirectory hsync, hdirectory, hfound]
        exact and_congr_left hsame
      case same =>
        intro fd hfd
        obtain ⟨⟨i, hi⟩, hfree⟩ := hdirectory.mp ((exists_ok_iff_givesDirectory hsync).mp ⟨fd, hfd⟩)
        obtain ⟨j, hj⟩ := (hsame hfree).mp ⟨i, hi⟩
        -- a place leads to one directory only
        obtain rfl : i = j := Except.ok.inj (hi.1.symm.trans hj.1)
        refine ⟨?_, givesDirectory_of_ok hsync hfd⟩
        rw [pathOpen_of_opens hr (openNode_asDirectory_iff hroot hsync) hi,
          pathOpen_of_opens hr (openNode_asFound_iff hroot hsync hsafe happend) hj]

theorem linkedGuest_reachable : linkedGuest.Reachable :=
  (Reachable.fresh linkedHost default linkedHost_hierarchical.grounded).build _

theorem directory_opens_agree_linked :
    linkedGuest.Reachable ∧
      OpensAlike
        (linkedGuest.pathOpen 3 .empty "d/" OpenFlags.directory Rights.fdRead .empty
          FdFlags.nonblock)
        (linkedGuest.pathOpen 3 .empty "d/" .empty Rights.fdRead .empty FdFlags.nonblock) := by
  refine ⟨linkedGuest_reachable, ?_⟩
  apply (directory_opens_agree_iff linkedGuest_reachable 3 .empty "d/" .empty (by decide)
    (by decide) (by decide)).mpr
  have hresolve : linkedGuest.resolve 3 "d/" =
      .ok ⟨⟨3, [47], "guest", 1⟩, 0, ⟨["d"], true⟩⟩ := by decide +kernel
  have hlocate : linkedGuest.volume.locate ⟨true, false, false⟩ 1 ⟨[utf8 "d"], false⟩ =
      .ok (.node 2) := by decide +kernel
  have hbody : (linkedGuest.volume.body 2).isDirectory = true := by decide +kernel
  rintro ⟨r, fd, hr, -, -, -, h⟩
  rw [hresolve] at hr
  cases hr
  obtain ⟨-, ⟨j, target, hj, hlink⟩, -⟩ | ⟨-, hlong⟩ := h
  · cases hlocate.symm.trans hj
    rw [hlink] at hbody
    cases hbody
  · exact absurd hlong (by decide +kernel)

/-- Through a link with a slash behind it a directory is opened as whatever is there, but not as a
directory. -/
theorem slash_opens_one :
    let asDirectory := linkedGuest.pathOpen 3 .empty "l/" OpenFlags.directory .empty .empty .empty
    let asFound := linkedGuest.pathOpen 3 .empty "l/" .empty .empty .empty .empty
    asDirectory.1 = .error (.ofHost .notADirectory) ∧
      asFound.1 = .ok 4 ∧ asFound.2.table.get? 4 = some (.directory (.nested 0 ["l"] 2)) ∧
      ¬ ((∃ fd, asDirectory.1 = .ok fd) ↔ GivesDirectory asFound) := by
  intro asDirectory asFound
  have hrefused : asDirectory.1 = .error (.ofHost .notADirectory) := by decide +kernel
  have hopened : asFound.1 = .ok 4 := by decide +kernel
  have hget : asFound.2.table.get? 4 = some (.directory (.nested 0 ["l"] 2)) := by decide +kernel
  refine ⟨hrefused, hopened, hget, fun hiff => ?_⟩
  obtain ⟨fd, hfd⟩ := hiff.mpr ⟨4, _, hopened, hget⟩
  rw [hrefused] at hfd
  cases hfd

end World

end Hostcall
