import Hostcall.Proofs.Lifecycle

/-!
# Opening a path that fails

Opening resolves the path, opens the node on the host, and then gives it an id.  A file may
be created or emptied before the id is given, and nothing undoes that.

* `Lookup.walk_isDirectory` says that a path with a dot behind it leads to a directory, so
  what is refused for a trailing slash is refused before anything is created;
* `Resolved.openNode_failed` says that the host is as it was if the open fails there;
* `World.crowded` is a guest that holds as many streams as one likes;
* `World.pathOpen_unchanged_unless_full` leaves one failure that changes the host, that of
  a full table, and `World.crowded_creates_and_empties` shows it.
-/

namespace Hostcall

/-! ## Paths with a dot behind them -/

/-- A lookup that ended in a directory. -/
def Place.IsDirectory (v : Volume) : Place → Prop
  | .node i => v.isDirectory i = true
  | .vacant _ _ => False

namespace Lookup

variable {v : Volume} {mode : Mode}

/-- Components of which the last one, if there is one, is a dot. -/
def Dotted (components : List Component) : Prop :=
  ∀ last, components.getLast? = some last → last = .current

theorem Dotted.tail {c : Component} {rest : List Component} (h : Dotted (c :: rest)) :
    Dotted rest := by
  intro last hlast
  apply h last
  rw [List.getLast?_cons, hlast]
  rfl

theorem Dotted.ne_nil {name : Name} {rest : List Component} (h : Dotted (.name name :: rest)) :
    rest ≠ [] := by
  rintro rfl
  cases h (.name name) rfl

theorem Dotted.append {rest : List Component} (h : Dotted rest) (hrest : rest ≠ [])
    (front : List Component) : Dotted (front ++ rest) := by
  intro last hlast
  apply h last
  rw [← hlast, List.getLast?_append_of_ne_nil front hrest]

theorem scan_isDirectory {onLink : Ino → List Ino → Route → Answer} (hmode : mode.beneath = true)
    (hlink : ∀ dir above route place, v.isDirectory dir = true →
      (∀ a ∈ above, v.isDirectory a = true) → Dotted route.components →
      onLink dir above route = .ok place → place.IsDirectory v)
    {components : List Component} {dir : Ino} {above : List Ino} {slashed : Bool} {place : Place}
    (hdir : v.isDirectory dir = true) (habove : ∀ a ∈ above, v.isDirectory a = true)
    (hdotted : Dotted components)
    (h : scan v mode onLink dir above components slashed = .ok place) : place.IsDirectory v := by
  induction components generalizing dir above with
  | nil =>
    cases h
    exact hdir
  | cons component rest ih =>
    have hrest := hdotted.tail
    cases component with
    | current => exact ih hdir habove hrest h
    | root =>
      rw [scan, if_pos hmode] at h
      cases h
    | parent =>
      cases above with
      | nil =>
        rw [scan, if_pos hmode] at h
        cases h
      | cons parent above =>
        apply ih (habove parent List.mem_cons_self) _ hrest h
        intro a ha
        exact habove a (List.mem_cons_of_mem _ ha)
    | name name =>
      have hne := hdotted.ne_nil
      simp only [scan, hne, false_and, and_false, if_false] at h
      split at h
      · cases h
      split at h
      · cases h
      case h_2 i _ =>
        split at h
        case h_1 hbody =>
          apply ih _ _ hrest h
          · rw [Volume.isDirectory, hbody]
            rfl
          · intro a ha
            rcases List.mem_cons.mp ha with rfl | ha
            · exact hdir
            · exact habove a ha
        case h_2 target _ =>
          -- behind a link the path still ends in the dot
          exact hlink _ _ _ _ hdir habove (hrest.append hne _) h
        case h_3 => cases h

theorem walk_isDirectory (hmode : mode.beneath = true) {budget : Nat} {dir : Ino} {above : List Ino}
    {route : Route} {place : Place} (hdir : v.isDirectory dir = true)
    (habove : ∀ a ∈ above, v.isDirectory a = true) (hdotted : Dotted route.components)
    (h : walk v mode budget dir above route = .ok place) : place.IsDirectory v := by
  induction budget generalizing dir above route place with
  | zero => exact scan_isDirectory hmode (by intros; contradiction) hdir habove hdotted h
  | succ budget ih =>
    refine scan_isDirectory hmode ?_ hdir habove hdotted h
    intro dir above route place hdir habove hdotted hlink
    exact ih hdir habove hdotted hlink

end Lookup

namespace Volume

variable {v v' : Volume} {start i : Ino}

theorem dotted_components (names : List Name) : Lookup.Dotted (Locator.components ⟨names, true⟩) := by
  intro last hlast
  simpa [Locator.components, eq_comm] using hlast

/-- What opens with a dot behind the path is a directory, to which nothing happens. -/
theorem openFile_dotted {ends : Ino → Ends} {names : List Name} {r : OpenRequest}
    (hstart : v.isDirectory start = true)
    (h : v.openFile ends start ⟨names, true⟩ r = .ok (i, v')) :
    v' = v ∧ v.isDirectory i = true := by
  obtain ⟨_, -, h⟩ := bind_eq_ok.mp h
  obtain ⟨place, hplace, h⟩ := bind_eq_ok.mp h
  rw [locate] at hplace
  split at hplace
  · cases hplace
  have hdirectory := Lookup.walk_isDirectory rfl hstart (by simp) (dotted_components names) hplace
  cases place with
  | vacant dir name => exact hdirectory.elim
  | node j =>
    obtain ⟨_, -, h⟩ := bind_eq_ok.mp h
    cases h
    refine ⟨?_, hdirectory⟩
    change (v.body i).isDirectory = true at hdirectory
    rw [openExisting]
    cases hbody : v.body i with
    | directory _ | link _ | socket | device _ => rfl
    | file _ | fifo _ =>
      rw [hbody] at hdirectory
      cases hdirectory

end Volume

/-! ## Opening on the host -/

namespace Resolved

variable {r : Resolved} {v v' : Volume} {ends : Ino → Ends} {fault : Fault}

theorem openFile_failed {q : OpenRequest} {access : Access}
    (hroot : v.isDirectory r.preopen.root = true)
    (h : r.openFile v ends q access = (.error fault, v')) : v' = v := by
  rw [openFile] at h
  split at h
  case h_1 =>
    cases h
    rfl
  case h_2 i opened hopen =>
    split at h
    · cases h
    case isFalse hnot =>
      split at h
      case isTrue hdir =>
        -- it would have to be a directory, and then it is one
        rw [lookup, hdir] at hopen
        obtain ⟨rfl, hdirectory⟩ := Volume.openFile_dotted hroot hopen
        exact absurd hdirectory hnot
      case isFalse => cases h

theorem openNode_failed {follow : Bool} {flags : OpenFlags} {access : Access} {fdFlags : FdFlags}
    (hroot : v.isDirectory r.preopen.root = true)
    (h : r.openNode v ends follow flags access fdFlags = (.error fault, v')) : v' = v := by
  rw [openNode] at h
  split at h
  · cases h
    rfl
  split at h
  · split at h <;> exact (Prod.mk.inj h).2.symm
  · exact openFile_failed hroot h

end Resolved

namespace World

variable {w : World}

/-! ## Opening a path -/

section

variable {dirfd : Nat} {lookup : LookupFlags} {path : String} {flags : OpenFlags}
  {rights inheriting : Rights} {fdFlags : FdFlags} {r : Resolved} {v : Volume}
  (hr : w.resolve dirfd path = .ok r)
include hr

/-- What the host refuses to open is refused to the guest. -/
theorem pathOpen_of_refused {fault : Fault}
    (hopen : r.openNode w.volume w.ends (lookup.contains LookupFlags.symlinkFollow) flags
      (Access.ofRights rights) fdFlags = (.error fault, v)) :
    w.pathOpen dirfd lookup path flags rights inheriting fdFlags =
      (.error fault, w.withVolume v) := by
  simp only [pathOpen, hr, hopen]

/-- What is opened with a full table is opened on the host and then refused. -/
theorem pathOpen_of_full (hfull : w.table.leastFree? = none) {d : Descriptor}
    (hopen : r.openNode w.volume w.ends (lookup.contains LookupFlags.symlinkFollow) flags
      (Access.ofRights rights) fdFlags = (.ok d, v)) :
    w.pathOpen dirfd lookup path flags rights inheriting fdFlags =
      (.error (.because .tooManyOpenFiles "descriptor table is full"), w.withVolume v) := by
  simp only [pathOpen, hr, hopen]
  exact allocate_of_full (w := w.withVolume v) hfull d

end

/-! ## A crowded guest -/

/-- A host with one file, which holds a byte. -/
def crowdedHost : Host :=
  let v := ((Volume.new default).create Volume.top (utf8 "old") (.file .empty)).2
  ⟨v.replaceBody 1 (.file (.ofBytes [1])), default, default, []⟩

/-- A guest that is granted everything on it, with a stream under each of the next ids. -/
def crowded (count : Nat) : World :=
  (((fresh crowdedHost default).build [.preopen "/" [47]]).fillStdio 4 count .stdout .hostOutput).2

theorem crowded_reachable (count : Nat) : (crowded count).Reachable := by
  have hcreate : (Volume.new default).Edit (fun _ => True)
      ((Volume.new default).create Volume.top (utf8 "old") (.file .empty)).2 :=
    .create trivial rfl (.inr rfl)
  have hwrite := Volume.Edit.rewrite (P := fun _ => True) (i := 1) (b := .file (.ofBytes [1]))
    (v := ((Volume.new default).create Volume.top (utf8 "old") (.file .empty)).2) trivial rfl rfl
  have hgrounded : crowdedHost.volume.Grounded := (Volume.grounded_new.edit hcreate).edit hwrite
  exact ((Reachable.fresh crowdedHost default hgrounded).build _).fillStdio 4 count _ _

theorem get?_fillStdio (w : World) {first count : Nat} (h : first + count ≤ Table.capacity)
    (kind : StdioKind) (stream : Stream) (fd : Nat) :
    (w.fillStdio first count kind stream).2.table.get? fd =
      if first ≤ fd ∧ fd < first + count then some (.stdio ⟨kind, stream⟩) else w.table.get? fd :=
  Table.get?_insertRange h w.table _ fd

variable {count : Nat}

theorem crowded_get?_three (hcount : 4 + count ≤ Table.capacity) :
    (crowded count).table.get? 3 = some (.directory (.root 0 [47] 0)) := by
  have hthree : ((fresh crowdedHost default).build [.preopen "/" [47]]).table.get? 3 =
      some (.directory (.root 0 [47] 0)) := by decide +kernel
  rw [crowded, get?_fillStdio _ hcount, if_neg (by omega), hthree]

theorem crowded_full (hcount : 4 + count = Table.capacity) :
    (crowded count).table.leastFree? = none := by
  rw [Table.leastFree?_eq_none_iff]
  intro fd hfd hlt
  by_cases hthree : fd = 3
  · rw [hthree, crowded_get?_three (Nat.le_of_eq hcount)]
    exact Option.some_ne_none _
  · have hfour : 4 ≤ fd := Nat.lt_of_le_of_ne hfd (Ne.symm hthree)
    rw [crowded, get?_fillStdio _ (Nat.le_of_eq hcount), if_pos ⟨hfour, hcount ▸ hlt⟩]
    exact Option.some_ne_none _

theorem crowded_preopens : (crowded count).context.preopens = [⟨3, [47], "/", 0⟩] := by
  have hbuilt : ((fresh crowdedHost default).build [.preopen "/" [47]]).context.preopens =
      [⟨3, [47], "/", 0⟩] := by decide +kernel
  exact hbuilt

theorem crowded_volume : (crowded count).volume = crowdedHost.volume :=
  (build_furnished crowdedHost default [.preopen "/" [47]]).volume

theorem crowded_resolve (hcount : 4 + count ≤ Table.capacity) {path : String} {place : Canonical}
    (h : normalize [] path = .ok place) :
    (crowded count).resolve 3 path = .ok ⟨⟨3, [47], "/", 0⟩, 0, place⟩ := by
  have hdir : (crowded count).table.getDirectory 3 = .ok (.root 0 [47] 0) := by
    rw [DescriptorTable.getDirectory, Table.get_of_get? (crowded_get?_three hcount)]
    rfl
  have hnames : utf8 (joinNames (Directory.root 0 [47] 0).relative) = [] := by decide +kernel
  rw [resolve, Hostcall.resolve, hdir, crowded_preopens]
  change (normalize (utf8 (joinNames (Directory.root 0 [47] 0).relative)) path >>= _) = _
  rw [hnames, h]
  rfl

theorem crowded_pathOpen (hcount : 4 + count = Table.capacity) {path : String} {place : Canonical}
    {flags : OpenFlags} {d : Descriptor} {v : Volume} (hplace : normalize [] path = .ok place)
    (hopen : ∀ ends, (Resolved.mk ⟨3, [47], "/", 0⟩ 0 place).openNode crowdedHost.volume ends
      false flags (Access.ofRights .empty) .empty = (.ok d, v)) :
    (crowded count).pathOpen 3 .empty path flags .empty .empty .empty =
      (.error (.because .tooManyOpenFiles "descriptor table is full"),
        (crowded count).withVolume v) := by
  have hvolume : (crowded count).volume = crowdedHost.volume := crowded_volume
  rw [← hvolume] at hopen
  exact pathOpen_of_full (crowded_resolve (Nat.le_of_eq hcount) hplace) (crowded_full hcount)
    (hopen _)

theorem crowded_creates (hcount : 4 + count = Table.capacity) :
    (crowded count).pathOpen 3 .empty "new" OpenFlags.create .empty .empty .empty =
      (.error (.because .tooManyOpenFiles "descriptor table is full"),
        (crowded count).withVolume
          (crowdedHost.volume.create Volume.top (utf8 "new") (.file .empty)).2) := by
  have hnew : normalize [] "new" = .ok ⟨["new"], false⟩ := by decide +kernel
  exact crowded_pathOpen hcount hnew fun _ => rfl

theorem crowdedHost_new :
    crowdedHost.volume.child? Volume.top (utf8 "new") = none ∧
      (crowdedHost.volume.create Volume.top (utf8 "new") (.file .empty)).2.child? Volume.top
        (utf8 "new") = some 2 := by
  decide +kernel

/-- A name with a slash behind it is not that of a file, and so no file is made. -/
theorem crowded_slashed (hcount : 4 + count ≤ Table.capacity) :
    ((crowded count).pathOpen 3 .empty "new/" OpenFlags.create .empty .empty .empty).1 =
      .error (.ofHost .noEntry) := by
  have hplace : normalize [] "new/" = .ok ⟨["new"], true⟩ := by decide +kernel
  have hopen : ∀ ends, (Resolved.mk ⟨3, [47], "/", 0⟩ 0 ⟨["new"], true⟩).openNode
      crowdedHost.volume ends false OpenFlags.create (Access.ofRights .empty) .empty =
        (.error (.ofHost .noEntry), crowdedHost.volume) := fun _ => rfl
  have hvolume : (crowded count).volume = crowdedHost.volume := crowded_volume
  rw [← hvolume] at hopen
  have hrefused : (crowded count).pathOpen 3 .empty "new/" OpenFlags.create .empty .empty .empty =
      (.error (.ofHost .noEntry), (crowded count).withVolume (crowded count).volume) :=
    pathOpen_of_refused (crowded_resolve hcount hplace) (hopen _)
  rw [hrefused]

theorem crowded_get?_four : (crowded 0).table.get? 4 = none := by
  have hnone : ((fresh crowdedHost default).build [.preopen "/" [47]]).table.get? 4 = none := by
    decide +kernel
  rw [crowded, get?_fillStdio _ (by decide), if_neg (by decide), hnone]

/-! ## A path that cannot be opened -/

/-- A path that cannot be opened leaves the world as it was, as long as some id is free. -/
theorem pathOpen_unchanged_unless_full (hw : w.Reachable) {dirfd : Nat} {lookup : LookupFlags}
    {path : String} {flags : OpenFlags} {rights inheriting : Rights} {fdFlags : FdFlags}
    {fault : Fault}
    (h : (w.pathOpen dirfd lookup path flags rights inheriting fdFlags).1 = .error fault) :
    let w' := (w.pathOpen dirfd lookup path flags rights inheriting fdFlags).2
    w'.table = w.table ∧
      (w' = w ∨
        (∀ fd, Table.firstAllocated ≤ fd → fd < Table.capacity → w.table.get? fd ≠ none) ∧
          fault = .because .tooManyOpenFiles "descriptor table is full" ∧
          ∃ v, w' = w.withVolume v) := by
  simp only [pathOpen] at h ⊢
  cases hr : w.resolve dirfd path with
  | error _ => exact ⟨rfl, .inl rfl⟩
  | ok r =>
    have hroot := (hw.sound.roots r.preopen (preopen_mem_of_resolve hr)).2
    rw [hr] at h
    rcases hopen : r.openNode w.volume w.ends (lookup.contains LookupFlags.symlinkFollow) flags
      (Access.ofRights rights) fdFlags with ⟨_ | d, v⟩
    · obtain rfl := Resolved.openNode_failed hroot hopen
      simp only [hopen]
      exact ⟨rfl, .inl rfl⟩
    · -- what the host did stays, so only the lack of an id can be behind the failure
      simp only [hopen] at h ⊢
      obtain ⟨hfull, hfault, hsame⟩ := allocate_failed h
      rw [hsame]
      exact ⟨rfl, .inr ⟨Table.leastFree?_eq_none_iff.mp hfull, hfault, v, rfl⟩⟩

/-- A host that is asked for a new file with a slash behind its name refuses it, and nothing
differs.  A file that it makes while the table is full is there afterwards. -/
theorem pathOpen_unchanged_unless_full_crowded :
    let roomy := crowded 0
    let slashed := roomy.pathOpen 3 .empty "new/" OpenFlags.create .empty .empty .empty
    let full := crowded 65532
    let created := full.pathOpen 3 .empty "new" OpenFlags.create .empty .empty .empty
    (roomy.Reachable ∧ slashed.1 = .error (.ofHost .noEntry) ∧ slashed.2 = roomy) ∧
      full.Reachable ∧
        created.1 = .error (.because .tooManyOpenFiles "descriptor table is full") ∧
        created.2 ≠ full ∧ created.2.table = full.table ∧
        (∀ fd, Table.firstAllocated ≤ fd → fd < Table.capacity → full.table.get? fd ≠ none) ∧
        ∃ v, created.2 = full.withVolume v := by
  intro roomy slashed full created
  have hslashed : slashed.1 = .error (.ofHost .noEntry) := crowded_slashed (by decide)
  have hcreated : created = (.error (.because .tooManyOpenFiles "descriptor table is full"),
      full.withVolume (crowdedHost.volume.create Volume.top (utf8 "new") (.file .empty)).2) :=
    crowded_creates rfl
  have hfault : created.1 = .error (.because .tooManyOpenFiles "descriptor table is full") := by
    rw [hcreated]
  have hnew : created.2.volume.child? Volume.top (utf8 "new") = some 2 := by
    rw [hcreated]
    exact crowdedHost_new.2
  have hchanged : created.2 ≠ full := by
    intro hsame
    have hvolume : full.volume = crowdedHost.volume := crowded_volume
    rw [hsame, hvolume, crowdedHost_new.1] at hnew
    cases hnew
  -- with a free id the host is as it was, and a host that is not has no free id
  refine ⟨⟨crowded_reachable 0, hslashed, ?_⟩, crowded_reachable 65532, hfault, hchanged, ?_⟩
  · rcases (pathOpen_unchanged_unless_full (crowded_reachable 0) hslashed).2 with hsame | ⟨hfull, -⟩
    · exact hsame
    · exact absurd crowded_get?_four (hfull 4 (by decide) (by decide))
  · obtain ⟨htable, hsame | ⟨hfull, -, hvolume⟩⟩ :=
      pathOpen_unchanged_unless_full (crowded_reachable 65532) hfault
    · exact absurd hsame hchanged
    · exact ⟨htable, hfull, hvolume⟩

/-- With a full table a file is created, and another one emptied, by calls that fail. -/
theorem crowded_creates_and_empties :
    let w := crowded 65532
    let created := w.pathOpen 3 .empty "new" OpenFlags.create .empty .empty .empty
    let emptied := w.pathOpen 3 .empty "old" OpenFlags.truncate .empty .empty .empty
    w.Reachable ∧
      ((∃ fault, created.1 = .error fault) ∧
        w.volume.child? Volume.top (utf8 "new") = none ∧
        created.2.volume.child? Volume.top (utf8 "new") = some 2) ∧
      (∃ fault, emptied.1 = .error fault) ∧
        (w.volume.body 1).size = 1 ∧ (emptied.2.volume.body 1).size = 0 := by
  have hold : normalize [] "old" = .ok ⟨["old"], false⟩ := by decide +kernel
  intro w created emptied
  have hcreated : created = (.error (.because .tooManyOpenFiles "descriptor table is full"),
      w.withVolume (crowdedHost.volume.create Volume.top (utf8 "new") (.file .empty)).2) :=
    crowded_creates rfl
  have hemptied : emptied = (.error (.because .tooManyOpenFiles "descriptor table is full"),
      w.withVolume (crowdedHost.volume.replaceBody 1 (.file .empty))) :=
    crowded_pathOpen rfl hold fun _ => rfl
  have hvolume : w.volume = crowdedHost.volume := crowded_volume
  rw [hcreated, hemptied, hvolume]
  exact ⟨crowded_reachable 65532, ⟨⟨_, rfl⟩, crowdedHost_new⟩, ⟨_, rfl⟩, rfl, rfl⟩

end World

end Hostcall
