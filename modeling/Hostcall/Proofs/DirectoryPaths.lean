import Hostcall.Proofs.Authority
import Hostcall.Proofs.Hierarchy

/-!
# A directory and its own path

Attributes of an open directory are told through its descriptor or through the path `.` beneath
it, which is the path the directory was opened by.  Both tell of the same node as long as the
path leads where it led.

* `World.LedBy` is the trail along which an open directory was reached, and `World.Origin` the
  moment of the run at which it was;
* `World.Origin.leads_now` says that it leads there now if it stands, and
  `World.Origin.stands_now` that a trail without links stands while the directory is in the tree;
* `World.run_filestat` compares what the two calls tell, `World.run_filestat_exceptions` shows
  where they tell of different nodes.
-/

namespace Hostcall

/-! ## Opening directories -/

namespace Volume

variable {v v' : Volume} {start i : Ino} {mode : Lookup.Mode} {names : List Name}

theorem textLength_dot_le (names : List Name) (dot : Bool) :
    (Locator.mk names false).textLength ≤ (Locator.mk names dot).textLength := by
  simp only [Locator.textLength]
  split
  · exact Nat.le_refl _
  · cases dot <;> simp

/-- A path that leads to a directory does so along a trail, whether or not a dot is behind it. -/
theorem locate_leads (hmode : mode.beneath = true) (hi : v.isDirectory i = true) {dot : Bool}
    (h : v.locate mode start ⟨names, dot⟩ = .ok (.node i)) :
    (Locator.mk names false).textLength ≤ Lookup.pathLimit ∧
      ∃ trail, v.Leads i Lookup.linkBudget start [] (names.map Component.name) trail := by
  rw [locate] at h
  split at h
  · cases h
  case isFalse hlength =>
    refine ⟨Nat.le_trans (textLength_dot_le names dot) (Nat.not_lt.mp hlength), ?_⟩
    obtain ⟨trail, htrail⟩ := Lookup.walk_leads hmode hi h
    cases dot with
    | false => exact ⟨trail, by simpa [Locator.components] using htrail⟩
    | true => exact htrail.dropDot

/-- A directory that is opened as whatever is there was there. -/
theorem openFile_directory (hv : v.Grounded) (hstart : start < v.nodes.size) {ends : Ino → Ends}
    {l : Locator} {r : OpenRequest} (h : v.openFile ends start l r = .ok (i, v'))
    (hi : v'.isDirectory i = true) :
    v.locate (r.mode true) start l = .ok (.node i) ∧ v.isDirectory i = true := by
  rcases openFile_cases hv hstart h with ⟨hlocate, hlt, -, rfl⟩ | ⟨dir, name, hdir, rfl, rfl⟩
  · have hevolves := v.openExisting_evolves_true r (ends i) i
    rw [hevolves.isDirectory_eq hlt] at hi
    exact ⟨hlocate, hi⟩
  · -- what is created is a file
    rw [isDirectory, body_create_self hdir] at hi
    cases hi

end Volume

/-- A directory is opened where the path leads to it. -/
theorem Resolved.openNode_leads {r : Resolved} {v : Volume} {ends : Ino → Ends} {follow : Bool}
    {flags : OpenFlags} {access : Access} {fdFlags : FdFlags} {d : Directory} (hv : v.Grounded)
    (hroot : r.preopen.root < v.nodes.size)
    (h : (r.openNode v ends follow flags access fdFlags).1 = .ok (.directory d)) :
    d = .nested r.index r.place.names d.ino ∧ v.isDirectory d.ino = true ∧
      (Locator.mk r.names false).textLength ≤ Lookup.pathLimit ∧
      ∃ trail, v.Leads d.ino Lookup.linkBudget r.preopen.root []
        (r.names.map Component.name) trail := by
  rw [openNode] at h
  split at h
  · cases h
  split at h
  · split at h
    · cases h
    · obtain ⟨i, hopen, h⟩ := bind_eq_ok.mp h
      cases h
      obtain ⟨hlocate, hi⟩ := Volume.openDirectory_eq_ok (fromHost_eq_ok.mp hopen)
      exact ⟨rfl, hi, Volume.locate_leads rfl hi hlocate⟩
  · rw [openFile] at h
    split at h
    case h_1 => cases h
    case h_2 i u hopen =>
      split at h
      case isTrue hi =>
        cases h
        obtain ⟨hlocate, hi⟩ := Volume.openFile_directory hv hroot hopen hi
        exact ⟨rfl, hi, Volume.locate_leads rfl hi hlocate⟩
      case isFalse => split at h <;> cases h

/-! ## Times -/

theorem timestamp_some (t : Int) : timestamp (some t) =
    if t < UInt64.size then .ok (UInt64.ofNat t.toNat) else .error .overflow := by
  have hpositive : (0 : Int) < UInt64.size := by decide
  by_cases hbefore : t < 0
  · -- what lies before the epoch is told as the epoch
    have hzero : t.toNat = 0 := by omega
    rw [timestamp, if_pos hbefore, if_pos (by omega), hzero]
    rfl
  · have hfits : t.toNat < UInt64.size ↔ t < UInt64.size := by omega
    simp [timestamp, wordOf, hbefore, hfits]

/-- Whether the times of a node fit into what a guest is told. -/
def Volume.Timely (v : Volume) (i : Ino) : Prop :=
  (v.node i).accessed < UInt64.size ∧ (v.node i).modified < UInt64.size

/-- A directory is told to be one, if its times can be told. -/
theorem Filestat.ofAttributes_directory {v : Volume} {i : Ino} (hi : v.isDirectory i = true) :
    (v.Timely i ∧ ∃ s, Filestat.ofAttributes (v.attributes i) = .ok s ∧ s.fileType = .directory) ∨
    (¬ v.Timely i ∧ Filestat.ofAttributes (v.attributes i) = .error .overflow) := by
  have hkind : (v.attributes i).fileType = .directory := by
    obtain ⟨entries, hentries⟩ := Volume.exists_directory hi
    show (v.body i).fileType = .directory
    rw [hentries]
    rfl
  have haccessed : (v.attributes i).accessed = some (v.node i).accessed := rfl
  have hmodified : (v.attributes i).modified = some (v.node i).modified := rfl
  have hcreated : (v.attributes i).created = none := rfl
  rw [Filestat.ofAttributes, haccessed, hmodified, hcreated, timestamp_some, timestamp_some]
  by_cases ha : (v.node i).accessed < UInt64.size
  · by_cases hm : (v.node i).modified < UInt64.size
    · rw [if_pos ha, if_pos hm]
      exact .inl ⟨⟨ha, hm⟩, _, rfl, hkind⟩
    · rw [if_pos ha, if_neg hm]
      exact .inr ⟨fun h => hm h.2, rfl⟩
  · rw [if_neg ha]
    exact .inr ⟨fun h => ha h.1, rfl⟩

/-! ## The path of a directory -/

theorem foldPath_dot (names : List String) : foldPath names "." = .ok ⟨names, false⟩ := by
  have hsegments : segments "." = ["."] := by decide +kernel
  rw [foldPath, hsegments]
  simp [Path.walk, Path.step]

namespace World

variable {w : World} {fd : Nat} {d : Directory} {p : Preopen} {trail : List Hop}

/-- What is told of a directory through its descriptor. -/
theorem fdFilestatGet_directory (hd : w.table.get? fd = some (.directory d)) :
    w.fdFilestatGet fd = Filestat.ofAttributes (w.volume.attributes d.ino) := by
  rw [fdFilestatGet, Table.get_of_get? hd]
  rfl

/-- What is told of a directory through its path. -/
theorem pathFilestatGet_dot (hw : w.Reachable) (hd : w.table.get? fd = some (.directory d))
    (hp : w.context.preopens[d.preopen]? = some p) (lookup : LookupFlags) {a : Attributes}
    (ha : (if lookup.contains LookupFlags.symlinkFollow
      then w.volume.stat p.root ⟨d.relative.map utf8, false⟩
      else w.volume.statLink p.root ⟨d.relative.map utf8, false⟩) = .ok a) :
    w.pathFilestatGet fd lookup "." = Filestat.ofAttributes a := by
  obtain ⟨q, hq, hresolve⟩ := hw.resolve_eq hd
  rw [hp] at hq
  cases hq
  have hstat : Resolved.stat ⟨p, d.preopen, ⟨d.relative, false⟩⟩ w.volume
      (lookup.contains LookupFlags.symlinkFollow) = .ok a := congrArg fromHost ha
  rw [pathFilestatGet, hresolve, foldPath_dot]
  show (do Filestat.ofAttributes (← Resolved.stat ⟨p, d.preopen, ⟨d.relative, false⟩⟩ w.volume _)) = _
  rw [hstat]
  rfl

/-! ## Trails of open directories -/

/-- The trail along which an open directory was reached.  No name led to the root of a preopen;
everything else was opened in the run, and its path led to it. -/
inductive LedBy (w : World) (calls : List Call) (fd : Nat) (d : Directory) : List Hop → Prop where
  | root {p : Preopen} (hp : w.context.preopens[d.preopen]? = some p) (hnames : d.relative = [])
      (hino : d.ino = p.root) : LedBy w calls fd d []
  | opened {before : List Call} {o : Opening} {r : Resolved} {trail : List Hop}
      (ho : w.OpenedBy calls fd before o) (hr : (w.run before).resolve o.dirfd o.path = .ok r)
      (h : (w.run before).volume.Leads d.ino Lookup.linkBudget r.preopen.root []
        (r.names.map Component.name) trail) : LedBy w calls fd d trail

variable {calls : List Call}

theorem preopen_of_resolve (hw : w.Reachable) {dirfd : Nat} {path : String} {r : Resolved}
    (hr : w.resolve dirfd path = .ok r) :
    w.context.preopens[r.index]? = some r.preopen := by
  obtain ⟨d, -, hlies⟩ := hw.placed.liesAt hr
  rw [hlies.index]
  exact hlies.preopen

theorem OpenedBy.leads (hw : w.Reachable) {before : List Call} {o : Opening}
    (ho : w.OpenedBy calls fd before o) (hd : (w.run calls).table.get? fd = some (.directory d))
    {r : Resolved} (hr : (w.run before).resolve o.dirfd o.path = .ok r) :
    d = .nested r.index r.place.names d.ino ∧ (w.run before).volume.isDirectory d.ino = true ∧
      (Locator.mk r.names false).textLength ≤ Lookup.pathLimit ∧
      ∃ trail, (w.run before).volume.Leads d.ino Lookup.linkBudget r.preopen.root []
        (r.names.map Component.name) trail := by
  obtain ⟨r', hr', hopened⟩ := ho.directory hw hd
  rw [hr] at hr'
  cases hr'
  have hsound := (hw.run before).sound
  have hroot := (hsound.roots r.preopen (preopen_mem_of_resolve hr)).1
  exact Resolved.openNode_leads hsound.grounded hroot hopened

/-- Every open directory of a guest that was built and called was reached along a trail. -/
theorem Furnished.exists_ledBy {host : Host} {settings : List Setting} (hw : w.Reachable)
    (h : w.Furnished host settings) (hd : (w.run calls).table.get? fd = some (.directory d)) :
    ∃ trail, w.LedBy calls fd d trail := by
  rcases run_origin hw calls hd with ⟨id, y, hy, hfollow⟩ | ⟨before, o, ho⟩
  · obtain ⟨z, hz, hopened⟩ := get?_follow hw hy hfollow
    rw [hd] at hz
    cases hz
    rw [eq_directory_of_opened hopened.symm] at hy
    obtain ⟨index, p, hp, rfl⟩ := h.descriptors id _ hy
    exact ⟨[], .root hp rfl rfl⟩
  · obtain ⟨r, -, hr, -⟩ := (ho.directory hw hd).directory
    obtain ⟨-, -, -, trail, htrail⟩ := ho.leads hw hd hr
    exact ⟨trail, .opened ho hr htrail⟩

/-- A moment of a run at which the path of a directory led to it. -/
structure Origin (w : World) (calls : List Call) (d : Directory) (p : Preopen)
    (trail : List Hop) (before after : List Call) : Prop where
  calls_eq : calls = before ++ after
  preopen : w.context.preopens[d.preopen]? = some p
  isDirectory : (w.run before).volume.isDirectory d.ino = true
  textLength_le : (Locator.mk (d.relative.map utf8) false).textLength ≤ Lookup.pathLimit
  leads : (w.run before).volume.Leads d.ino Lookup.linkBudget p.root []
    ((d.relative.map utf8).map Component.name) trail

theorem LedBy.origin (hw : w.Reachable) (h : w.LedBy calls fd d trail)
    (hd : (w.run calls).table.get? fd = some (.directory d)) :
    ∃ p before after, w.Origin calls d p trail before after := by
  cases h with
  | @root p hp hnames hino =>
    refine ⟨p, [], calls, rfl, hp, ?_, ?_, ?_⟩
    · rw [hino]
      exact (hw.sound.roots p (List.mem_of_getElem? hp)).2
    · rw [hnames]
      decide
    · rw [hnames, hino]
      exact .here
  | @opened before o r trail ho hr h =>
    obtain ⟨hnested, hdirectory, hlength, -⟩ := ho.leads hw hd hr
    obtain ⟨after, id, hcalls, -⟩ := ho
    have hpreopen := preopen_of_resolve (hw.run before) hr
    rw [run_preopens] at hpreopen
    refine ⟨r.preopen, before, o.call :: after, hcalls, ?_, hdirectory, ?_, ?_⟩
    · rw [hnested]
      exact hpreopen
    · rw [hnested]
      exact hlength
    · rw [show d.relative = r.place.names by rw [hnested]; rfl]
      exact h

namespace Origin

variable {before after : List Call} (h : w.Origin calls d p trail before after)
include h

theorem run_eq : w.run calls = (w.run before).run after := by
  rw [h.calls_eq, run_append]

variable (hw : w.Reachable)
include hw

theorem evolves : (w.run before).volume.Evolves (fun _ => True) (w.run calls).volume := by
  rw [h.run_eq]
  exact run_evolves (hw.run before) after

theorem isDirectory_now : (w.run calls).volume.isDirectory d.ino = true := by
  have hsound := (hw.run before).sound
  have hp : p ∈ (w.run before).context.preopens := by
    rw [run_preopens]
    exact List.mem_of_getElem? h.preopen
  have hlt : d.ino < (w.run before).volume.nodes.size := by
    apply h.leads.closed hsound.grounded.closed (hsound.roots p hp).1
    simp
  rw [(h.evolves hw).isDirectory_eq hlt]
  exact h.isDirectory

/-- The path leads to its directory now if every name still leads where it led. -/
theorem leads_now (hstands : (w.run calls).volume.Stands trail) :
    (w.run calls).volume.Leads d.ino Lookup.linkBudget p.root []
      ((d.relative.map utf8).map Component.name) trail :=
  h.leads.later (hw.run before).sound.grounded (h.evolves hw) hstands

/-- Where no link was met, every name does as long as the directory is in the tree. -/
theorem stands_now (hshape : w.volume.Hierarchical)
    (hdirectories : ∀ hop ∈ trail, (w.run calls).volume.isDirectory hop.node = true)
    (hin : (w.run calls).volume.Reaches Volume.top d.ino) :
    (w.run calls).volume.Stands trail := by
  have hthen := run_hierarchical hw hshape before
  have hlater : (w.run before).volume.Later (w.run calls).volume := by
    rw [h.run_eq]
    exact run_later _ after
  have hstood := h.leads.stands
  have hbefore : ∀ hop ∈ trail, (w.run before).volume.isDirectory hop.node = true := by
    intro hop hhop
    have hlisted := Volume.mem_entries_of_child? (hstood hop hhop)
    rw [← (h.evolves hw).isDirectory_eq (hthen.grounded.lt_size _ _ ⟨_, hlisted⟩)]
    exact hdirectories hop hhop
  have hdescending := h.leads.descending (fun c hc => by
    obtain ⟨name, -, rfl⟩ := List.mem_map.mp hc
    exact ⟨name, rfl⟩) hbefore
  exact (Volume.stands_of_reaches hthen hlater hstood hdescending hbefore hin).1

/-- What is told through the path if it leads to its directory. -/
theorem filestat (hd : (w.run calls).table.get? fd = some (.directory d))
    (hstands : (w.run calls).volume.Stands trail) (lookup : LookupFlags) :
    ((lookup.contains LookupFlags.symlinkFollow = true ∨
        ∀ hop, trail.find? Hop.last = some hop →
          (w.run calls).volume.isDirectory hop.node = true) ∧
      (w.run calls).pathFilestatGet fd lookup "." = (w.run calls).fdFilestatGet fd) ∨
    (lookup.contains LookupFlags.symlinkFollow = false ∧
      ∃ hop, trail.find? Hop.last = some hop ∧
        (∃ target, (w.run calls).volume.body hop.node = .link target) ∧
        (w.run calls).pathFilestatGet fd lookup "." =
          Filestat.ofAttributes ((w.run calls).volume.attributes hop.node)) := by
  have hleads := h.leads_now hw hstands
  have hpreopen : (w.run calls).context.preopens[d.preopen]? = some p := by
    rw [run_preopens]
    exact h.preopen
  rw [fdFilestatGet_directory hd]
  cases hfollow : lookup.contains LookupFlags.symlinkFollow with
  | true =>
    refine .inl ⟨.inl rfl, pathFilestatGet_dot (hw.run calls) hd hpreopen lookup ?_⟩
    rw [hfollow]
    exact Volume.stat_of_leads hleads h.textLength_le
  | false =>
    rcases Volume.statLink_of_leads hleads h.textLength_le with ⟨hstat, hlast⟩ |
      ⟨hop, hlast, hlink, hstat⟩
    · refine .inl ⟨.inr hlast, pathFilestatGet_dot (hw.run calls) hd hpreopen lookup ?_⟩
      rw [hfollow]
      exact hstat
    · refine .inr ⟨rfl, hop, hlast, hlink, ?_⟩
      apply pathFilestatGet_dot (hw.run calls) hd hpreopen lookup
      rw [hfollow]
      exact hstat

end Origin

/-! ## Runs -/

/-- On a host whose directories have one place each, changed by a guest's calls only, an open
directory that is in the tree is told to be a directory, as long as its times can be told.  It was
reached along a trail, and whichever trail that was:

* if it met no link, its own path tells the same for every lookup flag;
* if it did, and every name still leads where it led, the path tells the same where links are
  followed or none is in the last place, and tells of such a link otherwise. -/
theorem run_filestat (host : Host) (random : KeyStream) (settings : List Setting)
    (hhost : host.volume.Hierarchical) (calls : List Call) :
    let start := (fresh host random).build settings
    let w := start.run calls
    ∀ fd d, w.table.get? fd = some (.directory d) → w.volume.Reaches Volume.top d.ino →
      w.fdFilestatGet fd = Filestat.ofAttributes (w.volume.attributes d.ino) ∧
      ((w.volume.Timely d.ino ∧ ∃ s, w.fdFilestatGet fd = .ok s ∧ s.fileType = .directory) ∨
        (¬ w.volume.Timely d.ino ∧ w.fdFilestatGet fd = .error .overflow)) ∧
      (∃ trail, start.LedBy calls fd d trail) ∧
      ∀ trail, start.LedBy calls fd d trail →
        ((∀ hop ∈ trail, w.volume.isDirectory hop.node = true) → ∀ lookup,
          w.pathFilestatGet fd lookup "." = w.fdFilestatGet fd) ∧
        (w.volume.Stands trail → ∀ lookup,
          ((lookup.contains LookupFlags.symlinkFollow = true ∨
              ∀ hop, trail.find? Hop.last = some hop → w.volume.isDirectory hop.node = true) ∧
            w.pathFilestatGet fd lookup "." = w.fdFilestatGet fd) ∨
          (lookup.contains LookupFlags.symlinkFollow = false ∧
            ∃ hop, trail.find? Hop.last = some hop ∧
              (∃ target, w.volume.body hop.node = .link target) ∧
              w.pathFilestatGet fd lookup "." =
                Filestat.ofAttributes (w.volume.attributes hop.node))) := by
  intro start w fd d hd hin
  have hfurnished := build_furnished host random settings
  have hreachable : start.Reachable := (Reachable.fresh host random hhost.grounded).build settings
  have hshape : start.volume.Hierarchical := by
    rw [show start.volume = host.volume from hfurnished.volume]
    exact hhost
  obtain ⟨_, hsome⟩ := hfurnished.exists_ledBy hreachable hd
  obtain ⟨p, before, after, horigin⟩ := hsome.origin hreachable hd
  have htold := fdFilestatGet_directory hd
  refine ⟨htold, ?_, ⟨_, hsome⟩, fun trail hled => ?_⟩
  · rw [htold]
    exact Filestat.ofAttributes_directory (horigin.isDirectory_now hreachable)
  · obtain ⟨p, before, after, horigin⟩ := hled.origin hreachable hd
    constructor
    · -- a trail of directories stands by itself, and its last hop is no link
      intro hdirectories lookup
      have hstands := horigin.stands_now hreachable hshape hdirectories hin
      rcases horigin.filestat hreachable hd hstands lookup with ⟨-, hsame⟩ |
        ⟨-, hop, hlast, ⟨target, hlink⟩, -⟩
      · exact hsame
      · have hdirectory := hdirectories hop (List.mem_of_find?_eq_some hlast)
        rw [Volume.isDirectory, hlink] at hdirectory
        cases hdirectory
    · exact fun hstands lookup => horigin.filestat hreachable hd hstands lookup

/-- A host with a directory `guest`, which holds the directory `d` and the link `l` to it. -/
def linkedHost : Host :=
  let v := ((Volume.new default).create Volume.top (utf8 "guest") (.directory [])).2
  let v := (v.create 1 (utf8 "d") (.directory [])).2
  ⟨(v.create 1 (utf8 "l") (.link (utf8 "d"))).2, default, default, []⟩

/-- Opens the directory through the link. -/
def opensLink : Opening :=
  ⟨3, LookupFlags.symlinkFollow, "l", OpenFlags.directory, .empty, .empty, .empty⟩

/-- Opens the directory itself. -/
def opensTarget : Opening := ⟨3, .empty, "d", .empty, .empty, .empty, .empty⟩

def linkedCalls : List Call := [opensLink.call, opensTarget.call]

/-- A guest that was granted `guest`. -/
def linkedGuest : World := (fresh linkedHost default).build [.preopen "guest" [47]]

theorem linkedHost_hierarchical : linkedHost.volume.Hierarchical := by
  apply Volume.Hierarchical.create _ (by decide +kernel) _ rfl
  apply Volume.Hierarchical.create _ (by decide +kernel) _ rfl
  apply Volume.Hierarchical.create _ (by decide +kernel) _ rfl
  exact .new default

theorem linkedGuest_volume : linkedGuest.volume = linkedHost.volume :=
  (build_furnished linkedHost default _).volume

theorem leads_linked : linkedHost.volume.Leads 2 Lookup.linkBudget 1 [] [.name (utf8 "l")]
    [⟨1, utf8 "l", 3, true⟩, ⟨1, utf8 "d", 2, true⟩] := by
  have hrest : components (utf8 "d") ++ [] = [.name (utf8 "d")] := by decide +kernel
  apply Volume.Leads.through (by decide) (by decide +kernel) rfl
  rw [hrest]
  exact .down (by decide) (by decide +kernel) rfl .here

theorem ledBy_linked : linkedGuest.LedBy linkedCalls 4 (.nested 0 ["l"] 2)
    [⟨1, utf8 "l", 3, true⟩, ⟨1, utf8 "d", 2, true⟩] := by
  have hopened : linkedGuest.OpenedBy linkedCalls 4 [] opensLink :=
    ⟨[opensTarget.call], 4, rfl, call_opening_fst (by decide +kernel), by decide +kernel⟩
  have hresolve : (linkedGuest.run []).resolve opensLink.dirfd opensLink.path =
      .ok ⟨⟨3, [47], "guest", 1⟩, 0, ⟨["l"], false⟩⟩ := by decide +kernel
  apply LedBy.opened hopened hresolve
  show linkedGuest.volume.Leads 2 Lookup.linkBudget 1 [] _ _
  rw [linkedGuest_volume]
  exact leads_linked

theorem ledBy_target : linkedGuest.LedBy linkedCalls 5 (.nested 0 ["d"] 2)
    [⟨1, utf8 "d", 2, true⟩] := by
  have hopened : linkedGuest.OpenedBy linkedCalls 5 [opensLink.call] opensTarget :=
    ⟨[], 5, rfl, call_opening_fst (by decide +kernel), rfl⟩
  have hresolve : (linkedGuest.run [opensLink.call]).resolve opensTarget.dirfd opensTarget.path =
      .ok ⟨⟨3, [47], "guest", 1⟩, 0, ⟨["d"], false⟩⟩ := by decide +kernel
  apply LedBy.opened hopened hresolve
  exact .down (by decide) (by decide +kernel) (by decide +kernel) .here

theorem linked_reaches {v : Volume} (hguest : (utf8 "guest", 1) ∈ v.entries Volume.top)
    (htarget : (utf8 "d", 2) ∈ v.entries 1) : v.Reaches Volume.top 2 :=
  .tail (.single ⟨_, hguest⟩) ⟨_, htarget⟩

theorem run_filestat_linked :
    let w := linkedGuest.run linkedCalls
    linkedHost.volume.Hierarchical ∧ w.volume.Reaches Volume.top 2 ∧
      (∀ lookup, w.pathFilestatGet 5 lookup "." = w.fdFilestatGet 5) ∧
      w.pathFilestatGet 4 LookupFlags.symlinkFollow "." = w.fdFilestatGet 4 := by
  intro w
  have hlinked : w.table.get? 4 = some (.directory (.nested 0 ["l"] 2)) := by decide +kernel
  have htarget : w.table.get? 5 = some (.directory (.nested 0 ["d"] 2)) := by decide +kernel
  have hin : w.volume.Reaches Volume.top 2 :=
    linked_reaches (by decide +kernel) (by decide +kernel)
  have hstands : w.volume.Stands [⟨1, utf8 "l", 3, true⟩, ⟨1, utf8 "d", 2, true⟩] := by
    simp only [Volume.Stands, List.forall_mem_cons]
    exact ⟨by decide +kernel, by decide +kernel, by simp⟩
  have hdirectories : ∀ hop ∈ [Hop.mk 1 (utf8 "d") 2 true], w.volume.isDirectory hop.node = true := by
    simp only [List.forall_mem_singleton]
    decide +kernel
  have hpaths := run_filestat linkedHost default [.preopen "guest" [47]]
    linkedHost_hierarchical linkedCalls
  refine ⟨linkedHost_hierarchical, hin, ?_, ?_⟩
  · exact ((hpaths 5 _ htarget hin).2.2.2 _ ledBy_target).1 hdirectories
  · rcases ((hpaths 4 _ hlinked hin).2.2.2 _ ledBy_linked).2 hstands
      LookupFlags.symlinkFollow with ⟨-, hsame⟩ | ⟨hnot, -⟩
    · exact hsame
    · cases hnot

/-- A host whose times are too late to be told. -/
def lateHost : Host :=
  ⟨((Volume.new UInt64.size).create Volume.top (utf8 "guest") (.directory [])).2, default, default,
    []⟩

/-- A directory that was opened through a link is told to be a directory through its descriptor,
while its path tells of the link, and of nothing once the link is gone.  What has too late a time
is not told of at all. -/
theorem run_filestat_exceptions :
    let opened := linkedGuest.run [opensLink.call]
    let unlinked := linkedGuest.run [opensLink.call, .pathUnlinkFile 3 "l"]
    let late := (fresh lateHost default).build [.preopen "guest" [47]]
    (opened.table.get? 4 = some (.directory (.nested 0 ["l"] 2)) ∧
      opened.volume.Reaches Volume.top 2 ∧
      (opened.fdFilestatGet 4).map Filestat.fileType = .ok .directory ∧
      (opened.pathFilestatGet 4 .empty ".").map Filestat.fileType = .ok .symbolicLink) ∧
    (unlinked.table.get? 4 = some (.directory (.nested 0 ["l"] 2)) ∧
      unlinked.volume.Reaches Volume.top 2 ∧
      (unlinked.fdFilestatGet 4).map Filestat.fileType = .ok .directory ∧
      unlinked.pathFilestatGet 4 LookupFlags.symlinkFollow "." =
        .error (.ofErrno .noSuchFileOrDirectory)) ∧
    late.table.get? 3 = some (.directory (.root 0 [47] 1)) ∧
      late.volume.Reaches Volume.top 1 ∧
      late.fdFilestatGet 3 = .error .overflow := by
  intro opened unlinked late
  refine ⟨⟨by decide +kernel, ?_, by decide +kernel, by decide +kernel⟩,
    ⟨by decide +kernel, ?_, by decide +kernel, by decide +kernel⟩,
    by decide +kernel, ?_, by decide +kernel⟩
  · exact linked_reaches (by decide +kernel) (by decide +kernel)
  · exact linked_reaches (by decide +kernel) (by decide +kernel)
  · exact .single ⟨utf8 "guest", by decide +kernel⟩

end World

end Hostcall
