import Hostcall.Proofs.TrailingSlash

/-!
# The last name of a path

A lookup that does not follow a link in the last place takes the last name as it stands in the
directory that the names before it lead to.

* `Volume.placeOf` is the place of a name in a directory;
* `Lookup.walk_last_leads` and `Volume.Leads.walk_last` are the lookup, there and back;
* `Volume.locate_last_iff` and `Volume.find_last_iff` say so of a whole path, and
  `Volume.walkTo_iff` what leads to the directory;
* `Volume.NamesIn` and `World.Names` take the last name of a path apart.
-/

namespace Hostcall

/-- The place of a name in a directory. -/
def Volume.placeOf (v : Volume) (dir : Ino) (name : Name) : Place :=
  match v.child? dir name with
  | some i => .node i
  | none => .vacant dir name

namespace Lookup

variable {v : Volume} {mode : Mode} {dir : Ino} {above : List Ino} {budget : Nat} {last : Name}
  {components : List Component} {place : Place}

/-- One name is read as it stands. -/
theorem walk_name (hfollow : mode.follow = false) (hlast : last.length ≤ nameLimit) :
    walk v mode budget dir above ⟨[.name last], false⟩ = .ok (v.placeOf dir last) := by
  rw [walk_eq, scan, if_neg (by simp), if_neg (Nat.not_lt.mpr hlast), Volume.placeOf]
  cases v.child? dir last with
  | none => rfl
  | some j =>
    dsimp only
    cases v.body j with
    | directory => rw [scan]
    | link => simp [hfollow]
    | file | fifo | socket | device => rfl

/-- What a lookup that ends in a name went through, and where it ended. -/
def EndsIn (v : Volume) (budget : Nat) (dir : Ino) (above : List Ino)
    (components : List Component) (last : Name) (place : Place) : Prop :=
  ∃ d trail, v.Leads d budget dir above components trail ∧ v.isDirectory d = true ∧
    last.length ≤ nameLimit ∧ place = v.placeOf d last

theorem scan_last_leads {onLink : Ino → List Ino → Route → Answer} (hmode : mode.beneath = true)
    (hfollow : mode.follow = false)
    (hlink : ∀ dir above components place, v.isDirectory dir = true →
      (∀ a ∈ above, v.isDirectory a = true) →
      onLink dir above ⟨components ++ [.name last], false⟩ = .ok place →
        ∃ less, budget = less + 1 ∧ EndsIn v less dir above components last place)
    (hdir : v.isDirectory dir = true) (habove : ∀ a ∈ above, v.isDirectory a = true)
    (h : scan v mode onLink dir above (components ++ [.name last]) false = .ok place) :
    EndsIn v budget dir above components last place := by
  induction components generalizing dir above with
  | nil =>
    have hlast : last.length ≤ nameLimit := by
      by_contra hlong
      rw [List.nil_append, scan, if_neg (by simp), if_pos (Nat.not_le.mp hlong)] at h
      cases h
    have hname : walk v mode 0 dir above ⟨[.name last], false⟩ = .ok (v.placeOf dir last) :=
      walk_name hfollow hlast
    rw [walk_eq] at hname
    refine ⟨dir, [], .here, hdir, hlast, ?_⟩
    -- a single name is not handed on, so it does not matter what goes on behind links
    rw [List.nil_append, scan, if_neg (by simp), if_neg (Nat.not_lt.mpr hlast)] at h
    rw [scan, if_neg (by simp), if_neg (Nat.not_lt.mpr hlast)] at hname
    cases hchild : v.child? dir last with
    | none =>
      simp only [hchild] at h hname
      exact Except.ok.inj (h.symm.trans hname)
    | some j =>
      simp only [hchild] at h hname
      cases hbody : v.body j with
      | directory =>
        simp only [hbody, scan] at h hname
        exact Except.ok.inj (h.symm.trans hname)
      | link =>
        simp only [hbody, hfollow] at h hname
        exact Except.ok.inj (h.symm.trans hname)
      | file | fifo | socket | device =>
        simp only [hbody] at h hname
        exact Except.ok.inj (h.symm.trans hname)
  | cons component rest ih =>
    cases component with
    | current =>
      obtain ⟨d, trail, hleads, hd⟩ := ih hdir habove h
      exact ⟨d, trail, .current hleads, hd⟩
    | root =>
      rw [List.cons_append, scan, if_pos hmode] at h
      cases h
    | parent =>
      cases above with
      | nil =>
        rw [List.cons_append, scan, if_pos hmode] at h
        cases h
      | cons parent above =>
        obtain ⟨hparent, hrest⟩ := List.forall_mem_cons.mp habove
        obtain ⟨d, trail, hleads, hd⟩ := ih hparent hrest h
        exact ⟨d, trail, .parent hleads, hd⟩
    | name name =>
      have hmiddle : rest ++ [.name last] ≠ [] := by simp
      rw [List.cons_append, scan, if_neg (by simp)] at h
      split at h
      · cases h
      case isFalse hlong =>
        have hname : name.length ≤ nameLimit := Nat.not_lt.mp hlong
        split at h
        case h_1 => cases h
        case h_2 j hchild =>
          split at h
          case h_1 entries hbody =>
            have hj : v.isDirectory j = true := by rw [Volume.isDirectory, hbody]; rfl
            obtain ⟨d, trail, hleads, hd⟩ := ih hj (List.forall_mem_cons.mpr ⟨hdir, habove⟩) h
            exact ⟨d, _, .down hname hchild hj hleads, hd⟩
          case h_2 target hbody =>
            -- the name is still the last one behind the target of the link
            have hroute : Route.through target (rest ++ [.name last]) false =
                ⟨(Hostcall.components target ++ rest) ++ [.name last], false⟩ := by
              simp [Route.through, List.append_assoc]
            rw [if_neg (fun hend => hmiddle hend.1), hroute] at h
            obtain ⟨less, rfl, d, trail, hleads, hd⟩ := hlink _ _ _ _ hdir habove h
            exact ⟨d, _, .through hname hchild hbody hleads, hd⟩
          case h_3 =>
            rw [if_neg (fun hend => hmiddle hend.1)] at h
            cases h

/-- A lookup that does not follow its last name reads it in the directory that the components
before it lead to. -/
theorem walk_last_leads (hmode : mode.beneath = true) (hfollow : mode.follow = false)
    (hdir : v.isDirectory dir = true) (habove : ∀ a ∈ above, v.isDirectory a = true)
    (h : walk v mode budget dir above ⟨components ++ [.name last], false⟩ = .ok place) :
    EndsIn v budget dir above components last place := by
  induction budget generalizing dir above components place with
  | zero =>
    apply scan_last_leads hmode hfollow _ hdir habove h
    intro dir above components place _ _ hbehind
    cases hbehind
  | succ budget ih =>
    apply scan_last_leads hmode hfollow _ hdir habove h
    intro dir above components place hdir habove hbehind
    exact ⟨budget, rfl, ih hdir habove hbehind⟩

end Lookup

namespace Volume

variable {v : Volume} {d dir i start : Ino} {above : List Ino} {budget : Nat}
  {components : List Component} {trail : List Hop} {front names : List Name} {last name : Name}
  {place : Place}

theorem Leads.walk_last (h : v.Leads d budget dir above components trail) {mode : Lookup.Mode}
    (hcreating : mode.creating = false) (hfollow : mode.follow = false)
    (hlast : last.length ≤ Lookup.nameLimit) :
    Lookup.walk v mode budget dir above ⟨components ++ [.name last], false⟩ =
      .ok (v.placeOf d last) := by
  induction h with
  | here => exact Lookup.walk_name hfollow hlast
  | current _ ih => rw [List.cons_append, Lookup.walk_current, ih]
  | parent _ ih => rw [List.cons_append, Lookup.walk_parent, ih]
  | down hname hchild hbody _ ih =>
    rw [List.cons_append, Lookup.walk_directory hcreating hname hchild hbody, ih]
  | @through _ _ _ _ _ target rest _ hname hchild hbody _ ih =>
    have hmiddle : rest ++ [.name last] ≠ [] := by simp
    have hroute : Lookup.Route.through target (rest ++ [.name last]) false =
        ⟨(Hostcall.components target ++ rest) ++ [.name last], false⟩ := by
      simp [Lookup.Route.through, List.append_assoc]
    rw [List.cons_append, Lookup.walk_link hcreating hname hchild hbody fun h => absurd h hmiddle,
      hroute, ih]

/-! ## Whole paths -/

theorem walkTo_iff (hstart : v.isDirectory start = true) :
    v.walkTo start names = .ok d ↔
      (Locator.mk names false).textLength ≤ Lookup.pathLimit ∧ v.isDirectory d = true ∧
        ∃ trail, v.Leads d Lookup.linkBudget start [] (names.map Component.name) trail := by
  rw [← openDirectory_follow_iff, walkTo]
  split
  case isTrue hnil => rw [hnil, openDirectory_nil hstart]
  case isFalse => rfl

theorem textLength_front_le
    (h : (Locator.mk (front ++ [last]) false).textLength ≤ Lookup.pathLimit) :
    (Locator.mk front false).textLength ≤ Lookup.pathLimit := by
  cases front with
  | nil => decide
  | cons name rest =>
    have htotal := totalSize_append ((name :: rest).map fun n => n.length + 1) [last.length + 1]
    simp only [Locator.textLength, List.cons_append, List.map_append, List.map_cons, List.map_nil,
      reduceCtorEq, if_false] at h htotal ⊢
    omega

/-- A lookup that ended in the last name of a path without following it, whatever it was for. -/
theorem locate_last {mode : Lookup.Mode} (hmode : mode.beneath = true)
    (hfollow : mode.follow = false) (hstart : v.isDirectory start = true)
    (h : v.locate mode start ⟨front ++ [last], false⟩ = .ok place) :
    (Locator.mk (front ++ [last]) false).textLength ≤ Lookup.pathLimit ∧
      ∃ d, v.walkTo start front = .ok d ∧ last.length ≤ Lookup.nameLimit ∧
        place = v.placeOf d last := by
  rw [locate] at h
  split at h
  · cases h
  case isFalse hlength =>
    have hshort := Nat.not_lt.mp hlength
    have hcomponents : Locator.components ⟨front ++ [last], false⟩ =
        front.map Component.name ++ [.name last] := by simp [Locator.components]
    rw [hcomponents] at h
    obtain ⟨d, trail, hleads, hd, hlast⟩ :=
      Lookup.walk_last_leads hmode hfollow hstart (by simp) h
    exact ⟨hshort, d, (walkTo_iff hstart).mpr ⟨textLength_front_le hshort, hd, trail, hleads⟩,
      hlast⟩

theorem locate_last_iff (hstart : v.isDirectory start = true) :
    v.locate ⟨true, false, false⟩ start ⟨front ++ [last], false⟩ = .ok place ↔
      (Locator.mk (front ++ [last]) false).textLength ≤ Lookup.pathLimit ∧
        ∃ d, v.walkTo start front = .ok d ∧ last.length ≤ Lookup.nameLimit ∧
          place = v.placeOf d last := by
  constructor
  · exact locate_last rfl rfl hstart
  · rintro ⟨hshort, d, hd, hlast, rfl⟩
    obtain ⟨-, -, trail, hleads⟩ := (walkTo_iff hstart).mp hd
    rw [locate, if_neg (Nat.not_lt.mpr hshort)]
    have hwalk : Lookup.walk v ⟨true, false, false⟩ Lookup.linkBudget start []
        ⟨front.map Component.name ++ [.name last], false⟩ = .ok (v.placeOf d last) :=
      hleads.walk_last rfl rfl hlast
    simpa [Locator.components] using hwalk

theorem entry?_iff {found : Option Ino} :
    v.entry? dir name = .ok found ↔
      name.length ≤ Lookup.nameLimit ∧ v.child? dir name = found := by
  rw [Volume.entry?]
  split
  case isTrue hlong => simp [Nat.not_le.mpr hlong]
  case isFalse hshort => simp [Nat.not_lt.mp hshort]

theorem entry_iff :
    v.entry dir name = .ok i ↔ name.length ≤ Lookup.nameLimit ∧ v.child? dir name = some i := by
  rw [entry, bind_eq_ok]
  simp only [entry?_iff]
  constructor
  · rintro ⟨found, ⟨hname, hchild⟩, h⟩
    cases found with
    | none => cases h
    | some j =>
      cases h
      exact ⟨hname, hchild⟩
  · rintro ⟨hname, hchild⟩
    exact ⟨some i, ⟨hname, hchild⟩, rfl⟩

theorem placeOf_eq_node_iff : v.placeOf dir name = .node i ↔ v.child? dir name = some i := by
  rw [placeOf]
  cases v.child? dir name <;> simp

theorem find_iff {follow : Bool} {l : Locator} :
    v.find start follow l = .ok i ↔ v.locate ⟨true, follow, false⟩ start l = .ok (.node i) := by
  constructor
  · intro h
    obtain ⟨place, hplace, h⟩ := bind_eq_ok.mp h
    cases place with
    | vacant => cases h
    | node j =>
      cases h
      exact hplace
  · intro h
    rw [find, h]
    rfl

/-- What a path names without following its last name is the entry under that name, as long as the
path is not too long as a whole. -/
theorem find_last_iff (hstart : v.isDirectory start = true) :
    v.find start false ⟨front ++ [last], false⟩ = .ok i ↔
      (Locator.mk (front ++ [last]) false).textLength ≤ Lookup.pathLimit ∧
        ∃ d, v.walkTo start front = .ok d ∧ v.entry d last = .ok i := by
  rw [find_iff, locate_last_iff hstart]
  simp only [entry_iff, ← placeOf_eq_node_iff, eq_comm (a := Place.node i)]

/-! ## Paths with their last name apart -/

/-- The last of some names, and the directory that the names before it lead to. -/
def NamesIn (v : Volume) (start : Ino) (names : List Name) (dir : Ino) (name : Name) : Prop :=
  ∃ front, names = front ++ [name] ∧ v.walkTo start front = .ok dir

theorem namesIn_append_iff :
    v.NamesIn start (front ++ [last]) dir name ↔ name = last ∧ v.walkTo start front = .ok dir := by
  constructor
  · rintro ⟨front', hfront, hdir⟩
    obtain ⟨rfl, hname⟩ := List.append_inj' hfront rfl
    exact ⟨(List.cons.inj hname).1.symm, hdir⟩
  · rintro ⟨rfl, hdir⟩
    exact ⟨front, rfl, hdir⟩

theorem NamesIn.ne_nil (h : v.NamesIn start names dir name) : names ≠ [] := by
  obtain ⟨front, rfl, -⟩ := h
  simp

theorem parentOf_bind_iff {α : Type} {next : Ino × Name → Except HostError α} {a : α} :
    (v.parentOf start (front ++ [last]) last >>= next) = .ok a ↔
      ∃ dir, v.walkTo start front = .ok dir ∧ next (dir, last) = .ok a := by
  rw [parentOf, List.dropLast_concat, bind_eq_ok]
  simp only [map_eq_ok]
  constructor
  · rintro ⟨_, ⟨dir, hdir, rfl⟩, h⟩
    exact ⟨dir, hdir, h⟩
  · rintro ⟨dir, hdir, h⟩
    exact ⟨_, ⟨dir, hdir, rfl⟩, h⟩

end Volume

/-- The last name of a guest's path, and the directory that the names before it lead to.  Whatever
the name stands for there is not followed. -/
def World.Names (w : World) (dirfd : Nat) (path : String) (dir : Ino) (name : Name) : Prop :=
  ∃ r, w.resolve dirfd path = .ok r ∧ w.volume.NamesIn r.preopen.root r.names dir name

theorem World.Names.unique {w : World} {dirfd : Nat} {path : String} {dir dir' : Ino}
    {name name' : Name} (h : w.Names dirfd path dir name) (h' : w.Names dirfd path dir' name') :
    dir = dir' ∧ name = name' := by
  obtain ⟨r, hr, front, hfront, hdir⟩ := h
  obtain ⟨r', hr', hnames'⟩ := h'
  cases hr.symm.trans hr'
  rw [hfront, Volume.namesIn_append_iff] at hnames'
  exact ⟨Except.ok.inj (hdir.symm.trans hnames'.2), hnames'.1.symm⟩

end Hostcall
