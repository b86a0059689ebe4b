import Hostcall.Proofs.Evolution

/-!
# Trails of lookups

A lookup that ends in a directory goes through names, each of which leads from a directory to an
entry of it: to a directory it goes on in, or to a link whose target it reads next.

* `Hop` is one such name, and `Volume.Leads` is the way of a lookup with its trail of hops;
* `Lookup.walk_leads` finds the trail of a lookup, `Volume.Leads.walk_follow` and
  `Volume.Leads.walk_nofollow` are the lookups along a trail;
* `Volume.Leads.later` is that a way stays open for as long as its trail stands.
-/

namespace Hostcall

/-- A name that a lookup goes through, with the directory it is read in and the node it leads
to. -/
structure Hop where
  dir : Ino
  name : Name
  node : Ino
  /-- Nothing is left to be read behind the name. -/
  last : Bool

namespace Volume

/-- Components lead to a directory along a trail.  They are read from another directory, whose
ancestors are given with the nearest first, and at most so many links are followed. -/
inductive Leads (v : Volume) (i : Ino) :
    Nat → Ino → List Ino → List Component → List Hop → Prop where
  | here {budget : Nat} {above : List Ino} : Leads v i budget i above [] []
  | current {budget : Nat} {dir : Ino} {above : List Ino} {rest : List Component}
      {trail : List Hop} (h : Leads v i budget dir above rest trail) :
      Leads v i budget dir above (.current :: rest) trail
  | parent {budget : Nat} {dir parent : Ino} {above : List Ino} {rest : List Component}
      {trail : List Hop} (h : Leads v i budget parent above rest trail) :
      Leads v i budget dir (parent :: above) (.parent :: rest) trail
  | down {budget : Nat} {dir j : Ino} {above : List Ino} {name : Name} {rest : List Component}
      {trail : List Hop} (hname : name.length ≤ Lookup.nameLimit)
      (hchild : v.child? dir name = some j) (hbody : v.isDirectory j = true)
      (h : Leads v i budget j (dir :: above) rest trail) :
      Leads v i budget dir above (.name name :: rest) (⟨dir, name, j, rest.isEmpty⟩ :: trail)
  | through {budget : Nat} {dir j : Ino} {above : List Ino} {name : Name} {target : Bytes}
      {rest : List Component} {trail : List Hop} (hname : name.length ≤ Lookup.nameLimit)
      (hchild : v.child? dir name = some j) (hbody : v.body j = .link target)
      (h : Leads v i budget dir above (components target ++ rest) trail) :
      Leads v i (budget + 1) dir above (.name name :: rest) (⟨dir, name, j, rest.isEmpty⟩ :: trail)

/-- Whether every name of a trail still leads where it led. -/
def Stands (v : Volume) (trail : List Hop) : Prop :=
  ∀ hop ∈ trail, v.child? hop.dir hop.name = some hop.node

end Volume

/-! ## Steps of a lookup -/

namespace Lookup

variable {v : Volume} {mode : Mode} {i dir j : Ino} {above : List Ino} {budget : Nat}
  {name : Name} {rest : List Component} {slashed : Bool}

/-- What goes on behind a link, if links may still be followed. -/
def behind (v : Volume) (mode : Mode) : Nat → Ino → List Ino → Route → Answer
  | 0, _, _, _ => .error .symlinkLoop
  | budget + 1, dir, above, route => walk v mode budget dir above route

theorem walk_eq (v : Volume) (mode : Mode) (budget : Nat) (dir : Ino) (above : List Ino)
    (route : Route) :
    walk v mode budget dir above route =
      scan v mode (behind v mode budget) dir above route.components route.slashed := by
  cases budget <;> rfl

theorem walk_nil : walk v mode budget dir above ⟨[], slashed⟩ = .ok (.node dir) := by
  rw [walk_eq, scan]

theorem walk_current :
    walk v mode budget dir above ⟨.current :: rest, slashed⟩ =
      walk v mode budget dir above ⟨rest, slashed⟩ := by
  rw [walk_eq, walk_eq, scan]

theorem walk_parent {parent : Ino} :
    walk v mode budget dir (parent :: above) ⟨.parent :: rest, slashed⟩ =
      walk v mode budget parent above ⟨rest, slashed⟩ := by
  rw [walk_eq, walk_eq, scan]

section

variable (hmode : mode.creating = false) (hname : name.length ≤ nameLimit)
  (hchild : v.child? dir name = some j)
include hmode hname hchild

theorem walk_directory (hbody : v.isDirectory j = true) :
    walk v mode budget dir above ⟨.name name :: rest, slashed⟩ =
      walk v mode budget j (dir :: above) ⟨rest, slashed⟩ := by
  obtain ⟨entries, hentries⟩ := Volume.exists_directory hbody
  rw [walk_eq, walk_eq, scan]
  simp [hmode, Nat.not_lt.mpr hname, hchild, hentries]

theorem walk_link {target : Bytes} (hbody : v.body j = .link target)
    (hfollow : rest = [] → slashed = false → mode.follow = true) :
    walk v mode (budget + 1) dir above ⟨.name name :: rest, slashed⟩ =
      walk v mode budget dir above (.through target rest slashed) := by
  have hgoes : ¬ (rest = [] ∧ !slashed ∧ !mode.follow) := by
    rintro ⟨hrest, hslashed, hnot⟩
    simp [hfollow hrest (by simpa using hslashed)] at hnot
  rw [walk_eq, scan, if_neg (by simp [hmode]), if_neg (Nat.not_lt.mpr hname)]
  simp only [hchild, hbody]
  rw [if_neg hgoes, behind]

/-- A link in the last place that is not followed is where the lookup ends. -/
theorem walk_last_link {target : Bytes} (hbody : v.body j = .link target)
    (hfollow : mode.follow = false) :
    walk v mode budget dir above ⟨[.name name], false⟩ = .ok (.node j) := by
  rw [walk_eq, scan]
  simp [hmode, Nat.not_lt.mpr hname, hchild, hbody, hfollow]

end

/-! ## The trail of a lookup -/

theorem scan_leads {onLink : Ino → List Ino → Route → Answer} (hmode : mode.beneath = true)
    (hi : v.isDirectory i = true)
    (hlink : ∀ dir above route, onLink dir above route = .ok (.node i) →
      ∃ less trail, budget = less + 1 ∧ v.Leads i less dir above route.components trail)
    {components : List Component} {dir : Ino} {above : List Ino} {slashed : Bool}
    (h : scan v mode onLink dir above components slashed = .ok (.node i)) :
    ∃ trail, v.Leads i budget dir above components trail := by
  -- a lookup cannot end in a node that is no directory
  have hnot : ∀ {j : Ino}, v.isDirectory j = false → j ≠ i := by
    rintro j hj rfl
    rw [hi] at hj
    cases hj
  induction components generalizing dir above with
  | nil =>
    cases h
    exact ⟨[], .here⟩
  | cons component rest ih =>
    cases component with
    | current =>
      obtain ⟨trail, htrail⟩ := ih h
      exact ⟨trail, .current htrail⟩
    | root =>
      rw [scan, if_pos hmode] at h
      cases h
    | parent =>
      cases above with
      | nil =>
        rw [scan, if_pos hmode] at h
        cases h
      | cons parent above =>
        obtain ⟨trail, htrail⟩ := ih h
        exact ⟨trail, .parent htrail⟩
    | name name =>
      rw [scan] at h
      split at h
      · cases h
      split at h
      · cases h
      case isFalse hlong =>
        have hname : name.length ≤ nameLimit := Nat.not_lt.mp hlong
        split at h
        case h_1 => split at h <;> cases h
        case h_2 j hchild =>
          split at h
          case h_1 entries hbody =>
            have hdir : v.isDirectory j = true := by rw [Volume.isDirectory, hbody]; rfl
            obtain ⟨trail, htrail⟩ := ih h
            exact ⟨_, .down hname hchild hdir htrail⟩
          case h_2 target hbody =>
            have hj : v.isDirectory j = false := by rw [Volume.isDirectory, hbody]; rfl
            split at h
            · cases h
              exact absurd rfl (hnot hj)
            · obtain ⟨less, trail, rfl, htrail⟩ := hlink _ _ _ h
              exact ⟨_, .through hname hchild hbody htrail⟩
          case h_3 hdirectory hlink =>
            split at h
            · cases h
              obtain ⟨entries, hentries⟩ := Volume.exists_directory hi
              exact absurd hentries (hdirectory entries)
            · cases h

/-- A lookup beneath its start that ends in a directory goes along a trail. -/
theorem walk_leads (hmode : mode.beneath = true) (hi : v.isDirectory i = true) {route : Route}
    (h : walk v mode budget dir above route = .ok (.node i)) :
    ∃ trail, v.Leads i budget dir above route.components trail := by
  induction budget generalizing dir above route with
  | zero =>
    apply scan_leads hmode hi _ h
    intro dir above route hbehind
    cases hbehind
  | succ budget ih =>
    apply scan_leads hmode hi _ h
    intro dir above route hbehind
    obtain ⟨trail, htrail⟩ := ih hbehind
    exact ⟨budget, trail, rfl, htrail⟩

end Lookup

/-! ## Lookups along a trail -/

namespace Volume

namespace Leads

variable {v v' : Volume} {i dir : Ino} {above : List Ino} {budget : Nat}
  {components : List Component} {trail : List Hop}

theorem stands (h : v.Leads i budget dir above components trail) : v.Stands trail := by
  induction h with
  | here => exact nofun
  | current _ ih | parent _ ih => exact ih
  | down _ hchild _ _ ih | through _ hchild _ _ ih => exact List.forall_mem_cons.mpr ⟨hchild, ih⟩

/-- A way that begins in a closed set ends in it. -/
theorem closed {P : Ino → Prop} (hP : v.Closed P)
    (h : v.Leads i budget dir above components trail) (hdir : P dir) (habove : ∀ a ∈ above, P a) :
    P i := by
  induction h with
  | here => exact hdir
  | current _ ih => exact ih hdir habove
  | parent _ ih =>
    obtain ⟨hparent, hrest⟩ := List.forall_mem_cons.mp habove
    exact ih hparent hrest
  | down _ hchild _ _ ih =>
    have hj := hP _ _ hdir ⟨_, mem_entries_of_child? hchild⟩
    exact ih hj (List.forall_mem_cons.mpr ⟨hdir, habove⟩)
  | through _ _ _ _ ih => exact ih hdir habove

/-- A path to a directory leads there without the dot at its end. -/
theorem dropDot (h : v.Leads i budget dir above (components ++ [.current]) trail) :
    ∃ trail, v.Leads i budget dir above components trail := by
  -- the dot stays behind what links put in front of it, so it is cut off at the very end
  generalize hall : components ++ [.current] = all at h
  induction h generalizing components with
  | here => simp at hall
  | current h ih =>
    cases components with
    | nil =>
      cases hall
      exact ⟨_, h⟩
    | cons _ components =>
      cases hall
      obtain ⟨trail, htrail⟩ := ih rfl
      exact ⟨trail, .current htrail⟩
  | parent h ih =>
    cases components with
    | nil => cases hall
    | cons _ components =>
      cases hall
      obtain ⟨trail, htrail⟩ := ih rfl
      exact ⟨trail, .parent htrail⟩
  | down hname hchild hbody h ih =>
    cases components with
    | nil => cases hall
    | cons _ components =>
      cases hall
      obtain ⟨trail, htrail⟩ := ih rfl
      exact ⟨_, .down hname hchild hbody htrail⟩
  | through hname hchild hbody h ih =>
    cases components with
    | nil => cases hall
    | cons _ components =>
      cases hall
      obtain ⟨trail, htrail⟩ := ih (List.append_assoc ..)
      exact ⟨_, .through hname hchild hbody htrail⟩

/-- A lookup that follows links in the last place goes along the trail to its end. -/
theorem walk_follow (h : v.Leads i budget dir above components trail) {mode : Lookup.Mode}
    (hcreating : mode.creating = false) (hfollow : mode.follow = true) (slashed : Bool) :
    Lookup.walk v mode budget dir above ⟨components, slashed⟩ = .ok (.node i) := by
  induction h generalizing slashed with
  | here => exact Lookup.walk_nil
  | current _ ih => rw [Lookup.walk_current, ih]
  | parent _ ih => rw [Lookup.walk_parent, ih]
  | down hname hchild hbody _ ih => rw [Lookup.walk_directory hcreating hname hchild hbody, ih]
  | through hname hchild hbody _ ih =>
    rw [Lookup.walk_link hcreating hname hchild hbody fun _ _ => hfollow]
    exact ih _

/-- A lookup that does not goes there too, unless a link stands in the last place: it ends in the
link. -/
theorem walk_nofollow (h : v.Leads i budget dir above components trail) {mode : Lookup.Mode}
    (hcreating : mode.creating = false) (hfollow : mode.follow = false) :
    (Lookup.walk v mode budget dir above ⟨components, false⟩ = .ok (.node i) ∧
      ∀ hop, trail.find? Hop.last = some hop → v.isDirectory hop.node = true) ∨
    ∃ hop, trail.find? Hop.last = some hop ∧ (∃ target, v.body hop.node = .link target) ∧
      Lookup.walk v mode budget dir above ⟨components, false⟩ = .ok (.node hop.node) := by
  induction h with
  | here => exact .inl ⟨Lookup.walk_nil, nofun⟩
  | current _ ih => rwa [Lookup.walk_current]
  | parent _ ih => rwa [Lookup.walk_parent]
  | @down _ _ _ _ _ rest trail hname hchild hbody h ih =>
    rw [Lookup.walk_directory hcreating hname hchild hbody]
    by_cases hrest : rest = []
    · subst hrest
      cases h
      exact .inl ⟨Lookup.walk_nil, by simpa using hbody⟩
    · simpa [List.find?_cons, hrest] using ih
  | @through _ _ _ _ _ target rest trail hname hchild hbody _ ih =>
    by_cases hrest : rest = []
    · subst hrest
      refine .inr ⟨_, rfl, ⟨target, hbody⟩, ?_⟩
      exact Lookup.walk_last_link hcreating hname hchild hbody hfollow
    · -- behind a link in the middle what was in the last place still is
      have hroute : Lookup.Route.through target rest false =
          ⟨Hostcall.components target ++ rest, false⟩ := by
        simp [Lookup.Route.through, hrest]
      rw [Lookup.walk_link hcreating hname hchild hbody fun h => absurd h hrest, hroute]
      simpa [List.find?_cons, hrest] using ih

/-- Where nodes have stayed what they are, a trail that stands leads where it led. -/
theorem later {W : Ino → Prop} (h : v.Leads i budget dir above components trail)
    (hv : v.Grounded) (hevolves : v.Evolves W v') (hstands : v'.Stands trail) :
    v'.Leads i budget dir above components trail := by
  -- a hop leads to a node that was there, and those keep their kind and their target
  have hlt : ∀ {dir j : Ino} {name : Name}, v.child? dir name = some j → j < v.nodes.size := by
    intro dir j name hchild
    exact hv.lt_size dir j ⟨name, mem_entries_of_child? hchild⟩
  induction h with
  | here => exact .here
  | current _ ih => exact .current (ih hstands)
  | parent _ ih => exact .parent (ih hstands)
  | down hname hchild hbody _ ih =>
    obtain ⟨hstays, hrest⟩ := List.forall_mem_cons.mp hstands
    rw [← hevolves.isDirectory_eq (hlt hchild)] at hbody
    exact .down hname hstays hbody (ih hrest)
  | through hname hchild hbody _ ih =>
    obtain ⟨hstays, hrest⟩ := List.forall_mem_cons.mp hstands
    have hlink := (hevolves.body _ (hlt hchild)).link hbody
    exact .through hname hstays hlink (ih hrest)

end Leads

/-! ## Attributes along a trail -/

section

variable {v : Volume} {i start : Ino} {names : List Name} {trail : List Hop}
  (h : v.Leads i Lookup.linkBudget start [] (names.map Component.name) trail)
  (hlength : (Locator.mk names false).textLength ≤ Lookup.pathLimit)
include h hlength

theorem stat_of_leads : v.stat start ⟨names, false⟩ = .ok (v.attributes i) := by
  have hlocate : v.locate ⟨true, true, false⟩ start ⟨names, false⟩ = .ok (.node i) := by
    rw [locate, if_neg (Nat.not_lt.mpr hlength), Locator.components, if_neg (by simp),
      List.append_nil]
    exact h.walk_follow rfl rfl false
  rw [stat, find, hlocate]
  rfl

/-- Without a look behind a link in the last place, the attributes are those of the directory or
of a link in that place. -/
theorem statLink_of_leads :
    (v.statLink start ⟨names, false⟩ = .ok (v.attributes i) ∧
      ∀ hop, trail.find? Hop.last = some hop → v.isDirectory hop.node = true) ∨
    ∃ hop, trail.find? Hop.last = some hop ∧ (∃ target, v.body hop.node = .link target) ∧
      v.statLink start ⟨names, false⟩ = .ok (v.attributes hop.node) := by
  rw [statLink]
  split
  case h_1 name hnames =>
    -- a single name is looked at as it stands in the start
    obtain rfl : names = [name] := hnames
    cases h with
    | @down _ _ j _ _ _ _ hname hchild hbody h =>
      have hentry : v.entry start name = .ok j := by
        simp [entry, entry?, Nat.not_lt.mpr hname, hchild]
        rfl
      cases h
      exact .inl ⟨by rw [hentry]; rfl, by simpa using hbody⟩
    | @through _ _ j _ _ target _ _ hname hchild hbody h =>
      have hentry : v.entry start name = .ok j := by
        simp [entry, entry?, Nat.not_lt.mpr hname, hchild]
        rfl
      exact .inr ⟨_, rfl, ⟨target, hbody⟩, by rw [hentry]; rfl⟩
  case h_2 =>
    have hfind : ∀ j, Lookup.walk v ⟨true, false, false⟩ Lookup.linkBudget start []
        ⟨names.map Component.name, false⟩ = .ok (.node j) →
        (v.find start false ⟨names, false⟩).map v.attributes = .ok (v.attributes j) := by
      intro j hj
      rw [find, locate, if_neg (Nat.not_lt.mpr hlength), Locator.components, if_neg (by simp),
        List.append_nil, hj]
      rfl
    have hmode : (Lookup.Mode.mk true false false).creating = false := rfl
    rcases h.walk_nofollow hmode rfl with ⟨hwalk, hlast⟩ | ⟨hop, hlast, hlink, hwalk⟩
    · exact .inl ⟨hfind _ hwalk, hlast⟩
    · exact .inr ⟨hop, hlast, hlink, hfind _ hwalk⟩

end

end Volume

end Hostcall
