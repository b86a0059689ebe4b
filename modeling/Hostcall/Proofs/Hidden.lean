import Hostcall.Host.Entries
import Hostcall.Listing
import Hostcall.Proofs.Alike.Volume

/-!
# Hidden bytes on the host

Two volumes that are the same but for the bytes of hidden files cannot be told apart by any
operation but a read of such a file.

* `Volume.Resembles` compares what nodes are, on which all lookups depend and on nothing else;
* `Volume.Hides` compares the volumes; of a hidden file the size is still the same;
* the lemmas take the operations of the host one by one: what is looked up and told is the
  same, and what is changed still hides.
-/

namespace Hostcall

/-! ## Volumes -/

/-- The same bodies, or files of one size if their bytes are hidden. -/
inductive Body.Hides (hidden : Prop) : Body → Body → Prop where
  | same (b : Body) : Hides hidden b b
  | file {c c' : Content} (h : hidden) (hsize : c'.size = c.size) :
      Hides hidden (.file c) (.file c')

/-- Volumes whose nodes are the same but for the bytes of hidden files, whatever links and times the
nodes have. -/
def Volume.Resembles (H : Ino → Prop) (v v' : Volume) : Prop :=
  ∀ i, (v.body i).Hides (H i) (v'.body i)

/-- Volumes that are the same but for the bytes of hidden files. -/
structure Volume.Hides (H : Ino → Prop) (v v' : Volume) : Prop where
  clock : v'.clock = v.clock
  size : v'.nodes.size = v.nodes.size
  body : ∀ i, (v.body i).Hides (H i) (v'.body i)
  links : ∀ i, (v'.node i).links = (v.node i).links
  accessed : ∀ i, (v'.node i).accessed = (v.node i).accessed
  modified : ∀ i, (v'.node i).modified = (v.node i).modified

namespace Body.Hides

variable {hidden : Prop} {b b' : Body}

theorem entries_eq (h : b.Hides hidden b') : b'.entries = b.entries := by
  cases h <;> rfl

theorem isDirectory_eq (h : b.Hides hidden b') : b'.isDirectory = b.isDirectory := by
  cases h <;> rfl

theorem fileType_eq (h : b.Hides hidden b') : b'.fileType = b.fileType := by
  cases h <;> rfl

theorem size_eq (h : b.Hides hidden b') : b'.size = b.size := by
  cases h with
  | same => rfl
  | file _ hsize => exact hsize

theorem eq_of_not (h : b.Hides hidden b') (hshown : ¬ hidden) : b' = b := by
  cases h with
  | same => rfl
  | file hhidden => exact absurd hhidden hshown

end Body.Hides

namespace Volume.Resembles

variable {H : Ino → Prop} {v v' : Volume}

theorem entries_eq (h : v.Resembles H v') (i : Ino) : v'.entries i = v.entries i :=
  (h i).entries_eq

theorem child?_eq (h : v.Resembles H v') (dir : Ino) (name : Name) :
    v'.child? dir name = v.child? dir name := by
  rw [child?, child?, h.entries_eq]

theorem isDirectory_eq (h : v.Resembles H v') (i : Ino) : v'.isDirectory i = v.isDirectory i :=
  (h i).isDirectory_eq

end Volume.Resembles

namespace Volume.Hides

variable {H : Ino → Prop} {v v' : Volume}

theorem resembles (h : v.Hides H v') : v.Resembles H v' := h.body

theorem isGone_eq (h : v.Hides H v') (i : Ino) : v'.isGone i = v.isGone i := by
  rw [isGone, isGone, h.links]

theorem attributes_eq (h : v.Hides H v') (i : Ino) : v'.attributes i = v.attributes i := by
  have hbody := h.body i
  simp only [attributes, h.links, h.accessed, h.modified]
  rw [show (v'.node i).body.fileType = (v.node i).body.fileType from hbody.fileType_eq,
    show (v'.node i).body.size = (v.node i).body.size from hbody.size_eq]

/-! ### Changes -/

theorem modify (h : v.Hides H v') {f f' : Node → Node} (i : Ino)
    (hbody : ∀ n n' : Node, n.body.Hides (H i) n'.body → (f n).body.Hides (H i) (f' n').body)
    (hrest : ∀ n n' : Node, n'.links = n.links → n'.accessed = n.accessed →
      n'.modified = n.modified → (f' n').links = (f n).links ∧
        (f' n').accessed = (f n).accessed ∧ (f' n').modified = (f n).modified) :
    (v.modify i f).Hides H (v'.modify i f') := by
  refine ⟨h.clock, by rw [size_modify, size_modify, h.size], ?_, ?_, ?_, ?_⟩
  · intro j
    rw [Volume.body, Volume.body, node_modify, node_modify, h.size]
    split
    case isTrue hj =>
      rw [hj.1]
      exact hbody _ _ (h.body i)
    case isFalse => exact h.body j
  all_goals
    intro j
    obtain ⟨hlinks, haccessed, hmodified⟩ :=
      hrest (v.node i) (v'.node i) (h.links i) (h.accessed i) (h.modified i)
    rw [node_modify, node_modify, h.size]
    split
  · exact hlinks
  · exact h.links j
  · exact haccessed
  · exact h.accessed j
  · exact hmodified
  · exact h.modified j

theorem setBody (h : v.Hides H v') {b b' : Body} (hb : b.Hides (H i) b') :
    (v.setBody i b).Hides H (v'.setBody i b') :=
  h.modify i (fun _ _ _ => hb) fun _ _ hlinks haccessed hmodified =>
    ⟨hlinks, haccessed, hmodified⟩

theorem replaceBody (h : v.Hides H v') {b b' : Body} (hb : b.Hides (H i) b') :
    (v.replaceBody i b).Hides H (v'.replaceBody i b') :=
  h.modify i (fun _ _ _ => hb) fun _ _ hlinks haccessed _ => ⟨hlinks, haccessed, h.clock⟩

theorem setTimes (h : v.Hides H v') (i : Ino) (u : TimeUpdates) :
    (v.setTimes i u).Hides H (v'.setTimes i u) := by
  apply h.modify i
  · exact fun _ _ hbody => hbody
  · intro n n' hlinks haccessed hmodified
    exact ⟨hlinks, by rw [h.clock, haccessed], by rw [h.clock, hmodified]⟩

theorem relink (h : v.Hides H v') (i : Ino) (f : Nat → Nat) :
    (v.modify i fun n => { n with links := f n.links }).Hides H
      (v'.modify i fun n => { n with links := f n.links }) := by
  apply h.modify i
  · exact fun _ _ hbody => hbody
  · intro n n' hlinks haccessed hmodified
    exact ⟨by rw [hlinks], haccessed, hmodified⟩

theorem bind (h : v.Hides H v') (dir : Ino) (name : Name) (i : Ino) :
    (v.bind dir name i).Hides H (v'.bind dir name i) := by
  rw [Volume.bind, Volume.bind, h.resembles.entries_eq]
  exact (h.replaceBody (.same _)).relink i (· + 1)

theorem unbind (h : v.Hides H v') (dir : Ino) (name : Name) (i : Ino) :
    (v.unbind dir name i).Hides H (v'.unbind dir name i) := by
  rw [Volume.unbind, Volume.unbind, h.resembles.entries_eq]
  exact (h.replaceBody (.same _)).relink i (· - 1)

theorem push (h : v.Hides H v') {n n' : Node} (hn : n' = n) :
    Volume.Hides H { v with nodes := v.nodes.push n } { v' with nodes := v'.nodes.push n' } := by
  subst hn
  refine ⟨h.clock, by simp [h.size], ?_, ?_, ?_, ?_⟩
  · intro j
    rw [body_push, body_push, h.size]
    split
    · exact .same _
    · exact h.body j
  all_goals
    intro j
    rw [node_push, node_push, h.size]
    split
  · rfl
  · exact h.links j
  · rfl
  · exact h.accessed j
  · rfl
  · exact h.modified j

theorem create (h : v.Hides H v') (dir : Ino) (name : Name) (b : Body) :
    (v.create dir name b).2.Hides H (v'.create dir name b).2 := by
  rw [Volume.create, Volume.create]
  dsimp only
  rw [h.size]
  exact (h.push (by rw [h.clock])).bind dir name _

end Volume.Hides

/-! ## Lookups -/

namespace Lookup

variable {H : Ino → Prop} {v v' : Volume} {mode : Mode}

theorem scan_eq_of_resembles (h : v.Resembles H v') (onLink : Ino → List Ino → Route → Answer)
    (dir : Ino) (above : List Ino) (components : List Component) (slashed : Bool) :
    scan v' mode onLink dir above components slashed =
      scan v mode onLink dir above components slashed := by
  induction components generalizing dir above with
  | nil => rfl
  | cons component rest ih =>
    cases component with
    | root | current => simp only [scan, ih]
    | parent => cases above <;> simp only [scan, ih]
    | name name =>
      simp only [scan, h.child?_eq]
      cases v.child? dir name with
      | none => rfl
      | some i =>
        have hbody := h i
        dsimp only
        generalize v.body i = b at hbody ⊢
        generalize v'.body i = b' at hbody ⊢
        cases hbody with
        | same => simp only [ih]
        | file => rfl

theorem walk_eq_of_resembles (h : v.Resembles H v') (budget : Nat) (dir : Ino) (above : List Ino)
    (route : Route) : walk v' mode budget dir above route = walk v mode budget dir above route := by
  induction budget generalizing dir above route with
  | zero =>
    rw [walk, walk]
    exact scan_eq_of_resembles h _ dir above _ _
  | succ budget ih =>
    have hrest : walk v' mode budget = walk v mode budget := by
      funext dir above route
      exact ih dir above route
    rw [walk, walk, hrest]
    exact scan_eq_of_resembles h _ dir above _ _

end Lookup

namespace Volume.Resembles

variable {H : Ino → Prop} {v v' : Volume}

theorem locate_eq (h : v.Resembles H v') (mode : Lookup.Mode) (start : Ino) (l : Locator) :
    v'.locate mode start l = v.locate mode start l := by
  rw [locate, locate, Lookup.walk_eq_of_resembles h]

theorem directoryAt_eq (h : v.Resembles H v') (place : Place) :
    v'.directoryAt place = v.directoryAt place := by
  cases place with
  | node i => rw [directoryAt, directoryAt, h.isDirectory_eq]
  | vacant => rfl

theorem openDirectory_eq (h : v.Resembles H v') (start : Ino) (follow : Bool) (l : Locator) :
    v'.openDirectory start follow l = v.openDirectory start follow l := by
  simp only [openDirectory, h.locate_eq, h.directoryAt_eq]

theorem find_eq (h : v.Resembles H v') (start : Ino) (follow : Bool) (l : Locator) :
    v'.find start follow l = v.find start follow l := by
  simp only [find, h.locate_eq]

theorem parentOf_eq (h : v.Resembles H v') (start : Ino) (names : List Name) (last : Name) :
    v'.parentOf start names last = v.parentOf start names last := by
  simp only [parentOf, walkTo, h.openDirectory_eq]

theorem entry?_eq (h : v.Resembles H v') (dir : Ino) (name : Name) :
    v'.entry? dir name = v.entry? dir name := by
  simp only [Volume.entry?, h.child?_eq]

theorem entry_eq (h : v.Resembles H v') (dir : Ino) (name : Name) :
    v'.entry dir name = v.entry dir name := by
  simp only [entry, h.entry?_eq]

end Volume.Resembles

/-! ## Attributes -/

namespace Volume.Hides

variable {H : Ino → Prop} {v v' : Volume}

theorem stat_eq (h : v.Hides H v') (start : Ino) (l : Locator) : v'.stat start l = v.stat start l := by
  have hattributes : v'.attributes = v.attributes := funext h.attributes_eq
  rw [stat, stat, h.resembles.find_eq, hattributes]

theorem statLink_eq (h : v.Hides H v') (start : Ino) (l : Locator) :
    v'.statLink start l = v.statLink start l := by
  have hattributes : v'.attributes = v.attributes := funext h.attributes_eq
  simp only [statLink, h.resembles.entry_eq, h.resembles.find_eq, hattributes]

theorem entities_eq (h : v.Hides H v') (dir : Ino) (cookie : Nat) :
    Listing.entities v' dir cookie = Listing.entities v dir cookie := by
  have hentry : Listing.hostEntry v' = Listing.hostEntry v := by
    funext entry next
    simp only [Listing.hostEntry, h.attributes_eq]
  have hdot : Listing.dotEntry v' dir = Listing.dotEntry v dir := by
    funext name next
    simp only [Listing.dotEntry, h.attributes_eq]
  simp only [Listing.entities, Listing.listed, hentry, hdot, h.resembles.entries_eq]

/-! ## Changes by path -/

theorem permits_eq {hidden : Prop} {b b' : Body} (hb : b.Hides hidden b') (r : OpenRequest)
    (ends : Ends) : r.permits ends b' = r.permits ends b := by
  cases hb <;> rfl

theorem openExisting (h : v.Hides H v') (r : OpenRequest) (ends : Ends) (i : Ino) :
    (v.openExisting r ends i).Hides H (v'.openExisting r ends i) := by
  have hbody := h.body i
  rw [Volume.openExisting, Volume.openExisting]
  generalize v.body i = b at hbody ⊢
  generalize v'.body i = b' at hbody ⊢
  cases hbody with
  | same b =>
    cases b with
    | file c =>
      dsimp only
      split
      · exact h.replaceBody (.same _)
      · exact h
    | fifo queue =>
      dsimp only
      split
      · exact h.setBody (.same _)
      · exact h
    | directory | link | socket | device => exact h
  | file =>
    dsimp only
    split
    · exact h.replaceBody (.same _)
    · exact h

/-- An opened node and the volume after that. -/
def OpenedHides (H : Ino → Prop) (o o' : Ino × Volume) : Prop := o'.1 = o.1 ∧ o.2.Hides H o'.2

theorem openPlace (h : v.Hides H v') (ends : Ino → Ends) (r : OpenRequest) (place : Place) :
    Hostcall.Alike (OpenedHides H) (v.openPlace ends r place) (v'.openPlace ends r place) := by
  cases place with
  | node i =>
    rw [Volume.openPlace, Volume.openPlace, permits_eq (h.body i)]
    refine (Hostcall.Alike.refl _).bind fun _ _ _ => ?_
    exact .ok ⟨rfl, h.openExisting r _ i⟩
  | vacant dir name =>
    rw [Volume.openPlace, Volume.openPlace, h.isGone_eq]
    split
    · exact .ok ⟨h.size, h.create dir name _⟩
    · exact .error _

theorem openFile (h : v.Hides H v') (ends : Ino → Ends) (start : Ino) (l : Locator)
    (r : OpenRequest) :
    Hostcall.Alike (OpenedHides H) (v.openFile ends start l r) (v'.openFile ends start l r) := by
  rw [Volume.openFile, Volume.openFile, h.resembles.locate_eq]
  refine (Hostcall.Alike.refl _).bind fun _ _ _ => ?_
  refine (Hostcall.Alike.refl _).bind fun place _ hplace => ?_
  subst hplace
  exact h.openPlace ends r place

/-- What is done in the directory of a name is done alike. -/
theorem parentOf_bind (h : v.Hides H v') (start : Ino) (names : List Name) (last : Name)
    {f f' : Ino × Name → Except HostError Volume}
    (hf : ∀ dir name, Hostcall.Alike (Hides H) (f (dir, name)) (f' (dir, name))) :
    Hostcall.Alike (Hides H) (v.parentOf start names last >>= f) (v'.parentOf start names last >>= f') := by
  rw [h.resembles.parentOf_eq]
  refine (Hostcall.Alike.refl _).bind fun p _ hp => ?_
  subst hp
  exact hf p.1 p.2

theorem makeDirectory (h : v.Hides H v') (start : Ino) (names : List Name) :
    Hostcall.Alike (Hides H) (v.makeDirectory start names) (v'.makeDirectory start names) := by
  rw [Volume.makeDirectory, Volume.makeDirectory]
  split
  · exact .error _
  · refine h.parentOf_bind start names _ fun dir name => ?_
    dsimp only
    rw [h.resembles.entry?_eq]
    refine (Hostcall.Alike.refl _).bind fun found _ hfound => ?_
    subst hfound
    cases found with
    | some => exact .error _
    | none =>
      dsimp only
      rw [h.isGone_eq]
      split
      · exact .error _
      · exact .ok (h.create dir name _)

theorem removeDirectory (h : v.Hides H v') (start : Ino) (names : List Name) :
    Hostcall.Alike (Hides H) (v.removeDirectory start names) (v'.removeDirectory start names) := by
  rw [Volume.removeDirectory, Volume.removeDirectory]
  split
  · exact .error _
  · refine h.parentOf_bind start names _ fun dir name => ?_
    dsimp only
    rw [h.resembles.entry_eq]
    refine (Hostcall.Alike.refl _).bind fun i _ hi => ?_
    subst hi
    have hbody := h.body i
    generalize v.body i = b at hbody ⊢
    generalize v'.body i = b' at hbody ⊢
    cases hbody with
    | file => exact .error _
    | same b =>
      cases b with
      | directory entries =>
        cases entries with
        | nil => exact .ok (h.unbind dir name i)
        | cons => exact .error _
      | file | link | fifo | socket | device => exact .error _

theorem unlink (h : v.Hides H v') (start : Ino) (names : List Name) :
    Hostcall.Alike (Hides H) (v.unlink start names) (v'.unlink start names) := by
  rw [Volume.unlink, Volume.unlink]
  split
  · exact .error _
  · refine h.parentOf_bind start names _ fun dir name => ?_
    dsimp only
    rw [h.resembles.entry_eq]
    refine (Hostcall.Alike.refl _).bind fun i _ hi => ?_
    subst hi
    rw [h.resembles.isDirectory_eq]
    split
    · exact .error _
    · exact .ok (h.unbind dir name i)

theorem setTimesAt (h : v.Hides H v') (ends : Ino → Ends) (start : Ino) (l : Locator)
    (u : TimeUpdates) :
    Hostcall.Alike (Hides H) (v.setTimesAt ends start l u) (v'.setTimesAt ends start l u) := by
  have hopen := h.openFile ends start l .forWriting
  rw [Volume.setTimesAt, Volume.setTimesAt, h.resembles.find_eq]
  generalize v.openFile ends start l .forWriting = opened at hopen ⊢
  generalize v'.openFile ends start l .forWriting = opened' at hopen ⊢
  cases hopen with
  | @ok o o' hopened =>
    dsimp only
    rw [hopened.1]
    exact .ok (hopened.2.setTimes o.1 u)
  | error e =>
    split
    case h_1 heq => cases heq
    case h_2 => exact (Hostcall.Alike.refl _).map fun i _ hi => hi ▸ h.setTimes i u
    case h_3 heq =>
      cases heq
      exact .error _

theorem setLinkTimes (h : v.Hides H v') (start : Ino) (l : Locator) (u : TimeUpdates) :
    Hostcall.Alike (Hides H) (v.setLinkTimes start l u) (v'.setLinkTimes start l u) := by
  rw [Volume.setLinkTimes, Volume.setLinkTimes]
  split
  · exact .ok (h.setTimes start u)
  · split
    · rw [h.resembles.openDirectory_eq]
      exact (Hostcall.Alike.refl _).bind fun i _ hi => hi ▸ .ok (h.setTimes i u)
    · refine h.parentOf_bind start l.names _ fun dir name => ?_
      dsimp only
      split
      · exact .ok h
      · rw [h.resembles.entry_eq]
        exact (Hostcall.Alike.refl _).bind fun i _ hi => hi ▸ .ok (h.setTimes i u)

end Volume.Hides

end Hostcall
