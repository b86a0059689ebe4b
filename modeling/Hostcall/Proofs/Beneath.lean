import Hostcall.Proofs.Outcome
import Hostcall.Proofs.Volume

/-!
# Lookups stay beneath their start

A lookup that is held beneath its start ends in a node that lies there, or in a free name
of a directory that does.  So every operation on a path edits what lies beneath its start
and nothing else.

* `Lookup.scan_within`, `Lookup.walk_within` and `Volume.locate_within` are that fact for
  the reader of components, for the reader that follows links, and for a whole path;
* the lemmas on the operations give the `Volume.Edit` that each of them makes.
-/

namespace Hostcall

/-- A lookup ends in a set of nodes. -/
def Place.Within (v : Volume) (P : Ino → Prop) : Place → Prop
  | .node i => P i
  | .vacant dir name => P dir ∧ v.child? dir name = none

namespace Lookup

variable {v : Volume} {mode : Mode} {P : Ino → Prop}

/-- Reading components never leaves a closed set: the only way up is to a directory that
was passed on the way down, and the answer for a link is the reader's that goes on
behind it. -/
theorem scan_within {onLink : Ino → List Ino → Route → Answer} (hmode : mode.beneath = true)
    (hP : v.Closed P)
    (hlink : ∀ dir above route place, P dir → (∀ a ∈ above, P a) →
      onLink dir above route = .ok place → place.Within v P)
    {components : List Component} {dir : Ino} {above : List Ino} {slashed : Bool} {place : Place}
    (hdir : P dir) (habove : ∀ a ∈ above, P a)
    (h : scan v mode onLink dir above components slashed = .ok place) : place.Within v P := by
  induction components generalizing dir above with
  | nil =>
    cases h
    exact hdir
  | cons component rest ih =>
    cases component with
    | current => exact ih hdir habove h
    | root =>
      -- held beneath its start, the reader refuses to begin again at the top
      rw [scan, if_pos hmode] at h
      cases h
    | parent =>
      cases above with
      | nil =>
        -- nothing was passed on the way down, so this would leave the start
        rw [scan, if_pos hmode] at h
        cases h
      | cons parent above =>
        exact ih (habove parent List.mem_cons_self)
          (fun a ha => habove a (List.mem_cons_of_mem _ ha)) h
    | name name =>
      rw [scan] at h
      split at h
      case isTrue => cases h
      case isFalse =>
        split at h
        case isTrue => cases h
        case isFalse =>
          split at h
          case h_1 hchild =>
            split at h
            · cases h
              exact ⟨hdir, hchild⟩
            · cases h
          case h_2 i hchild =>
            -- a name leads to a node that is listed, whatever its kind
            have hi : P i := hP _ _ hdir ⟨name, Volume.mem_entries_of_child? hchild⟩
            split at h
            case h_1 =>
              refine ih hi (fun a ha => ?_) h
              rcases List.mem_cons.mp ha with rfl | ha
              · exact hdir
              · exact habove a ha
            case h_2 =>
              split at h
              · cases h
                exact hi
              · exact hlink _ _ _ _ hdir habove h
            case h_3 =>
              split at h
              · cases h
                exact hi
              · cases h

theorem walk_within (hmode : mode.beneath = true) (hP : v.Closed P) {budget : Nat} {dir : Ino}
    {above : List Ino} {route : Route} {place : Place} (hdir : P dir) (habove : ∀ a ∈ above, P a)
    (h : walk v mode budget dir above route = .ok place) : place.Within v P := by
  induction budget generalizing dir above route place with
  | zero => exact scan_within hmode hP (by intros; contradiction) hdir habove h
  | succ budget ih =>
    exact scan_within hmode hP (fun _ _ _ _ hdir habove hlink => ih hdir habove hlink) hdir habove h

end Lookup

namespace Volume

variable {v : Volume} {P : Ino → Prop} {start : Ino}

theorem locate_within {mode : Lookup.Mode} (hmode : mode.beneath = true) (hP : v.Closed P)
    (hstart : P start) {l : Locator} {place : Place} (h : v.locate mode start l = .ok place) :
    place.Within v P := by
  rw [locate] at h
  split at h
  · cases h
  · exact Lookup.walk_within hmode hP hstart (by simp) h

/-! ## Opening -/

/-- A change of contents keeps a node of its kind what it is. -/
theorem fileType_eq_of_file {i : Ino} {c : Content} (h : v.body i = .file c) (c' : Content) :
    (Body.file c').fileType = (v.body i).fileType := by
  rw [h]
  rfl

theorem fileType_eq_of_fifo {i : Ino} {q : Fifo} (h : v.body i = .fifo q) (q' : Fifo) :
    (Body.fifo q').fileType = (v.body i).fileType := by
  rw [h]
  rfl

theorem openExisting_edit {i : Ino} (hi : P i) (r : OpenRequest) (ends : Ends) :
    v.Edit P (v.openExisting r ends i) := by
  rw [openExisting]
  split
  case h_1 hbody =>
    split
    · exact .rewrite hi (fileType_eq_of_file hbody _) rfl
    · exact .same
  case h_2 hbody =>
    split
    · exact .refill hi (fileType_eq_of_fifo hbody _) rfl
    · exact .same
  case h_3 => exact .same

/-- What is opened lies where the lookup ended, or is new. -/
theorem openPlace_edit {ends : Ino → Ends} {r : OpenRequest} {place : Place} {i : Ino} {v' : Volume}
    (hplace : place.Within v P) (h : v.openPlace ends r place = .ok (i, v')) :
    v.Edit P v' ∧ (P i ∨ i = v.nodes.size) := by
  cases place with
  | node j =>
    obtain ⟨_, -, h⟩ := bind_eq_ok.mp h
    cases h
    exact ⟨openExisting_edit hplace r _, .inl hplace⟩
  | vacant dir name =>
    simp only [openPlace] at h
    split at h
    · cases h
      exact ⟨.create hplace.1 hplace.2 (.inr rfl), .inr rfl⟩
    · cases h

theorem openFile_edit (hP : v.Closed P) (hstart : P start) {ends : Ino → Ends} {l : Locator}
    {r : OpenRequest} {i : Ino} {v' : Volume} (h : v.openFile ends start l r = .ok (i, v')) :
    v.Edit P v' ∧ (P i ∨ i = v.nodes.size) := by
  obtain ⟨_, -, h⟩ := bind_eq_ok.mp h
  obtain ⟨place, hplace, h⟩ := bind_eq_ok.mp h
  exact openPlace_edit (locate_within rfl hP hstart hplace) h

/-- Opening for writing creates nothing and empties nothing. -/
theorem openFile_forWriting (hP : v.Closed P) (hstart : P start) {ends : Ino → Ends} {l : Locator}
    {i : Ino} {v' : Volume} (h : v.openFile ends start l .forWriting = .ok (i, v')) :
    v' = v ∧ P i := by
  obtain ⟨_, -, h⟩ := bind_eq_ok.mp h
  obtain ⟨place, hplace, h⟩ := bind_eq_ok.mp h
  have hwithin := locate_within rfl hP hstart hplace
  cases place with
  | vacant dir name => cases h
  | node j =>
    obtain ⟨_, hpermits, h⟩ := bind_eq_ok.mp h
    cases h
    refine ⟨?_, hwithin⟩
    rw [openExisting]
    split
    case h_1 => rfl
    case h_2 q hbody =>
      -- a pipe that nobody holds has no reader, and is not opened
      split
      case isFalse => rfl
      case isTrue hends =>
        rw [hbody, hends] at hpermits
        cases hpermits
    case h_3 => rfl

theorem openDirectory_within (hP : v.Closed P) (hstart : P start) {follow : Bool} {l : Locator}
    {i : Ino} (h : v.openDirectory start follow l = .ok i) : P i := by
  obtain ⟨place, hplace, h⟩ := bind_eq_ok.mp h
  have hwithin := locate_within rfl hP hstart hplace
  cases place with
  | vacant dir name => cases h
  | node j =>
    simp only [directoryAt] at h
    split at h
    · cases h
      exact hwithin
    · cases h

theorem find_within (hP : v.Closed P) (hstart : P start) {follow : Bool} {l : Locator} {i : Ino}
    (h : v.find start follow l = .ok i) : P i := by
  obtain ⟨place, hplace, h⟩ := bind_eq_ok.mp h
  have hwithin := locate_within rfl hP hstart hplace
  cases place with
  | vacant dir name => cases h
  | node j =>
    cases h
    exact hwithin

/-! ## Entries -/

theorem parentOf_within (hP : v.Closed P) (hstart : P start) {names : List Name} {last name : Name}
    {dir : Ino} (h : v.parentOf start names last = .ok (dir, name)) : P dir := by
  obtain ⟨j, hj, h⟩ := map_eq_ok.mp h
  cases h
  rw [walkTo] at hj
  split at hj
  · cases hj
    exact hstart
  · exact openDirectory_within hP hstart hj

theorem entry?_eq_ok {dir : Ino} {name : Name} {found : Option Ino}
    (h : v.entry? dir name = .ok found) : v.child? dir name = found := by
  unfold entry? at h
  split at h
  · cases h
  · cases h
    rfl

theorem entry_eq_ok {dir i : Ino} {name : Name} (h : v.entry dir name = .ok i) :
    v.child? dir name = some i := by
  obtain ⟨found, hfound, h⟩ := bind_eq_ok.mp h
  rw [entry?_eq_ok hfound]
  cases found with
  | none => cases h
  | some j =>
    cases h
    rfl

theorem makeDirectory_edit (hP : v.Closed P) (hstart : P start) {names : List Name} {v' : Volume}
    (h : v.makeDirectory start names = .ok v') : v.Edit P v' := by
  rw [makeDirectory] at h
  split at h
  case h_1 => cases h
  case h_2 last hlast =>
    obtain ⟨⟨dir, name⟩, hdir, h⟩ := bind_eq_ok.mp h
    obtain ⟨found, hfound, h⟩ := bind_eq_ok.mp h
    have hchild := entry?_eq_ok hfound
    cases found with
    | some i => cases h
    | none =>
      simp only at h
      split at h
      · cases h
      · cases h
        exact .create (parentOf_within hP hstart hdir) hchild (.inl rfl)

theorem removeDirectory_edit (hP : v.Closed P) (hstart : P start) {names : List Name} {v' : Volume}
    (h : v.removeDirectory start names = .ok v') : v.Edit P v' := by
  rw [removeDirectory] at h
  split at h
  case h_1 => cases h
  case h_2 last hlast =>
    obtain ⟨⟨dir, name⟩, hdir, h⟩ := bind_eq_ok.mp h
    obtain ⟨i, hi, h⟩ := bind_eq_ok.mp h
    split at h
    · cases h
      exact .unbind (parentOf_within hP hstart hdir) (entry_eq_ok hi)
    · cases h
    · cases h

theorem unlink_edit (hP : v.Closed P) (hstart : P start) {names : List Name} {v' : Volume}
    (h : v.unlink start names = .ok v') : v.Edit P v' := by
  rw [unlink] at h
  split at h
  case h_1 => cases h
  case h_2 last hlast =>
    obtain ⟨⟨dir, name⟩, hdir, h⟩ := bind_eq_ok.mp h
    obtain ⟨i, hi, h⟩ := bind_eq_ok.mp h
    split at h
    · cases h
    · cases h
      exact .unbind (parentOf_within hP hstart hdir) (entry_eq_ok hi)

/-! ## Times -/

theorem setTimesAt_edit (hP : v.Closed P) (hstart : P start) {ends : Ino → Ends} {l : Locator}
    {u : TimeUpdates} {v' : Volume} (h : v.setTimesAt ends start l u = .ok v') : v.Edit P v' := by
  rw [setTimesAt] at h
  split at h
  case h_1 i opened hopen =>
    cases h
    obtain ⟨rfl, hi⟩ := openFile_forWriting hP hstart hopen
    exact .times hi
  case h_2 =>
    -- a directory is never opened for writing, and is looked up instead
    obtain ⟨i, hi, h⟩ := map_eq_ok.mp h
    cases h
    exact .times (find_within hP hstart hi)
  case h_3 => cases h

theorem setLinkTimes_edit (hP : v.Closed P) (hstart : P start) {l : Locator} {u : TimeUpdates}
    {v' : Volume} (h : v.setLinkTimes start l u = .ok v') : v.Edit P v' := by
  rw [setLinkTimes] at h
  split at h
  case h_1 =>
    cases h
    exact .times hstart
  case h_2 last hlast =>
    split at h
    · obtain ⟨i, hi, h⟩ := bind_eq_ok.mp h
      cases h
      exact .times (openDirectory_within hP hstart hi)
    · obtain ⟨⟨dir, name⟩, hdir, h⟩ := bind_eq_ok.mp h
      simp only at h
      split at h
      · cases h
        exact .same
      · obtain ⟨i, hi, h⟩ := bind_eq_ok.mp h
        cases h
        exact .times (hP _ _ (parentOf_within hP hstart hdir)
          ⟨name, mem_entries_of_child? (entry_eq_ok hi)⟩)

end Volume

/-! ## Open files -/

namespace Handle

variable {v v' : Volume} {P : Ino → Prop} {h h' : Handle}

theorem read_edit (hP : P h.ino) {ends : Ends} {sizes : List Nat} {taken : Bytes}
    (hread : h.read v ends sizes = .ok (taken, h', v')) : v.Edit P v' ∧ h'.ino = h.ino := by
  simp only [read] at hread
  split at hread
  · cases hread
  · split at hread
    · cases hread
      exact ⟨.same, rfl⟩
    · split at hread
      case h_1 =>
        split at hread
        · cases hread
        · cases hread
          exact ⟨.same, rfl⟩
      case h_2 queue hbody =>
        -- a pipe loses what is read
        split at hread
        · cases hread
          exact ⟨.refill hP (Volume.fileType_eq_of_fifo hbody _) rfl, rfl⟩
        · split at hread
          · cases hread
            exact ⟨.same, rfl⟩
          · cases hread
      case h_3 =>
        cases hread
        exact ⟨.same, rfl⟩
      case h_4 => cases hread

theorem write_edit (hP : P h.ino) {ends : Ends} {buffers : List Bytes} {count : Nat}
    (hwrite : h.write v ends buffers = .ok (count, h', v')) : v.Edit P v' ∧ h'.ino = h.ino := by
  simp only [write] at hwrite
  split at hwrite
  · cases hwrite
  · split at hwrite
    · cases hwrite
      exact ⟨.same, rfl⟩
    · split at hwrite
      case h_1 content hbody =>
        split at hwrite
        · cases hwrite
        · split at hwrite
          · cases hwrite
          · cases hwrite
            exact ⟨.rewrite hP (Volume.fileType_eq_of_file hbody _) rfl, rfl⟩
      case h_2 queue hbody =>
        split at hwrite
        · cases hwrite
        · split at hwrite
          · cases hwrite
          · cases hwrite
            exact ⟨.rewrite hP (Volume.fileType_eq_of_fifo hbody _) rfl, rfl⟩
      case h_3 =>
        split at hwrite
        · cases hwrite
        · cases hwrite
          exact ⟨.same, rfl⟩
      case h_4 => cases hwrite

theorem writeAt_edit (hP : P h.ino) {buffers : List Bytes} {offset count : Nat}
    (hwrite : h.writeAt v buffers offset = .ok (count, v')) : v.Edit P v' := by
  simp only [writeAt] at hwrite
  split at hwrite
  · cases hwrite
  · split at hwrite
    case h_1 => cases hwrite
    case h_2 =>
      split at hwrite
      · cases hwrite
      · split at hwrite
        · cases hwrite
          exact .same
        · split at hwrite
          · cases hwrite
          · split at hwrite
            case h_1 content hbody =>
              split at hwrite
              · cases hwrite
              · cases hwrite
                exact .rewrite hP (Volume.fileType_eq_of_file hbody _) rfl
            case h_2 =>
              split at hwrite
              · cases hwrite
              · cases hwrite
                exact .same
            case h_3 => cases hwrite

theorem setSize_edit (hP : P h.ino) {size : Nat} (hsize : h.setSize v size = .ok v') :
    v.Edit P v' := by
  rw [setSize] at hsize
  split at hsize
  · cases hsize
  · split at hsize
    case h_1 content hbody =>
      split at hsize
      · cases hsize
        exact .rewrite hP (Volume.fileType_eq_of_file hbody _) rfl
      · cases hsize
    case h_2 => cases hsize

theorem seek_ino {whence : Whence} {offset : Int} {position : Nat}
    (hseek : h.seek v whence offset = .ok (position, h')) : h'.ino = h.ino := by
  rw [seek] at hseek
  split at hseek
  case h_1 => cases hseek
  case h_2 =>
    -- from wherever it is counted, only the position moves
    cases whence <;>
    · simp only at hseek
      split at hseek
      · cases hseek
        rfl
      · cases hseek
  case h_3 =>
    cases hseek
    rfl

end Handle

end Hostcall
