import Hostcall.Proofs.EntryEdits
import Hostcall.Proofs.LastNames

/-!
# What opening does to a file system

A lookup that is about to create a file refuses more than one that is not, and where it ends in a
free name the file is found under the same path afterwards.

* `Lookup.walk_of_creating` compares the two lookups, `Lookup.walk_added` one before and one after;
* `Volume.Opens` lists what an open that succeeds may have found and done, and
  `Volume.openFile_opens` says that there is nothing else;
* `Volume.Opens.keepsDirectories` is that directories are where they were.
-/

namespace Hostcall

/-- What must not exist yet is not opened if it does. -/
theorem OpenRequest.createNew_of_permits {q : OpenRequest} {ends : Ends} {b : Body}
    (h : q.permits ends b = .ok ()) : q.createNew = false := by
  unfold permits at h
  split at h
  · cases h
  case isFalse hnew => simpa using hnew

/-- A directory is not opened to be emptied. -/
theorem OpenRequest.isDirectory_of_permits {q : OpenRequest} {ends : Ends} {b : Body}
    (h : q.permits ends b = .ok ()) (htruncate : q.truncate = true) : b.isDirectory = false := by
  cases b with
  | directory entries =>
    unfold permits at h
    split at h
    · cases h
    split at h
    · cases h
    · simp [htruncate] at h
  | file | link | fifo | socket | device => rfl

theorem Volume.Added.body_of_ne {v v' : Volume} {dir j : Ino} {name : Name} {b : Body}
    (h : v.Added v' dir name b) (hj : j ≠ dir) (hlt : j < v.nodes.size) : v'.body j = v.body j := by
  rw [body, h.node j hj (Nat.ne_of_lt hlt)]
  rfl

namespace Lookup

variable {v v' : Volume} {follow : Bool} {dir d : Ino} {above : List Ino} {budget : Nat}
  {name : Name} {components : List Component} {slashed : Bool} {route : Route} {place : Place}
  {content : Content} {onLink onLink' : Ino → List Ino → Route → Answer}

/-! ## The same lookup without creating -/

theorem scan_of_creating
    (hlink : ∀ d above route place, onLink d above route = .ok place →
      onLink' d above route = .ok place)
    (h : scan v ⟨true, follow, true⟩ onLink d above components slashed = .ok place) :
    scan v ⟨true, follow, false⟩ onLink' d above components slashed = .ok place := by
  induction components generalizing d above with
  | nil => exact h
  | cons component rest ih =>
    cases component with
    | current => exact ih h
    | root =>
      rw [scan, if_pos rfl] at h
      cases h
    | parent =>
      cases above with
      | nil =>
        rw [scan, if_pos rfl] at h
        cases h
      | cons parent above => exact ih h
    | name n =>
      rw [scan] at h ⊢
      split at h
      · cases h
      rw [if_neg (by simp)]
      split at h
      · cases h
      case isFalse hlong =>
        rw [if_neg hlong]
        cases hchild : v.child? d n with
        | none => simpa only [hchild] using h
        | some j =>
          simp only [hchild] at h ⊢
          cases hbody : v.body j with
          | directory entries =>
            simp only [hbody] at h ⊢
            exact ih h
          | link target =>
            simp only [hbody] at h ⊢
            split at h
            case isTrue hend => rwa [if_pos hend]
            case isFalse hend =>
              rw [if_neg hend]
              exact hlink _ _ _ _ h
          | file | fifo | socket | device => simpa only [hbody] using h

/-- A lookup that is about to create and is not refused ends where it would without. -/
theorem walk_of_creating (h : walk v ⟨true, follow, true⟩ budget d above route = .ok place) :
    walk v ⟨true, follow, false⟩ budget d above route = .ok place := by
  induction budget generalizing d above route place with
  | zero => exact scan_of_creating (fun _ _ _ _ hbehind => hbehind) h
  | succ budget ih => exact scan_of_creating (fun _ _ _ _ hbehind => ih hbehind) h

/-! ## The same lookup afterwards -/

section

variable (hadded : v.Added v' dir name (.file content)) (hv : v.Grounded)
include hadded hv

theorem scan_added
    (hlink : ∀ d above route, onLink d above route = .ok (.vacant dir name) →
      onLink' d above route = .ok (.node v.nodes.size))
    (h : scan v ⟨true, follow, true⟩ onLink d above components slashed = .ok (.vacant dir name)) :
    scan v' ⟨true, follow, false⟩ onLink' d above components slashed =
      .ok (.node v.nodes.size) := by
  induction components generalizing d above with
  | nil => cases h
  | cons component rest ih =>
    cases component with
    | current => exact ih h
    | root =>
      rw [scan, if_pos rfl] at h
      cases h
    | parent =>
      cases above with
      | nil =>
        rw [scan, if_pos rfl] at h
        cases h
      | cons parent above => exact ih h
    | name n =>
      rw [scan] at h ⊢
      split at h
      · cases h
      case isFalse hslash =>
        rw [if_neg (by simp)]
        split at h
        · cases h
        case isFalse hlong =>
          rw [if_neg hlong, hadded.child]
          split at h
          case h_1 hchild =>
            split at h
            case isFalse => cases h
            case isTrue hrest =>
              -- here the lookup ended, in the name that the new file has now
              cases h
              have hend : rest = [] ∧ !slashed := ⟨hrest, by simpa [hrest] using hslash⟩
              simp only [and_self, if_true, hadded.new]
              rw [if_pos hend]
          case h_2 j hchild =>
            have hold : ¬ (d = dir ∧ n = name) := by
              rintro ⟨rfl, rfl⟩
              rw [hadded.free] at hchild
              cases hchild
            have hlt : j < v.nodes.size := hv.lt_size d j ⟨n, Volume.mem_entries_of_child? hchild⟩
            simp only [if_neg hold, hchild]
            split at h
            case h_1 hbody =>
              by_cases hj : j = dir
              · simp only [hj, hadded.listing] at h ⊢
                exact ih h
              · simp only [hadded.body_of_ne hj hlt, hbody]
                exact ih h
            case h_2 target hbody =>
              have hj : j ≠ dir := by
                rintro rfl
                have hdirectory := hadded.directory.2
                rw [Volume.isDirectory, hbody] at hdirectory
                cases hdirectory
              simp only [hadded.body_of_ne hj hlt, hbody]
              split at h
              case isTrue => cases h
              case isFalse hend =>
                rw [if_neg hend]
                exact hlink _ _ _ h
            case h_3 => split at h <;> cases h

/-- A lookup that was about to create finds what was created. -/
theorem walk_added
    (h : walk v ⟨true, follow, true⟩ budget d above route = .ok (.vacant dir name)) :
    walk v' ⟨true, follow, false⟩ budget d above route = .ok (.node v.nodes.size) := by
  induction budget generalizing d above route with
  | zero => exact scan_added hadded hv (by intro _ _ _ hbehind; cases hbehind) h
  | succ budget ih => exact scan_added hadded hv (fun _ _ _ hbehind => ih hbehind) h

end

end Lookup

namespace Volume

variable {v v' : Volume} {start dir i : Ino} {name : Name} {l : Locator} {follow creating : Bool}
  {place : Place}

/-- A path that leads to a free name without a link being followed in the last place ends in that
name, with no dot behind it. -/
theorem namesIn_of_vacant {mode : Lookup.Mode} (hmode : mode.beneath = true)
    (hfollow : mode.follow = false) (hstart : v.isDirectory start = true)
    (h : v.locate mode start l = .ok (.vacant dir name)) : v.NamesIn start l.names dir name := by
  obtain ⟨names, dot⟩ := l
  cases dot with
  | true =>
    rw [locate] at h
    split at h
    · cases h
    · exact (Lookup.walk_isDirectory hmode hstart (by simp) (dotted_components names) h).elim
  | false =>
    rcases List.eq_nil_or_concat' names with rfl | ⟨front, last, rfl⟩
    · rw [locate] at h
      split at h
      · cases h
      · cases Lookup.walk_nil.symm.trans h
    · obtain ⟨-, d, hd, -, hplace⟩ := locate_last hmode hfollow hstart h
      rw [placeOf] at hplace
      split at hplace <;> cases hplace
      exact ⟨front, rfl, hd⟩

theorem locate_of_creating (h : v.locate ⟨true, follow, creating⟩ start l = .ok place) :
    v.locate ⟨true, follow, false⟩ start l = .ok place := by
  cases creating with
  | false => exact h
  | true =>
    rw [locate] at h ⊢
    split at h
    · cases h
    case isFalse hlong =>
      rw [if_neg hlong]
      exact Lookup.walk_of_creating h

theorem find_of_locate (h : v.locate ⟨true, follow, creating⟩ start l = .ok (.node i)) :
    v.find start follow l = .ok i :=
  find_iff.mpr (locate_of_creating h)

theorem find_of_vacant (h : v.locate ⟨true, follow, creating⟩ start l = .ok (.vacant dir name)) :
    v.find start follow l = .error .noEntry := by
  rw [find, locate_of_creating h]
  rfl

theorem find_added {content : Content} (hadded : v.Added v' dir name (.file content))
    (hv : v.Grounded) (h : v.locate ⟨true, follow, true⟩ start l = .ok (.vacant dir name)) :
    v'.find start follow l = .ok v.nodes.size := by
  rw [find_iff]
  rw [locate] at h ⊢
  split at h
  · cases h
  case isFalse hlong =>
    rw [if_neg hlong]
    exact Lookup.walk_added hadded hv h

/-! ## Everything an open may do -/

/-- What an open that succeeded found at the end of its path, and what it did to it: it let be what
was there, dropped what was left in a named pipe that nobody held, emptied a file, or created one
under a free name. -/
inductive Opens (v : Volume) (ends : Ino → Ends) (start : Ino) (l : Locator) (q : OpenRequest)
    (i : Ino) : Volume → Prop where
  | found (hfind : v.find start q.follow l = .ok i)
      (hpermits : q.permits (ends i) (v.body i) = .ok ())
      (hkept : ∀ c, v.body i = .file c → q.empties = false)
      (hheld : ∀ p, v.body i = .fifo p → ends i ≠ ⟨0, 0⟩) : Opens v ends start l q i v
  | drained {p : Fifo} (hfind : v.find start q.follow l = .ok i)
      (hpermits : q.permits (ends i) (v.body i) = .ok ()) (hbody : v.body i = .fifo p)
      (hends : ends i = ⟨0, 0⟩) : Opens v ends start l q i (v.setBody i (.fifo .empty))
  | emptied {c : Content} (hfind : v.find start q.follow l = .ok i)
      (hpermits : q.permits (ends i) (v.body i) = .ok ()) (hbody : v.body i = .file c)
      (hempties : q.empties = true) : Opens v ends start l q i (v.replaceBody i (.file .empty))
  | created {dir : Ino} {name : Name} (hcreates : q.creates = true)
      (hlocate : v.locate (q.mode true) start l = .ok (.vacant dir name))
      (hdir : v.HasDirectory dir) (hname : v.child? dir name = none) (hi : i = v.nodes.size) :
      Opens v ends start l q i (v.create dir name (.file .empty)).2

variable {ends : Ino → Ends} {q : OpenRequest}

theorem opens_openExisting (hfind : v.find start q.follow l = .ok i)
    (hpermits : q.permits (ends i) (v.body i) = .ok ()) :
    v.Opens ends start l q i (v.openExisting q (ends i) i) := by
  rw [openExisting]
  cases hbody : v.body i with
  | directory _ | link _ | socket | device _ =>
    exact .found hfind hpermits (by simp [hbody]) (by simp [hbody])
  | file c =>
    dsimp only
    split
    case isTrue hempties => exact .emptied hfind hpermits hbody hempties
    case isFalse hkept =>
      exact .found hfind hpermits (fun _ _ => by simpa using hkept) (by simp [hbody])
  | fifo p =>
    dsimp only
    split
    case isTrue hends => exact .drained hfind hpermits hbody hends
    case isFalse hheld => exact .found hfind hpermits (by simp [hbody]) (fun _ _ => hheld)

theorem openFile_opens (hv : v.Grounded) (hstart : v.HasDirectory start)
    (h : v.openFile ends start l q = .ok (i, v')) : v.Opens ends start l q i v' := by
  obtain ⟨_, -, h⟩ := bind_eq_ok.mp h
  obtain ⟨place, hplace, h⟩ := bind_eq_ok.mp h
  cases place with
  | node j =>
    obtain ⟨_, hpermits, h⟩ := bind_eq_ok.mp h
    cases h
    have hmode : q.mode true = ⟨true, q.follow, q.creates⟩ := by
      simp [OpenRequest.mode, OpenRequest.createNew_of_permits hpermits]
    rw [hmode] at hplace
    exact opens_openExisting (find_of_locate hplace) hpermits
  | vacant dir name =>
    simp only [openPlace] at h
    split at h
    case isTrue hcan =>
      cases h
      obtain ⟨hlt, hfree⟩ := locate_within rfl hv.closed hstart.1 hplace
      have hdir : v.isDirectory dir = true := locate_vacant rfl hstart.2 hplace
      exact .created (Bool.and_elim_left hcan) hplace ⟨hlt, hdir⟩ hfree rfl
    case isFalse => cases h

theorem Opens.isDirectory_of_truncate (h : v.Opens ends start l q i v')
    (htruncate : q.truncate = true) : v'.isDirectory i = false := by
  cases h with
  | found _ hpermits =>
    rw [isDirectory]
    exact OpenRequest.isDirectory_of_permits hpermits htruncate
  | drained _ _ hbody =>
    rw [isDirectory, body_setBody]
    split
    · rfl
    · rw [hbody]
      rfl
  | emptied _ _ hbody =>
    rw [isDirectory, body_replaceBody]
    split
    · rfl
    · rw [hbody]
      rfl
  | created _ _ hdir _ hi =>
    rw [isDirectory, hi, body_create_self hdir.1]
    rfl

/-! ## Directories are left alone -/

/-- The directories are the same, and each of them is found where it was. -/
structure KeepsDirectories (v v' : Volume) : Prop where
  directory : ∀ i, v'.HasDirectory i ↔ v.HasDirectory i
  child : ∀ i, v.HasDirectory i → ∀ dir name,
    v'.child? dir name = some i ↔ v.child? dir name = some i

theorem KeepsDirectories.refl (v : Volume) : v.KeepsDirectories v :=
  ⟨fun _ => Iff.rfl, fun _ _ _ _ => Iff.rfl⟩

theorem Added.keepsDirectories {content : Content} (h : v.Added v' dir name (.file content)) :
    v.KeepsDirectories v' where
  directory := by
    intro i
    rw [HasDirectory, HasDirectory, h.size]
    by_cases hnew : i = v.nodes.size
    · -- the new node is a file
      rw [hnew, isDirectory, h.new]
      simp [Body.isDirectory]
    · by_cases hi : i = dir
      · rw [hi, isDirectory, h.listing]
        exact iff_of_true ⟨Nat.lt_succ_of_lt h.directory.1, rfl⟩ h.directory
      · have hlt : i < v.nodes.size + 1 ↔ i < v.nodes.size :=
          ⟨fun hle => Nat.lt_of_le_of_ne (Nat.lt_succ_iff.mp hle) hnew, Nat.lt_succ_of_lt⟩
        rw [hlt, isDirectory, body, h.node i hi hnew]
        rfl
  child := by
    intro i hi d n
    rw [h.child]
    split
    case isTrue hname =>
      rw [hname.1, hname.2, h.free]
      simp [Nat.ne_of_gt hi.1]
    case isFalse => rfl

/-- Neither are they where another body of the same kind is put. -/
theorem keepsDirectories_of_body {b : Body} (hsize : v'.nodes.size = v.nodes.size)
    (hbody : ∀ j, v'.body j = if j = i ∧ i < v.nodes.size then b else v.body j)
    (hkind : b.fileType = (v.body i).fileType) (hb : b.isDirectory = false) :
    v.KeepsDirectories v' where
  directory := by
    intro j
    rw [HasDirectory, HasDirectory, hsize, isDirectory, hbody]
    split
    case isTrue hj => rw [isDirectory_eq_of_fileType hkind, hj.1]
    case isFalse => rfl
  child := by
    intro j _ d n
    have hentries : v'.entries d = v.entries d := by
      rw [entries, hbody]
      split
      case isTrue hd => rw [entries_eq_of_kind hkind hb, hd.1]
      case isFalse => rfl
    rw [child?, child?, hentries]

theorem Opens.keepsDirectories (h : v.Opens ends start l q i v') : v.KeepsDirectories v' := by
  cases h with
  | found => exact .refl v
  | drained _ _ hbody =>
    exact keepsDirectories_of_body (size_setBody v i _) (body_setBody v i _)
      (fileType_eq_of_fifo hbody _) rfl
  | emptied _ _ hbody =>
    exact keepsDirectories_of_body (size_replaceBody v i _) (body_replaceBody v i _)
      (fileType_eq_of_file hbody _) rfl
  | created _ _ hdir hname => exact (added_create hdir hname rfl).keepsDirectories

end Volume

end Hostcall
