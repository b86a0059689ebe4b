import Hostcall.Host.Entries
import Hostcall.Proofs.Alike.Volume

/-!
# The host on volumes that look alike

A lookup that is held beneath its start sees nothing but what lies there, so on volumes that
look alike every operation of the host gives the same answer and leaves them alike.

* `Lookup.scan_alike`, `Lookup.walk_alike` and `Volume.Alike.locate` follow a path;
* the lemmas behind them take the operations one by one, on paths and on open files.
-/

namespace Hostcall

variable {R : Ino → Ino → Prop}

/-- Lookups that ended alike. -/
inductive Place.Alike (R : Ino → Ino → Prop) : Place → Place → Prop where
  | node {i j : Ino} (h : R i j) : Place.Alike R (.node i) (.node j)
  | vacant {dir dir' : Ino} (h : R dir dir') (name : Name) :
      Place.Alike R (.vacant dir name) (.vacant dir' name)

/-! ## Lookups -/

namespace Lookup

variable {v v' : Volume} {mode : Mode}

theorem scan_alike (h : v.Alike R v') (hmode : mode.beneath = true)
    {onLink onLink' : Ino → List Ino → Route → Answer}
    (hlink : ∀ dir dir' above above' route, R dir dir' → List.Forall₂ R above above' →
      Alike (Place.Alike R) (onLink dir above route) (onLink' dir' above' route))
    {components : List Component} {dir dir' : Ino} {above above' : List Ino} {slashed : Bool}
    (hdir : R dir dir') (habove : List.Forall₂ R above above') :
    Alike (Place.Alike R) (scan v mode onLink dir above components slashed)
      (scan v' mode onLink' dir' above' components slashed) := by
  -- both are at the same component, in related directories that they entered alike
  induction components generalizing dir dir' above above' with
  | nil => exact .ok (.node hdir)
  | cons component rest ih =>
    cases component with
    | current => exact ih hdir habove
    | root =>
      rw [scan, scan, if_pos hmode, if_pos hmode]
      exact .error _
    | parent =>
      cases habove with
      | nil =>
        rw [scan, scan, if_pos hmode, if_pos hmode]
        exact .error _
      | cons hparent habove => exact ih hparent habove
    | name name =>
      rw [scan, scan]
      split
      case isTrue => exact .error _
      case isFalse =>
        split
        case isTrue => exact .error _
        case isFalse =>
          -- the name is bound in both or in neither, and then to nodes of one kind
          have hchild := h.child? hdir name
          generalize v.child? dir name = child at hchild ⊢
          generalize v'.child? dir' name = child' at hchild ⊢
          cases hchild with
          | none =>
            dsimp only
            split
            · exact .ok (.vacant hdir name)
            · exact .error _
          | @some i j hij =>
            have hbody := h.body hij
            dsimp only
            generalize v.body i = b at hbody ⊢
            generalize v'.body j = b' at hbody ⊢
            cases hbody with
            | directory => exact ih hij (.cons hdir habove)
            | link target =>
              dsimp only
              split
              · exact .ok (.node hij)
              · exact hlink _ _ _ _ _ hdir habove
            | file | fifo | socket | device =>
              dsimp only
              split
              · exact .ok (.node hij)
              · exact .error _

theorem walk_alike (h : v.Alike R v') (hmode : mode.beneath = true) {budget : Nat}
    {dir dir' : Ino} {above above' : List Ino} {route : Route} (hdir : R dir dir')
    (habove : List.Forall₂ R above above') :
    Alike (Place.Alike R) (walk v mode budget dir above route)
      (walk v' mode budget dir' above' route) := by
  induction budget generalizing dir dir' above above' route with
  | zero =>
    rw [walk, walk]
    exact scan_alike h hmode (fun _ _ _ _ _ _ _ => .error _) hdir habove
  | succ budget ih =>
    rw [walk, walk]
    refine scan_alike h hmode (fun _ _ _ _ route hdir habove => ?_) hdir habove
    exact ih hdir habove

end Lookup

/-- The other holders of named pipes are counted alike. -/
def EndsAlike (R : Ino → Ino → Prop) (v : Volume) (e e' : Ino → Ends) : Prop :=
  ∀ i j queue, R i j → v.body i = .fifo queue → e i = e' j

/-- An opened node and the volume after that. -/
def OpenedAlike (R : Ino → Ino → Prop) (o o' : Ino × Volume) : Prop :=
  R o.1 o'.1 ∧ o.2.Alike R o'.2

/-- What is told of related nodes. -/
def Attributes.Alike (a a' : Attributes) : Prop := { a with inode := 0 } = { a' with inode := 0 }

theorem Attributes.Alike.fileType_eq {a a' : Attributes} (h : a.Alike a') :
    a.fileType = a'.fileType := (Attributes.mk.inj h).2.2.1

namespace Volume.Alike

variable {v v' : Volume} {start start' : Ino}

theorem locate (h : v.Alike R v') {mode : Lookup.Mode} (hmode : mode.beneath = true)
    (hstart : R start start') (l : Locator) :
    Hostcall.Alike (Place.Alike R) (v.locate mode start l) (v'.locate mode start' l) := by
  rw [Volume.locate, Volume.locate]
  split
  · exact .error _
  · exact Lookup.walk_alike h hmode hstart .nil

/-! ## Opening -/

theorem permits_eq {b b' : Body} (hb : b.Alike R b') {e e' : Ends}
    (he : ∀ queue, b = .fifo queue → e = e') (r : OpenRequest) :
    r.permits e b = r.permits e' b' := by
  cases hb with
  | fifo queue => rw [he queue rfl]
  | directory | file | link | socket | device => rfl

theorem openExisting (h : v.Alike R v') {i j : Ino} (hij : R i j) {e e' : Ends}
    (he : ∀ queue, v.body i = .fifo queue → e = e') (r : OpenRequest) :
    (v.openExisting r e i).Alike R (v'.openExisting r e' j) := by
  have hbody := h.body hij
  rw [Volume.openExisting, Volume.openExisting]
  generalize v.body i = b at hbody he ⊢
  generalize v'.body j = b' at hbody ⊢
  cases hbody with
  | file =>
    dsimp only
    split
    · exact h.replaceBody hij (.file rfl)
    · exact h
  | fifo queue =>
    rw [he queue rfl]
    dsimp only
    split
    · exact h.setBody hij (.fifo _)
    · exact h
  | directory | link | socket | device => exact h

theorem openPlace (h : v.Alike R v') {e e' : Ino → Ends} (he : EndsAlike R v e e')
    (r : OpenRequest) {place place' : Place} (hplace : place.Alike R place') :
    Hostcall.Alike (OpenedAlike R) (v.openPlace e r place) (v'.openPlace e' r place') := by
  cases hplace with
  | @node i j hij =>
    have hends : ∀ queue, v.body i = .fifo queue → e i = e' j := fun queue => he i j queue hij
    rw [Volume.openPlace, Volume.openPlace, permits_eq (h.body hij) hends]
    refine (Hostcall.Alike.refl _).bind fun _ _ _ => ?_
    exact .ok ⟨hij, h.openExisting hij hends r⟩
  | vacant hdir name =>
    rw [Volume.openPlace, Volume.openPlace, h.isGone_eq hdir]
    split
    · exact .ok ⟨h.next, h.create hdir name (.file rfl)⟩
    · exact .error _

theorem openFile (h : v.Alike R v') {e e' : Ino → Ends} (he : EndsAlike R v e e')
    (hstart : R start start') (l : Locator) (r : OpenRequest) :
    Hostcall.Alike (OpenedAlike R) (v.openFile e start l r) (v'.openFile e' start' l r) := by
  rw [Volume.openFile, Volume.openFile]
  refine (Hostcall.Alike.refl _).bind fun _ _ _ => ?_
  exact (h.locate rfl hstart l).bind fun _ _ hplace => h.openPlace he r hplace

theorem openDirectory (h : v.Alike R v') (hstart : R start start') (follow : Bool) (l : Locator) :
    Hostcall.Alike R (v.openDirectory start follow l) (v'.openDirectory start' follow l) := by
  refine (h.locate rfl hstart l).bind fun place place' hplace => ?_
  cases hplace with
  | node hij =>
    rw [directoryAt, directoryAt, h.isDirectory_eq hij]
    split
    · exact .ok hij
    · exact .error _
  | vacant => exact .error _

theorem find (h : v.Alike R v') (hstart : R start start') (follow : Bool) (l : Locator) :
    Hostcall.Alike R (v.find start follow l) (v'.find start' follow l) := by
  refine (h.locate rfl hstart l).bind fun place place' hplace => ?_
  cases hplace with
  | node hij => exact .ok hij
  | vacant => exact .error _

/-! ## Entries -/

theorem parentOf (h : v.Alike R v') (hstart : R start start') (names : List Name) (last : Name) :
    Hostcall.Alike (fun p p' => R p.1 p'.1 ∧ p.2 = p'.2) (v.parentOf start names last)
      (v'.parentOf start' names last) := by
  rw [Volume.parentOf, Volume.parentOf, walkTo, walkTo]
  split
  · exact .ok ⟨hstart, rfl⟩
  · exact (h.openDirectory hstart true _).map fun _ _ hij => ⟨hij, rfl⟩

/-- What is done with the same name in related directories is done alike. -/
theorem parentOf_bind (h : v.Alike R v') (hstart : R start start') (names : List Name)
    (last : Name) {α β : Type} {S : α → β → Prop} {f : Ino × Name → Except HostError α}
    {f' : Ino × Name → Except HostError β}
    (hf : ∀ dir dir' name, R dir dir' → Hostcall.Alike S (f (dir, name)) (f' (dir', name))) :
    Hostcall.Alike S (v.parentOf start names last >>= f)
      (v'.parentOf start' names last >>= f') := by
  refine (h.parentOf hstart names last).bind fun p p' hp => ?_
  obtain ⟨dir, name⟩ := p
  obtain ⟨dir', name'⟩ := p'
  obtain ⟨hdir, rfl⟩ : R dir dir' ∧ name = name' := hp
  exact hf dir dir' name hdir

theorem entry? (h : v.Alike R v') {dir dir' : Ino} (hdir : R dir dir') (name : Name) :
    Hostcall.Alike (Option.Rel R) (v.entry? dir name) (v'.entry? dir' name) := by
  rw [Volume.entry?, Volume.entry?]
  split
  · exact .error _
  · exact .ok (h.child? hdir name)

theorem entry (h : v.Alike R v') {dir dir' : Ino} (hdir : R dir dir') (name : Name) :
    Hostcall.Alike R (v.entry dir name) (v'.entry dir' name) := by
  refine (h.entry? hdir name).bind fun found found' hfound => ?_
  cases hfound with
  | none => exact .error _
  | some hij => exact .ok hij

theorem makeDirectory (h : v.Alike R v') (hstart : R start start') (names : List Name) :
    Hostcall.Alike (Volume.Alike R) (v.makeDirectory start names)
      (v'.makeDirectory start' names) := by
  rw [Volume.makeDirectory, Volume.makeDirectory]
  split
  · exact .error _
  · refine h.parentOf_bind hstart names _ fun dir dir' name hdir => ?_
    dsimp only
    refine (h.entry? hdir name).bind fun found found' hfound => ?_
    cases hfound with
    | some => exact .error _
    | none =>
      dsimp only
      rw [h.isGone_eq hdir]
      split
      · exact .error _
      · exact .ok (h.create hdir name (.directory .nil))

theorem removeDirectory (h : v.Alike R v') (hstart : R start start') (names : List Name) :
    Hostcall.Alike (Volume.Alike R) (v.removeDirectory start names)
      (v'.removeDirectory start' names) := by
  rw [Volume.removeDirectory, Volume.removeDirectory]
  split
  · exact .error _
  · refine h.parentOf_bind hstart names _ fun dir dir' name hdir => ?_
    dsimp only
    refine (h.entry hdir name).bind fun i j hij => ?_
    have hbody := h.body hij
    generalize v.body i = b at hbody ⊢
    generalize v'.body j = b' at hbody ⊢
    cases hbody with
    | directory hentries =>
      cases hentries with
      | nil => exact .ok (h.unbind hdir hij name)
      | cons => exact .error _
    | file | link | fifo | socket | device => exact .error _

theorem unlink (h : v.Alike R v') (hstart : R start start') (names : List Name) :
    Hostcall.Alike (Volume.Alike R) (v.unlink start names) (v'.unlink start' names) := by
  rw [Volume.unlink, Volume.unlink]
  split
  · exact .error _
  · refine h.parentOf_bind hstart names _ fun dir dir' name hdir => ?_
    dsimp only
    refine (h.entry hdir name).bind fun i j hij => ?_
    rw [h.isDirectory_eq hij]
    split
    · exact .error _
    · exact .ok (h.unbind hdir hij name)

/-! ## Attributes and times -/

theorem stat (h : v.Alike R v') (hstart : R start start') (l : Locator) :
    Hostcall.Alike Attributes.Alike (v.stat start l) (v'.stat start' l) :=
  (h.find hstart true l).map fun _ _ hij => h.attributes_eq hij

theorem statLink (h : v.Alike R v') (hstart : R start start') (l : Locator) :
    Hostcall.Alike Attributes.Alike (v.statLink start l) (v'.statLink start' l) := by
  rw [Volume.statLink, Volume.statLink]
  split
  · exact (h.entry hstart _).map fun _ _ hij => h.attributes_eq hij
  · exact (h.find hstart false l).map fun _ _ hij => h.attributes_eq hij

theorem setTimesAt (h : v.Alike R v') {e e' : Ino → Ends} (he : EndsAlike R v e e')
    (hstart : R start start') (l : Locator) (u : TimeUpdates) :
    Hostcall.Alike (Volume.Alike R) (v.setTimesAt e start l u) (v'.setTimesAt e' start' l u) := by
  have hopen := h.openFile he hstart l .forWriting
  rw [Volume.setTimesAt, Volume.setTimesAt]
  generalize v.openFile e start l .forWriting = opened at hopen ⊢
  generalize v'.openFile e' start' l .forWriting = opened' at hopen ⊢
  cases hopen with
  | ok hopened => exact .ok (hopened.2.setTimes hopened.1 u)
  | error e =>
    split
    case h_1 heq => cases heq
    case h_2 => exact (h.find hstart true l).map fun _ _ hij => h.setTimes hij u
    case h_3 heq =>
      cases heq
      exact .error _

theorem setLinkTimes (h : v.Alike R v') (hstart : R start start') (l : Locator)
    (u : TimeUpdates) : Hostcall.Alike (Volume.Alike R) (v.setLinkTimes start l u)
      (v'.setLinkTimes start' l u) := by
  rw [Volume.setLinkTimes, Volume.setLinkTimes]
  split
  · exact .ok (h.setTimes hstart u)
  · split
    · exact (h.openDirectory hstart true l).bind fun _ _ hij => .ok (h.setTimes hij u)
    · refine h.parentOf_bind hstart l.names _ fun dir dir' name hdir => ?_
      dsimp only
      split
      · exact .ok h
      · exact (h.entry hdir name).bind fun _ _ hij => .ok (h.setTimes hij u)

end Volume.Alike

/-! ## Open files -/

/-- Handles of related nodes that are used alike. -/
inductive Handle.Alike (R : Ino → Ino → Prop) : Handle → Handle → Prop where
  | mk {i j : Ino} (h : R i j) (readable writable append nonblock : Bool) (cursor : Nat) :
      Handle.Alike R ⟨i, readable, writable, append, nonblock, cursor⟩
        ⟨j, readable, writable, append, nonblock, cursor⟩

/-- An amount, a handle and a volume after a transfer, in both runs. -/
def TransferAlike {α : Type} (R : Ino → Ino → Prop) (o o' : α × Handle × Volume) : Prop :=
  o.1 = o'.1 ∧ o.2.1.Alike R o'.2.1 ∧ o.2.2.Alike R o'.2.2

theorem Content.size_eq {c c' : Content} (h : c.toList = c'.toList) : c.size = c'.size := by
  rw [← length_toList, ← length_toList, h]

theorem Content.toList_write_eq {c c' : Content} (h : c.toList = c'.toList) (offset : Nat)
    (data : Bytes) : (c.write offset data).toList = (c'.write offset data).toList := by
  by_cases hdata : data = []
  · rw [hdata, write_nil, write_nil, h]
  · rw [toList_write c offset hdata, toList_write c' offset hdata, h, size_eq h]

namespace Handle.Alike

variable {v v' : Volume} {h h' : Handle}

theorem ino (hh : h.Alike R h') : R h.ino h'.ino := by
  cases hh with
  | mk hij => exact hij

theorem flags_eq (hh : h.Alike R h') : h.flags = h'.flags := by
  cases hh
  rfl

theorem setFlags (hh : h.Alike R h') (flags : FdFlags) :
    (h.setFlags flags).Alike R (h'.setFlags flags) := by
  cases hh with
  | mk hij => exact .mk hij ..

theorem read (hh : h.Alike R h') (hv : v.Alike R v') {e e' : Ends}
    (he : ∀ queue, v.body h.ino = .fifo queue → e = e') (sizes : List Nat) :
    Hostcall.Alike (TransferAlike R) (h.read v e sizes) (h'.read v' e' sizes) := by
  cases hh with
  | @mk i j hij readable writable append nonblock cursor =>
    have hbody := hv.body hij
    simp only [Handle.read]
    split
    · exact .error _
    · split
      · exact .ok ⟨rfl, .mk hij .., hv⟩
      · dsimp only at he
        generalize v.body i = b at hbody he ⊢
        generalize v'.body j = b' at hbody ⊢
        cases hbody with
        | file hcontent =>
          dsimp only
          rw [Content.slice_eq, Content.slice_eq, hcontent]
          split
          · exact .error _
          · exact .ok ⟨rfl, .mk hij .., hv⟩
        | fifo queue =>
          rw [he queue rfl]
          dsimp only
          split
          · exact .ok ⟨rfl, .mk hij .., hv.setBody hij (.fifo _)⟩
          · split
            · exact .ok ⟨rfl, .mk hij .., hv⟩
            · exact .error _
        | device d => exact .ok ⟨rfl, .mk hij .., hv⟩
        | directory | link | socket => exact .error _

theorem readAt (hh : h.Alike R h') (hv : v.Alike R v') (sizes : List Nat) (offset : Nat) :
    h.readAt v sizes offset = h'.readAt v' sizes offset := by
  cases hh with
  | @mk i j hij readable writable append nonblock cursor =>
    have hbody := hv.body hij
    simp only [Handle.readAt]
    generalize v.body i = b at hbody ⊢
    generalize v'.body j = b' at hbody ⊢
    cases hbody with
    | file hcontent => simp only [Content.slice_eq, hcontent]
    | directory | link | fifo | socket | device => rfl

theorem write (hh : h.Alike R h') (hv : v.Alike R v') {e e' : Ends}
    (he : ∀ queue, v.body h.ino = .fifo queue → e = e') (buffers : List Bytes) :
    Hostcall.Alike (TransferAlike R) (h.write v e buffers) (h'.write v' e' buffers) := by
  cases hh with
  | @mk i j hij readable writable append nonblock cursor =>
    have hbody := hv.body hij
    simp only [Handle.write]
    split
    · exact .error _
    · split
      · exact .ok ⟨rfl, .mk hij .., hv⟩
      · dsimp only at he
        generalize v.body i = b at hbody he ⊢
        generalize v'.body j = b' at hbody ⊢
        cases hbody with
        | file hcontent =>
          dsimp only
          rw [Content.size_eq hcontent]
          split
          · exact .error _
          · split
            · exact .error _
            · exact .ok ⟨rfl, .mk hij .., hv.replaceBody hij
                (.file (Content.toList_write_eq hcontent _ _))⟩
        | fifo queue =>
          rw [he queue rfl]
          dsimp only
          split
          · exact .error _
          · split
            · exact .error _
            · exact .ok ⟨rfl, .mk hij .., hv.replaceBody hij (.fifo _)⟩
        | device d =>
          dsimp only
          split
          · exact .error _
          · exact .ok ⟨rfl, .mk hij .., hv⟩
        | directory | link | socket => exact .error _

theorem writeAt (hh : h.Alike R h') (hv : v.Alike R v') (buffers : List Bytes) (offset : Nat) :
    Hostcall.Alike (fun o o' : Nat × Volume => o.1 = o'.1 ∧ o.2.Alike R o'.2)
      (h.writeAt v buffers offset) (h'.writeAt v' buffers offset) := by
  cases hh with
  | @mk i j hij readable writable append nonblock cursor =>
    have hbody := hv.body hij
    simp only [Handle.writeAt]
    split
    · exact .error _
    · generalize v.body i = b at hbody ⊢
      generalize v'.body j = b' at hbody ⊢
      cases hbody with
      | fifo => exact .error _
      | file hcontent =>
        dsimp only
        rw [Content.size_eq hcontent]
        split
        · exact .error _
        · split
          · exact .ok ⟨rfl, hv⟩
          · split
            · exact .error _
            · split
              · exact .error _
              · exact .ok ⟨rfl, hv.replaceBody hij
                  (.file (Content.toList_write_eq hcontent _ _))⟩
      | device d =>
        dsimp only
        split
        · exact .error _
        · split
          · exact .ok ⟨rfl, hv⟩
          · split
            · exact .error _
            · split
              · exact .error _
              · exact .ok ⟨rfl, hv⟩
      | directory | link | socket =>
        dsimp only
        split
        · exact .error _
        · split
          · exact .ok ⟨rfl, hv⟩
          · split <;> exact .error _

theorem setSize (hh : h.Alike R h') (hv : v.Alike R v') (size : Nat) :
    Hostcall.Alike (Volume.Alike R) (h.setSize v size) (h'.setSize v' size) := by
  cases hh with
  | @mk i j hij readable writable append nonblock cursor =>
    have hbody := hv.body hij
    simp only [Handle.setSize]
    split
    · exact .error _
    · generalize v.body i = b at hbody ⊢
      generalize v'.body j = b' at hbody ⊢
      cases hbody with
      | @file content content' hcontent =>
        have hresized : (content.resize size).toList = (content'.resize size).toList := by
          rw [Content.toList_resize, Content.toList_resize, hcontent, Content.size_eq hcontent]
        dsimp only
        split
        · exact .ok (hv.replaceBody hij (.file hresized))
        · exact .error _
      | directory | link | fifo | socket | device => exact .error _

theorem seek (hh : h.Alike R h') (hv : v.Alike R v') (whence : Whence) (offset : Int) :
    Hostcall.Alike (fun o o' : Nat × Handle => o.1 = o'.1 ∧ o.2.Alike R o'.2)
      (h.seek v whence offset) (h'.seek v' whence offset) := by
  cases hh with
  | @mk i j hij readable writable append nonblock cursor =>
    have hbody := hv.body hij
    simp only [Handle.seek]
    generalize v.body i = b at hbody ⊢
    generalize v'.body j = b' at hbody ⊢
    cases hbody with
    | fifo => exact .error _
    | file hcontent =>
      dsimp only
      rw [Content.size_eq hcontent]
      cases whence with
      | set | current | endOfFile =>
        dsimp only
        split
        · exact .ok ⟨rfl, .mk hij ..⟩
        · exact .error _
    | directory | link | socket | device => exact .ok ⟨rfl, .mk hij ..⟩

theorem sync_eq (hh : h.Alike R h') (hv : v.Alike R v') : h.sync v = h'.sync v' := by
  have hbody := hv.body hh.ino
  rw [Handle.sync, Handle.sync]
  generalize v.body h.ino = b at hbody ⊢
  generalize v'.body h'.ino = b' at hbody ⊢
  cases hbody <;> rfl

end Handle.Alike

end Hostcall
