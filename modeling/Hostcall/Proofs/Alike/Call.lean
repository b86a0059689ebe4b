import Hostcall.Call
import Hostcall.Proofs.Alike.Listing
import Hostcall.Proofs.Alike.Table

/-!
# Calls of guests that look alike

* `Call.veil` leaves inode and device numbers, clock readings and random bytes out of an
  answer;
* `World.StepAlike` compares two steps, `Resolved.Alike` two resolved paths;
* `World.Alike.call` says that guests that look alike get the same answer behind the veil from
  any call, and look alike after it.
-/

namespace Hostcall

/-! ## Veiled answers -/

/-- An answer without inode and device numbers. -/
def Answer.veil : Answer → Answer
  | .filestat s => .filestat { s with device := 0, inode := 0 }
  | .listed count b => .listed count (Listing.veil (b.take count.toNat) ++ b.drop count.toNat)
  | a => a

/-- The answer of a clock without its reading, which may also be too large to be told. -/
def veilReading : Outcome Answer → Outcome Answer
  | .ok _ => .ok .done
  | .error fault => if fault = .overflow then .ok .done else .error fault

/-- The answer of a call without what belongs to the host and not to its file system. -/
def Call.veil : Call → Outcome Answer → Outcome Answer
  | .clockResGet _, outcome => veilReading outcome
  | .clockTimeGet _ _, outcome => veilReading outcome
  | .randomGet _, outcome => outcome.map fun _ => .done
  | _, outcome => outcome.map Answer.veil

/-! ## Steps -/

variable {R : Ino → Ino → Prop}

/-- Steps with related answers that leave guests alike. -/
def World.StepAlike {α β : Type} (R : Ino → Ino → Prop) (S : α → β → Prop) (s : Step α)
    (s' : Step β) : Prop := Hostcall.Alike S s.1 s'.1 ∧ s.2.Alike R s'.2

namespace World.StepAlike

variable {α β γ δ : Type} {S : α → β → Prop} {T : γ → δ → Prop} {s : Step α} {s' : Step β}

theorem andThen (h : StepAlike R S s s') {f : α → World → Step γ} {g : β → World → Step δ}
    (hf : ∀ a b w w', S a b → w.Alike R w' → StepAlike R T (f a w) (g b w')) :
    StepAlike R T (s.andThen f) (s'.andThen g) := by
  obtain ⟨outcome, w⟩ := s
  obtain ⟨outcome', w'⟩ := s'
  obtain ⟨hs, hw⟩ := h
  cases (hs : Hostcall.Alike S outcome outcome') with
  | ok hab => exact hf _ _ _ _ hab hw
  | error fault => exact ⟨.error fault, hw⟩

end World.StepAlike

/-! ## Resolved paths -/

/-- The same place beneath related preopens. -/
inductive Resolved.Alike (R : Ino → Ino → Prop) : Resolved → Resolved → Prop where
  | mk {p p' : Preopen} (h : p.Alike R p') (index : Nat) (place : Canonical) :
      Resolved.Alike R ⟨p, index, place⟩ ⟨p', index, place⟩

theorem getElem?_alike {α β : Type} {S : α → β → Prop} {l : List α} {l' : List β}
    (h : List.Forall₂ S l l') (k : Nat) : Option.Rel S l[k]? l'[k]? := by
  induction h generalizing k with
  | nil => exact .none
  | cons hab _ ih =>
    cases k with
    | zero => exact .some hab
    | succ k => exact ih k

theorem Preopen.Alike.root {p p' : Preopen} (h : p.Alike R p') : R p.root p'.root := by
  cases h with
  | mk h => exact h

theorem World.Alike.resolve {w w' : World} (h : w.Alike R w') (dirfd : Nat) (path : String) :
    Hostcall.Alike (Resolved.Alike R) (w.resolve dirfd path) (w'.resolve dirfd path) := by
  refine (getDirectory_alike h.table dirfd).bind fun d d' hd => ?_
  cases hd with
  | mk hij preopen relative guestName =>
    have hp := getElem?_alike h.preopens preopen
    dsimp only
    generalize w.context.preopens[preopen]? = p at hp ⊢
    generalize w'.context.preopens[preopen]? = p' at hp ⊢
    cases hp with
    | none => exact .error _
    | some hp => exact (Hostcall.Alike.refl _).bind fun _ _ hplace => hplace ▸ .ok (.mk hp _ _)

namespace Resolved.Alike

variable {r r' : Resolved} {v v' : Volume}

theorem makeDirectory (h : r.Alike R r') (hv : v.Alike R v') :
    Hostcall.Alike (Volume.Alike R) (r.makeDirectory v) (r'.makeDirectory v') := by
  cases h with
  | mk hp => exact (hv.makeDirectory hp.root _).fromHost

theorem removeDirectory (h : r.Alike R r') (hv : v.Alike R v') :
    Hostcall.Alike (Volume.Alike R) (r.removeDirectory v) (r'.removeDirectory v') := by
  cases h with
  | mk hp =>
    rw [Resolved.removeDirectory, Resolved.removeDirectory]
    split
    · exact .error _
    · exact (hv.removeDirectory hp.root _).fromHost

theorem unlink (h : r.Alike R r') (hv : v.Alike R v') :
    Hostcall.Alike (Volume.Alike R) (r.unlink v) (r'.unlink v') := by
  cases h with
  | mk hp =>
    rw [Resolved.unlink, Resolved.unlink]
    split
    · refine (hv.statLink hp.root _).fromHost.bind fun a a' ha => ?_
      rw [ha.fileType_eq]
      exact .error _
    · exact (hv.unlink hp.root _).fromHost

theorem stat (h : r.Alike R r') (hv : v.Alike R v') (follow : Bool) :
    Hostcall.Alike Attributes.Alike (r.stat v follow) (r'.stat v' follow) := by
  cases h with
  | mk hp =>
    rw [Resolved.stat, Resolved.stat]
    split
    · exact (hv.stat hp.root _).fromHost
    · exact (hv.statLink hp.root _).fromHost

theorem setTimes (h : r.Alike R r') (hv : v.Alike R v') {e e' : Ino → Ends}
    (he : EndsAlike R v e e') (follow : Bool) (u : TimeUpdates) :
    Hostcall.Alike (Volume.Alike R) (r.setTimes v e follow u) (r'.setTimes v' e' follow u) := by
  cases h with
  | mk hp =>
    rw [Resolved.setTimes, Resolved.setTimes]
    split
    · exact (hv.setTimesAt he hp.root _ u).fromHost
    · exact (hv.setLinkTimes hp.root _ u).fromHost

/-- What was opened and the volume after that. -/
def OpenAlike (R : Ino → Ino → Prop) (o o' : Outcome Descriptor × Volume) : Prop :=
  Hostcall.Alike (Descriptor.Alike R) o.1 o'.1 ∧ o.2.Alike R o'.2

theorem openFile (h : r.Alike R r') (hv : v.Alike R v') {e e' : Ino → Ends}
    (he : EndsAlike R v e e') (q : OpenRequest) (access : Access) :
    OpenAlike R (r.openFile v e q access) (r'.openFile v' e' q access) := by
  cases h with
  | @mk p p' hp index place =>
    have hopen := hv.openFile he hp.root (Resolved.lookup ⟨p, index, place⟩) q
    have hlookup : Resolved.lookup ⟨p', index, place⟩ = Resolved.lookup ⟨p, index, place⟩ := rfl
    rw [Resolved.openFile, Resolved.openFile, hlookup]
    dsimp only
    generalize v.openFile e p.root (Resolved.lookup ⟨p, index, place⟩) q = opened at hopen ⊢
    generalize v'.openFile e' p'.root (Resolved.lookup ⟨p, index, place⟩) q = opened' at hopen ⊢
    cases hopen with
    | error e => exact ⟨.error _, hv⟩
    | ok hopened =>
      obtain ⟨hij, hvolume⟩ := hopened
      dsimp only
      rw [hvolume.isDirectory_eq hij]
      split
      · exact ⟨.ok (.directory (.mk hij ..)), hvolume⟩
      · split
        · exact ⟨.error _, hvolume⟩
        · exact ⟨.ok (.file (.mk (.mk hij ..) _)), hvolume⟩

theorem openNode (h : r.Alike R r') (hv : v.Alike R v') {e e' : Ino → Ends}
    (he : EndsAlike R v e e') (follow : Bool) (flags : OpenFlags) (access : Access)
    (fdFlags : FdFlags) : OpenAlike R (r.openNode v e follow flags access fdFlags)
      (r'.openNode v' e' follow flags access fdFlags) := by
  rw [Resolved.openNode, Resolved.openNode]
  split
  · exact ⟨.error _, hv⟩
  · split
    · split
      · exact ⟨.error _, hv⟩
      · refine ⟨?_, hv⟩
        cases h with
        | mk hp =>
          refine (hv.openDirectory hp.root _ _).fromHost.bind fun _ _ hij => ?_
          exact .ok (.directory (.mk hij ..))
    · exact h.openFile hv he _ access

end Resolved.Alike

/-! ## Open files -/

namespace FileEntry.Alike

variable {e e' : FileEntry} {v v' : Volume}

theorem require_eq (h : e.Alike R e') (mode : Access) : e.require mode = e'.require mode := by
  rw [require, require, h.access_eq]

/-- An amount, an open file and a volume after a transfer. -/
def MovedAlike {α : Type} (R : Ino → Ino → Prop) (o o' : α × FileEntry × Volume) : Prop :=
  o.1 = o'.1 ∧ o.2.1.Alike R o'.2.1 ∧ o.2.2.Alike R o'.2.2

theorem read (h : e.Alike R e') (hv : v.Alike R v') {ends ends' : Ends}
    (he : ∀ queue, v.body e.handle.ino = .fifo queue → ends = ends') (sizes : List Nat) :
    Hostcall.Alike (MovedAlike R) (e.read v ends sizes) (e'.read v' ends' sizes) := by
  rw [FileEntry.read, FileEntry.read, h.require_eq]
  refine (Hostcall.Alike.refl _).bind fun _ _ _ => ?_
  refine (h.handle.read hv he sizes).fromHost.bind fun o o' ho => ?_
  exact .ok ⟨ho.1, h.withHandle ho.2.1, ho.2.2⟩

theorem readAt (h : e.Alike R e') (hv : v.Alike R v') (sizes : List Nat) (offset : UInt64) :
    e.readAt v sizes offset = e'.readAt v' sizes offset := by
  rw [FileEntry.readAt, FileEntry.readAt, h.require_eq, h.handle.readAt hv]

theorem write (h : e.Alike R e') (hv : v.Alike R v') {ends ends' : Ends}
    (he : ∀ queue, v.body e.handle.ino = .fifo queue → ends = ends') (buffers : List Bytes) :
    Hostcall.Alike (MovedAlike R) (e.write v ends buffers) (e'.write v' ends' buffers) := by
  rw [FileEntry.write, FileEntry.write, h.require_eq]
  refine (Hostcall.Alike.refl _).bind fun _ _ _ => ?_
  refine (h.handle.write hv he buffers).fromHost.bind fun o o' ho => ?_
  exact .ok ⟨ho.1, h.withHandle ho.2.1, ho.2.2⟩

theorem writeAt (h : e.Alike R e') (hv : v.Alike R v') (buffers : List Bytes) (offset : UInt64) :
    Hostcall.Alike (fun o o' : Nat × Volume => o.1 = o'.1 ∧ o.2.Alike R o'.2)
      (e.writeAt v buffers offset) (e'.writeAt v' buffers offset) := by
  rw [FileEntry.writeAt, FileEntry.writeAt, h.require_eq]
  refine (Hostcall.Alike.refl _).bind fun _ _ _ => ?_
  exact (h.handle.writeAt hv buffers _).fromHost

theorem setSize (h : e.Alike R e') (hv : v.Alike R v') (size : UInt64) :
    Hostcall.Alike (Volume.Alike R) (e.setSize v size) (e'.setSize v' size) := by
  rw [FileEntry.setSize, FileEntry.setSize, h.require_eq]
  refine (Hostcall.Alike.refl _).bind fun _ _ _ => ?_
  exact (h.handle.setSize hv _).fromHost

theorem seek (h : e.Alike R e') (hv : v.Alike R v') (whence : Whence) (offset : Int64) :
    Hostcall.Alike (fun o o' : Nat × FileEntry => o.1 = o'.1 ∧ o.2.Alike R o'.2)
      (e.seek v whence offset) (e'.seek v' whence offset) := by
  refine (h.handle.seek hv whence _).fromHost.bind fun o o' ho => ?_
  exact .ok ⟨ho.1, h.withHandle ho.2⟩

theorem setFlags (h : e.Alike R e') (flags : FdFlags) :
    Hostcall.Alike (FileEntry.Alike R) (e.setFlags flags) (e'.setFlags flags) := by
  rw [FileEntry.setFlags, FileEntry.setFlags]
  split
  · exact .error _
  · exact .ok (h.withHandle (h.handle.setFlags flags))

end FileEntry.Alike

/-! ## Calls on paths -/

namespace World.Alike

variable {w w' : World}

theorem changed (h : w.Alike R w') {o o' : Outcome Volume}
    (ho : Hostcall.Alike (Volume.Alike R) o o') :
    StepAlike R Eq (w.changed o) (w'.changed o') := by
  cases ho with
  | ok hv => exact ⟨.ok rfl, h.withVolume hv⟩
  | error fault => exact ⟨.error fault, h⟩

theorem pathCreateDirectory (h : w.Alike R w') (dirfd : Nat) (path : String) :
    StepAlike R Eq (w.pathCreateDirectory dirfd path) (w'.pathCreateDirectory dirfd path) :=
  h.changed ((h.resolve dirfd path).bind fun _ _ hr => hr.makeDirectory h.volume)

theorem pathRemoveDirectory (h : w.Alike R w') (dirfd : Nat) (path : String) :
    StepAlike R Eq (w.pathRemoveDirectory dirfd path) (w'.pathRemoveDirectory dirfd path) :=
  h.changed ((h.resolve dirfd path).bind fun _ _ hr => hr.removeDirectory h.volume)

theorem pathUnlinkFile (h : w.Alike R w') (dirfd : Nat) (path : String) :
    StepAlike R Eq (w.pathUnlinkFile dirfd path) (w'.pathUnlinkFile dirfd path) :=
  h.changed ((h.resolve dirfd path).bind fun _ _ hr => hr.unlink h.volume)

theorem filestat {a a' : Attributes} (h : a.Alike a') :
    Hostcall.Alike (fun s s' => (Answer.filestat s).veil = (Answer.filestat s').veil)
      (Filestat.ofAttributes a) (Filestat.ofAttributes a') := by
  obtain ⟨device, inode, fileType, links, size, accessed, modified, created⟩ := a
  obtain ⟨device', inode', fileType', links', size', accessed', modified', created'⟩ := a'
  cases h
  rw [Filestat.ofAttributes, Filestat.ofAttributes]
  dsimp only
  split
  · exact .ok rfl
  · exact .error _
  · exact .error _
  · exact .error _

theorem pathFilestatGet (h : w.Alike R w') (dirfd : Nat) (lookup : LookupFlags) (path : String) :
    Hostcall.Alike (fun s s' => (Answer.filestat s).veil = (Answer.filestat s').veil)
      (w.pathFilestatGet dirfd lookup path) (w'.pathFilestatGet dirfd lookup path) := by
  refine (h.resolve dirfd path).bind fun r r' hr => ?_
  exact (hr.stat h.volume _).bind fun a a' ha => filestat ha

theorem pathFilestatSetTimes (h : w.Alike R w') (hends : EndsAlike R w.volume w.ends w'.ends)
    (dirfd : Nat) (lookup : LookupFlags) (path : String) (request : TimeRequest) :
    StepAlike R Eq (w.pathFilestatSetTimes dirfd lookup path request)
      (w'.pathFilestatSetTimes dirfd lookup path request) := by
  refine h.changed ((Hostcall.Alike.refl _).bind fun u u' hu => ?_)
  subst hu
  exact (h.resolve dirfd path).bind fun _ _ hr => hr.setTimes h.volume hends _ _

theorem allocate (h : w.Alike R w') {d d' : Descriptor} (hd : d.Alike R d') :
    StepAlike R Eq (w.allocate d) (w'.allocate d') := by
  obtain ⟨houtcome, htable⟩ := h.table.allocate hd
  refine ⟨?_, h.withTable htable⟩
  change Hostcall.Alike Eq (w.table.allocate d).1 (w'.table.allocate d').1
  rw [houtcome]
  exact .refl _

theorem pathOpen (h : w.Alike R w') (hends : EndsAlike R w.volume w.ends w'.ends) (dirfd : Nat)
    (lookup : LookupFlags) (path : String) (flags : OpenFlags) (rights inheriting : Rights)
    (fdFlags : FdFlags) :
    StepAlike R Eq (w.pathOpen dirfd lookup path flags rights inheriting fdFlags)
      (w'.pathOpen dirfd lookup path flags rights inheriting fdFlags) := by
  have hresolve := h.resolve dirfd path
  rw [World.pathOpen, World.pathOpen]
  generalize w.resolve dirfd path = resolved at hresolve ⊢
  generalize w'.resolve dirfd path = resolved' at hresolve ⊢
  cases hresolve with
  | error fault => exact ⟨.error fault, h⟩
  | @ok r r' hr =>
    have hopen := hr.openNode h.volume hends (lookup.contains LookupFlags.symlinkFollow) flags
      (Access.ofRights rights) fdFlags
    dsimp only
    generalize r.openNode w.volume w.ends _ _ _ _ = opened at hopen ⊢
    generalize r'.openNode w'.volume w'.ends _ _ _ _ = opened' at hopen ⊢
    obtain ⟨outcome, v⟩ := opened
    obtain ⟨outcome', v'⟩ := opened'
    obtain ⟨houtcome, hv⟩ := hopen
    cases (houtcome : Hostcall.Alike (Descriptor.Alike R) outcome outcome') with
    | error fault => exact ⟨.error fault, h.withVolume hv⟩
    | ok hd => exact (h.withVolume hv).allocate hd

/-! ## Calls on descriptors -/

theorem flushed (h : w.Alike R w') {d d' : Descriptor} (hd : d.Alike R d') :
    StepAlike R Eq (w.flushed d) (w'.flushed d') := by
  cases hd with
  | stdio e =>
    simp only [World.flushed, h.streams]
    exact ⟨.refl _, h.withStreams _⟩
  | file | directory => exact ⟨.ok rfl, h⟩

theorem fdClose (h : w.Alike R w') (fd : Nat) :
    StepAlike R Eq (w.fdClose fd) (w'.fdClose fd) := by
  have hget := h.table.get fd
  rw [World.fdClose, World.fdClose]
  generalize w.table.get fd = d at hget ⊢
  generalize w'.table.get fd = d' at hget ⊢
  cases hget with
  | error fault => exact ⟨.error fault, h⟩
  | ok hd =>
    refine (h.flushed hd).andThen fun _ _ u u' _ hu => ?_
    obtain ⟨houtcome, htable⟩ := hu.table.close fd
    exact ⟨houtcome.map fun _ _ _ => rfl, hu.withTable htable⟩

theorem flushedTarget (h : w.Alike R w') (source target : Nat) :
    StepAlike R Eq (w.flushedTarget source target) (w'.flushedTarget source target) := by
  have hget := h.table target
  rw [World.flushedTarget, World.flushedTarget, h.table.contains_eq]
  split
  · generalize w.table.get? target = d at hget ⊢
    generalize w'.table.get? target = d' at hget ⊢
    cases hget with
    | none => exact ⟨.ok rfl, h⟩
    | some hd => exact h.flushed hd
  · exact ⟨.ok rfl, h⟩

theorem fdRenumber (h : w.Alike R w') (source target : Nat) :
    StepAlike R Eq (w.fdRenumber source target) (w'.fdRenumber source target) := by
  refine (h.flushedTarget source target).andThen fun _ _ u u' _ hu => ?_
  obtain ⟨houtcome, htable⟩ := hu.table.renumber source target
  exact ⟨houtcome.map fun _ _ _ => rfl, hu.withTable htable⟩

theorem fdRead (h : w.Alike R w') (hends : EndsAlike R w.volume w.ends w'.ends) (fd : Nat)
    (buffers : List Bytes) : StepAlike R Eq (w.fdRead fd buffers) (w'.fdRead fd buffers) := by
  have hget := h.table.get fd
  simp only [World.fdRead]
  generalize w.table.get fd = d at hget ⊢
  generalize w'.table.get fd = d' at hget ⊢
  cases hget with
  | error fault => exact ⟨.error fault, h⟩
  | ok hd =>
    cases hd with
    | directory => exact ⟨.error _, h⟩
    | stdio e =>
      dsimp only
      rw [h.streams]
      exact ⟨.refl _, h.withStreams _⟩
    | @file e e' he =>
      have hread := he.read h.volume (hends _ _ · he.handle.ino) (buffers.map List.length)
      dsimp only
      generalize e.read w.volume _ _ = o at hread ⊢
      generalize e'.read w'.volume _ _ = o' at hread ⊢
      cases hread with
      | error fault => exact ⟨.error fault, h⟩
      | ok ho =>
        obtain ⟨htaken, hentry, hv⟩ := ho
        dsimp only
        rw [htaken]
        exact ⟨.refl _, (h.update fd (.file hentry)).withVolume hv⟩

theorem fdPread (h : w.Alike R w') (fd : Nat) (buffers : List Bytes) (offset : UInt64) :
    Hostcall.Alike Eq (w.fdPread fd buffers offset) (w'.fdPread fd buffers offset) := by
  refine (h.table.get fd).bind fun d d' hd => ?_
  cases hd with
  | file he =>
    dsimp only
    rw [he.readAt h.volume]
    exact .refl _
  | stdio | directory => exact .error _

theorem fdWrite (h : w.Alike R w') (hends : EndsAlike R w.volume w.ends w'.ends) (fd : Nat)
    (buffers : List Bytes) : StepAlike R Eq (w.fdWrite fd buffers) (w'.fdWrite fd buffers) := by
  have hget := h.table.get fd
  simp only [World.fdWrite]
  generalize w.table.get fd = d at hget ⊢
  generalize w'.table.get fd = d' at hget ⊢
  cases hget with
  | error fault => exact ⟨.error fault, h⟩
  | ok hd =>
    cases hd with
    | directory => exact ⟨.error _, h⟩
    | stdio e =>
      dsimp only
      rw [h.streams]
      exact ⟨.refl _, h.withStreams _⟩
    | @file e e' he =>
      have hwrite := he.write h.volume (hends _ _ · he.handle.ino) buffers
      dsimp only
      generalize e.write w.volume _ _ = o at hwrite ⊢
      generalize e'.write w'.volume _ _ = o' at hwrite ⊢
      cases hwrite with
      | error fault => exact ⟨.error fault, h⟩
      | ok ho =>
        obtain ⟨hcount, hentry, hv⟩ := ho
        dsimp only
        rw [hcount]
        exact ⟨.refl _, (h.update fd (.file hentry)).withVolume hv⟩

theorem fdPwrite (h : w.Alike R w') (fd : Nat) (buffers : List Bytes) (offset : UInt64) :
    StepAlike R Eq (w.fdPwrite fd buffers offset) (w'.fdPwrite fd buffers offset) := by
  have hget := h.table.get fd
  simp only [World.fdPwrite]
  generalize w.table.get fd = d at hget ⊢
  generalize w'.table.get fd = d' at hget ⊢
  cases hget with
  | error fault => exact ⟨.error fault, h⟩
  | ok hd =>
    cases hd with
    | directory | stdio => exact ⟨.error _, h⟩
    | @file e e' he =>
      have hwrite := he.writeAt h.volume buffers offset
      dsimp only
      generalize e.writeAt w.volume _ _ = o at hwrite ⊢
      generalize e'.writeAt w'.volume _ _ = o' at hwrite ⊢
      cases hwrite with
      | error fault => exact ⟨.error fault, h⟩
      | ok ho =>
        obtain ⟨hcount, hv⟩ := ho
        dsimp only
        rw [hcount]
        exact ⟨.refl _, h.withVolume hv⟩

theorem fdSeek (h : w.Alike R w') (fd : Nat) (offset : Int64) (whence : Whence) :
    StepAlike R Eq (w.fdSeek fd offset whence) (w'.fdSeek fd offset whence) := by
  have hget := h.table.get fd
  simp only [World.fdSeek]
  split
  · exact ⟨.error _, h⟩
  · generalize w.table.get fd = d at hget ⊢
    generalize w'.table.get fd = d' at hget ⊢
    cases hget with
    | error fault => exact ⟨.error fault, h⟩
    | ok hd =>
      cases hd with
      | directory | stdio => exact ⟨.error _, h⟩
      | @file e e' he =>
        have hseek := he.seek h.volume whence offset
        dsimp only
        generalize e.seek w.volume _ _ = o at hseek ⊢
        generalize e'.seek w'.volume _ _ = o' at hseek ⊢
        cases hseek with
        | error fault => exact ⟨.error fault, h⟩
        | ok ho =>
          obtain ⟨hposition, hentry⟩ := ho
          dsimp only
          rw [hposition]
          exact ⟨.refl _, h.update fd (.file hentry)⟩

theorem fdDatasync (h : w.Alike R w') (fd : Nat) :
    Hostcall.Alike Eq (w.fdDatasync fd) (w'.fdDatasync fd) := by
  refine (getFile_alike h.table fd).bind fun e e' he => ?_
  rw [he.handle.sync_eq h.volume]
  exact .refl _

theorem fdFilestatSetSize (h : w.Alike R w') (fd : Nat) (size : UInt64) :
    StepAlike R Eq (w.fdFilestatSetSize fd size) (w'.fdFilestatSetSize fd size) := by
  refine h.changed ((getFile_alike h.table fd).bind fun e e' he => ?_)
  exact he.setSize h.volume size

theorem fdFdstatSetFlags (h : w.Alike R w') (fd : Nat) (flags : FdFlags) :
    StepAlike R Eq (w.fdFdstatSetFlags fd flags) (w'.fdFdstatSetFlags fd flags) := by
  have hget := getFile_alike h.table fd
  rw [World.fdFdstatSetFlags, World.fdFdstatSetFlags]
  generalize w.table.getFile fd = e at hget ⊢
  generalize w'.table.getFile fd = e' at hget ⊢
  cases hget with
  | error fault => exact ⟨.error fault, h⟩
  | ok he =>
    have hset := he.setFlags flags
    dsimp only
    generalize FileEntry.setFlags _ flags = o at hset ⊢
    generalize FileEntry.setFlags _ flags = o' at hset ⊢
    cases hset with
    | error fault => exact ⟨.error fault, h⟩
    | ok hentry => exact ⟨.ok rfl, h.update fd (.file hentry)⟩

theorem fdFdstatGet (h : w.Alike R w') (fd : Nat) :
    Hostcall.Alike Eq (w.fdFdstatGet fd) (w'.fdFdstatGet fd) := by
  refine (h.table.get fd).bind fun d d' hd => ?_
  cases hd with
  | file he =>
    dsimp only
    rw [Attributes.Alike.fileType_eq (h.volume.attributes_eq he.handle.ino), he.handle.flags_eq,
      he.access_eq]
    exact .ok rfl
  | directory | stdio => exact .ok rfl

theorem attributes (h : w.Alike R w') {d d' : Descriptor} (hd : d.Alike R d') :
    (w.attributes d).Alike (w'.attributes d') := by
  cases hd with
  | file he => exact h.volume.attributes_eq he.handle.ino
  | directory hd => exact h.volume.attributes_eq hd.ino
  | stdio => rfl

theorem fdFilestatGet (h : w.Alike R w') (fd : Nat) :
    Hostcall.Alike (fun s s' => (Answer.filestat s).veil = (Answer.filestat s').veil)
      (w.fdFilestatGet fd) (w'.fdFilestatGet fd) :=
  (h.table.get fd).bind fun _ _ hd => filestat (h.attributes hd)

theorem fdFilestatSetTimes (h : w.Alike R w') (fd : Nat) (request : TimeRequest) :
    StepAlike R Eq (w.fdFilestatSetTimes fd request) (w'.fdFilestatSetTimes fd request) := by
  refine h.changed ((Hostcall.Alike.refl _).bind fun u u' hu => ?_)
  subst hu
  refine (h.table.get fd).bind fun d d' hd => ?_
  cases hd with
  | file he => exact .ok (h.volume.setTimes he.handle.ino u)
  | directory hd => exact .ok (h.volume.setTimes hd.ino u)
  | stdio => exact .error _

/-! ## Calls on directories -/

theorem countOf_eq_ok {n : Nat} {count : UInt32} (h : countOf n = .ok count) : count.toNat = n := by
  rw [countOf] at h
  split at h
  case isTrue hn =>
    cases h
    exact UInt32.toNat_ofNat_of_lt' hn
  case isFalse => cases h

/-- A listing and the number of its bytes, behind the veil. -/
theorem fdReaddir (h : w.Alike R w') (fd : Nat) (buffer : Bytes) (cookie : UInt64) :
    Hostcall.Alike (fun o o' => (Answer.listed o.1 o.2).veil = (Answer.listed o'.1 o'.2).veil)
      (w.fdReaddir fd buffer cookie) (w'.fdReaddir fd buffer cookie) := by
  refine (getDirectory_alike h.table fd).bind fun d d' hd => ?_
  have hentities := Listing.entities_alike h.volume hd.ino cookie.toNat
  refine (Listing.pack_alike hentities buffer.length).bind fun b b' hb => ?_
  -- both listings are as long, so the counts are the same
  rw [← hb.1]
  cases hcount : countOf b.length with
  | error fault => exact .error fault
  | ok count =>
    refine .ok ?_
    have hlength := countOf_eq_ok hcount
    have hlength' : count.toNat = b'.length := hlength.trans hb.1
    simp only [Answer.veil, overwrite]
    rw [hlength, List.take_left, List.drop_left, ← hlength, hlength', List.take_left,
      List.drop_left, hb.2]

theorem preopenName_eq (h : w.Alike R w') (fd : Nat) : w.preopenName fd = w'.preopenName fd := by
  refine Hostcall.Alike.eq ((h.table.get fd).bind fun d d' hd => ?_)
  cases hd with
  | directory hd =>
    cases hd
    exact .refl _
  | file | stdio => exact .refl _

theorem fdPrestatGet_eq (h : w.Alike R w') (fd : Nat) : w.fdPrestatGet fd = w'.fdPrestatGet fd := by
  rw [World.fdPrestatGet, World.fdPrestatGet, h.preopenName_eq]

theorem fdPrestatDirName_eq (h : w.Alike R w') (fd : Nat) (buffer : Bytes) :
    w.fdPrestatDirName fd buffer = w'.fdPrestatDirName fd buffer := by
  rw [World.fdPrestatDirName, World.fdPrestatDirName, h.preopenName_eq]

/-! ## Calls on the surroundings -/

theorem veilReading_wordOf (n : Nat) : veilReading ((wordOf n).map .time) = .ok .done := by
  rw [wordOf]
  split <;> rfl

theorem veil_clockResGet (w w' : World) (id : UInt32) :
    veilReading ((w.clockResGet id).map .time) = veilReading ((w'.clockResGet id).map .time) := by
  rw [World.clockResGet, World.clockResGet]
  cases ClockId.ofRaw id with
  | error fault => rfl
  | ok clock => exact (veilReading_wordOf _).trans (veilReading_wordOf _).symm

theorem veilReading_read (clocks : Clocks) (clock : ClockId) :
    veilReading ((do (← clocks.read clock).asNanos).map .time) = .ok .done := by
  rw [Clocks.read, ClockReading.ofNanoseconds]
  split
  · change veilReading ((ClockReading.asNanos _).map .time) = _
    rw [ClockReading.asNanos]
    split
    · rfl
    · exact veilReading_wordOf _
  · rfl

theorem veil_clockTimeGet (w w' : World) (id : UInt32) (precision : UInt64) :
    veilReading ((w.clockTimeGet id precision).map .time) =
      veilReading ((w'.clockTimeGet id precision).map .time) := by
  rw [World.clockTimeGet, World.clockTimeGet]
  cases ClockId.ofRaw id with
  | error fault => rfl
  | ok clock => exact (veilReading_read _ clock).trans (veilReading_read _ clock).symm

/-- The generator never fails. -/
theorem fillBuffer_fst (stream : KeyStream) (buffer : Bytes) :
    (fillBuffer stream buffer).1 = .ok () := by
  fun_induction fillBuffer stream buffer with
  | case1 => rfl
  | case2 stream first later buffer filled message hfailed => cases hfailed
  | case3 stream first later buffer filled _ outcome rest last hrest ih =>
    rw [hrest] at ih
    exact ih

/-! ## Every call -/

/-- Answers that are equal behind the veil, and guests that look alike after them. -/
def AnsweredAlike (R : Ino → Ino → Prop) (s s' : Step Answer) : Prop :=
  s.1.map Answer.veil = s'.1.map Answer.veil ∧ s.2.Alike R s'.2

theorem changing {α : Type} {s s' : Step α} (h : StepAlike R Eq s s') (answer : α → Answer) :
    AnsweredAlike R (World.changing answer s) (World.changing answer s') := by
  refine ⟨?_, h.2⟩
  rw [World.changing, World.changing, h.1.eq]

theorem asking {α : Type} (h : w.Alike R w') {o o' : Outcome α} {answer : α → Answer}
    (ho : Hostcall.Alike (fun a a' => (answer a).veil = (answer a').veil) o o') :
    AnsweredAlike R (w.asking answer o) (w'.asking answer o') := by
  refine ⟨?_, h⟩
  cases ho with
  | ok ha => exact congrArg Except.ok ha
  | error fault => rfl

theorem asking_eq {α : Type} (h : w.Alike R w') {o o' : Outcome α} (answer : α → Answer)
    (ho : o = o') : AnsweredAlike R (w.asking answer o) (w'.asking answer o') := by
  subst ho
  exact ⟨rfl, h⟩

/-- Guests that look alike get the same answer to a call, and look alike after it. -/
theorem call (h : w.Alike R w') (hends : EndsAlike R w.volume w.ends w'.ends) (c : Call) :
    c.veil (w.call c).1 = c.veil (w'.call c).1 ∧ (w.call c).2.Alike R (w'.call c).2 := by
  cases c with
  | argsGet buffer =>
    have hargs : w.argsGet buffer = w'.argsGet buffer := by
      rw [World.argsGet, World.argsGet, h.args]
    simp only [World.call, hargs]
    exact h.asking_eq _ rfl
  | argsSizesGet =>
    refine ⟨?_, h⟩
    simp only [World.call, World.argsSizesGet, h.args]
  | environGet buffer =>
    have henv : w.environGet buffer = w'.environGet buffer := by
      rw [World.environGet, World.environGet, h.env]
    simp only [World.call, henv]
    exact h.asking_eq _ rfl
  | environSizesGet =>
    refine ⟨?_, h⟩
    simp only [World.call, World.environSizesGet, h.env]
  | clockResGet id => exact ⟨veil_clockResGet w w' id, h⟩
  | clockTimeGet id precision => exact ⟨veil_clockTimeGet w w' id precision, h⟩
  | fdClose fd => exact changing (h.fdClose fd) _
  | fdDatasync fd => exact h.asking_eq _ (h.fdDatasync fd).eq
  | fdFdstatGet fd => exact h.asking_eq _ (h.fdFdstatGet fd).eq
  | fdFdstatSetFlags fd flags => exact changing (h.fdFdstatSetFlags fd flags) _
  | fdFilestatGet fd => exact h.asking (h.fdFilestatGet fd)
  | fdFilestatSetSize fd size => exact changing (h.fdFilestatSetSize fd size) _
  | fdFilestatSetTimes fd request => exact changing (h.fdFilestatSetTimes fd request) _
  | fdPread fd buffers offset => exact h.asking_eq _ (h.fdPread fd buffers offset).eq
  | fdPrestatGet fd => exact h.asking_eq _ (h.fdPrestatGet_eq fd)
  | fdPrestatDirName fd buffer =>
    simp only [World.call, h.fdPrestatDirName_eq fd buffer]
    exact h.asking_eq _ rfl
  | fdPwrite fd buffers offset => exact changing (h.fdPwrite fd buffers offset) _
  | fdRead fd buffers => exact changing (h.fdRead hends fd buffers) _
  | fdReaddir fd buffer cookie => exact h.asking (h.fdReaddir fd buffer cookie)
  | fdRenumber source target => exact changing (h.fdRenumber source target) _
  | fdSeek fd offset whence => exact changing (h.fdSeek fd offset whence) _
  | fdSync fd => exact h.asking_eq _ (h.fdDatasync fd).eq
  | fdTell fd => exact changing (h.fdSeek fd 0 .current) _
  | fdWrite fd buffers => exact changing (h.fdWrite hends fd buffers) _
  | pathCreateDirectory dirfd path => exact changing (h.pathCreateDirectory dirfd path) _
  | pathFilestatGet dirfd lookup path => exact h.asking (h.pathFilestatGet dirfd lookup path)
  | pathFilestatSetTimes dirfd lookup path request =>
    exact changing (h.pathFilestatSetTimes hends dirfd lookup path request) _
  | pathOpen dirfd lookup path flags rights inheriting fdFlags =>
    exact changing (h.pathOpen hends dirfd lookup path flags rights inheriting fdFlags) _
  | pathRemoveDirectory dirfd path => exact changing (h.pathRemoveDirectory dirfd path) _
  | pathUnlinkFile dirfd path => exact changing (h.pathUnlinkFile dirfd path) _
  | procExit status => exact ⟨rfl, h⟩
  | randomGet buffer =>
    -- the generators part here, and nothing but later random bytes comes from them
    refine ⟨?_, h.volume, h.table, h.preopens, h.args, h.env, h.streams⟩
    simp only [World.call, World.randomGet, fillBuffer_fst]
    rfl

end World.Alike

end Hostcall
