import Hostcall.Proofs.Alike.Host
import Hostcall.Proofs.Table
import Hostcall.World

/-!
# Guests that look alike

* `Table.Alike` compares tables id by id, and every operation keeps tables alike;
* `Descriptor.Alike` and `Preopen.Alike` compare what a guest holds;
* `World.Alike` compares guests together with their hosts, and `World.Alike.ends` says that
  the holders of named pipes are counted alike.
-/

namespace Hostcall

/-! ## Tables -/

/-- Tables that bind the same ids to related resources. -/
def Table.Alike {α : Type} (S : α → α → Prop) (t t' : Table α) : Prop :=
  ∀ id, Option.Rel S (t.get? id) (t'.get? id)

namespace Table.Alike

variable {α : Type} {S : α → α → Prop} {t t' : Table α}

theorem contains_eq (h : t.Alike S t') (id : Nat) : t.contains id = t'.contains id := by
  have hid := h id
  rw [contains, contains]
  generalize t.get? id = slot at hid ⊢
  generalize t'.get? id = slot' at hid ⊢
  cases hid <;> rfl

theorem get (h : t.Alike S t') (id : Nat) : Hostcall.Alike S (t.get id) (t'.get id) := by
  have hid := h id
  rw [Table.get, Table.get]
  generalize t.get? id = slot at hid ⊢
  generalize t'.get? id = slot' at hid ⊢
  cases hid with
  | some hx => exact .ok hx
  | none => exact .error _

theorem get?_eq_none_iff (h : t.Alike S t') (id : Nat) :
    t.get? id = none ↔ t'.get? id = none := by
  have hid := h id
  generalize t.get? id = slot at hid ⊢
  generalize t'.get? id = slot' at hid ⊢
  cases hid <;> simp

theorem leastFree?_eq (h : t.Alike S t') : t.leastFree? = t'.leastFree? := by
  have hcontains : t.contains = t'.contains := funext h.contains_eq
  rw [leastFree?, leastFree?, hcontains]

theorem keys_eq (h : t.Alike S t') : t.keys = t'.keys := by
  have hcontains : t.contains = t'.contains := funext h.contains_eq
  -- the tables may have different numbers of slots, so both are searched as far
  rw [keys_eq_filter_range (Nat.le_max_left t.slots.size t'.slots.size),
    keys_eq_filter_range (Nat.le_max_right t.slots.size t'.slots.size), hcontains]

theorem toList (h : t.Alike S t') :
    List.Forall₂ (fun e e' => S e.2 e'.2) t.toList t'.toList := by
  rw [Table.toList, Table.toList, h.keys_eq]
  refine List.rel_filterMap (R := Eq) (fun id id' hid => ?_) (List.forall₂_refl _)
  subst hid
  have hid := h id
  generalize t.get? id = slot at hid ⊢
  generalize t'.get? id = slot' at hid ⊢
  cases hid with
  | some hx => exact .some hx
  | none => exact .none

theorem allocate (h : t.Alike S t') {x x' : α} (hx : S x x') :
    (t.allocate x).1 = (t'.allocate x').1 ∧ (t.allocate x).2.Alike S (t'.allocate x').2 := by
  refine ⟨?_, fun id => ?_⟩
  · rw [allocate_fst, allocate_fst, h.leastFree?_eq]
  · rw [get?_allocate, get?_allocate, h.leastFree?_eq]
    split
    · exact .some hx
    · exact h id

theorem insertAt (h : t.Alike S t') {id : Nat} (hid : id < capacity) {x x' : α} (hx : S x x') :
    (t.insertAt id x).2.Alike S (t'.insertAt id x').2 := by
  intro j
  rw [get?_insertAt hid, get?_insertAt hid]
  split
  · exact .some hx
  · exact h j

theorem update (h : t.Alike S t') (id : Nat) {x x' : α} (hx : S x x') :
    (t.update id x).Alike S (t'.update id x') := by
  intro j
  rw [get?_update, get?_update, h.contains_eq]
  split
  · exact .some hx
  · exact h j

theorem close (h : t.Alike S t') (id : Nat) :
    Hostcall.Alike S (t.close id).1 (t'.close id).1 ∧
      (t.close id).2.Alike S (t'.close id).2 := by
  refine ⟨?_, fun j => ?_⟩
  · rw [close_fst, close_fst]
    exact h.get id
  · rw [get?_close, get?_close]
    split
    · exact .none
    · exact h j

theorem renumber (h : t.Alike S t') (source target : Nat) :
    Hostcall.Alike (Option.Rel S) (t.renumber source target).1 (t'.renumber source target).1 ∧
      (t.renumber source target).2.Alike S (t'.renumber source target).2 := by
  cases hx : t.get? source with
  | none =>
    have hx' := (h.get?_eq_none_iff source).mp hx
    rw [renumber_fst_of_none hx, renumber_fst_of_none hx', renumber_snd_of_none hx,
      renumber_snd_of_none hx']
    exact ⟨.error _, h⟩
  | some x =>
    have hsource := h source
    rw [hx] at hsource
    cases hx' : t'.get? source with
    | none =>
      rw [hx'] at hsource
      cases hsource
    | some x' =>
      rw [hx'] at hsource
      by_cases htarget : target < capacity
      · rw [renumber_fst_of_lt hx htarget, renumber_fst_of_lt hx' htarget]
        by_cases hself : source = target
        · subst hself
          rw [renumber_self_snd, renumber_self_snd, if_pos rfl, if_pos rfl]
          exact ⟨.ok .none, h⟩
        · rw [if_neg hself, if_neg hself]
          refine ⟨.ok (h target), fun j => ?_⟩
          rw [get?_renumber hx htarget hself, get?_renumber hx' htarget hself]
          split
          · exact .none
          · split
            · exact hsource
            · exact h j
      · rw [renumber_fst_of_le hx (Nat.not_lt.mp htarget),
          renumber_fst_of_le hx' (Nat.not_lt.mp htarget),
          renumber_snd_of_le (Nat.not_lt.mp htarget), renumber_snd_of_le (Nat.not_lt.mp htarget)]
        exact ⟨.error _, h⟩

end Table.Alike

/-! ## What a guest holds -/

variable {R : Ino → Ino → Prop}

/-- Open files over handles that are used alike. -/
inductive FileEntry.Alike (R : Ino → Ino → Prop) : FileEntry → FileEntry → Prop where
  | mk {handle handle' : Handle} (h : handle.Alike R handle') (access : Access) :
      FileEntry.Alike R ⟨handle, access⟩ ⟨handle', access⟩

/-- Open directories at the same place. -/
inductive Directory.Alike (R : Ino → Ino → Prop) : Directory → Directory → Prop where
  | mk {i j : Ino} (h : R i j) (preopen : Nat) (relative : List String)
      (guestName : Option Bytes) :
      Directory.Alike R ⟨preopen, relative, guestName, i⟩ ⟨preopen, relative, guestName, j⟩

/-- Descriptors that are used alike. -/
inductive Descriptor.Alike (R : Ino → Ino → Prop) : Descriptor → Descriptor → Prop where
  | file {e e' : FileEntry} (h : e.Alike R e') : Descriptor.Alike R (.file e) (.file e')
  | directory {d d' : Directory} (h : d.Alike R d') :
      Descriptor.Alike R (.directory d) (.directory d')
  | stdio (e : StdioEntry) : Descriptor.Alike R (.stdio e) (.stdio e)

/-- Preopens of related roots that go by the same names. -/
inductive Preopen.Alike (R : Ino → Ino → Prop) : Preopen → Preopen → Prop where
  | mk {i j : Ino} (h : R i j) (fd : Nat) (guest : Bytes) (host : String) :
      Preopen.Alike R ⟨fd, guest, host, i⟩ ⟨fd, guest, host, j⟩

theorem FileEntry.Alike.handle {e e' : FileEntry} (h : e.Alike R e') :
    e.handle.Alike R e'.handle := by
  cases h with
  | mk h => exact h

theorem FileEntry.Alike.access_eq {e e' : FileEntry} (h : e.Alike R e') : e.access = e'.access := by
  cases h
  rfl

theorem FileEntry.Alike.withHandle {e e' : FileEntry} (h : e.Alike R e') {handle handle' : Handle}
    (hh : handle.Alike R handle') : (e.withHandle handle).Alike R (e'.withHandle handle') := by
  cases h with
  | mk => exact .mk hh _

theorem Directory.Alike.ino {d d' : Directory} (h : d.Alike R d') : R d.ino d'.ino := by
  cases h with
  | mk h => exact h

theorem getFile_alike {t t' : DescriptorTable} (h : t.Alike (Descriptor.Alike R) t') (fd : Nat) :
    Alike (FileEntry.Alike R) (t.getFile fd) (t'.getFile fd) := by
  refine (h.get fd).bind fun d d' hd => ?_
  cases hd with
  | file he => exact .ok he
  | directory | stdio => exact .error _

theorem getDirectory_alike {t t' : DescriptorTable} (h : t.Alike (Descriptor.Alike R) t')
    (fd : Nat) : Alike (Directory.Alike R) (t.getDirectory fd) (t'.getDirectory fd) := by
  refine (h.get fd).bind fun d d' hd => ?_
  cases hd with
  | directory hd => exact .ok hd
  | file | stdio => exact .error _

/-! ## Holders of named pipes -/

theorem endsOf_append (handles others : List Handle) (i : Ino) :
    Handle.endsOf (handles ++ others) i =
      ⟨(Handle.endsOf handles i).readers + (Handle.endsOf others i).readers,
        (Handle.endsOf handles i).writers + (Handle.endsOf others i).writers⟩ := by
  simp [Handle.endsOf]

theorem endsOf_alike (hR : Relator.BiUnique R) {handles handles' : List Handle}
    (h : List.Forall₂ (Handle.Alike R) handles handles') {i j : Ino} (hij : R i j) :
    Handle.endsOf handles i = Handle.endsOf handles' j := by
  induction h with
  | nil => rfl
  | @cons handle handle' rest rest' hh _ ih =>
    have hone : Handle.endsOf [handle] i = Handle.endsOf [handle'] j := by
      cases hh with
      | @mk k l hkl =>
        -- one of two related handles is on the node exactly when the other is
        have hsame : (k == i) = (l == j) := by
          rw [Bool.eq_iff_iff, beq_iff_eq, beq_iff_eq]
          exact ⟨fun hk => hR.2 hkl (hk ▸ hij), fun hl => hR.1 hkl (hl ▸ hij)⟩
        simp only [Handle.endsOf, List.filter_cons, List.filter_nil, hsame]
        split <;> rfl
    rw [← List.singleton_append, endsOf_append, hone, ih, ← endsOf_append]
    rfl

theorem handles_alike {t t' : DescriptorTable} (h : t.Alike (Descriptor.Alike R) t') :
    List.Forall₂ (Handle.Alike R) t.handles t'.handles := by
  refine List.rel_filterMap (fun e e' he => ?_) h.toList
  obtain ⟨id, d⟩ := e
  obtain ⟨id', d'⟩ := e'
  cases (he : Descriptor.Alike R d d') with
  | file he => exact .some he.handle
  | directory | stdio => exact .none

/-! ## Guests on their hosts -/

/-- Guests that hold the same on hosts that look alike.  Their clocks, their random bytes and
the other holders of pipes may differ. -/
structure World.Alike (R : Ino → Ino → Prop) (w w' : World) : Prop where
  volume : w.volume.Alike R w'.volume
  table : w.table.Alike (Descriptor.Alike R) w'.table
  preopens : List.Forall₂ (Preopen.Alike R) w.context.preopens w'.context.preopens
  args : w.context.args = w'.context.args
  env : w.context.env = w'.context.env
  streams : w.host.streams = w'.host.streams

/-- Other programs hold the same named pipes. -/
def World.PeersAlike (R : Ino → Ino → Prop) (w w' : World) : Prop :=
  EndsAlike R w.volume (Handle.endsOf (w.host.peers.map (·.2)))
    (Handle.endsOf (w'.host.peers.map (·.2)))

namespace World.Alike

variable {w w' : World}

theorem ends (h : w.Alike R w') (hpeers : w.PeersAlike R w') :
    EndsAlike R w.volume w.ends w'.ends := by
  intro i j queue hij hqueue
  rw [World.ends, World.ends, endsOf_append, endsOf_append,
    endsOf_alike h.volume.unique (handles_alike h.table) hij, hpeers i j queue hij hqueue]

theorem withVolume (h : w.Alike R w') {v v' : Volume} (hv : v.Alike R v') :
    (w.withVolume v).Alike R (w'.withVolume v') :=
  ⟨hv, h.table, h.preopens, h.args, h.env, h.streams⟩

theorem withTable (h : w.Alike R w') {t t' : DescriptorTable}
    (ht : t.Alike (Descriptor.Alike R) t') : (w.withTable t).Alike R (w'.withTable t') :=
  ⟨h.volume, ht, h.preopens, h.args, h.env, h.streams⟩

theorem withStreams (h : w.Alike R w') (streams : Streams) :
    (w.withStreams streams).Alike R (w'.withStreams streams) :=
  ⟨h.volume, h.table, h.preopens, h.args, h.env, rfl⟩

theorem update (h : w.Alike R w') (fd : Nat) {d d' : Descriptor} (hd : d.Alike R d') :
    (w.update fd d).Alike R (w'.update fd d') := h.withTable (h.table.update fd hd)

end World.Alike

end Hostcall
