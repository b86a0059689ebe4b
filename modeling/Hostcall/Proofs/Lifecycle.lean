import Hostcall.Proofs.Reachable
import Mathlib.Logic.Function.Basic
import Mathlib.Order.Bounds.Basic

/-!
# The life of a descriptor

What an id stands for changes when a path is opened, an id is closed or a descriptor is
moved, and in no other call.  A standard stream is flushed before it leaves the table.

* `Descriptor.opened` is a resource without what its own transfers move;
* `Step.Keeps` says that a call leaves what every id stands for, and its lemmas go
  through the calls that do;
* `World.perform` carries out flushes and changes of the table in order, and
  `World.plan` is what closing and renumbering carry out;
* `World.call_lifecycle` puts both together for every call of a reachable guest.
-/

namespace Hostcall

/-! ## Resources -/

/-- A handle without its position and its flags, which its own transfers move. -/
def Handle.opened (h : Handle) : Handle :=
  { h with append := false, nonblock := false, cursor := 0 }

/-- A resource without what its own transfers move. -/
def Descriptor.opened : Descriptor → Descriptor
  | .file e => .file (e.withHandle e.handle.opened)
  | .directory d => .directory d
  | .stdio e => .stdio e

theorem Descriptor.eq_stdio_of_opened {d : Descriptor} {e : StdioEntry}
    (h : d.opened = (Descriptor.stdio e).opened) : d = .stdio e := by
  cases d with
  | stdio _ => exact h
  | file _ | directory _ => cases h

namespace Fifo

theorem toppingUp_le (pages : List Page) (data : Bytes) : toppingUp pages data ≤ data.length := by
  fun_induction toppingUp pages data with
  | case1 => omega
  | case2 => exact Nat.mod_le _ _
  | case3 => omega
  | case4 _ _ _ _ inductionHypothesis => exact inductionHypothesis

theorem write_fst_le (queue : Fifo) (data : Bytes) : (queue.write data).1 ≤ data.length := by
  have topped := toppingUp_le queue.pages data
  simp only [write, unread_freshPages, List.length_take, List.length_drop]
  omega

end Fifo

namespace Handle

variable {v v' : Volume} {h h' : Handle}

theorem requested_le (sizes : List Nat) : requested sizes ≤ transferLimit := Nat.min_le_right _ _

theorem length_offered_le (buffers : List Bytes) : (offered buffers).length ≤ transferLimit := by
  simp [offered]

theorem length_fitting_le (start : Nat) (data : Bytes) :
    (fitting start data).length ≤ data.length := by
  simp [fitting]

/-- A read moves the cursor of its handle and changes nothing else of it. -/
theorem read_moves {ends : Ends} {sizes : List Nat} {taken : Bytes}
    (hread : h.read v ends sizes = .ok (taken, h', v')) :
    (∃ cursor, h' = { h with cursor }) ∧ taken.length ≤ transferLimit := by
  have limit := requested_le sizes
  simp only [read] at hread
  split at hread
  · cases hread
  split at hread
  · cases hread
    exact ⟨⟨h.cursor, rfl⟩, by simp⟩
  split at hread
  -- a file, a pipe, a device and what cannot be read
  case h_1 content _ =>
    split at hread
    · cases hread
    · cases hread
      refine ⟨⟨_, rfl⟩, ?_⟩
      rw [Content.slice_eq, List.length_take]
      omega
  case h_2 queue _ =>
    have taken_le : (queue.read (requested sizes)).1.length ≤ requested sizes := by
      simp [Fifo.read]
    split at hread
    · cases hread
      exact ⟨⟨h.cursor, rfl⟩, Nat.le_trans taken_le limit⟩
    · split at hread
      · cases hread
        exact ⟨⟨h.cursor, rfl⟩, by simp⟩
      · cases hread
  case h_3 device _ =>
    cases hread
    refine ⟨⟨h.cursor, rfl⟩, ?_⟩
    cases device <;> simp [deviceBytes, limit]
  case h_4 => cases hread

theorem write_moves {ends : Ends} {buffers : List Bytes} {count : Nat}
    (hwrite : h.write v ends buffers = .ok (count, h', v')) :
    (∃ cursor, h' = { h with cursor }) ∧ count ≤ transferLimit := by
  have limit := length_offered_le buffers
  simp only [write] at hwrite
  split at hwrite
  · cases hwrite
  split at hwrite
  · cases hwrite
    exact ⟨⟨h.cursor, rfl⟩, by simp⟩
  split at hwrite
  case h_1 =>
    split at hwrite
    · cases hwrite
    split at hwrite
    · cases hwrite
    · cases hwrite
      exact ⟨⟨_, rfl⟩, Nat.le_trans (length_fitting_le _ _) limit⟩
  case h_2 queue _ =>
    split at hwrite
    · cases hwrite
    · split at hwrite
      · cases hwrite
      · cases hwrite
        exact ⟨⟨h.cursor, rfl⟩, Nat.le_trans (queue.write_fst_le _) limit⟩
  case h_3 device _ =>
    split at hwrite
    · cases hwrite
    · rename_i accepted haccepted
      cases hwrite
      cases device <;> cases haccepted <;> exact ⟨⟨h.cursor, rfl⟩, limit⟩
  case h_4 => cases hwrite

theorem seek_moves {whence : Whence} {offset : Int} {position : Nat}
    (hseek : h.seek v whence offset = .ok (position, h')) : ∃ cursor, h' = { h with cursor } := by
  rw [seek] at hseek
  split at hseek
  case h_1 => cases hseek
  case h_2 =>
    cases whence <;>
    · simp only at hseek
      split at hseek
      · cases hseek
        exact ⟨_, rfl⟩
      · cases hseek
  case h_3 =>
    cases hseek
    exact ⟨h.cursor, rfl⟩

end Handle

theorem countOf_of_le_transferLimit {n : Nat} (h : n ≤ Handle.transferLimit) :
    countOf n = .ok (UInt32.ofNat n) := by
  have bound : Handle.transferLimit < UInt32.size := by decide
  simp [countOf, Nat.lt_of_le_of_lt h bound]

/-! ## Calls that leave what ids stand for -/

/-- Two tables in which every id stands for the same resource. -/
def DescriptorTable.Same (t t' : DescriptorTable) : Prop :=
  ∀ fd, (t'.get? fd).map Descriptor.opened = (t.get? fd).map Descriptor.opened

theorem DescriptorTable.Same.update {t : DescriptorTable} {fd : Nat} {d d' : Descriptor}
    (hd : t.get? fd = some d) (h : d'.opened = d.opened) : Same t (t.update fd d') := by
  intro id
  rw [Table.get?_update]
  split
  case isTrue hid => simp [hid.1, hd, h]
  case isFalse => rfl

/-- A step after which every id stands for what it stood for, and which changes nothing at
all in the table if it fails. -/
structure Step.Keeps {α : Type} (w : World) (s : Step α) : Prop where
  same : w.table.Same s.2.table
  failed : ∀ fault, s.1 = .error fault → s.2.table = w.table

namespace Step.Keeps

variable {α β : Type} {w : World}

theorem ofTable {s : Step α} (h : s.2.table = w.table) : Keeps w s :=
  ⟨fun fd => by rw [h], fun _ _ => h⟩

theorem changing {s : Step α} {answer : α → Answer} (h : Keeps w s) :
    Keeps w (World.changing answer s) := by
  refine ⟨h.same, ?_⟩
  intro fault hfault
  rcases s with ⟨_ | a, w'⟩
  · exact h.failed _ rfl
  · cases hfault

theorem ofUpdate {fd : Nat} {e e' : FileEntry} {a : α} {host : Host}
    (he : w.table.get? fd = some (.file e))
    (hopened : (Descriptor.file e').opened = (Descriptor.file e).opened) :
    Keeps w ((.ok a, { w.update fd (.file e') with host }) : Step α) :=
  ⟨.update he hopened, nofun⟩

theorem ofChanged (outcome : Outcome Volume) : Keeps w (w.changed outcome) := by
  cases outcome <;> exact ofTable rfl

end Step.Keeps

theorem FileEntry.opened_withHandle {e : FileEntry} {handle : Handle}
    (h : handle.opened = e.handle.opened) :
    (Descriptor.file (e.withHandle handle)).opened = (Descriptor.file e).opened := by
  simp [Descriptor.opened, withHandle, h]

namespace World

variable {w : World}

theorem fdRead_keeps (w : World) (fd : Nat) (buffers : List Bytes) :
    (w.fdRead fd buffers).Keeps w := by
  simp only [fdRead]
  split
  case h_1 => exact .ofTable rfl
  case h_2 => exact .ofTable rfl
  case h_3 => exact .ofTable rfl
  case h_4 e hget =>
    split
    case h_1 => exact .ofTable rfl
    case h_2 taken e' volume hread =>
      obtain ⟨-, handle, hhost, rfl⟩ := FileEntry.read_eq_ok hread
      -- a transfer is never too long to be counted, so nothing fails behind the host's read
      obtain ⟨⟨cursor, rfl⟩, hlength⟩ := Handle.read_moves hhost
      rw [inBuffers, countOf_of_le_transferLimit hlength]
      exact .ofUpdate (Table.get?_of_get hget) (FileEntry.opened_withHandle rfl)

theorem fdWrite_keeps (w : World) (fd : Nat) (buffers : List Bytes) :
    (w.fdWrite fd buffers).Keeps w := by
  simp only [fdWrite]
  split
  case h_1 => exact .ofTable rfl
  case h_2 => exact .ofTable rfl
  case h_3 => exact .ofTable rfl
  case h_4 e hget =>
    split
    case h_1 => exact .ofTable rfl
    case h_2 count e' volume hwrite =>
      obtain ⟨-, handle, hhost, rfl⟩ := FileEntry.write_eq_ok hwrite
      obtain ⟨⟨cursor, rfl⟩, hcount⟩ := Handle.write_moves hhost
      rw [countOf_of_le_transferLimit hcount]
      exact .ofUpdate (Table.get?_of_get hget) (FileEntry.opened_withHandle rfl)

theorem fdPwrite_keeps (w : World) (fd : Nat) (buffers : List Bytes) (offset : UInt64) :
    (w.fdPwrite fd buffers offset).Keeps w := by
  apply Step.Keeps.ofTable
  simp only [fdPwrite]
  split
  all_goals try rfl
  split <;> rfl

theorem fdSeek_keeps (w : World) (fd : Nat) (offset : Int64) (whence : Whence) :
    (w.fdSeek fd offset whence).Keeps w := by
  simp only [fdSeek]
  split
  · exact .ofTable rfl
  split
  case h_1 => exact .ofTable rfl
  case h_2 => exact .ofTable rfl
  case h_3 => exact .ofTable rfl
  case h_4 e hget =>
    split
    case h_1 => exact .ofTable rfl
    case h_2 position e' hseek =>
      obtain ⟨handle, hhost, rfl⟩ := FileEntry.seek_eq_ok hseek
      obtain ⟨cursor, rfl⟩ := Handle.seek_moves hhost
      exact .ofUpdate (Table.get?_of_get hget) (FileEntry.opened_withHandle rfl)

theorem fdFdstatSetFlags_keeps (w : World) (fd : Nat) (flags : FdFlags) :
    (w.fdFdstatSetFlags fd flags).Keeps w := by
  rw [fdFdstatSetFlags]
  split
  case h_1 => exact .ofTable rfl
  case h_2 e hget =>
    split
    case h_1 => exact .ofTable rfl
    case h_2 e' hset =>
      rw [FileEntry.setFlags] at hset
      split at hset
      · cases hset
      · cases hset
        exact .ofUpdate (get?_of_getFile hget) (FileEntry.opened_withHandle rfl)

/-! ## Flushes and changes of the table -/

/-- A change of the table that a guest asks for by ids. -/
inductive Change where
  | close (fd : Nat)
  | renumber (source target : Nat)
  deriving Repr

/-- The id whose resource a change drops. -/
def Change.target : Change → Nat
  | .close fd => fd
  | .renumber _ target => target

/-- The id under which a resource is found after a change, if it is not dropped. -/
def Change.place : Change → Nat → Nat
  | .close _, fd => fd
  | .renumber source target, fd => if fd = source then target else fd

/-- What a change makes of a table that allows it. -/
def Change.Applies (t t' : DescriptorTable) : Change → Prop
  | .close fd => t.contains fd = true ∧ t'.get? = Function.update t.get? fd none
  | .renumber source target => ∃ d, t.get? source = some d ∧
      t'.get? = if source = target then t.get?
        else Function.update (Function.update t.get? target (some d)) source none

/-- Something that closing and renumbering do. -/
inductive Effect where
  | flush (stream : Stream)
  | change (c : Change)
  deriving Repr

/-- Makes a change of the table. -/
def change (w : World) : Change → Step Unit
  | .close fd =>
    let (outcome, table) := w.table.close fd
    (outcome.map fun _ => (), w.withTable table)
  | .renumber source target =>
    let (outcome, table) := w.table.renumber source target
    (outcome.map fun _ => (), w.withTable table)

/-- Does one thing. -/
def effect (w : World) : Effect → Step Unit
  | .flush stream =>
    let (outcome, streams) := w.host.streams.flush stream
    (outcome, w.withStreams streams)
  | .change c => w.change c

/-- Does one thing after another, up to the first that fails. -/
def perform (w : World) : List Effect → Step Unit
  | [] => (.ok (), w)
  | first :: rest => (w.effect first).andThen fun _ w => w.perform rest

/-- What a change drops from the table. -/
def dropped? (w : World) : Change → Option Descriptor
  | .close fd => w.table.get? fd
  | .renumber source target =>
    if source ≠ target ∧ w.table.contains source then w.table.get? target else none

/-- A change of the table, before which a stream that it drops is flushed. -/
def plan (w : World) (c : Change) : List Effect :=
  match w.dropped? c with
  | some (.stdio e) => [.flush e.stream, .change c]
  | _ => [.change c]

theorem perform_singleton (w : World) (e : Effect) : w.perform [e] = w.effect e := by
  simp only [perform, Step.andThen]
  rcases w.effect e with ⟨_ | _, w'⟩ <;> rfl

theorem perform_pair (w : World) (first second : Effect) :
    w.perform [first, second] = (w.effect first).andThen fun _ w => w.effect second := by
  rw [perform]
  congr 1
  funext _ w'
  exact w'.perform_singleton second

theorem eq_withStreams_of_flush {stream : Stream} {outcome : Outcome Unit} {w' : World}
    (h : w.effect (.flush stream) = (outcome, w')) : ∃ streams, w' = w.withStreams streams :=
  ⟨_, (congrArg Prod.snd h).symm⟩

/-- A change that the table refuses changes nothing. -/
theorem change_cases (w : World) (c : Change) :
    (∃ fault, w.change c = (.error fault, w)) ∨
      ∃ t, w.change c = (.ok (), w.withTable t) ∧ c.Applies w.table t := by
  cases c with
  | close fd =>
    simp only [change]
    cases hget : w.table.get? fd with
    | none =>
      apply Or.inl
      refine ⟨Table.notOpen fd, ?_⟩
      rw [Table.close_fst, Table.close_snd_of_none hget, Table.get, hget]
      rfl
    | some d =>
      apply Or.inr
      refine ⟨(w.table.close fd).2, ?_, Table.contains_iff.mpr ⟨d, hget⟩, ?_⟩
      · rw [Table.close_fst, Table.get_of_get? hget]
        rfl
      · funext id
        simp [Table.get?_close, Function.update_apply]
  | renumber source target =>
    simp only [change]
    cases hsource : w.table.get? source with
    | none =>
      apply Or.inl
      rw [Table.renumber_fst_of_none hsource, Table.renumber_snd_of_none hsource]
      exact ⟨_, rfl⟩
    | some d =>
      by_cases htarget : target < Table.capacity
      · apply Or.inr
        refine ⟨(w.table.renumber source target).2, ?_, d, hsource, ?_⟩
        · rw [Table.renumber_fst_of_lt hsource htarget]
          rfl
        · split
          case isTrue hself => rw [hself, Table.renumber_self_snd]
          case isFalse hne =>
            funext id
            simp [Table.get?_renumber hsource htarget hne, Function.update_apply]
      · have hle := Nat.not_lt.mp htarget
        apply Or.inl
        rw [Table.renumber_fst_of_le hsource hle, Table.renumber_snd_of_le hle]
        exact ⟨_, rfl⟩

theorem get?_of_dropped? {c : Change} {d : Descriptor} (h : w.dropped? c = some d) :
    w.table.get? c.target = some d := by
  cases c with
  | close fd => exact h
  | renumber source target =>
    rw [dropped?] at h
    split at h
    · exact h
    · cases h

theorem change_of_dropped? (hbounded : w.table.Bounded) {c : Change} {d : Descriptor}
    (h : w.dropped? c = some d) : ∃ t, w.change c = (.ok (), w.withTable t) := by
  -- what is dropped is open, so the target is an id that a table can hold
  have htarget := get?_of_dropped? h
  have hlt : c.target < Table.capacity := by
    have := Table.lt_size_of_get? htarget
    have : w.table.slots.size ≤ Table.capacity := hbounded
    omega
  cases c with
  | close fd =>
    refine ⟨(w.table.close fd).2, ?_⟩
    simp only [change, Table.close_fst]
    rw [show w.table.get fd = .ok d from Table.get_of_get? htarget]
    rfl
  | renumber source target =>
    rw [dropped?] at h
    split at h
    case isTrue hmoves =>
      obtain ⟨x, hx⟩ := Table.contains_iff.mp hmoves.2
      refine ⟨(w.table.renumber source target).2, ?_⟩
      have hlt : target < Table.capacity := hlt
      simp only [change]
      rw [Table.renumber_fst_of_lt hx hlt]
      rfl
    case isFalse => cases h

theorem plan_of_stdio {c : Change} {e : StdioEntry} (h : w.dropped? c = some (.stdio e)) :
    w.plan c = [.flush e.stream, .change c] := by
  rw [plan, h]

theorem plan_of_not_stdio {c : Change} (h : ∀ e, w.dropped? c ≠ some (.stdio e)) :
    w.plan c = [.change c] := by
  rw [plan]
  split
  case h_1 e he => exact absurd he (h e)
  case h_2 => rfl

theorem fdClose_eq_perform (w : World) (fd : Nat) :
    w.fdClose fd = w.perform (w.plan (.close fd)) := by
  rw [fdClose]
  cases hget : w.table.get? fd with
  | none =>
    rw [plan_of_not_stdio (by simp [dropped?, hget]), perform_singleton]
    simp only [effect, change, Table.close_fst]
    rw [Table.close_snd_of_none hget, Table.get, hget]
    rfl
  | some d =>
    rw [Table.get_of_get? hget]
    cases d with
    | stdio e =>
      rw [plan_of_stdio (e := e) (by simp [dropped?, hget]), perform_pair]
      rfl
    | file _ | directory _ =>
      rw [plan_of_not_stdio (by simp [dropped?, hget]), perform_singleton]
      rfl

theorem fdRenumber_eq_perform (w : World) (source target : Nat) :
    w.fdRenumber source target = w.perform (w.plan (.renumber source target)) := by
  rw [fdRenumber, flushedTarget]
  split
  case isFalse h =>
    rw [plan_of_not_stdio (by simp [dropped?, h]), perform_singleton]
    rfl
  case isTrue h =>
    cases hget : w.table.get? target with
    | none =>
      rw [plan_of_not_stdio (by simp [dropped?, hget]), perform_singleton]
      rfl
    | some d =>
      cases d with
      | stdio e =>
        rw [plan_of_stdio (e := e) (by rw [dropped?, if_pos h, hget]), perform_pair]
        rfl
      | file _ | directory _ =>
        rw [plan_of_not_stdio (by simp [dropped?, hget]), perform_singleton]
        rfl

theorem perform_plan_ok {w' : World} {c : Change} (h : w.perform (w.plan c) = (.ok (), w')) :
    c.Applies w.table w'.table ∧ ∀ e, w.dropped? c = some (.stdio e) →
      w.perform [.flush e.stream, .change c] = (.ok (), w') := by
  by_cases hstdio : ∃ e, w.dropped? c = some (.stdio e)
  · obtain ⟨e, he⟩ := hstdio
    rw [plan_of_stdio he] at h
    constructor
    · rw [perform_pair] at h
      rcases hflush : w.effect (.flush e.stream) with ⟨_ | _, w₁⟩
      · rw [hflush] at h
        cases h
      · -- the flush changed the streams, and the table is still the one before the call
        obtain ⟨streams, rfl⟩ := eq_withStreams_of_flush hflush
        rw [hflush, Step.andThen, effect] at h
        rcases (w.withStreams streams).change_cases c with ⟨fault, hchange⟩ | ⟨t, hchange, happlies⟩
        · rw [hchange] at h
          cases h
        · rw [hchange] at h
          cases h
          exact happlies
    · intro e' he'
      rw [he] at he'
      cases he'
      exact h
  · have hnone : ∀ e, w.dropped? c ≠ some (.stdio e) := fun e he => hstdio ⟨e, he⟩
    refine ⟨?_, fun e he => absurd he (hnone e)⟩
    rw [plan_of_not_stdio hnone, perform_singleton] at h
    rcases w.change_cases c with ⟨fault, hchange⟩ | ⟨t, hchange, happlies⟩
    · rw [effect, hchange] at h
      cases h
    · rw [effect, hchange] at h
      cases h
      exact happlies

/-- What fails is the flush, or the change before anything was flushed. -/
theorem perform_plan_error (hbounded : w.table.Bounded) {w' : World} {c : Change} {fault : Fault}
    (h : w.perform (w.plan c) = (.error fault, w')) :
    w'.table = w.table ∧
      ((w.perform [.change c] = (.error fault, w') ∧ w' = w) ∨
        ∃ e, w.table.get? c.target = some (.stdio e) ∧
          w.perform [.flush e.stream] = (.error fault, w')) := by
  by_cases hstdio : ∃ e, w.dropped? c = some (.stdio e)
  · obtain ⟨e, he⟩ := hstdio
    rw [plan_of_stdio he, perform_pair] at h
    rcases hflush : w.effect (.flush e.stream) with ⟨fault' | _, w₁⟩
    · rw [hflush] at h
      cases h
      obtain ⟨streams, rfl⟩ := eq_withStreams_of_flush hflush
      refine ⟨rfl, .inr ⟨e, get?_of_dropped? he, ?_⟩⟩
      rw [perform_singleton, hflush]
    · -- behind a flush nothing fails any more
      obtain ⟨streams, rfl⟩ := eq_withStreams_of_flush hflush
      have hallowed : (w.withStreams streams).table.Bounded := hbounded
      obtain ⟨t, hchange⟩ := change_of_dropped? hallowed he
      rw [hflush, Step.andThen, effect, hchange] at h
      cases h
  · have hnone : ∀ e, w.dropped? c ≠ some (.stdio e) := fun e he => hstdio ⟨e, he⟩
    rw [plan_of_not_stdio hnone] at h
    rcases w.change_cases c with ⟨fault', hchange⟩ | ⟨t, hchange, -⟩
    · rw [perform_singleton, effect, hchange] at h
      cases h
      refine ⟨rfl, .inl ⟨?_, rfl⟩⟩
      rw [perform_singleton, effect, hchange]
    · rw [perform_singleton, effect, hchange] at h
      cases h

/-! ## Every call -/

end World

namespace Call

/-- Whether a call may change what an id stands for. -/
def rebinding : Call → Bool
  | .pathOpen .. | .fdClose _ | .fdRenumber _ _ => true
  | _ => false

/-- The change of the table that a call asks for by ids. -/
def change? : Call → Option World.Change
  | .fdClose fd => some (.close fd)
  | .fdRenumber source target => some (.renumber source target)
  | _ => none

/-- What a call that gave an answer made of the table. -/
def Rebinds (answer : Answer) (t t' : DescriptorTable) : Call → Prop
  | .pathOpen .. => ∃ fd d, answer = .descriptor fd ∧
      IsLeast {id | Table.firstAllocated ≤ id ∧ t.get? id = none} fd ∧
      t'.get? = Function.update t.get? fd (some d)
  | .fdClose fd => (World.Change.close fd).Applies t t'
  | .fdRenumber source target => (World.Change.renumber source target).Applies t t'
  | _ => t.Same t'

end Call

namespace World

variable {w : World}

/-- An open that succeeds gives the least free id to what it opened on the host. -/
theorem pathOpen_eq_ok {dirfd : Nat} {lookup : LookupFlags} {path : String} {flags : OpenFlags}
    {rights inheriting : Rights} {fdFlags : FdFlags} {fd : Nat}
    (h : (w.pathOpen dirfd lookup path flags rights inheriting fdFlags).1 = .ok fd) :
    ∃ r d v, w.resolve dirfd path = .ok r ∧
      r.openNode w.volume w.ends (lookup.contains LookupFlags.symlinkFollow) flags
        (Access.ofRights rights) fdFlags = (.ok d, v) ∧
      w.table.leastFree? = some fd ∧
      (w.pathOpen dirfd lookup path flags rights inheriting fdFlags).2.table.get? =
        Function.update w.table.get? fd (some d) := by
  rw [pathOpen] at h ⊢
  split at h
  case h_1 => cases h
  case h_2 r hr =>
    rcases hopened : r.openNode w.volume w.ends (lookup.contains LookupFlags.symlinkFollow) flags
      (Access.ofRights rights) fdFlags with ⟨_ | d, v⟩
    · rw [hopened] at h
      cases h
    · rw [hopened] at h
      change ((w.withVolume v).allocate d).1 = .ok fd at h
      cases hfree : (w.withVolume v).table.leastFree? with
      | none =>
        rw [allocate_of_full hfree] at h
        cases h
      | some id =>
        rw [allocate_of_free hfree] at h
        cases h
        refine ⟨r, d, v, hr, hopened, hfree, ?_⟩
        change (w.table.allocate d).2.get? = _
        have hleast : w.table.leastFree? = some fd := hfree
        funext id
        simp [Table.get?_allocate, hleast, Function.update_apply, eq_comm]

theorem pathOpen_rebinds {dirfd : Nat} {lookup : LookupFlags} {path : String} {flags : OpenFlags}
    {rights inheriting : Rights} {fdFlags : FdFlags} {fd : Nat}
    (h : (w.pathOpen dirfd lookup path flags rights inheriting fdFlags).1 = .ok fd) :
    IsLeast {id | Table.firstAllocated ≤ id ∧ w.table.get? id = none} fd ∧
      ∃ d, (w.pathOpen dirfd lookup path flags rights inheriting fdFlags).2.table.get? =
        Function.update w.table.get? fd (some d) := by
  obtain ⟨r, d, v, -, -, hfree, hget⟩ := pathOpen_eq_ok h
  obtain ⟨hle, -, hnone, hbefore⟩ := Table.leastFree?_eq_some_iff.mp hfree
  refine ⟨⟨⟨hle, hnone⟩, ?_⟩, d, hget⟩
  intro id hid
  by_contra hlt
  exact hbefore id hid.1 (Nat.not_le.mp hlt) hid.2

theorem allocate_failed {d : Descriptor} {fault : Fault} (h : (w.allocate d).1 = .error fault) :
    w.table.leastFree? = none ∧ fault = .because .tooManyOpenFiles "descriptor table is full" ∧
      (w.allocate d).2 = w := by
  cases hfree : w.table.leastFree? with
  | some fd =>
    rw [allocate_of_free hfree] at h
    cases h
  | none =>
    rw [allocate_of_full hfree] at h ⊢
    cases h
    exact ⟨rfl, rfl, rfl⟩

theorem pathOpen_failed {dirfd : Nat} {lookup : LookupFlags} {path : String} {flags : OpenFlags}
    {rights inheriting : Rights} {fdFlags : FdFlags} {fault : Fault}
    (h : (w.pathOpen dirfd lookup path flags rights inheriting fdFlags).1 = .error fault) :
    (w.pathOpen dirfd lookup path flags rights inheriting fdFlags).2.table = w.table := by
  rw [pathOpen] at h ⊢
  split at h
  case h_1 => rfl
  case h_2 r _ =>
    rcases hopened : r.openNode w.volume w.ends (lookup.contains LookupFlags.symlinkFollow) flags
      (Access.ofRights rights) fdFlags with ⟨_ | d, v⟩
    · rfl
    · rw [hopened] at h
      obtain ⟨-, -, hsame⟩ := allocate_failed h
      change ((w.withVolume v).allocate d).2.table = w.table
      rw [hsame]
      rfl

theorem call_keeps (w : World) {c : Call} (h : c.rebinding = false) : (w.call c).Keeps w := by
  cases c with
  | pathOpen _ _ _ _ _ _ _ | fdClose _ | fdRenumber _ _ => cases h
  | fdRead fd buffers => exact (w.fdRead_keeps fd buffers).changing
  | fdWrite fd buffers => exact (w.fdWrite_keeps fd buffers).changing
  | fdPwrite fd buffers offset => exact (w.fdPwrite_keeps fd buffers offset).changing
  | fdSeek fd offset whence => exact (w.fdSeek_keeps fd offset whence).changing
  | fdTell fd => exact (w.fdSeek_keeps fd 0 .current).changing
  | fdFdstatSetFlags fd flags => exact (w.fdFdstatSetFlags_keeps fd flags).changing
  -- these change the file system at most
  | fdFilestatSetSize _ _ | fdFilestatSetTimes _ _ | pathCreateDirectory _ _
  | pathFilestatSetTimes _ _ _ _ | pathRemoveDirectory _ _ | pathUnlinkFile _ _ =>
    exact (Step.Keeps.ofChanged _).changing
  | argsGet _ | argsSizesGet | environGet _ | environSizesGet | clockResGet _ | clockTimeGet _ _
  | fdDatasync _ | fdFdstatGet _ | fdFilestatGet _ | fdPread _ _ _ | fdPrestatGet _
  | fdPrestatDirName _ _ | fdReaddir _ _ _ | fdSync _ | pathFilestatGet _ _ _ | procExit _
  | randomGet _ => exact .ofTable rfl

theorem call_eq_perform {c : Call} {change : Change} (h : c.change? = some change) :
    w.call c = changing (fun _ => .done) (w.perform (w.plan change)) := by
  cases c with
  | fdClose fd =>
    cases h
    rw [← fdClose_eq_perform]
    rfl
  | fdRenumber source target =>
    cases h
    rw [← fdRenumber_eq_perform]
    rfl
  | _ => cases h

theorem changing_fst_eq_ok {α : Type} {answer : α → Answer} {s : Step α} {a : Answer}
    (h : (changing answer s).1 = .ok a) : ∃ x, s = (.ok x, (changing answer s).2) ∧ answer x = a := by
  obtain ⟨x, hx, ha⟩ := map_eq_ok.mp h
  exact ⟨x, Prod.ext hx rfl, ha⟩

theorem changing_fst_eq_error {α : Type} {answer : α → Answer} {s : Step α} {fault : Fault}
    (h : (changing answer s).1 = .error fault) : s = (.error fault, (changing answer s).2) := by
  rcases s with ⟨_ | _, w'⟩ <;> cases h
  rfl

theorem call_rebinds {c : Call} {answer : Answer} (h : (w.call c).1 = .ok answer) :
    c.Rebinds answer w.table (w.call c).2.table := by
  cases hchange : c.change? with
  | some change =>
    rw [call_eq_perform hchange] at h ⊢
    obtain ⟨_, hperform, -⟩ := changing_fst_eq_ok h
    have happlies := (perform_plan_ok hperform).1
    cases c <;> cases hchange <;> exact happlies
  | none =>
    cases c with
    | pathOpen dirfd lookup path flags rights inheriting fdFlags =>
      obtain ⟨fd, hopen, hanswer⟩ := changing_fst_eq_ok h
      obtain ⟨hleast, d, hd⟩ := pathOpen_rebinds (congrArg Prod.fst hopen)
      exact ⟨fd, d, hanswer.symm, hleast, hd⟩
    | fdClose fd | fdRenumber source target => cases hchange
    | _ => exact (w.call_keeps rfl).same

theorem call_failed {c : Call} {fault : Fault} (hbounded : w.table.Bounded)
    (h : (w.call c).1 = .error fault) : (w.call c).2.table = w.table := by
  cases hchange : c.change? with
  | some change =>
    rw [call_eq_perform hchange] at h ⊢
    exact (perform_plan_error hbounded (changing_fst_eq_error h)).1
  | none =>
    cases c with
    | pathOpen dirfd lookup path flags rights inheriting fdFlags =>
      have hopen := changing_fst_eq_error h
      exact pathOpen_failed (congrArg Prod.fst hopen)
    | fdClose fd | fdRenumber source target => cases hchange
    | _ => exact (w.call_keeps rfl).failed fault h

theorem stdio_after_change {c : Change} {w' : World} (h : w.perform (w.plan c) = (.ok (), w'))
    {fd : Nat} {e : StdioEntry} (he : w.table.get? fd = some (.stdio e)) :
    w'.table.get? (c.place fd) = some (.stdio e) ∨
      (c.target = fd ∧ w.perform [.flush e.stream, .change c] = (.ok (), w')) := by
  obtain ⟨happlies, hflush⟩ := perform_plan_ok h
  cases c with
  | close id =>
    by_cases hid : id = fd
    · subst hid
      exact .inr ⟨rfl, hflush e he⟩
    · apply Or.inl
      rw [happlies.2, Change.place, Function.update_of_ne (Ne.symm hid), he]
  | renumber source target =>
    obtain ⟨d, hd, htable⟩ := happlies
    rw [htable, Change.place]
    by_cases hself : source = target
    · apply Or.inl
      rw [if_pos hself]
      split
      case isTrue hfd => rw [← hself, ← hfd, he]
      case isFalse => exact he
    rw [if_neg hself]
    by_cases hsource : fd = source
    · -- the stream is what moves
      apply Or.inl
      rw [if_pos hsource, Function.update_of_ne (Ne.symm hself), Function.update_self, ← hd,
        ← hsource, he]
    rw [if_neg hsource]
    by_cases htarget : target = fd
    · -- the stream is what has to make room
      refine .inr ⟨htarget, hflush e ?_⟩
      rw [dropped?, if_pos ⟨hself, Table.contains_iff.mpr ⟨d, hd⟩⟩, htarget, he]
    · apply Or.inl
      rw [Function.update_of_ne hsource, Function.update_of_ne (Ne.symm htarget), he]

theorem stdio_after_call {c : Call} {answer : Answer} (h : (w.call c).1 = .ok answer)
    (hchange : c.change? = none) {fd : Nat} {e : StdioEntry}
    (he : w.table.get? fd = some (.stdio e)) :
    (w.call c).2.table.get? fd = some (.stdio e) := by
  have hrebinds := call_rebinds h
  by_cases hsteady : c.rebinding = false
  · have hopened := (w.call_keeps hsteady).same fd
    rw [he, Option.map_some, Option.map_eq_some_iff] at hopened
    obtain ⟨d, hd, hopened⟩ := hopened
    rw [hd, Descriptor.eq_stdio_of_opened hopened]
  · cases c with
    | pathOpen dirfd lookup path flags rights inheriting fdFlags =>
      obtain ⟨id, d, -, hleast, htable⟩ := hrebinds
      rw [htable, Function.update_of_ne, he]
      -- an id that is open is not the free one
      rintro rfl
      rw [hleast.1.2] at he
      cases he
    | fdClose _ | fdRenumber _ _ => cases hchange
    | _ => exact absurd rfl hsteady

/-- In every call of a reachable guest, whatever its streams do when they are flushed, the table
changes as the call says if it succeeds and not at all if it fails.  A stream that leaves the
table was flushed once just before, and apart from a flush that fails nothing is flushed in a
call that fails. -/
theorem call_lifecycle (hw : w.Reachable) (c : Call) :
    (∀ answer, (w.call c).1 = .ok answer →
      c.Rebinds answer w.table (w.call c).2.table ∧
      ∀ fd e, w.table.get? fd = some (.stdio e) →
        match c.change? with
        | none => (w.call c).2.table.get? fd = some (.stdio e)
        | some change =>
          (w.call c).2.table.get? (change.place fd) = some (.stdio e) ∨
            (change.target = fd ∧
              w.perform [.flush e.stream, .change change] = (.ok (), (w.call c).2))) ∧
    ∀ fault, (w.call c).1 = .error fault →
      (w.call c).2.table = w.table ∧
      ∀ change, c.change? = some change →
        (w.perform [.change change] = (.error fault, (w.call c).2) ∧ (w.call c).2 = w) ∨
          ∃ e, w.table.get? change.target = some (.stdio e) ∧
            w.perform [.flush e.stream] = (.error fault, (w.call c).2) := by
  have hbounded := hw.sound.bounded
  constructor
  · intro answer h
    refine ⟨call_rebinds h, fun fd e he => ?_⟩
    split
    case h_1 hchange => exact stdio_after_call h hchange he
    case h_2 change hchange =>
      rw [call_eq_perform hchange] at h ⊢
      obtain ⟨_, hperform, -⟩ := changing_fst_eq_ok h
      exact stdio_after_change hperform he
  · intro fault h
    refine ⟨call_failed hbounded h, fun change hchange => ?_⟩
    rw [call_eq_perform hchange] at h ⊢
    exact (perform_plan_error hbounded (changing_fst_eq_error h)).2

/-- A host with a stream that cannot be flushed at first. -/
def reluctantHost : Host :=
  ⟨.new default, ⟨#[], #[.new (.scripted [] [.failed (.code 5), .done ()])], default⟩, default, []⟩

/-- A guest whose output is that stream. -/
def reluctant : World := ((fresh reluctantHost default).configure (.stdio .stdout (.writer 0))).2

theorem call_lifecycle_reluctant :
    let again := (reluctant.call (.fdClose 1)).2
    reluctant.Reachable ∧ again.table = reluctant.table ∧
      (again.call (.fdRenumber 0 1)).2.table.get? 1 = reluctant.table.get? 0 := by
  intro again
  have hreachable : reluctant.Reachable :=
    (Reachable.fresh reluctantHost default Volume.grounded_new).configure _
  have hfailed : (reluctant.call (.fdClose 1)).1 = .error (.ofHost (.code 5)) := rfl
  have hdone : (again.call (.fdRenumber 0 1)).1 = .ok .done := rfl
  have htable : again.table = reluctant.table := ((call_lifecycle hreachable _).2 _ hfailed).1
  obtain ⟨d, hd, hmoved⟩ := ((call_lifecycle (hreachable.call _) _).1 _ hdone).1
  refine ⟨hreachable, htable, ?_⟩
  rw [hmoved, ← htable, hd]
  rfl

end World

end Hostcall
