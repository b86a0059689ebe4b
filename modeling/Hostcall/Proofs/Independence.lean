import Hostcall.Proofs.Authority
import Mathlib.Data.Nat.Bitwise

/-!
# Descriptors are independent

A call changes the resource of the id it is on and of no other, and the flags of a file are those
that were set last on it, wherever it is now.

* `World.Adjusted` is what the calls that open, close and move nothing make of the table, and
  `World.call_adjusted` says so of each of them;
* `World.get?_of_not_named` is that a call leaves what it does not name exactly as it was;
* `World.acceptedFlags` follows a resource through a run and lists the flags it was set to, and
  `World.follow_flags` says which are in force at the end;
* `World.descriptors_independent` puts both together.
-/

namespace Hostcall

/-! ## Flags -/

theorem and_eq_zero_or_self (bits : UInt64) {bit : UInt64} {i : Nat} (hbit : bit.toNat = 2 ^ i) :
    bits &&& bit = 0 ∨ bits &&& bit = bit := by
  have hand : (bits &&& bit).toNat = (bits.toNat.testBit i).toNat * bit.toNat := by
    rw [UInt64.toNat_and, hbit, Nat.and_two_pow]
  cases htest : bits.toNat.testBit i with
  | false =>
    left
    rw [← UInt64.toNat_inj, hand, htest, Bool.toNat_false, Nat.zero_mul]
    rfl
  | true =>
    right
    rw [← UInt64.toNat_inj, hand, htest, Bool.toNat_true, Nat.one_mul]

theorem and_or_distrib (a b c : UInt64) : a &&& (b ||| c) = (a &&& b) ||| (a &&& c) := by
  rw [← UInt64.toNat_inj]
  simp only [UInt64.toNat_and, UInt64.toNat_or]
  exact Nat.and_or_distrib_left _ _ _

/-- The bits of a set of flags that stay with a handle. -/
def FdFlags.kept (flags : FdFlags) : FdFlags :=
  ⟨flags.bits &&& (FdFlags.append.union FdFlags.nonblock).bits⟩

theorem FdFlags.kept_eq (flags : FdFlags) :
    flags.kept = (Flags.onlyIf (flags.contains FdFlags.append) FdFlags.append).union
      (Flags.onlyIf (flags.contains FdFlags.nonblock) FdFlags.nonblock) := by
  obtain ⟨bits⟩ := flags
  have happend : bits &&& 1 = 0 ∨ bits &&& 1 = 1 := and_eq_zero_or_self bits (i := 0) rfl
  have hnonblock : bits &&& 4 = 0 ∨ bits &&& 4 = 4 := and_eq_zero_or_self bits (i := 2) rfl
  have hkept : FdFlags.kept ⟨bits⟩ = ⟨(bits &&& 1) ||| (bits &&& 4)⟩ :=
    congrArg Flags.mk (and_or_distrib bits 1 4)
  rw [hkept]
  simp only [Flags.contains, append, nonblock]
  rcases happend with h1 | h1 <;> rcases hnonblock with h4 | h4 <;> rw [h1, h4] <;> rfl

theorem Handle.flags_setFlags (h : Handle) (flags : FdFlags) :
    (h.setFlags flags).flags = flags.kept := (FdFlags.kept_eq flags).symm

/-- What is opened and is a file has the flags that were asked for. -/
theorem Resolved.openNode_flags {r : Resolved} {v : Volume} {ends : Ino → Ends} {follow : Bool}
    {flags : OpenFlags} {access : Access} {fdFlags : FdFlags} {e : FileEntry}
    (h : (r.openNode v ends follow flags access fdFlags).1 = .ok (.file e)) :
    e.handle.flags = fdFlags.kept := by
  rw [Resolved.openNode] at h
  split at h
  · cases h
  split at h
  · split at h
    · cases h
    · obtain ⟨i, -, h⟩ := bind_eq_ok.mp h
      cases h
  · rw [Resolved.openFile] at h
    split at h
    case h_1 => cases h
    case h_2 =>
      split at h
      · cases h
      · split at h
        · cases h
        · cases h
          exact (FdFlags.kept_eq fdFlags).symm

/-! ## One call -/

namespace Call

/-- The ids that a call is on: its own, or the two of a renumbering.  A path is relative to a
directory, but what is done is not done to that descriptor. -/
def named : Call → List Nat
  | .fdClose fd | .fdDatasync fd | .fdFdstatGet fd | .fdFdstatSetFlags fd _ | .fdFilestatGet fd
  | .fdFilestatSetSize fd _ | .fdFilestatSetTimes fd _ | .fdPread fd _ _ | .fdPrestatGet fd
  | .fdPrestatDirName fd _ | .fdPwrite fd _ _ | .fdRead fd _ | .fdReaddir fd _ _ | .fdSeek fd _ _
  | .fdSync fd | .fdTell fd | .fdWrite fd _ => [fd]
  | .fdRenumber source target => [source, target]
  | _ => []

/-- The flags that a call asks to put in force for an id. -/
def flagsFor? : Call → Nat → Option FdFlags
  | .fdFdstatSetFlags id flags, fd => if id = fd then some flags else none
  | _, _ => none

end Call

namespace World

variable {w : World} {c : Call} {fd fd' : Nat} {calls : List Call}

/-- The flags that a call puts in force for the file of an id. -/
def accepted? (w : World) (c : Call) (fd : Nat) : Option FdFlags :=
  match (w.call c).1, c.flagsFor? fd with
  | .ok _, some flags => some flags
  | _, _ => none

theorem accepted?_of_error {fault : Fault} (h : (w.call c).1 = .error fault)
    (fd : Nat) : w.accepted? c fd = none := by
  rw [accepted?, h]

theorem accepted?_of_none (h : c.flagsFor? fd = none) (w : World) :
    w.accepted? c fd = none := by
  rw [accepted?, h]
  split
  case h_1 heq => cases heq
  case h_2 => rfl

theorem accepted?_of_ok {answer : Answer} (h : (w.call c).1 = .ok answer) (fd : Nat) :
    w.accepted? c fd = c.flagsFor? fd := by
  rw [accepted?, h]
  cases c.flagsFor? fd <;> rfl

/-- What a call that opens, closes and moves nothing makes of the table. -/
inductive Adjusted (w : World) (c : Call) : DescriptorTable → Prop where
  | same (hplain : ∀ fd, w.accepted? c fd = none) : Adjusted w c w.table
  /-- The cursor of the file it is on moves. -/
  | moved {fd : Nat} {e : FileEntry} (cursor : Nat) (hplain : ∀ fd, w.accepted? c fd = none)
      (hnamed : fd ∈ c.named) (he : w.table.get? fd = some (.file e)) :
      Adjusted w c (w.table.update fd (.file (e.withHandle { e.handle with cursor })))
  /-- The file it is on gets other flags. -/
  | flagged {fd : Nat} {flags : FdFlags} {e : FileEntry} (hc : c = .fdFdstatSetFlags fd flags)
      (haccepted : (w.call c).1 = .ok .done) (he : w.table.get? fd = some (.file e)) :
      Adjusted w c (w.table.update fd (.file (e.withHandle (e.handle.setFlags flags))))

theorem Adjusted.unchanged (hc : ∀ fd, c.flagsFor? fd = none) {t : DescriptorTable}
    (ht : t = w.table) : w.Adjusted c t := by
  subst ht
  exact .same fun fd => accepted?_of_none (hc fd) w

theorem fdRead_adjusted (w : World) (fd : Nat) (buffers : List Bytes) :
    w.Adjusted (.fdRead fd buffers) (w.fdRead fd buffers).2.table := by
  simp only [fdRead]
  split
  case h_1 => exact .unchanged (fun _ => rfl) rfl
  case h_2 => exact .unchanged (fun _ => rfl) rfl
  case h_3 => exact .unchanged (fun _ => rfl) rfl
  case h_4 e hget =>
    split
    case h_1 => exact .unchanged (fun _ => rfl) rfl
    case h_2 taken e' volume hread =>
      obtain ⟨-, handle, hhost, rfl⟩ := FileEntry.read_eq_ok hread
      obtain ⟨⟨cursor, rfl⟩, -⟩ := Handle.read_moves hhost
      exact .moved cursor (fun _ => accepted?_of_none rfl w) List.mem_cons_self
        (Table.get?_of_get hget)

theorem fdWrite_adjusted (w : World) (fd : Nat) (buffers : List Bytes) :
    w.Adjusted (.fdWrite fd buffers) (w.fdWrite fd buffers).2.table := by
  simp only [fdWrite]
  split
  case h_1 => exact .unchanged (fun _ => rfl) rfl
  case h_2 => exact .unchanged (fun _ => rfl) rfl
  case h_3 => exact .unchanged (fun _ => rfl) rfl
  case h_4 e hget =>
    split
    case h_1 => exact .unchanged (fun _ => rfl) rfl
    case h_2 count e' volume hwrite =>
      obtain ⟨-, handle, hhost, rfl⟩ := FileEntry.write_eq_ok hwrite
      obtain ⟨⟨cursor, rfl⟩, -⟩ := Handle.write_moves hhost
      exact .moved cursor (fun _ => accepted?_of_none rfl w) List.mem_cons_self
        (Table.get?_of_get hget)

theorem fdSeek_adjusted (hc : ∀ id, c.flagsFor? id = none) (hnamed : fd ∈ c.named)
    (w : World) (offset : Int64) (whence : Whence) :
    w.Adjusted c (w.fdSeek fd offset whence).2.table := by
  simp only [fdSeek]
  split
  · exact .unchanged hc rfl
  split
  case h_1 => exact .unchanged hc rfl
  case h_2 => exact .unchanged hc rfl
  case h_3 => exact .unchanged hc rfl
  case h_4 e hget =>
    split
    case h_1 => exact .unchanged hc rfl
    case h_2 position e' hseek =>
      obtain ⟨handle, hhost, rfl⟩ := FileEntry.seek_eq_ok hseek
      obtain ⟨cursor, rfl⟩ := Handle.seek_moves hhost
      exact .moved cursor (fun fd => accepted?_of_none (hc fd) w) hnamed (Table.get?_of_get hget)

theorem fdPwrite_table (w : World) (fd : Nat) (buffers : List Bytes) (offset : UInt64) :
    (w.fdPwrite fd buffers offset).2.table = w.table := by
  simp only [fdPwrite]
  split
  all_goals try rfl
  split <;> rfl

theorem changed_table (w : World) (outcome : Outcome Volume) :
    (w.changed outcome).2.table = w.table := by
  cases outcome <;> rfl

/-- Flags that ask for synchronised I/O are refused, and any other flags are accepted. -/
theorem fdFdstatSetFlags_file {e : FileEntry} (he : w.table.get? fd = some (.file e))
    (flags : FdFlags) : w.fdFdstatSetFlags fd flags =
      if flags.intersects FdFlags.syncFamily then
        (.error (.because .invalidArgument "cannot set DSYNC, SYNC, or RSYNC flag"), w)
      else (.ok (), w.update fd (.file (e.withHandle (e.handle.setFlags flags)))) := by
  have hfile : w.table.getFile fd = .ok e := by
    rw [DescriptorTable.getFile, Table.get_of_get? he]
    rfl
  simp only [fdFdstatSetFlags, hfile, FileEntry.setFlags]
  split
  case h_1 heq =>
    split at heq
    case isTrue hsync =>
      cases heq
      rw [if_pos hsync]
    case isFalse => cases heq
  case h_2 heq =>
    split at heq
    case isTrue => cases heq
    case isFalse hplain =>
      cases heq
      rw [if_neg hplain]

theorem fdFdstatSetFlags_adjusted (w : World) (fd : Nat) (flags : FdFlags) :
    w.Adjusted (.fdFdstatSetFlags fd flags) (w.fdFdstatSetFlags fd flags).2.table := by
  cases hfile : w.table.getFile fd with
  | error fault =>
    have hrefused : w.fdFdstatSetFlags fd flags = (.error fault, w) := by
      rw [fdFdstatSetFlags, hfile]
    rw [hrefused]
    have hfailed : (w.call (.fdFdstatSetFlags fd flags)).1 = .error fault := by
      rw [call, changing, hrefused]
      rfl
    exact .same (accepted?_of_error hfailed)
  | ok e =>
    have he := get?_of_getFile hfile
    have hstep := fdFdstatSetFlags_file he flags
    rw [hstep]
    split
    case isTrue hsync =>
      rw [if_pos hsync] at hstep
      apply Adjusted.same
      apply accepted?_of_error
      rw [call, changing, hstep]
      rfl
    case isFalse hplain =>
      rw [if_neg hplain] at hstep
      refine .flagged rfl ?_ he
      rw [call, changing, hstep]
      rfl

theorem call_adjusted (w : World) (h : c.rebinding = false) :
    w.Adjusted c (w.call c).2.table := by
  cases c with
  | pathOpen _ _ _ _ _ _ _ | fdClose _ | fdRenumber _ _ => cases h
  | fdRead fd buffers => exact w.fdRead_adjusted fd buffers
  | fdWrite fd buffers => exact w.fdWrite_adjusted fd buffers
  | fdSeek fd offset whence =>
    exact fdSeek_adjusted (fun _ => rfl) List.mem_cons_self w offset whence
  | fdTell fd => exact fdSeek_adjusted (fun _ => rfl) List.mem_cons_self w 0 .current
  | fdFdstatSetFlags fd flags => exact w.fdFdstatSetFlags_adjusted fd flags
  | fdPwrite fd buffers offset =>
    exact .unchanged (fun _ => rfl) (w.fdPwrite_table fd buffers offset)
  | fdFilestatSetSize _ _ | fdFilestatSetTimes _ _ | pathCreateDirectory _ _
  | pathFilestatSetTimes _ _ _ _ | pathRemoveDirectory _ _ | pathUnlinkFile _ _ =>
    exact .unchanged (fun _ => rfl) (w.changed_table _)
  | argsGet _ | argsSizesGet | environGet _ | environSizesGet | clockResGet _ | clockTimeGet _ _
  | fdDatasync _ | fdFdstatGet _ | fdFilestatGet _ | fdPread _ _ _ | fdPrestatGet _
  | fdPrestatDirName _ _ | fdReaddir _ _ _ | fdSync _ | pathFilestatGet _ _ _ | procExit _
  | randomGet _ => exact .unchanged (fun _ => rfl) rfl

theorem Adjusted.get?_of_not_mem {t : DescriptorTable} (h : w.Adjusted c t)
    (hfd : fd ∉ c.named) : t.get? fd = w.table.get? fd := by
  cases h with
  | same => rfl
  | @moved id e cursor _ hnamed _ =>
    apply Table.get?_update_of_ne
    rintro rfl
    exact hfd hnamed
  | @flagged id flags e hc _ _ =>
    subst hc
    apply Table.get?_update_of_ne
    rintro rfl
    exact hfd List.mem_cons_self

theorem placeAfter_of_not_named (hfd : fd ∉ c.named) :
    w.placeAfter c fd = some fd := by
  cases hanswer : (w.call c).1 with
  | error fault => exact placeAfter_of_error hanswer fd
  | ok answer =>
    cases hchange : c.change? with
    | none => exact placeAfter_of_none hchange w fd
    | some change =>
      rw [placeAfter_of_ok hanswer hchange]
      cases c with
      | fdClose id =>
        cases hchange
        exact if_neg (by simpa [Call.named] using hfd)
      | fdRenumber source target =>
        cases hchange
        simp only [Call.named, List.mem_cons, List.not_mem_nil, or_false, not_or] at hfd
        rw [Change.after, if_neg hfd.1, if_neg hfd.2]
      | _ => cases hchange

/-- A call leaves what it does not name exactly as it was. -/
theorem get?_of_not_named (hw : w.Reachable) (hfd : fd ∉ c.named) {d : Descriptor}
    (hd : w.table.get? fd = some d) : (w.call c).2.table.get? fd = some d := by
  cases hc : c.rebinding with
  | true => exact get?_placeAfter_of_rebinding hw hc hd (placeAfter_of_not_named hfd)
  | false => exact ((w.call_adjusted hc).get?_of_not_mem hfd).trans hd

/-! ## Flags in force -/

/-- The flags that the file of an id is set to in a run, wherever it is meanwhile. -/
def acceptedFlags (w : World) : List Call → Nat → List FdFlags
  | [], _ => []
  | c :: rest, fd =>
    (w.accepted? c fd).toList ++
      match w.placeAfter c fd with
      | some fd => (w.call c).2.acceptedFlags rest fd
      | none => []

theorem acceptedFlags_cons (hplace : w.placeAfter c fd = some fd') (rest : List Call) :
    w.acceptedFlags (c :: rest) fd =
      (w.accepted? c fd).toList ++ (w.call c).2.acceptedFlags rest fd' := by
  rw [acceptedFlags, hplace]

theorem Adjusted.flags {t : DescriptorTable} (h : w.Adjusted c t) {e : FileEntry}
    (he : w.table.get? fd = some (.file e)) :
    ∃ e', t.get? fd = some (.file e') ∧
      e'.handle.flags = ((w.accepted? c fd).map FdFlags.kept).getD e.handle.flags := by
  cases h with
  | same hplain =>
    rw [hplain]
    exact ⟨e, he, rfl⟩
  | @moved id e₀ cursor hplain _ he₀ =>
    rw [hplain]
    by_cases hid : fd = id
    · subst hid
      rw [he] at he₀
      cases he₀
      exact ⟨_, Table.get?_update_self he _, rfl⟩
    · exact ⟨e, (Table.get?_update_of_ne hid _ _).trans he, rfl⟩
  | @flagged id flags e₀ hc haccepted he₀ =>
    rw [accepted?_of_ok haccepted, hc, Call.flagsFor?]
    by_cases hid : fd = id
    · subst hid
      rw [he] at he₀
      cases he₀
      rw [if_pos rfl]
      exact ⟨_, Table.get?_update_self he _, Handle.flags_setFlags _ _⟩
    · rw [if_neg (Ne.symm hid)]
      exact ⟨e, (Table.get?_update_of_ne hid _ _).trans he, rfl⟩

/-- A call leaves the flags of a file as they were, unless it puts others in force. -/
theorem flags_placeAfter (hw : w.Reachable) {e : FileEntry}
    (he : w.table.get? fd = some (.file e)) (hplace : w.placeAfter c fd = some fd') :
    ∃ e', (w.call c).2.table.get? fd' = some (.file e') ∧
      e'.handle.flags = ((w.accepted? c fd).map FdFlags.kept).getD e.handle.flags := by
  cases hc : c.rebinding with
  | true =>
    have hplain : c.flagsFor? fd = none := by cases c <;> first | rfl | cases hc
    rw [accepted?_of_none hplain]
    exact ⟨e, get?_placeAfter_of_rebinding hw hc he hplace, rfl⟩
  | false =>
    rw [placeAfter_of_none (change?_of_not_rebinding hc)] at hplace
    cases hplace
    exact (w.call_adjusted hc).flags he

/-- The flags that were put in force last are the flags of a file, wherever it is by then. -/
theorem follow_flags (hw : w.Reachable) {e : FileEntry} (he : w.table.get? fd = some (.file e))
    (hfollow : w.follow calls fd = some fd') :
    ∃ e', (w.run calls).table.get? fd' = some (.file e') ∧ e'.handle.flags =
      ((w.acceptedFlags calls fd).getLast?.map FdFlags.kept).getD e.handle.flags := by
  induction calls generalizing w fd e with
  | nil =>
    cases hfollow
    exact ⟨e, he, rfl⟩
  | cons c rest ih =>
    obtain ⟨id, hplace, hrest⟩ := Option.bind_eq_some_iff.mp hfollow
    obtain ⟨e₁, he₁, hflags₁⟩ := flags_placeAfter hw he hplace
    obtain ⟨e₂, he₂, hflags₂⟩ := ih (hw.call c) he₁ hrest
    refine ⟨e₂, he₂, ?_⟩
    rw [hflags₂, hflags₁, acceptedFlags_cons hplace, List.getLast?_append]
    -- what is put in force later counts
    cases ((w.call c).2.acceptedFlags rest id).getLast? with
    | some flags => rfl
    | none => cases w.accepted? c fd <;> rfl

/-- The flags of what was opened are those it was opened with, until others are put in force. -/
theorem opened_flags (hw : w.Reachable) {o : Opening} {after : List Call} {id : Nat}
    (hanswer : (w.call o.call).1 = .ok (.descriptor id))
    (hfollow : (w.call o.call).2.follow after id = some fd) {e : FileEntry}
    (he : ((w.call o.call).2.run after).table.get? fd = some (.file e)) :
    e.handle.flags =
      (((w.call o.call).2.acceptedFlags after id).getLast?.getD o.fdFlags).kept := by
  obtain ⟨x, ⟨r, -, hopened⟩, -, htable⟩ := call_opening hanswer
  have hx : (w.call o.call).2.table.get? id = some x := by rw [htable, Function.update_self]
  obtain ⟨y, hy, hyx⟩ := get?_follow (hw.call o.call) hx hfollow
  rw [he] at hy
  cases hy
  cases x with
  | directory _ | stdio _ => cases hyx
  | file e₀ =>
    obtain ⟨e', he', hflags⟩ := follow_flags (hw.call o.call) hx hfollow
    rw [he] at he'
    cases he'
    rw [hflags, Resolved.openNode_flags hopened, Option.getD_map]

theorem fdFdstatGet_file {e : FileEntry} (he : w.table.get? fd = some (.file e)) :
    ∃ s, w.fdFdstatGet fd = .ok s ∧ s.flags = e.handle.flags := by
  rw [fdFdstatGet, Table.get_of_get? he]
  exact ⟨_, rfl, rfl⟩

theorem call_fdFdstatSetFlags_file {e : FileEntry} (he : w.table.get? fd = some (.file e))
    (flags : FdFlags) :
    if flags.intersects FdFlags.syncFamily then
      ∃ fault, fault.errno? = some .invalidArgument ∧
        w.call (.fdFdstatSetFlags fd flags) = (.error fault, w)
    else (w.call (.fdFdstatSetFlags fd flags)).1 = .ok .done := by
  have hstep := fdFdstatSetFlags_file he flags
  split
  case isTrue hsync =>
    rw [if_pos hsync] at hstep
    rw [call, changing, hstep]
    exact ⟨_, rfl, rfl⟩
  case isFalse hplain =>
    rw [if_neg hplain] at hstep
    rw [call, changing, hstep]
    rfl

/-- A call changes the resource of no id but its own, and what is told of a file are the flags
that were put in force last, or that it was opened with. -/
theorem descriptors_independent (hw : w.Reachable) :
    (∀ c fd d, fd ∉ Call.named c → w.table.get? fd = some d →
      (w.call c).2.table.get? fd = some d) ∧
    (∀ calls fd e, (w.run calls).table.get? fd = some (.file e) →
      ∃ s, (w.run calls).fdFdstatGet fd = .ok s ∧
        (∀ fd₀ e₀, w.table.get? fd₀ = some (.file e₀) → w.follow calls fd₀ = some fd →
          s.flags =
            ((w.acceptedFlags calls fd₀).getLast?.map FdFlags.kept).getD e₀.handle.flags) ∧
        (∀ before o after id, calls = before ++ Opening.call o :: after →
          ((w.run before).call o.call).1 = .ok (.descriptor id) →
          ((w.run before).call o.call).2.follow after id = some fd →
          s.flags = ((((w.run before).call o.call).2.acceptedFlags after id).getLast?.getD
            o.fdFlags).kept) ∧
        ((∃ fd₀ e₀, w.table.get? fd₀ = some (.file e₀) ∧ w.follow calls fd₀ = some fd) ∨
          ∃ before o, w.OpenedBy calls fd before o)) ∧
    ∀ calls fd e (flags : FdFlags), (w.run calls).table.get? fd = some (.file e) →
      if flags.intersects FdFlags.syncFamily then
        ∃ fault, fault.errno? = some .invalidArgument ∧
          (w.run calls).call (.fdFdstatSetFlags fd flags) = (.error fault, w.run calls)
      else ((w.run calls).call (.fdFdstatSetFlags fd flags)).1 = .ok .done := by
  refine ⟨fun c fd d hfd hd => get?_of_not_named hw hfd hd, fun calls fd e he => ?_,
    fun calls fd e flags he => call_fdFdstatSetFlags_file he flags⟩
  obtain ⟨s, hs, hflags⟩ := fdFdstatGet_file he
  refine ⟨s, hs, fun fd₀ e₀ he₀ hfollow => ?_, fun before o after id hcalls hanswer hfollow => ?_,
    ?_⟩
  · obtain ⟨e', he', hlast⟩ := follow_flags hw he₀ hfollow
    rw [he] at he'
    cases he'
    rw [hflags, hlast]
  · subst hcalls
    rw [run_append] at he
    rw [hflags, opened_flags (hw.run before) hanswer hfollow he]
  · rcases run_origin hw calls he with ⟨fd₀, y, hy, hfollow⟩ | hopened
    · obtain ⟨x, hx, hxy⟩ := get?_follow hw hy hfollow
      rw [he] at hx
      cases hx
      cases y with
      | file e₀ => exact .inl ⟨fd₀, e₀, hy, hfollow⟩
      | directory _ | stdio _ => cases hxy
    · exact .inr hopened

/-- Opens one file twice, sets the flags of one descriptor, has others refused and moves it. -/
def flaggingCalls : List Call :=
  [.pathOpen 3 .empty "log" OpenFlags.create Rights.fdWrite .empty FdFlags.append,
    .pathOpen 3 .empty "log" .empty Rights.fdWrite .empty FdFlags.append,
    .fdFdstatSetFlags 4 FdFlags.nonblock, .fdFdstatSetFlags 4 FdFlags.dsync, .fdRenumber 4 7]

theorem descriptors_independent_flagging :
    let w := (fresh nestedHost default).build [.preopen "guest" [47]]
    w.Reachable ∧
      (∃ s, (w.run flaggingCalls).fdFdstatGet 7 = .ok s ∧ s.flags = FdFlags.nonblock) ∧
      (∃ s, (w.run flaggingCalls).fdFdstatGet 5 = .ok s ∧ s.flags = FdFlags.append) ∧
      ((w.run flaggingCalls).call (.fdWrite 7 [[97]])).2.table.get? 5 =
        (w.run flaggingCalls).table.get? 5 := by
  intro w
  have hw : w.Reachable := (Reachable.fresh nestedHost default nestedHost_grounded).build _
  obtain ⟨-, hflags, -⟩ := descriptors_independent hw
  have h7 : (w.run flaggingCalls).table.get? 7 =
      some (.file ⟨⟨3, false, true, false, true, 0⟩, Access.ofRights Rights.fdWrite⟩) := by
    decide +kernel
  have h5 : (w.run flaggingCalls).table.get? 5 =
      some (.file ⟨⟨3, false, true, true, false, 0⟩, Access.ofRights Rights.fdWrite⟩) := by
    decide +kernel
  refine ⟨hw, ?_, ?_, ?_⟩
  · obtain ⟨s, hs, -, hopened, -⟩ := hflags flaggingCalls 7 _ h7
    refine ⟨s, hs, ?_⟩
    rw [hopened [] ⟨3, .empty, "log", OpenFlags.create, Rights.fdWrite, .empty, FdFlags.append⟩ _ 4
      rfl (call_opening_fst (by decide +kernel)) (by decide +kernel)]
    decide +kernel
  · obtain ⟨s, hs, -, hopened, -⟩ := hflags flaggingCalls 5 _ h5
    refine ⟨s, hs, ?_⟩
    rw [hopened (flaggingCalls.take 1)
      ⟨3, .empty, "log", .empty, Rights.fdWrite, .empty, FdFlags.append⟩ _ 5
      rfl (call_opening_fst (by decide +kernel)) (by decide +kernel)]
    decide +kernel
  · obtain ⟨hframe, -⟩ := descriptors_independent (hw.run flaggingCalls)
    rw [h5]
    exact hframe _ 5 _ (by decide) h5

end World

end Hostcall
