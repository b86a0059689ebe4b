import Hostcall.Proofs.Authority
import Hostcall.Proofs.Layout

/-!
# Directions of the standard streams

A standard stream is read or it is written, whatever id its entry was moved to, for the direction
belongs to the entry.

* `StreamUse` is what a call may ask of a stream, and `World.use?` finds it in the table;
* `World.Asks` says that a call has to do with the streams of the host through one use only, or
  not at all, and `World.call_asks` says so of every call;
* `World.uses` are the uses of a run, and `World.streams_directed` says which there can be.
-/

namespace Hostcall

/-! ## Uses -/

/-- A use of a standard stream. -/
inductive StreamUse where
  | read (e : StdioEntry) (sizes : List Nat)
  | write (e : StdioEntry) (buffers : List Bytes)
  | flush (e : StdioEntry)
  deriving DecidableEq, Repr

namespace StreamUse

/-- The stream that is used. -/
def entry : StreamUse → StdioEntry
  | read e _ | write e _ | flush e => e

/-- What a stream answers to a use. -/
def Reply : StreamUse → Type
  | read _ _ => Outcome Bytes
  | write _ _ => Outcome Nat
  | flush _ => Outcome Unit

/-- Carries a use out. -/
def ask (s : Streams) : (u : StreamUse) → u.Reply × Streams
  | read e sizes => s.read e.stream sizes
  | write e buffers => s.write e.stream buffers
  | flush e => s.flush e.stream

/-- Whether a stream is read that is an input, or written that is an output. -/
def Directed : StreamUse → Prop
  | read e _ => e.kind = .stdin
  | write e _ => e.kind = .stdout ∨ e.kind = .stderr
  | flush _ => True

end StreamUse

namespace StdioEntry

variable {e : StdioEntry}

theorem read_input (h : e.kind = .stdin) (s : Streams) (sizes : List Nat) :
    e.read s sizes = s.read e.stream sizes := by
  rw [read, h]
  rfl

theorem read_output (h : e.kind ≠ .stdin) (s : Streams) (sizes : List Nat) :
    e.read s sizes =
      (.error (.because .badFileDescriptor (e.kind.name ++ " is not readable")), s) := by
  rw [read, if_neg]
  cases hkind : e.kind with
  | stdin => exact absurd hkind h
  | stdout | stderr => decide

theorem write_output (h : e.kind ≠ .stdin) (s : Streams) (buffers : List Bytes) :
    e.write s buffers = s.write e.stream buffers := by
  rw [write, if_pos]
  cases hkind : e.kind with
  | stdin => exact absurd hkind h
  | stdout | stderr => decide

theorem write_input (h : e.kind = .stdin) (s : Streams) (buffers : List Bytes) :
    e.write s buffers =
      (.error (.because .badFileDescriptor (e.kind.name ++ " is not writable")), s) := by
  rw [write, h]
  rfl

end StdioEntry

/-- Transfers at an offset, cursors, sizes and times, of which a stream has none. -/
def Call.positional : Call → Bool
  | .fdPread _ _ _ | .fdPwrite _ _ _ | .fdSeek _ _ _ | .fdTell _ | .fdFilestatSetSize _ _
  | .fdFilestatSetTimes _ _ => true
  | _ => false

/-- The same step, with other streams behind it. -/
def Step.withStreams {α : Type} (step : Step α) (s : Streams) : Step α :=
  (step.1, step.2.withStreams s)

namespace World

variable {w : World} {c : Call} {fd : Nat} {calls : List Call} {guests : List Bytes}

/-- The use of a stream that a call makes. -/
def use? (w : World) (c : Call) : Option StreamUse :=
  match c with
  | .fdRead fd buffers =>
    match w.table.get? fd with
    | some (.stdio e) =>
      if e.kind = .stdin then some (.read e (buffers.map List.length)) else none
    | _ => none
  | .fdWrite fd buffers =>
    match w.table.get? fd with
    | some (.stdio e) =>
      if e.kind = .stdin then none else some (.write e buffers)
    | _ => none
  | c =>
    -- a stream is flushed before it leaves the table
    match c.change?.bind w.dropped? with
    | some (.stdio e) => some (.flush e)
    | _ => none

/-- The uses of streams that a run makes, in order. -/
def uses (w : World) : List Call → List StreamUse
  | [] => []
  | c :: rest => (w.use? c).toList ++ (w.call c).2.uses rest

/-- A call that has nothing to do with the streams of the host, or through a given use only:
whatever they are, the reply to the use decides how the call goes, and the use what they are
then. -/
def Asks (w : World) (c : Call) : Option StreamUse → Prop
  | none => ∀ s, (w.withStreams s).call c = (w.call c).withStreams s
  | some u => ∃ next : u.Reply → Step Answer, ∀ s,
      (w.withStreams s).call c = (next (u.ask s).1).withStreams (u.ask s).2

/-! ## Steps that have nothing to do with streams -/

section

variable (w : World) (s : Streams)

theorem withStreams_table : (w.withStreams s).table = w.table := rfl

theorem withStreams_volume : (w.withStreams s).volume = w.volume := rfl

theorem withStreams_ends : (w.withStreams s).ends = w.ends := rfl

theorem withStreams_resolve : (w.withStreams s).resolve = w.resolve := rfl

theorem changed_withStreams (outcome : Outcome Volume) :
    (w.withStreams s).changed outcome = (w.changed outcome).withStreams s := by
  cases outcome <;> rfl

theorem fdPwrite_withStreams (fd : Nat) (buffers : List Bytes) (offset : UInt64) :
    (w.withStreams s).fdPwrite fd buffers offset =
      (w.fdPwrite fd buffers offset).withStreams s := by
  simp only [fdPwrite, withStreams_table, withStreams_volume]
  rcases w.table.get fd with _ | (e | _ | _)
  · rfl
  · cases h : e.writeAt w.volume buffers offset <;> simp only [h] <;> rfl
  · rfl
  · rfl

theorem fdSeek_withStreams (fd : Nat) (offset : Int64) (whence : Whence) :
    (w.withStreams s).fdSeek fd offset whence = (w.fdSeek fd offset whence).withStreams s := by
  simp only [fdSeek, withStreams_table, withStreams_volume]
  split
  · rfl
  · rcases w.table.get fd with _ | (e | _ | _)
    · rfl
    · cases h : e.seek w.volume whence offset <;> simp only [h] <;> rfl
    · rfl
    · rfl

theorem fdFdstatSetFlags_withStreams (fd : Nat) (flags : FdFlags) :
    (w.withStreams s).fdFdstatSetFlags fd flags = (w.fdFdstatSetFlags fd flags).withStreams s := by
  simp only [fdFdstatSetFlags, withStreams_table]
  cases w.table.getFile fd with
  | error fault => rfl
  | ok e => cases h : e.setFlags flags <;> simp only [h] <;> rfl

theorem pathOpen_withStreams (dirfd : Nat) (lookup : LookupFlags) (path : String)
    (flags : OpenFlags) (rights inheriting : Rights) (fdFlags : FdFlags) :
    (w.withStreams s).pathOpen dirfd lookup path flags rights inheriting fdFlags =
      (w.pathOpen dirfd lookup path flags rights inheriting fdFlags).withStreams s := by
  simp only [pathOpen, withStreams_resolve, withStreams_volume, withStreams_ends]
  cases w.resolve dirfd path with
  | error fault => rfl
  | ok r =>
    rcases h : r.openNode w.volume w.ends (lookup.contains LookupFlags.symlinkFollow) flags
      (Access.ofRights rights) fdFlags with ⟨_ | d, v⟩ <;> simp only [h] <;> rfl

theorem change_withStreams (change : Change) :
    (w.withStreams s).change change = (w.change change).withStreams s := by
  cases change <;> rfl

theorem plan_withStreams (change : Change) : (w.withStreams s).plan change = w.plan change := by
  cases change <;> rfl

end

/-! ## What a call has to do with streams -/

theorem fdRead_stdio {e : StdioEntry} (he : w.table.get? fd = some (.stdio e))
    (buffers : List Bytes) : w.fdRead fd buffers =
      ((e.read w.host.streams (buffers.map List.length)).1.bind (inBuffers buffers),
        w.withStreams (e.read w.host.streams (buffers.map List.length)).2) := by
  simp only [fdRead, Table.get_of_get? he]

theorem fdWrite_stdio {e : StdioEntry} (he : w.table.get? fd = some (.stdio e))
    (buffers : List Bytes) : w.fdWrite fd buffers =
      ((e.write w.host.streams buffers).1.bind countOf,
        w.withStreams (e.write w.host.streams buffers).2) := by
  simp only [fdWrite, Table.get_of_get? he]

theorem fdRead_output {e : StdioEntry} (he : w.table.get? fd = some (.stdio e))
    (h : e.kind ≠ .stdin) (buffers : List Bytes) : w.fdRead fd buffers =
      (.error (.because .badFileDescriptor (e.kind.name ++ " is not readable")), w) := by
  rw [fdRead_stdio he, StdioEntry.read_output h]
  rfl

theorem fdWrite_input {e : StdioEntry} (he : w.table.get? fd = some (.stdio e))
    (h : e.kind = .stdin) (buffers : List Bytes) : w.fdWrite fd buffers =
      (.error (.because .badFileDescriptor (e.kind.name ++ " is not writable")), w) := by
  rw [fdWrite_stdio he, StdioEntry.write_input h]
  rfl

theorem fdRead_withStreams (h : ∀ e, w.table.get? fd ≠ some (.stdio e)) (buffers : List Bytes)
    (s : Streams) :
    (w.withStreams s).fdRead fd buffers = (w.fdRead fd buffers).withStreams s := by
  simp only [fdRead, withStreams_table, withStreams_volume, withStreams_ends, Table.get]
  rcases hget : w.table.get? fd with _ | (e | d | e)
  · rfl
  · cases hread : e.read w.volume (w.ends e.handle.ino) (buffers.map List.length) <;>
      simp only [hread] <;> rfl
  · rfl
  · exact absurd hget (h e)

theorem fdWrite_withStreams (h : ∀ e, w.table.get? fd ≠ some (.stdio e)) (buffers : List Bytes)
    (s : Streams) :
    (w.withStreams s).fdWrite fd buffers = (w.fdWrite fd buffers).withStreams s := by
  simp only [fdWrite, withStreams_table, withStreams_volume, withStreams_ends, Table.get]
  rcases hget : w.table.get? fd with _ | (e | d | e)
  · rfl
  · cases hwrite : e.write w.volume (w.ends e.handle.ino) buffers <;> simp only [hwrite] <;> rfl
  · rfl
  · exact absurd hget (h e)

/-- Only an input is read. -/
theorem fdRead_asks (w : World) (fd : Nat) (buffers : List Bytes) :
    w.Asks (.fdRead fd buffers) (w.use? (.fdRead fd buffers)) := by
  rw [use?]
  split
  case h_1 e he =>
    have he' : ∀ s, (w.withStreams s).table.get? fd = some (.stdio e) := fun _ => he
    by_cases hinput : e.kind = .stdin
    · rw [if_pos hinput]
      refine ⟨fun reply => changing (fun taken => .taken taken.1 taken.2)
        (reply.bind (inBuffers buffers), w), fun s => ?_⟩
      rw [call, fdRead_stdio (he' s), StdioEntry.read_input hinput]
      rfl
    · rw [if_neg hinput]
      intro s
      rw [call, fdRead_output (he' s) hinput, call, fdRead_output he hinput]
      rfl
  case h_2 hother =>
    intro s
    rw [call, fdRead_withStreams hother]
    rfl

/-- Only an output is written. -/
theorem fdWrite_asks (w : World) (fd : Nat) (buffers : List Bytes) :
    w.Asks (.fdWrite fd buffers) (w.use? (.fdWrite fd buffers)) := by
  rw [use?]
  split
  case h_1 e he =>
    have he' : ∀ s, (w.withStreams s).table.get? fd = some (.stdio e) := fun _ => he
    by_cases hinput : e.kind = .stdin
    · rw [if_pos hinput]
      intro s
      rw [call, fdWrite_input (he' s) hinput, call, fdWrite_input he hinput]
      rfl
    · rw [if_neg hinput]
      refine ⟨fun reply => changing .written (reply.bind countOf, w), fun s => ?_⟩
      rw [call, fdWrite_stdio (he' s), StdioEntry.write_output hinput]
      rfl
  case h_2 hother =>
    intro s
    rw [call, fdWrite_withStreams hother]
    rfl

theorem use?_of_change {change : Change} (h : c.change? = some change) : w.use? c =
    match w.dropped? change with
    | some (.stdio e) => some (.flush e)
    | _ => none := by
  cases c <;> cases h <;> rfl

/-- What closing and renumbering drop is flushed. -/
theorem change_asks (w : World) {change : Change} (h : c.change? = some change) :
    w.Asks c (w.use? c) := by
  rw [use?_of_change h]
  split
  case h_1 e hdropped =>
    refine ⟨fun reply => changing (fun _ => .done)
      (Step.andThen (reply, w) fun _ w => w.change change), fun s => ?_⟩
    rw [call_eq_perform h, plan_withStreams, plan_of_stdio hdropped, perform_pair]
    simp only [effect, StreamUse.ask]
    show changing _ (Step.andThen ((s.flush e.stream).1, w.withStreams (s.flush e.stream).2) _) = _
    rcases s.flush e.stream with ⟨_ | _, s'⟩
    -- what fails to flush stays; behind the flush the change does not look at the streams
    · rfl
    · show changing _ ((w.withStreams s').change change) = _
      rw [change_withStreams]
      rfl
  case h_2 hother =>
    intro s
    rw [call_eq_perform h, call_eq_perform h, plan_withStreams, plan_of_not_stdio hother,
      perform_singleton, perform_singleton]
    simp only [effect, change_withStreams]
    rfl

/-- Every call has to do with the streams through the use that is found for it only. -/
theorem call_asks (w : World) (c : Call) : w.Asks c (w.use? c) := by
  cases c with
  | fdRead fd buffers => exact w.fdRead_asks fd buffers
  | fdWrite fd buffers => exact w.fdWrite_asks fd buffers
  | fdClose _ | fdRenumber _ _ => exact w.change_asks rfl
  | fdPwrite fd buffers offset =>
    intro s
    rw [call, fdPwrite_withStreams]
    rfl
  | fdSeek fd offset whence =>
    intro s
    rw [call, fdSeek_withStreams]
    rfl
  | fdTell fd =>
    intro s
    rw [call, fdTell, fdSeek_withStreams]
    rfl
  | fdFdstatSetFlags fd flags =>
    intro s
    rw [call, fdFdstatSetFlags_withStreams]
    rfl
  | pathOpen dirfd lookup path flags rights inheriting fdFlags =>
    intro s
    rw [call, pathOpen_withStreams]
    rfl
  | fdFilestatSetSize _ _ | fdFilestatSetTimes _ _ | pathCreateDirectory _ _
  | pathFilestatSetTimes _ _ _ _ | pathRemoveDirectory _ _ | pathUnlinkFile _ _ =>
    exact fun s => congrArg (changing _) (w.changed_withStreams s _)
  | argsGet _ | argsSizesGet | environGet _ | environSizesGet | clockResGet _ | clockTimeGet _ _
  | fdDatasync _ | fdFdstatGet _ | fdFilestatGet _ | fdPread _ _ _ | fdPrestatGet _
  | fdPrestatDirName _ _ | fdReaddir _ _ _ | fdSync _ | pathFilestatGet _ _ _ | procExit _
  | randomGet _ => exact fun _ => rfl

theorem use?_of_positional (h : c.positional = true) (w : World) : w.use? c = none := by
  cases c <;> first | rfl | cases h

/-- The use of a stream that a call makes, by what the table holds. -/
inductive MakesUse (w : World) : Call → StreamUse → Prop where
  | read {fd : Nat} {e : StdioEntry} (he : w.table.get? fd = some (.stdio e))
      (hinput : e.kind = .stdin) (buffers : List Bytes) :
      MakesUse w (.fdRead fd buffers) (.read e (buffers.map List.length))
  | write {fd : Nat} {e : StdioEntry} (he : w.table.get? fd = some (.stdio e))
      (houtput : e.kind ≠ .stdin) (buffers : List Bytes) :
      MakesUse w (.fdWrite fd buffers) (.write e buffers)
  | flush {c : Call} {change : Change} {e : StdioEntry} (hc : c.change? = some change)
      (hdropped : w.dropped? change = some (.stdio e)) : MakesUse w c (.flush e)

theorem makesUse_of_use? {u : StreamUse} (h : w.use? c = some u) : w.MakesUse c u := by
  rw [use?.eq_def] at h
  split at h
  case h_1 fd buffers =>
    split at h
    case h_1 e he =>
      split at h
      case isTrue hinput =>
        cases h
        exact .read he hinput buffers
      case isFalse => cases h
    case h_2 => cases h
  case h_2 fd buffers =>
    split at h
    case h_1 e he =>
      split at h
      case isTrue => cases h
      case isFalse houtput =>
        cases h
        exact .write he houtput buffers
    case h_2 => cases h
  case h_3 =>
    split at h
    case h_1 e he =>
      cases h
      obtain ⟨change, hc, hdropped⟩ := Option.bind_eq_some_iff.mp he
      exact .flush hc hdropped
    case h_2 => cases h

/-- What is used is in the table, and it is used in its own direction. -/
theorem use?_directed {u : StreamUse} (h : w.use? c = some u) :
    u.Directed ∧ ∃ fd, w.table.get? fd = some (.stdio u.entry) := by
  cases makesUse_of_use? h with
  | read he hinput buffers => exact ⟨hinput, _, he⟩
  | @write fd e he houtput buffers =>
    refine ⟨?_, fd, he⟩
    show e.kind = .stdout ∨ e.kind = .stderr
    cases hkind : e.kind with
    | stdin => exact absurd hkind houtput
    | stdout => exact .inl rfl
    | stderr => exact .inr rfl
  | @flush _ change _ _ hdropped => exact ⟨trivial, change.target, get?_of_dropped? hdropped⟩

/-! ## Runs -/

/-- What becomes of the streams in a call is what its use makes of them. -/
theorem call_streams (w : World) (c : Call) : (w.call c).2.host.streams =
    (w.use? c).toList.foldl (fun s u => (u.ask s).2) w.host.streams := by
  have hasks := w.call_asks c
  cases huse : w.use? c with
  | none =>
    rw [huse] at hasks
    exact congrArg (·.2.host.streams) (hasks w.host.streams)
  | some u =>
    rw [huse] at hasks
    obtain ⟨next, hnext⟩ := hasks
    exact congrArg (·.2.host.streams) (hnext w.host.streams)

theorem run_streams (w : World) (calls : List Call) : (w.run calls).host.streams =
    (w.uses calls).foldl (fun s u => (u.ask s).2) w.host.streams := by
  induction calls generalizing w with
  | nil => rfl
  | cons c rest ih => rw [uses, List.foldl_append, ← call_streams, ← ih, run]

/-- The streams of a guest are those that it had, for no call brings another. -/
theorem run_stdio {P : StdioEntry → Prop} (h : ∀ fd e, w.table.get? fd = some (.stdio e) → P e)
    (calls : List Call) {e : StdioEntry} (he : (w.run calls).table.get? fd = some (.stdio e)) :
    P e := by
  refine run_keeps (P := fun w => ∀ fd e, w.table.get? fd = some (.stdio e) → P e) ?_ h calls
    fd e he
  intro w c hheld fd e he
  have hstep := (w.call_transition c).table
  refine hstep.forall (Q := fun d => ∀ e, d = .stdio e → P e) ?_ ?_ ?_ he e rfl
  · rintro fd d hd e rfl
    exact hheld fd e hd
  · intro e handle _ _ e' he'
    cases he'
  · intro dirfd path r d _ hopens e he
    cases hopens <;> cases he

/-- A stream is the one that was installed under the id of its kind. -/
theorem Numbered.stdio_installed (h : w.Numbered guests) {e : StdioEntry}
    (he : (w.run calls).table.get? fd = some (.stdio e)) :
    w.table.get? e.kind.fd = some (.stdio e) := by
  refine run_stdio (P := fun e => w.table.get? e.kind.fd = some (.stdio e)) ?_ calls he
  intro fd e he
  by_cases hfd : fd < Table.firstAllocated
  · obtain ⟨e', he', hkind⟩ := h.streams fd hfd
    rw [he] at he'
    cases he'
    rw [hkind, he]
  · obtain ⟨i, rfl⟩ := Nat.exists_eq_add_of_le (Nat.le_of_not_lt hfd)
    rw [h.roots, Option.map_eq_some_iff] at he
    obtain ⟨p, -, hp⟩ := he
    cases hp

/-- Every use in a run is made by one of its calls, on what the calls before it left. -/
theorem mem_uses {u : StreamUse} (h : u ∈ w.uses calls) :
    ∃ before c after, calls = before ++ c :: after ∧ (w.run before).use? c = some u := by
  induction calls generalizing w with
  | nil => cases h
  | cons c rest ih =>
    rcases List.mem_append.mp h with h | h
    · exact ⟨[], c, rest, rfl, Option.mem_toList.mp h⟩
    · obtain ⟨before, c', after, rfl, huse⟩ := ih h
      exact ⟨c :: before, c', after, rfl, huse⟩

theorem Numbered.uses_directed (h : w.Numbered guests) {u : StreamUse} (hu : u ∈ w.uses calls) :
    w.table.get? u.entry.kind.fd = some (.stdio u.entry) ∧ u.Directed := by
  obtain ⟨before, c, after, -, huse⟩ := mem_uses hu
  obtain ⟨hdirected, fd, he⟩ := use?_directed huse
  exact ⟨h.stdio_installed he, hdirected⟩

/-! ## Refusals -/

/-- A call that is answered with an error number and does nothing. -/
def FailsWith (w : World) (c : Call) (errno : Errno) : Prop :=
  ∃ fault, fault.errno? = some errno ∧ w.call c = (.error fault, w)

section

variable {e : StdioEntry} (he : w.table.get? fd = some (.stdio e))
include he

theorem fdRead_output_failsWith (h : e.kind ≠ .stdin) (buffers : List Bytes) :
    w.FailsWith (.fdRead fd buffers) .badFileDescriptor := by
  refine ⟨.because .badFileDescriptor (e.kind.name ++ " is not readable"), rfl, ?_⟩
  rw [call, changing, fdRead_output he h]
  rfl

theorem fdWrite_input_failsWith (h : e.kind = .stdin) (buffers : List Bytes) :
    w.FailsWith (.fdWrite fd buffers) .badFileDescriptor := by
  refine ⟨.because .badFileDescriptor (e.kind.name ++ " is not writable"), rfl, ?_⟩
  rw [call, changing, fdWrite_input he h]
  rfl

theorem fdPread_stdio_failsWith (buffers : List Bytes) (offset : UInt64) :
    w.FailsWith (.fdPread fd buffers offset) .seekPipe := by
  refine ⟨noPosition, rfl, ?_⟩
  rw [call, asking, fdPread, Table.get_of_get? he]
  rfl

theorem fdPwrite_stdio_failsWith (buffers : List Bytes) (offset : UInt64) :
    w.FailsWith (.fdPwrite fd buffers offset) .seekPipe := by
  refine ⟨noPosition, rfl, ?_⟩
  simp only [call, changing, fdPwrite, Table.get_of_get? he]
  rfl

/-- A negative offset from the start is refused before it is asked what the id holds. -/
theorem fdSeek_stdio (offset : Int64) (whence : Whence) : w.fdSeek fd offset whence =
    if whence = .set ∧ offset < 0 then
      (.error (.because .invalidArgument "negative seek offset"), w)
    else (.error noPosition, w) := by
  simp only [fdSeek, Table.get_of_get? he]

theorem fdSeek_stdio_failsWith (offset : Int64) (whence : Whence) :
    w.FailsWith (.fdSeek fd offset whence)
      (if whence = .set ∧ offset < 0 then .invalidArgument else .seekPipe) := by
  have hseek := fdSeek_stdio he offset whence
  split
  case isTrue hnegative =>
    rw [if_pos hnegative] at hseek
    refine ⟨.because .invalidArgument "negative seek offset", rfl, ?_⟩
    rw [call, changing, hseek]
    rfl
  case isFalse hother =>
    rw [if_neg hother] at hseek
    refine ⟨noPosition, rfl, ?_⟩
    rw [call, changing, hseek]
    rfl

theorem fdTell_stdio_failsWith : w.FailsWith (.fdTell fd) .seekPipe := by
  refine ⟨noPosition, rfl, ?_⟩
  rw [call, changing, fdTell, fdSeek_stdio he, if_neg (by decide)]
  rfl

end

/-- Through every run of a built guest its input is only read and its outputs are only written,
whatever ids they are moved to, and what is asked of a stream in the other direction or of its
position is refused. -/
theorem streams_directed (host : Host) (random : KeyStream) (settings : List Setting) :
    let w := (fresh host random).build settings
    (∀ kind : StdioKind, ∃ stream, w.table.get? kind.fd = some (.stdio ⟨kind, stream⟩)) ∧
    ∀ calls,
      (w.run calls).host.streams =
        (w.uses calls).foldl (fun s u => (u.ask s).2) w.host.streams ∧
      (∀ u ∈ w.uses calls,
        w.table.get? u.entry.kind.fd = some (.stdio u.entry) ∧ u.Directed) ∧
      (∀ c, (w.run calls).Asks c ((w.run calls).use? c) ∧
        (c.positional = true → (w.run calls).use? c = none)) ∧
      ∀ fd e, (w.run calls).table.get? fd = some (.stdio e) →
        w.table.get? e.kind.fd = some (.stdio e) ∧
        (∀ buffers, if e.kind = .stdin
          then (w.run calls).FailsWith (.fdWrite fd buffers) .badFileDescriptor
          else (w.run calls).FailsWith (.fdRead fd buffers) .badFileDescriptor) ∧
        (∀ buffers offset, (w.run calls).FailsWith (.fdPread fd buffers offset) .seekPipe ∧
          (w.run calls).FailsWith (.fdPwrite fd buffers offset) .seekPipe) ∧
        (w.run calls).FailsWith (.fdTell fd) .seekPipe ∧
        ∀ offset whence, (w.run calls).FailsWith (.fdSeek fd offset whence)
          (if whence = .set ∧ offset < 0 then .invalidArgument else .seekPipe) := by
  intro w
  have hnumbered : w.Numbered _ := (Numbered.fresh host random).build settings
  refine ⟨fun kind => ?_, fun calls => ⟨w.run_streams calls, ?_, ?_, ?_⟩⟩
  · obtain ⟨⟨kind', stream⟩, he, hkind⟩ := hnumbered.streams kind.fd (by cases kind <;> decide)
    have hsame : kind' = kind := by cases kind' <;> cases kind <;> first | rfl | cases hkind
    exact ⟨stream, hsame ▸ he⟩
  · intro u hu
    exact hnumbered.uses_directed hu
  · intro c
    exact ⟨(w.run calls).call_asks c, fun hc => use?_of_positional hc _⟩
  · intro fd e he
    refine ⟨hnumbered.stdio_installed he, fun buffers => ?_, fun buffers offset =>
      ⟨fdPread_stdio_failsWith he buffers offset, fdPwrite_stdio_failsWith he buffers offset⟩,
      fdTell_stdio_failsWith he, fdSeek_stdio_failsWith he⟩
    split
    case isTrue hinput => exact fdWrite_input_failsWith he hinput buffers
    case isFalse houtput => exact fdRead_output_failsWith he houtput buffers

/-- Swaps the input and the output, uses both where they are now, and closes the input. -/
def swappingCalls : List Call :=
  [.fdRenumber 0 7, .fdRenumber 1 0, .fdRenumber 7 1, .fdWrite 0 [[104], [105]], .fdRead 0 [[0]],
    .fdRead 1 [[0, 0]], .fdSeek 1 0 .endOfFile, .fdClose 1]

theorem streams_directed_swapped :
    let w := (fresh nestedHost default).build
      [.stdio .stdin .hostInput, .preopen "guest" [47], .stdio .stdout .hostOutput]
    w.uses swappingCalls = [.write ⟨.stdout, .hostOutput⟩ [[104], [105]],
        .read ⟨.stdin, .hostInput⟩ [2], .flush ⟨.stdin, .hostInput⟩] ∧
      (∀ u ∈ w.uses swappingCalls, u.Directed) ∧
      (w.run swappingCalls).FailsWith (.fdRead 0 [[0]]) .badFileDescriptor := by
  intro w
  obtain ⟨-, hrun⟩ := streams_directed nestedHost default
    [.stdio .stdin .hostInput, .preopen "guest" [47], .stdio .stdout .hostOutput]
  obtain ⟨-, huses, -, hstdio⟩ := hrun swappingCalls
  have h0 : (w.run swappingCalls).table.get? 0 = some (.stdio ⟨.stdout, .hostOutput⟩) := by
    decide +kernel
  obtain ⟨-, hrefused, -⟩ := hstdio 0 _ h0
  exact ⟨by decide +kernel, fun u hu => (huses u hu).2, hrefused [[0]]⟩

end World

end Hostcall
