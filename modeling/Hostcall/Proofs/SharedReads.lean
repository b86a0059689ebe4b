import Hostcall.Proofs.Directions

/-!
# Reads through shared handles

A pipe over bytes in memory has one cursor, whoever holds a handle of it.  So the reads of all
holders, in whatever order they come, are served the bytes one after another.

* `gather_scatter` says where the bytes of a read end up;
* `PipeRead` is a read as its caller sees it, `PipeRead.Exact` what it has to be with so many bytes
  left, and `Served` a series of such reads;
* `Serves` is what the holders of a pipe rely on, and `serves_of_step` proves it of any system by
  what one step of it does;
* `Pipe.step` are the handles of one pipe, `Party.step` the guests of a host of which some have it
  for their input, and `shared_reads_exact` says of both that nothing is lost or given twice.
-/

namespace Hostcall

/-! ## Bytes in buffers -/

theorem scatter_sizes (buffers : List Bytes) (data : Bytes) :
    (scatter buffers data).map List.length = buffers.map List.length := by
  induction buffers generalizing data with
  | nil => rfl
  | cons b rest ih =>
    have hfits : (data.take b.length).length ≤ b.length := List.length_take_le _ _
    rw [scatter, List.map_cons, List.map_cons, length_overwrite hfits, ih]

/-- Bytes that there is room for stand at the front of the buffers, and behind them the buffers are
as they were. -/
theorem gather_scatter {buffers : List Bytes} {data : Bytes} (h : data.length ≤ room buffers) :
    gather (scatter buffers data) = data ++ (gather buffers).drop data.length := by
  induction buffers generalizing data with
  | nil =>
    rw [List.eq_nil_of_length_eq_zero (Nat.le_zero.mp h)]
    rfl
  | cons b rest ih =>
    have hrest : (data.drop b.length).length ≤ room rest := by
      rw [List.length_drop]
      rw [room_cons] at h
      omega
    have htail := ih hrest
    rw [gather, gather] at htail
    rw [scatter, gather, gather, List.flatten_cons, List.flatten_cons, htail, overwrite,
      List.drop_append, List.length_take, List.length_drop]
    -- the data ends in this buffer, or fills it and goes on behind it
    rcases Nat.lt_or_ge data.length b.length with hlt | hge
    · rw [List.take_of_length_le (Nat.le_of_lt hlt), List.drop_of_length_le (Nat.le_of_lt hlt),
        Nat.min_eq_right (Nat.le_of_lt hlt), Nat.sub_eq_zero_of_le (Nat.le_of_lt hlt),
        List.drop_zero, List.nil_append, List.append_assoc]
    · rw [Nat.min_eq_left hge, List.drop_length, List.drop_of_length_le hge, List.append_nil,
        List.nil_append, ← List.append_assoc, List.take_append_drop]

/-! ## Reads -/

/-- A read of a pipe: the guest that made it, if it was one, the buffers as they were, and the count
and the buffers that it gave back. -/
structure PipeRead where
  guest : Option Nat
  before : List Bytes
  outcome : Outcome (Nat × List Bytes)

namespace PipeRead

/-- How much was read. -/
def count (r : PipeRead) : Nat :=
  match r.outcome with
  | .ok (count, _) => count
  | .error _ => 0

/-- The buffers as the read left them. -/
def after (r : PipeRead) : List Bytes :=
  match r.outcome with
  | .ok (_, after) => after
  | .error _ => r.before

/-- The bytes that were stored. -/
def stored (r : PipeRead) : Bytes := (gather r.after).take r.count

/-- A read with so many bytes left: it stores as many of them as there are and there is room for, in
order from the first buffer on, and changes nothing else of the buffers. -/
structure Exact (r : PipeRead) (left : Bytes) : Prop where
  ok : r.outcome = .ok (min (room r.before) left.length, r.after)
  sizes : r.after.map List.length = r.before.map List.length
  bytes : gather r.after = left.take r.count ++ (gather r.before).drop r.count

/-- The count of a guest's read is one that a guest can be told. -/
def Countable (r : PipeRead) (left : Nat) : Prop :=
  r.guest.isSome → min (room r.before) left < UInt32.size

theorem Exact.count_eq {r : PipeRead} {left : Bytes} (h : r.Exact left) :
    r.count = min (room r.before) left.length := by
  rw [count, h.ok]

theorem Exact.stored_eq {r : PipeRead} {left : Bytes} (h : r.Exact left) :
    r.stored = left.take r.count := by
  have hlength : (left.take r.count).length = r.count := by
    rw [List.length_take, h.count_eq]
    omega
  rw [stored, h.bytes, List.take_left' hlength]

/-- A read that scatters the next bytes over its buffers is as it has to be. -/
theorem exact_scatter (guest : Option Nat) (buffers : List Bytes) (left : Bytes) :
    let taken := left.take (room buffers)
    Exact ⟨guest, buffers, .ok (taken.length, scatter buffers taken)⟩ left := by
  intro taken
  have hlength : taken.length = min (room buffers) left.length := List.length_take
  have htaken : taken = left.take taken.length :=
    List.prefix_iff_eq_take.mp (List.take_prefix _ _)
  refine ⟨?_, scatter_sizes _ _, ?_⟩
  · rw [← hlength]
    rfl
  · show gather (scatter buffers taken) = left.take taken.length ++ _
    rw [gather_scatter (by omega), ← htaken]
    rfl

/-- With no bytes left a read gives the buffers back. -/
theorem Exact.of_nil {r : PipeRead} (h : r.Exact []) : r.outcome = .ok (0, r.before) := by
  have hcount : min (room r.before) ([] : Bytes).length = 0 := Nat.min_zero _
  have hbytes := h.bytes
  rw [h.count_eq, hcount, List.take_zero, List.drop_zero, List.nil_append] at hbytes
  have hafter : r.after = r.before := List.eq_iff_flatten_eq.mpr ⟨hbytes, h.sizes⟩
  rw [h.ok, hcount, hafter]

end PipeRead

/-- Reads that are served one after another from one position of some bytes to another. -/
inductive Served (data : Bytes) : Nat → List PipeRead → Nat → Prop where
  | nil (position : Nat) : Served data position [] position
  | cons {position last : Nat} {r : PipeRead} {rest : List PipeRead}
      (h : r.Exact (data.drop position)) (hrest : Served data (position + r.count) rest last) :
      Served data position (r :: rest) last

/-- How much some reads have read together. -/
def countAll (reads : List PipeRead) : Nat := totalSize (reads.map PipeRead.count)

namespace Served

variable {data : Bytes} {position last : Nat} {reads : List PipeRead}

theorem single {r : PipeRead} (h : r.Exact (data.drop position)) :
    Served data position [r] (position + r.count) := .cons h (.nil _)

theorem append {middle : Nat} {later : List PipeRead} (h : Served data position reads middle)
    (hlater : Served data middle later last) : Served data position (reads ++ later) last := by
  induction h with
  | nil => exact hlater
  | cons hr _ ih => exact .cons hr (ih hlater)

theorem last_eq (h : Served data position reads last) : last = position + countAll reads := by
  induction h with
  | nil => rfl
  | cons hr hrest ih => rw [ih, countAll, countAll, List.map_cons, totalSize_cons, Nat.add_assoc]

theorem exact_at (h : Served data position reads last) (i : Nat) (r : PipeRead)
    (hr : reads[i]? = some r) : r.Exact (data.drop (position + countAll (reads.take i))) := by
  induction h generalizing i with
  | nil => cases hr
  | cons hfirst hrest ih =>
    cases i with
    | zero =>
      cases hr
      exact hfirst
    | succ i =>
      rw [List.take_succ_cons, countAll, List.map_cons, totalSize_cons, ← Nat.add_assoc]
      exact ih i hr

theorem stored_eq (h : Served data position reads last) :
    (reads.map PipeRead.stored).flatten = (data.drop position).take (countAll reads) := by
  induction h with
  | nil => rfl
  | cons hr hrest ih =>
    rw [List.map_cons, List.flatten_cons, ih, hr.stored_eq, countAll, countAll, List.map_cons,
      totalSize_cons, List.take_add, List.drop_drop]

/-- At the end of the bytes reads give back their buffers. -/
theorem exhausted (h : Served data position reads last) (hend : data.length ≤ position) :
    ∀ r ∈ reads, r.outcome = .ok (0, r.before) := by
  induction h with
  | nil => exact List.forall_mem_nil _
  | cons hr hrest ih =>
    rw [List.drop_of_length_le hend] at hr
    exact List.forall_mem_cons.mpr ⟨hr.of_nil, ih (Nat.le_add_right_of_le hend)⟩

end Served

/-! ## Systems with a pipe -/

section

variable {σ τ : Type}

/-- The reads that steps of a system make, in order, and what they make of it. -/
def readsOf (step : σ → τ → List PipeRead × σ) (s : σ) : List τ → List PipeRead × σ
  | [] => ([], s)
  | t :: rest =>
    ((step s t).1 ++ (readsOf step (step s t).2 rest).1, (readsOf step (step s t).2 rest).2)

theorem readsOf_forall {step : σ → τ → List PipeRead × σ} {P : PipeRead → Prop}
    (h : ∀ s t, ∀ r ∈ (step s t).1, P r) (s : σ) (steps : List τ) :
    ∀ r ∈ (readsOf step s steps).1, P r := by
  induction steps generalizing s with
  | nil => exact List.forall_mem_nil _
  | cons t rest ih => exact List.forall_mem_append.mpr ⟨h s t, ih _⟩

/-- What the readers of a pipe over some bytes rely on, whatever steps a system takes.  Every read
succeeds with the bytes that come next, so that what is stored in all is a prefix of the bytes, and
at their end reads into any buffers give these back. -/
structure Serves (step : σ → τ → List PipeRead × σ) (data : Bytes) (s : σ) (steps : List τ) :
    Prop where
  exact_at : ∀ (i : Nat) r, (readsOf step s steps).1[i]? = some r →
    r.Exact (data.drop (countAll ((readsOf step s steps).1.take i)))
  stored : ((readsOf step s steps).1.map PipeRead.stored).flatten =
    data.take (countAll (readsOf step s steps).1)
  exhausted : data.length ≤ countAll (readsOf step s steps).1 → ∀ later,
    ∀ r ∈ (readsOf step (readsOf step s steps).2 later).1, r.outcome = .ok (0, r.before)

/-- A system whose steps serve reads from where it is in some bytes. -/
def StepServes (step : σ → τ → List PipeRead × σ) (data : Bytes) (At : Nat → σ → Prop) : Prop :=
  ∀ position s t, At position s →
    (∀ r ∈ (step s t).1, r.Countable (data.length - position)) →
    ∃ last, Served data position (step s t).1 last ∧ At last (step s t).2

variable {step : σ → τ → List PipeRead × σ} {data : Bytes} {At : Nat → σ → Prop}

theorem StepServes.run (hstep : StepServes step data At) {position : Nat} {s : σ}
    (hat : At position s) (steps : List τ)
    (hcount : ∀ r ∈ (readsOf step s steps).1, r.Countable (data.length - position)) :
    ∃ last, Served data position (readsOf step s steps).1 last ∧
      At last (readsOf step s steps).2 := by
  induction steps generalizing position s with
  | nil => exact ⟨position, .nil _, hat⟩
  | cons t rest ih =>
    obtain ⟨middle, hserved, hmiddle⟩ := hstep position s t hat fun r hr =>
      hcount r (List.mem_append_left _ hr)
    have hle : position ≤ middle := by
      rw [hserved.last_eq]
      exact Nat.le_add_right _ _
    -- less is left, so what could be told before still can
    obtain ⟨last, hrest, hlast⟩ := ih hmiddle fun r hr hguest => by
      have := hcount r (List.mem_append_right _ hr) hguest
      omega
    exact ⟨last, hserved.append hrest, hlast⟩

/-- It is enough to look at the steps one by one. -/
theorem serves_of_step (hstep : StepServes step data At) {s : σ} (hat : At 0 s) (steps : List τ)
    (hcount : ∀ r ∈ (readsOf step s steps).1, r.Countable data.length) :
    Serves step data s steps := by
  obtain ⟨last, hserved, hlast⟩ := hstep.run hat steps hcount
  have hposition : last = countAll (readsOf step s steps).1 := by
    rw [hserved.last_eq, Nat.zero_add]
  refine ⟨fun i r hr => ?_, ?_, fun hend later => ?_⟩
  · have hexact := hserved.exact_at i r hr
    rwa [Nat.zero_add] at hexact
  · exact hserved.stored_eq
  · -- with nothing left any read can be told, however much room it has
    rw [← hposition] at hend
    obtain ⟨_, hlater, -⟩ := hstep.run hlast later fun r _ _ => by
      rw [Nat.sub_eq_zero_of_le hend, Nat.min_zero]
      decide
    exact hlater.exhausted hend

end

/-! ## Handles of one pipe -/

/-- What may be done with the handles of a pipe, as long as none of their holders gives way. -/
inductive PipeStep where
  | read (buffers : List Bytes)
  | write (buffers : List Bytes)
  | flush
  | clone
  | drop
  | release
  | reclaim

/-- A transfer into buffers, as it is answered. -/
def answered (buffers : List Bytes) (outcome : Outcome Bytes) : Outcome (Nat × List Bytes) :=
  outcome.map fun taken => (taken.length, scatter buffers taken)

/-- Does something with the handles of a pipe. -/
def Pipe.step (p : Pipe) : PipeStep → List PipeRead × Pipe
  | .read buffers =>
    let (outcome, p) := p.read (buffers.map List.length)
    ([⟨none, buffers, answered buffers outcome⟩], p)
  | .write buffers => ([], (p.write buffers).2)
  | .flush => ([], p.flush.2)
  | .clone => ([], p.clone)
  | .drop => ([], p.drop)
  | .release => ([], p.release)
  | .reclaim => ([], p.reclaim.2)

/-- A pipe whose handles are at a position of some bytes. -/
def Pipe.At (data : Bytes) (position : Nat) (p : Pipe) : Prop :=
  ∃ s, p = .reading s ∧ s.cell = .new (.cursor data position)

theorem Shared.reclaim_cell (s : Shared Reader) : s.reclaim.2.cell = s.cell := by
  rw [reclaim]
  split <;> rfl

theorem Pipe.step_guest (p : Pipe) (t : PipeStep) : ∀ r ∈ (p.step t).1, r.guest = none := by
  cases t with
  | read buffers => exact List.forall_mem_singleton.mpr rfl
  | _ => exact List.forall_mem_nil _

theorem Pipe.step_serves (data : Bytes) : StepServes Pipe.step data (Pipe.At data) := by
  rintro position _ t ⟨s, rfl, hcell⟩ -
  cases t with
  | read buffers =>
    obtain ⟨_, handles, outside⟩ := s
    cases hcell
    exact ⟨_, .single (PipeRead.exact_scatter none buffers _), _, rfl, rfl⟩
  | reclaim => exact ⟨position, .nil _, _, rfl, s.reclaim_cell.trans hcell⟩
  | write _ | flush | clone | drop | release => exact ⟨position, .nil _, _, rfl, hcell⟩

/-! ## Guests of one host -/

/-- Guests on a host that they share, by number. -/
structure Party where
  guests : Nat → Context
  host : Host

/-- A turn of those who share a host: a guest calls, the program that runs the guests gives one of
them other things to hold, or it reads through a handle of a pipe that it kept. -/
inductive Turn where
  | call (guest : Nat) (c : Call)
  | equip (guest : Nat) (context : Context)
  | read (buffers : List Bytes)

/-- The read of a pipe that a call of a guest makes whose input it is. -/
def World.inputRead? (w : World) (pipe guest : Nat) : Call → Option PipeRead
  | .fdRead fd buffers =>
    if w.table.get? fd = some (.stdio ⟨.stdin, .reader pipe⟩) then
      some ⟨some guest, buffers, (w.fdRead fd buffers).1.map fun (count, after) =>
        (count.toNat, after)⟩
    else none
  | _ => none

namespace Party

/-- A guest of a party, on its host. -/
def world (p : Party) (guest : Nat) : World := ⟨p.guests guest, p.host⟩

/-- Gives a guest other things to hold. -/
def equip (p : Party) (guest : Nat) (context : Context) : Party :=
  { p with guests := fun i => if i = guest then context else p.guests i }

/-- Takes a turn, and tells of the read of a pipe that it makes. -/
def step (pipe : Nat) (p : Party) : Turn → List PipeRead × Party
  | .call guest c =>
    let w := ((p.world guest).call c).2
    (((p.world guest).inputRead? pipe guest c).toList,
      { p.equip guest w.context with host := w.host })
  | .equip guest context => ([], p.equip guest context)
  | .read buffers =>
    let (outcome, streams) := p.host.streams.read (.reader pipe) (buffers.map List.length)
    ([⟨none, buffers, answered buffers outcome⟩], { p with host := { p.host with streams } })

/-- A party whose host has a pipe at a position of some bytes. -/
def At (pipe : Nat) (data : Bytes) (position : Nat) (p : Party) : Prop :=
  p.host.streams.readers[pipe]? = some (.new (.cursor data position))

end Party

/-! ## Turns and the pipe -/

section

variable {pipe position : Nat} {data : Bytes} {s : Streams} {w : World} {guest : Nat} {c : Call}

theorem Streams.read_cursor (h : s.readers[pipe]? = some (.new (.cursor data position)))
    (buffers : List Bytes) :
    let taken := (data.drop position).take (room buffers)
    ∃ s' : Streams, s.read (.reader pipe) (buffers.map List.length) = (.ok taken, s') ∧
      s'.readers[pipe]? = some (.new (.cursor data (position + taken.length))) := by
  obtain ⟨hlt, -⟩ := Array.getElem?_eq_some_iff.mp h
  rw [read, h]
  exact ⟨_, rfl, Array.getElem?_setIfInBounds_self_of_lt hlt⟩

/-- Other streams than a pipe, and writing and flushing, leave it alone. -/
theorem StreamUse.ask_readers {u : StreamUse}
    (h : ∀ e sizes, u = .read e sizes → e.stream ≠ .reader pipe) :
    (u.ask s).2.readers[pipe]? = s.readers[pipe]? := by
  rcases u with ⟨⟨kind, stream⟩, sizes⟩ | ⟨⟨kind, stream⟩, buffers⟩ | ⟨⟨kind, stream⟩⟩
  case read =>
    cases stream with
    | reader other =>
      have hne : other ≠ pipe := fun heq => h _ sizes rfl (congrArg Stream.reader heq)
      show ((s.read (.reader other) sizes).2).readers[pipe]? = _
      rw [Streams.read]
      split
      · rfl
      · exact Array.getElem?_setIfInBounds_ne hne
    | _ => rfl
  case write =>
    cases stream with
    | writer other =>
      show ((s.write (.writer other) buffers).2).readers[pipe]? = _
      rw [Streams.write]
      split <;> rfl
    | _ => rfl
  case flush =>
    cases stream with
    | writer other =>
      show ((s.flush (.writer other)).2).readers[pipe]? = _
      rw [Streams.flush]
      split <;> rfl
    | _ => rfl

/-- A call that does not read a pipe as its input leaves it alone. -/
theorem World.call_readers (h : w.inputRead? pipe guest c = none) :
    (w.call c).2.host.streams.readers[pipe]? = w.host.streams.readers[pipe]? := by
  rw [call_streams]
  cases huse : w.use? c with
  | none => rfl
  | some u =>
    refine StreamUse.ask_readers fun e sizes hread hstream => ?_
    subst hread
    cases makesUse_of_use? huse with
    | read he hinput buffers =>
      rw [inputRead?, if_pos] at h
      · cases h
      · rw [he, ← hinput, ← hstream]

/-- A guest reads its input like every holder of the pipe, as long as it can be told how much. -/
theorem World.fdRead_input {fd : Nat} (hpipe : w.host.streams.readers[pipe]? =
      some (.new (.cursor data position)))
    (he : w.table.get? fd = some (.stdio ⟨.stdin, .reader pipe⟩)) {buffers : List Bytes}
    (hcount : min (room buffers) (data.length - position) < UInt32.size) :
    let taken := (data.drop position).take (room buffers)
    ∃ s' : Streams, w.fdRead fd buffers =
        (.ok (UInt32.ofNat taken.length, scatter buffers taken), w.withStreams s') ∧
      taken.length < UInt32.size ∧
      s'.readers[pipe]? = some (.new (.cursor data (position + taken.length))) := by
  intro taken
  have hlength : taken.length < UInt32.size := by
    rw [show taken.length = _ from List.length_take, List.length_drop]
    exact hcount
  obtain ⟨s', hread, hcell⟩ := Streams.read_cursor hpipe buffers
  refine ⟨s', ?_, hlength, hcell⟩
  rw [fdRead_stdio he, StdioEntry.read_input rfl, hread]
  show ((countOf taken.length).map (·, scatter buffers taken), _) = _
  rw [countOf, if_pos hlength]
  rfl

/-- The read that a guest's call makes is served, and the pipe goes on behind it. -/
theorem World.inputRead?_exact (hpipe : w.host.streams.readers[pipe]? =
      some (.new (.cursor data position))) {r : PipeRead} (h : w.inputRead? pipe guest c = some r)
    (hcount : r.Countable (data.length - position)) :
    r.Exact (data.drop position) ∧
      (w.call c).2.host.streams.readers[pipe]? =
        some (.new (.cursor data (position + r.count))) := by
  cases c with
  | fdRead fd buffers =>
    rw [inputRead?] at h
    split at h
    case isFalse => cases h
    case isTrue he =>
      cases h
      obtain ⟨s', hread, hlength, hcell⟩ := fdRead_input hpipe he (hcount rfl)
      rw [call, changing, hread]
      simp only [Except.map, UInt32.toNat_ofNat_of_lt' hlength]
      exact ⟨PipeRead.exact_scatter (some guest) buffers _, hcell⟩
  | _ => cases h

/-- Every turn serves the reads of a pipe from where it is. -/
theorem Party.step_serves (pipe : Nat) (data : Bytes) :
    StepServes (Party.step pipe) data (Party.At pipe data) := by
  intro position p t hat hcount
  cases t with
  | call guest c =>
    rw [step] at hcount ⊢
    cases hread : (p.world guest).inputRead? pipe guest c with
    | none => exact ⟨position, .nil _, (World.call_readers hread).trans hat⟩
    | some r =>
      rw [hread] at hcount
      have hpipe : (p.world guest).host.streams.readers[pipe]? =
        some (.new (.cursor data position)) := hat
      obtain ⟨hexact, hcell⟩ :=
        World.inputRead?_exact hpipe hread (hcount r (List.mem_singleton_self r))
      exact ⟨_, .single hexact, hcell⟩
  | equip guest context => exact ⟨position, .nil _, hat⟩
  | read buffers =>
    obtain ⟨s', hread, hcell⟩ := Streams.read_cursor hat buffers
    rw [step, hread]
    exact ⟨_, .single (PipeRead.exact_scatter none buffers _), hcell⟩

/-- However the handles of a pipe over some bytes come to be read, by their holders or by guests
whose input it is, nothing is lost and nothing is given twice. -/
theorem shared_reads_exact (data : Bytes) :
    (∀ outside steps, Serves Pipe.step data (.reading (.new (.cursor data 0) outside)) steps) ∧
    ∀ pipe (p : Party) turns,
      p.host.streams.readers[pipe]? = some (.new (.cursor data 0)) →
      (∀ r ∈ (readsOf (Party.step pipe) p turns).1, r.guest.isSome →
        room r.before < UInt32.size) →
      Serves (Party.step pipe) data p turns := by
  refine ⟨fun outside steps => ?_, fun pipe p turns hpipe hsmall => ?_⟩
  · refine serves_of_step (Pipe.step_serves data) ⟨_, rfl, rfl⟩ steps fun r hr hguest => ?_
    rw [readsOf_forall Pipe.step_guest _ steps r hr] at hguest
    cases hguest
  · refine serves_of_step (Party.step_serves pipe data) hpipe turns fun r hr hguest => ?_
    exact Nat.lt_of_le_of_lt (Nat.min_le_left _ _) (hsmall r hr hguest)

/-- Guests whose input is one pipe over a short text. -/
def greeted : Party where
  guests _ := { (default : Context) with
    table := (Table.empty.insertAt 0 (.stdio ⟨.stdin, .reader 0⟩)).2 }
  host := { (default : Host) with
    streams := ⟨#[.new (.cursor (utf8 "hello") 0)], #[], default⟩ }

theorem shared_reads_exact_greeting :
    let turns : List Turn := [.call 0 (.fdRead 0 [[1, 1], [], [1]]), .read [[2, 2], [2, 2]],
      .call 1 (.fdRead 0 [[3]])]
    (readsOf (Party.step 0) greeted turns).1 =
      [⟨some 0, [[1, 1], [], [1]], .ok (3, [[104, 101], [], [108]])⟩,
        ⟨none, [[2, 2], [2, 2]], .ok (2, [[108, 111], [2, 2]])⟩,
        ⟨some 1, [[3]], .ok (0, [[3]])⟩] ∧
      Serves (Party.step 0) (utf8 "hello") greeted turns := by
  intro turns
  have hreads : (readsOf (Party.step 0) greeted turns).1 =
      [⟨some 0, [[1, 1], [], [1]], .ok (3, [[104, 101], [], [108]])⟩,
        ⟨none, [[2, 2], [2, 2]], .ok (2, [[108, 111], [2, 2]])⟩,
        ⟨some 1, [[3]], .ok (0, [[3]])⟩] := by
    rfl
  refine ⟨hreads, (shared_reads_exact _).2 0 greeted turns rfl ?_⟩
  rw [hreads]
  decide

end

end Hostcall
