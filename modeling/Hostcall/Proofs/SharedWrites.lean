import Hostcall.Proofs.FailedTransfers
import Hostcall.Proofs.SharedReads

/-!
# Writes through shared handles

A pipe into memory keeps what is written to it, whoever holds the handle of a write, in the order of
the writes.  A pipe into an array keeps as much of that as the array has space for.

* `Writer.ofCapacity` are the devices of both kinds, `Writer.admitted` says how much of a write they
  take and `Writer.retained` what they hold then;
* `PipeWrite` is a write as its caller sees it, and `PipeWrite.Exact` what it has to be behind so
  many bytes;
* `Keeps` is what the holders of a pipe rely on, and `keeps_of_step` proves it of any system by what
  one step of it does;
* `Pipe.writeStep` are the handles of one pipe, `Party.act` the guests of a host of which some have
  it for their outputs, and `shared_writes_exact` says of both that everything is kept in order.
-/

namespace Hostcall

/-! ## Devices over bytes in memory -/

namespace Writer

/-- A device that nothing was written to: memory that grows, or an array of a given size. -/
def ofCapacity : Option Nat → Writer
  | none => .memory []
  | some size => ofSize size

/-- The bytes of an array. -/
def array? : Writer → Option Bytes
  | .fixed pieces position size => some (arrayBytes pieces position size)
  | _ => none

/-- How much of `n` bytes a device takes that `before` bytes were written to. -/
def admitted (capacity : Option Nat) (before n : Nat) : Nat :=
  match capacity with
  | none => n
  | some size => min n (size - before)

/-- What a device holds that some bytes were written to. -/
def retained (capacity : Option Nat) (written : Bytes) : Bytes :=
  match capacity with
  | none => written
  | some size => written.take size ++ List.replicate (size - written.length) 0

/-- A device that some bytes were written to. -/
inductive Holds : Option Nat → Bytes → Writer → Prop where
  | memory (written : Bytes) : Holds none written (.memory written)
  | fixed {pieces : List Bytes} {position size : Nat} {written : Bytes}
      (hpieces : gather pieces = written.take size) (hposition : position = min size written.length) :
      Holds (some size) written (.fixed pieces position size)

variable {capacity : Option Nat} {written : Bytes} {device : Writer}

theorem holds_ofCapacity (capacity : Option Nat) : Holds capacity [] (ofCapacity capacity) := by
  cases capacity with
  | none => exact .memory []
  | some size => exact .fixed (List.take_nil).symm (Nat.min_zero size).symm

theorem gather_cut (space : Nat) (buffers : List Bytes) :
    gather (cut space buffers).2 = (gather buffers).take space := by
  induction buffers generalizing space with
  | nil => exact List.take_nil.symm
  | cons b rest ih =>
    have hcons : gather (b :: rest) = b ++ gather rest := List.flatten_cons
    rw [cut, hcons, List.take_append]
    split
    case isTrue hfits =>
      show b ++ gather (cut (space - b.length) rest).2 = _
      rw [ih, List.take_of_length_le hfits]
    case isFalse hlarge =>
      have hfull : space - b.length = 0 := by omega
      show b.take space ++ [] = _
      rw [hfull, List.take_zero]

/-- What is found in a device is what it has to hold. -/
theorem Holds.found (h : Holds capacity written device) :
    device.contents?.or device.array? = some (retained capacity written) := by
  cases h with
  | memory => rfl
  | @fixed pieces position size _ hpieces hposition =>
    have hrest : size - position = size - written.length := by omega
    show some (arrayBytes pieces position size) = some (written.take size ++ _)
    rw [arrayBytes, hpieces, hrest]

/-- A write is taken from its front on, and goes behind what was written before. -/
theorem Holds.write (h : Holds capacity written device) (buffers : List Bytes) :
    ∃ after, device.write buffers =
        (.done (admitted capacity written.length (room buffers)), after) ∧
      Holds capacity (written ++ gather buffers) after := by
  cases h with
  | memory =>
    refine ⟨_, ?_, .memory _⟩
    rw [Writer.write, length_gather]
    rfl
  | @fixed pieces position size _ hpieces hposition =>
    have hspace : size - position = size - written.length := by omega
    have hcount : (cut (size - position) buffers).1 =
        admitted (some size) written.length (room buffers) := by
      rw [cut_fst, hspace]
      exact Nat.min_comm _ _
    have hafter : gather (pieces ++ (cut (size - position) buffers).2) =
        (written ++ gather buffers).take size := by
      have hgather : gather (pieces ++ (cut (size - position) buffers).2) =
        gather pieces ++ gather (cut (size - position) buffers).2 := List.flatten_append
      rw [hgather, hpieces, gather_cut, hspace, List.take_append]
    have hbehind : position + (cut (size - position) buffers).1 =
        min size (written ++ gather buffers).length := by
      rw [cut_fst, List.length_append, length_gather]
      omega
    refine ⟨_, ?_, .fixed hafter hbehind⟩
    rw [← hcount]
    rfl

theorem Holds.flush (h : Holds capacity written device) : device.flush = (.done (), device) := by
  cases h <;> rfl

end Writer

/-- A cell of a device that some bytes were written to. -/
def Cell.Holds (capacity : Option Nat) (written : Bytes) (c : Cell Writer) : Prop :=
  c.poisoned = false ∧ c.device.Holds capacity written

namespace Cell

variable {capacity : Option Nat} {written : Bytes} {c : Cell Writer}

theorem Holds.write (h : c.Holds capacity written) (buffers : List Bytes) :
    ∃ after, c.write buffers =
        (.ok (Writer.admitted capacity written.length (room buffers)), after) ∧
      after.Holds capacity (written ++ gather buffers) := by
  obtain ⟨hsound, hdevice⟩ := h
  obtain ⟨after, hwrite, hafter⟩ := hdevice.write buffers
  refine ⟨.new after, ?_, rfl, hafter⟩
  rw [Cell.write, if_neg (ne_true_of_eq_false hsound), hwrite]
  rfl

theorem Holds.flush (h : c.Holds capacity written) : c.flush = (.ok (), c) := by
  obtain ⟨device, poisoned⟩ := c
  obtain ⟨hsound, hdevice⟩ := h
  cases hsound
  rw [Cell.flush, if_neg Bool.false_ne_true, hdevice.flush]
  rfl

end Cell

/-! ## Writes -/

/-- A write of a pipe: the guest that made it, if it was one, the buffers, and the answer. -/
structure PipeWrite where
  guest : Option Nat
  buffers : List Bytes
  outcome : Outcome Nat

namespace PipeWrite

/-- The answer to a write of which so much was taken.  A guest is told a count in 32 bits. -/
def answer : Option Nat → Nat → Outcome Nat
  | none, n => .ok n
  | some _, n => (countOf n).map UInt32.toNat

/-- A write behind so many bytes is answered with how much of it is taken. -/
def Exact (w : PipeWrite) (capacity : Option Nat) (before : Nat) : Prop :=
  w.outcome = answer w.guest (Writer.admitted capacity before (room w.buffers))

/-- The bytes of some writes, in order. -/
def bytesOf (writes : List PipeWrite) : Bytes := gather (writes.flatMap PipeWrite.buffers)

theorem bytesOf_nil : bytesOf [] = [] := rfl

theorem bytesOf_cons (w : PipeWrite) (writes : List PipeWrite) :
    bytesOf (w :: writes) = gather w.buffers ++ bytesOf writes := by
  rw [bytesOf, List.flatMap_cons]
  exact List.flatten_append

theorem bytesOf_append (writes later : List PipeWrite) :
    bytesOf (writes ++ later) = bytesOf writes ++ bytesOf later := by
  rw [bytesOf, List.flatMap_append]
  exact List.flatten_append

end PipeWrite

open PipeWrite (bytesOf bytesOf_nil bytesOf_cons bytesOf_append)

/-! ## Systems with a pipe -/

section

variable {σ τ : Type}

/-- The writes that steps of a system make, in order, and what they make of it. -/
def writesOf (step : σ → τ → Option PipeWrite × σ) (s : σ) : List τ → List PipeWrite × σ
  | [] => ([], s)
  | t :: rest =>
    ((step s t).1.toList ++ (writesOf step (step s t).2 rest).1, (writesOf step (step s t).2 rest).2)

/-- What the writers of a pipe rely on, whatever steps a system takes.  Every write is answered with
how much of it is taken, and what is found in the pipe after every step are the bytes of all writes
so far in order, as far as there is space for them. -/
structure Keeps (step : σ → τ → Option PipeWrite × σ) (found : σ → Option Bytes)
    (capacity : Option Nat) (s : σ) (steps : List τ) : Prop where
  exact_at : ∀ before w after, (writesOf step s steps).1 = before ++ w :: after →
    w.Exact capacity (bytesOf before).length
  retained : ∀ n, found (writesOf step s (steps.take n)).2 =
    some (Writer.retained capacity (bytesOf (writesOf step s (steps.take n)).1))

/-- What a step made of a pipe that some bytes were written to: its write, if it made one, is
behind them. -/
def WritesBehind (capacity : Option Nat) (Behind : Bytes → σ → Prop) (written : Bytes)
    (result : Option PipeWrite × σ) : Prop :=
  (∀ w ∈ result.1, w.Exact capacity written.length) ∧
    Behind (written ++ bytesOf result.1.toList) result.2

/-- A system whose steps write to a pipe that some bytes were written to. -/
def StepKeeps (step : σ → τ → Option PipeWrite × σ) (capacity : Option Nat)
    (Behind : Bytes → σ → Prop) : Prop :=
  ∀ written s t, Behind written s → WritesBehind capacity Behind written (step s t)

variable {step : σ → τ → Option PipeWrite × σ} {found : σ → Option Bytes} {capacity : Option Nat}
  {Behind : Bytes → σ → Prop}

theorem WritesBehind.silent {written : Bytes} {s : σ} (h : Behind written s) :
    WritesBehind capacity Behind written (none, s) :=
  ⟨fun _ hw => absurd hw (Option.not_mem_none _), (List.append_nil written).symm ▸ h⟩

theorem WritesBehind.write {written : Bytes} {s : σ} {w : PipeWrite}
    (hexact : w.Exact capacity written.length) (h : Behind (written ++ gather w.buffers) s) :
    WritesBehind capacity Behind written (some w, s) := by
  refine ⟨fun w' hw' => ?_, ?_⟩
  · rwa [← Option.some.inj (Option.mem_def.mp hw')]
  · rw [Option.toList_some, bytesOf_cons, bytesOf_nil, List.append_nil]
    exact h

theorem StepKeeps.run (hstep : StepKeeps step capacity Behind) {written : Bytes} {s : σ}
    (hs : Behind written s) (steps : List τ) :
    (∀ before w after, (writesOf step s steps).1 = before ++ w :: after →
        w.Exact capacity (written.length + (bytesOf before).length)) ∧
      Behind (written ++ bytesOf (writesOf step s steps).1) (writesOf step s steps).2 := by
  -- what a step wrote is part of what was written before the steps that come after it
  induction steps generalizing written s with
  | nil =>
    refine ⟨fun before w after h => ?_, ?_⟩
    · cases before <;> cases h
    · exact (List.append_nil written).symm ▸ hs
  | cons t rest ih =>
    obtain ⟨hexact, hbehind⟩ := hstep written s t hs
    obtain ⟨hlater, hlast⟩ := ih hbehind
    refine ⟨fun before w after h => ?_, ?_⟩
    · -- the write is the one of this step, or it comes later
      rw [writesOf] at h
      cases hfirst : (step s t).1 with
      | none =>
        rw [hfirst, Option.toList_none] at h hlater
        have hexact := hlater before w after h
        rwa [List.length_append, bytesOf_nil, List.length_nil,
          Nat.add_zero] at hexact
      | some first =>
        rw [hfirst, Option.toList_some] at h hlater
        cases before with
        | nil =>
          obtain ⟨rfl, -⟩ := List.cons.inj h
          exact hexact first hfirst
        | cons _ before =>
          obtain ⟨rfl, hrest⟩ := List.cons.inj h
          have hexact := hlater before w after hrest
          rwa [List.length_append, Nat.add_assoc, ← List.length_append, ← bytesOf_append] at hexact
    · rw [writesOf, bytesOf_append, ← List.append_assoc]
      exact hlast

/-- It is enough to look at the steps one by one. -/
theorem keeps_of_step (hstep : StepKeeps step capacity Behind)
    (hfound : ∀ written s, Behind written s → found s = some (Writer.retained capacity written))
    {s : σ} (hs : Behind [] s) (steps : List τ) : Keeps step found capacity s steps := by
  refine ⟨fun before w after h => ?_, fun n => hfound _ _ (hstep.run hs (steps.take n)).2⟩
  have hexact := (hstep.run hs steps).1 before w after h
  rwa [List.length_nil, Nat.zero_add] at hexact

end

/-! ## Handles of one pipe -/

namespace Pipe

/-- The bytes of an array behind a pipe. -/
def array? : Pipe → Option Bytes
  | .reading _ => none
  | .writing s => s.cell.device.array?

/-- What is found in a pipe. -/
def found? (p : Pipe) : Option Bytes := p.contents?.or p.array?

/-- Does something with the handles of a pipe, and tells of the write that it makes. -/
def writeStep (p : Pipe) (t : PipeStep) : Option PipeWrite × Pipe :=
  (match t with
    | .write buffers => some ⟨none, buffers, (p.write buffers).1⟩
    | _ => none, (p.step t).2)

/-- A pipe that some bytes were written to. -/
def Holds (capacity : Option Nat) (written : Bytes) (p : Pipe) : Prop :=
  ∃ s, p = .writing s ∧ s.cell.Holds capacity written

theorem Holds.found {capacity : Option Nat} {written : Bytes} {p : Pipe}
    (h : p.Holds capacity written) : p.found? = some (Writer.retained capacity written) := by
  obtain ⟨s, rfl, -, hdevice⟩ := h
  exact hdevice.found

theorem reclaim_writing (s : Shared Writer) :
    ∃ s', (writing s).reclaim.2 = .writing s' ∧ s'.cell = s.cell := by
  refine ⟨s.reclaim.2, rfl, ?_⟩
  rw [Shared.reclaim]
  split <;> rfl

theorem step_keeps (capacity : Option Nat) : StepKeeps writeStep capacity (Holds capacity) := by
  rintro written _ t ⟨s, rfl, hcell⟩
  cases t with
  | write buffers =>
    obtain ⟨after, hwrite, hafter⟩ := hcell.write buffers
    have hpipe : (writing s).write buffers =
        (.ok (Writer.admitted capacity written.length (room buffers)),
          .writing { s with cell := after }) := by
      rw [Pipe.write, Shared.write, hwrite]
    simp only [writeStep, step, hpipe]
    exact .write rfl ⟨_, rfl, hafter⟩
  | flush =>
    refine .silent ⟨{ s with cell := s.cell.flush.2 }, rfl, ?_⟩
    rw [hcell.flush]
    exact hcell
  | reclaim =>
    obtain ⟨s', hs', hcell'⟩ := reclaim_writing s
    exact .silent ⟨s', hs', hcell' ▸ hcell⟩
  | read _ | clone | drop | release => exact .silent ⟨_, rfl, hcell⟩

end Pipe

/-! ## Guests of one host -/

/-- A turn of those who share a host: a guest calls, the program that runs the guests gives one of
them other things to hold, or it uses a handle of a pipe that it kept. -/
inductive Act where
  | call (guest : Nat) (c : Call)
  | equip (guest : Nat) (context : Context)
  | write (buffers : List Bytes)
  | flush

/-- The write of a pipe that a call of a guest makes whose output it is. -/
def World.outputWrite? (w : World) (pipe guest : Nat) : Call → Option PipeWrite
  | .fdWrite fd buffers =>
    match w.table.get? fd with
    | some (.stdio e) =>
      if e.kind ≠ .stdin ∧ e.stream = .writer pipe then
        some ⟨some guest, buffers, (w.fdWrite fd buffers).1.map UInt32.toNat⟩
      else none
    | _ => none
  | _ => none

namespace Party

/-- Takes a turn, and tells of the write of a pipe that it makes. -/
def act (pipe : Nat) (p : Party) : Act → Option PipeWrite × Party
  | .call guest c =>
    let w := ((p.world guest).call c).2
    ((p.world guest).outputWrite? pipe guest c, { p.equip guest w.context with host := w.host })
  | .equip guest context => (none, p.equip guest context)
  | .write buffers =>
    let (outcome, streams) := p.host.streams.write (.writer pipe) buffers
    (some ⟨none, buffers, outcome⟩, { p with host := { p.host with streams } })
  | .flush => (none,
      { p with host := { p.host with streams := (p.host.streams.flush (.writer pipe)).2 } })

/-- What is found in a pipe of the host. -/
def found? (pipe : Nat) (p : Party) : Option Bytes :=
  p.host.streams.writers[pipe]?.bind fun cell => cell.device.contents?.or cell.device.array?

end Party

/-- Streams with a pipe that some bytes were written to. -/
def Streams.Holds (pipe : Nat) (capacity : Option Nat) (written : Bytes) (s : Streams) : Prop :=
  ∃ cell, s.writers[pipe]? = some cell ∧ cell.Holds capacity written

section

variable {pipe : Nat} {capacity : Option Nat} {written : Bytes} {s : Streams} {w : World}
  {guest : Nat} {c : Call}

theorem Streams.Holds.write (h : s.Holds pipe capacity written) (buffers : List Bytes) :
    ∃ s', s.write (.writer pipe) buffers =
        (.ok (Writer.admitted capacity written.length (room buffers)), s') ∧
      s'.Holds pipe capacity (written ++ gather buffers) := by
  obtain ⟨cell, hcell, hholds⟩ := h
  obtain ⟨after, hwrite, hafter⟩ := hholds.write buffers
  obtain ⟨hlt, -⟩ := Array.getElem?_eq_some_iff.mp hcell
  refine ⟨{ s with writers := s.writers.setIfInBounds pipe after }, ?_, after,
    Array.getElem?_setIfInBounds_self_of_lt hlt, hafter⟩
  rw [Streams.write, hcell]
  simp only [hwrite]

theorem Streams.Holds.flush (h : s.Holds pipe capacity written) :
    s.flush (.writer pipe) = (.ok (), s) := by
  obtain ⟨cell, hcell, hholds⟩ := h
  rw [Streams.flush, hcell]
  simp only [hholds.flush, Streams.setIfInBounds_self hcell]

/-- Other streams than a pipe, and reading, leave it alone, and so does flushing it. -/
theorem StreamUse.ask_holds {u : StreamUse} (h : s.Holds pipe capacity written)
    (hu : ∀ e buffers, u = .write e buffers → e.stream ≠ .writer pipe) :
    (u.ask s).2.Holds pipe capacity written := by
  rcases u with ⟨⟨kind, stream⟩, sizes⟩ | ⟨⟨kind, stream⟩, buffers⟩ | ⟨⟨kind, stream⟩⟩
  case read =>
    cases stream with
    | reader other =>
      show (s.read (.reader other) sizes).2.Holds pipe capacity written
      rw [Streams.read]
      split <;> exact h
    | _ => exact h
  case write =>
    cases stream with
    | writer other =>
      have hne : other ≠ pipe := fun heq => hu _ buffers rfl (congrArg Stream.writer heq)
      obtain ⟨cell, hcell, hholds⟩ := h
      refine ⟨cell, ?_, hholds⟩
      show (s.write (.writer other) buffers).2.writers[pipe]? = _
      rw [Streams.write]
      split
      · exact hcell
      · exact (Array.getElem?_setIfInBounds_ne hne).trans hcell
    | _ => exact h
  case flush =>
    cases stream with
    | writer other =>
      show (s.flush (.writer other)).2.Holds pipe capacity written
      by_cases heq : other = pipe
      · rw [heq, h.flush]
        exact h
      · obtain ⟨cell, hcell, hholds⟩ := h
        refine ⟨cell, ?_, hholds⟩
        rw [Streams.flush]
        split
        · exact hcell
        · exact (Array.getElem?_setIfInBounds_ne heq).trans hcell
    | _ => exact h

/-- A call that does not write a pipe as its output leaves it alone. -/
theorem World.call_holds (h : w.host.streams.Holds pipe capacity written)
    (hnone : w.outputWrite? pipe guest c = none) :
    (w.call c).2.host.streams.Holds pipe capacity written := by
  rw [call_streams]
  cases huse : w.use? c with
  | none => exact h
  | some u =>
    refine StreamUse.ask_holds h fun e buffers hwrite hstream => ?_
    subst hwrite
    cases makesUse_of_use? huse with
    | write he houtput _ =>
      simp only [outputWrite?, he] at hnone
      rw [if_pos ⟨houtput, hstream⟩] at hnone
      cases hnone

/-- A guest writes its output like every holder of the pipe, and is told how much was taken as far
as it can be told. -/
theorem World.outputWrite?_exact (h : w.host.streams.Holds pipe capacity written) {r : PipeWrite}
    (hwrite : w.outputWrite? pipe guest c = some r) :
    r.Exact capacity written.length ∧
      (w.call c).2.host.streams.Holds pipe capacity (written ++ gather r.buffers) := by
  cases c with
  | fdWrite fd buffers =>
    rw [outputWrite?] at hwrite
    split at hwrite
    case h_1 e he =>
      split at hwrite
      case isTrue houtput =>
        cases hwrite
        obtain ⟨s', hs', hholds⟩ := h.write buffers
        have hcall : w.fdWrite fd buffers =
            (countOf (Writer.admitted capacity written.length (room buffers)),
              w.withStreams s') := by
          rw [fdWrite_stdio he, StdioEntry.write_output houtput.1, houtput.2, hs']
          rfl
        rw [call, changing, hcall]
        exact ⟨rfl, hholds⟩
      case isFalse => cases hwrite
    case h_2 => cases hwrite
  | _ => cases hwrite

/-- Every turn writes to a pipe behind what was written before. -/
theorem Party.act_keeps (pipe : Nat) (capacity : Option Nat) :
    StepKeeps (Party.act pipe) capacity fun written p =>
      p.host.streams.Holds pipe capacity written := by
  intro written p t hp
  cases t with
  | call guest c =>
    rw [act]
    cases hwrite : (p.world guest).outputWrite? pipe guest c with
    | none => exact .silent (World.call_holds (w := p.world guest) hp hwrite)
    | some r =>
      obtain ⟨hexact, hholds⟩ := World.outputWrite?_exact (w := p.world guest) hp hwrite
      exact .write hexact hholds
  | equip guest context => exact .silent hp
  | write buffers =>
    obtain ⟨s', hs', hholds⟩ := hp.write buffers
    rw [act, hs']
    exact .write rfl hholds
  | flush =>
    rw [act, hp.flush]
    exact .silent hp

/-- However the handles of a pipe come to be written, by their holders or by guests whose output it
is, what is found in it are the bytes of all writes in order, as far as there is space for them, and
every write is answered with how much of it is taken. -/
theorem shared_writes_exact (capacity : Option Nat) :
    (∀ outside steps, Keeps Pipe.writeStep Pipe.found? capacity
      (.writing (.new (Writer.ofCapacity capacity) outside)) steps) ∧
    ∀ pipe (p : Party) acts,
      p.host.streams.writers[pipe]? = some (.new (Writer.ofCapacity capacity)) →
      Keeps (Party.act pipe) (Party.found? pipe) capacity p acts := by
  have hnew : (Cell.new (Writer.ofCapacity capacity)).Holds capacity [] :=
    ⟨rfl, Writer.holds_ofCapacity capacity⟩
  refine ⟨fun outside steps => ?_, fun pipe p acts hpipe => ?_⟩
  · exact keeps_of_step (Pipe.step_keeps capacity) (fun _ _ hp => hp.found) ⟨_, rfl, hnew⟩ steps
  · refine keeps_of_step (Party.act_keeps pipe capacity) ?_ ⟨_, hpipe, hnew⟩ acts
    rintro written p ⟨cell, hcell, -, hdevice⟩
    rw [Party.found?, hcell]
    exact hdevice.found

/-- Guests whose output and error output are one pipe into an array of six bytes. -/
def logged : Party where
  guests _ := { (default : Context) with
    table := ((Table.empty.insertAt 1 (.stdio ⟨.stdout, .writer 0⟩)).2.insertAt 2
      (.stdio ⟨.stderr, .writer 0⟩)).2 }
  host := { (default : Host) with streams := ⟨#[], #[.new (Writer.ofCapacity (some 6))], default⟩ }

theorem shared_writes_exact_logged :
    let acts : List Act := [.call 0 (.fdWrite 1 [[97], [], [98]]), .flush, .write [[99, 100]],
      .call 1 (.fdWrite 2 [[101], [102, 103, 104]]), .call 0 (.fdClose 1), .write [[105]]]
    (writesOf (Party.act 0) logged acts).1 =
      [⟨some 0, [[97], [], [98]], .ok 2⟩, ⟨none, [[99, 100]], .ok 2⟩,
        ⟨some 1, [[101], [102, 103, 104]], .ok 2⟩, ⟨none, [[105]], .ok 0⟩] ∧
      Party.found? 0 (writesOf (Party.act 0) logged acts).2 = some [97, 98, 99, 100, 101, 102] ∧
      Keeps (Party.act 0) (Party.found? 0) (some 6) logged acts := by
  intro acts
  exact ⟨by rfl, by rfl, (shared_writes_exact (some 6)).2 0 logged acts rfl⟩

end

end Hostcall
