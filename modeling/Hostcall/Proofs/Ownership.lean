import Hostcall.Pipe.Shared

/-!
# Who holds a pipe, and what is left in it

The handles of a pipe and the references from outside share one device under one lock.  Who still
refers to it, whether the lock is poisoned and how the device was left are told by the past alone:
by the steps that were taken, and how they were answered.

* `Mechanism` is what a device of any kind does, and may give way in; `Grip` is what the handles of
  a pipe offer, and `Mechanism.grip` are handles that take the lock for every transfer;
* `Deed` is a step with its answer, and `held`, `outsiders`, `unwound` and `deviceAfter` read off
  the past what it left;
* `PipeRun` are the runs that holders can make, each step through a handle that is held then;
* `Owned` is what holds of a pipe after such a run, `PipeRun.owned` proves it for every device, and
  `pipes_owned` says it of the pipes that are read and of those that are written.
-/

namespace Hostcall

/-! ## Devices and handles -/

/-- What a device does in every transfer, and what is seen of it. -/
structure Mechanism (δ τ : Type) (α : τ → Type) (β : Type) where
  call (t : τ) : δ → Reply (α t) × δ
  view : δ → β

/-- What a handle of a pipe offers: transfers, and a look at the device. -/
structure Grip (δ τ : Type) (α : τ → Type) (β : Type) where
  transfer (t : τ) : Shared δ → Outcome (α t) × Shared δ
  contents : Shared δ → β

section

variable {δ τ : Type} {α : τ → Type} {β : Type}

/-- Calls into the device of a pipe, unless the lock is poisoned. -/
def Shared.through {α : Type} (s : Shared δ) (text : String) (call : δ → Reply α × δ) :
    Outcome α × Shared δ :=
  if s.cell.poisoned then (.error (.trapText text), s)
  else
    let (outcome, cell) := Cell.settle (call s.cell.device)
    (outcome, { s with cell })

/-- Handles that take the lock for every transfer, and look at the device even when it is
poisoned. -/
def Mechanism.grip (m : Mechanism δ τ α β) (text : String) : Grip δ τ α β where
  transfer t s := s.through text (m.call t)
  contents s := m.view s.cell.device

end

/-- A device that is read. -/
def Reader.mechanism : Mechanism Reader (List Nat) (fun _ => Bytes) Unit where
  call sizes device := device.read sizes
  view _ := ()

/-- The handles of a pipe that is read. -/
def Reader.grip : Grip Reader (List Nat) (fun _ => Bytes) Unit where
  transfer sizes s := s.read sizes
  contents _ := ()

/-- The transfers of a pipe that is written. -/
inductive Output where
  | write (buffers : List Bytes)
  | flush

/-- What a transfer is answered with. -/
def Output.Answer : Output → Type
  | write _ => Nat
  | flush => Unit

/-- A device that is written. -/
def Writer.mechanism : Mechanism Writer Output Output.Answer (Option Bytes) where
  call
    | .write buffers, device => device.write buffers
    | .flush, device => device.flush
  view := Writer.contents?

/-- The handles of a pipe that is written. -/
def Writer.grip : Grip Writer Output Output.Answer (Option Bytes) where
  transfer
    | .write buffers, s => s.write buffers
    | .flush, s => s.flush
  contents s := (Pipe.writing s).contents?

/-- A transfer changes nothing of a pipe but what is under its lock. -/
theorem Shared.through_eq {δ α : Type} (s : Shared δ) (text : String) (call : δ → Reply α × δ) :
    let result := if s.cell.poisoned then (.error (.trapText text), s.cell)
      else Cell.settle (call s.cell.device)
    s.through text call = (result.1, { s with cell := result.2 }) := by
  rw [through]
  split <;> rfl

theorem Reader.grip_eq : grip = mechanism.grip "pipe reader poisoned" := by
  rw [grip, Mechanism.grip, Grip.mk.injEq]
  refine ⟨funext fun sizes => funext fun s => ?_, rfl⟩
  exact (s.through_eq "pipe reader poisoned" fun device => device.read sizes).symm

theorem Writer.grip_eq : grip = mechanism.grip "pipe writer poisoned" := by
  rw [grip, Mechanism.grip, Grip.mk.injEq]
  refine ⟨funext fun t => funext fun s => ?_, rfl⟩
  cases t with
  | write buffers =>
    exact (s.through_eq "pipe writer poisoned" fun device => device.write buffers).symm
  | flush => exact (s.through_eq "pipe writer poisoned" Writer.flush).symm

/-! ## The past -/

/-- Whether a device gave way in a transfer that was answered so. -/
def Outcome.unwound {α : Type} : Outcome α → Bool
  | .ok _ => false
  | .error fault => fault == .crash

/-- A step of those who share a pipe, with its answer.  Handles go by their numbers. -/
inductive Deed (δ τ : Type) (α : τ → Type) (β : Type) where
  | clone (handle new : Nat)
  | drop (handle : Nat)
  | transfer (handle : Nat) (t : τ) (outcome : Outcome (α t))
  | contents (handle : Nat) (shown : β)
  /-- The handle is given for the device, which comes back or does not. -/
  | reclaim (handle : Nat) (device : Option δ)
  /-- References from outside are made of those that there are, or dropped. -/
  | lend (references : Nat)
  /-- A holder of a reference from outside gives way under the lock. -/
  | poison

section

variable {δ τ : Type} {α : τ → Type} {β : Type}

namespace Deed

/-- Whether somebody gave way under the lock. -/
def unwinds : Deed δ τ α β → Bool
  | transfer _ _ outcome => outcome.unwound
  | poison => true
  | _ => false

/-- Whether the device was given back. -/
def reclaims : Deed δ τ α β → Bool
  | reclaim _ (some _) => true
  | _ => false

end Deed

/-! The past is told from its last step to its first. -/

/-- The handles that are held. -/
def held : List (Deed δ τ α β) → List Nat
  | [] => [0]
  | .clone _ new :: past => new :: held past
  | .drop handle :: past => (held past).erase handle
  | .reclaim handle (some _) :: past => (held past).erase handle
  | _ :: past => held past

/-- How many references from outside there are. -/
def outsiders (outside : Nat) : List (Deed δ τ α β) → Nat
  | [] => outside
  | .lend references :: _ => references
  | _ :: past => outsiders outside past

/-- Whether somebody ever gave way under the lock. -/
def unwound (past : List (Deed δ τ α β)) : Bool := past.any Deed.unwinds

/-- The device as the transfers left it, up to the first in which somebody gave way. -/
def deviceAfter (m : Mechanism δ τ α β) (device : δ) : List (Deed δ τ α β) → δ
  | [] => device
  | .transfer _ t _ :: past =>
    if unwound past then deviceAfter m device past
    else (m.call t (deviceAfter m device past)).2
  | _ :: past => deviceAfter m device past

/-- The runs of a pipe over a device that its holders can make, with any number of references from
outside.  Every step goes through a handle that is held, or a reference from outside. -/
inductive PipeRun (g : Grip δ τ α β) (device : δ) (outside : Nat) :
    List (Deed δ τ α β) → Shared δ → Prop where
  | start : PipeRun g device outside [] (.new device outside)
  | clone {past : List (Deed δ τ α β)} {s : Shared δ} (h : PipeRun g device outside past s)
      {handle new : Nat} (hheld : handle ∈ held past) (hnew : new ∉ held past) :
      PipeRun g device outside (.clone handle new :: past) s.clone
  | drop {past : List (Deed δ τ α β)} {s : Shared δ} (h : PipeRun g device outside past s)
      {handle : Nat} (hheld : handle ∈ held past) :
      PipeRun g device outside (.drop handle :: past) s.drop
  | transfer {past : List (Deed δ τ α β)} {s : Shared δ} (h : PipeRun g device outside past s)
      {handle : Nat} (hheld : handle ∈ held past) (t : τ) :
      PipeRun g device outside (.transfer handle t (g.transfer t s).1 :: past) (g.transfer t s).2
  | contents {past : List (Deed δ τ α β)} {s : Shared δ} (h : PipeRun g device outside past s)
      {handle : Nat} (hheld : handle ∈ held past) :
      PipeRun g device outside (.contents handle (g.contents s) :: past) s
  | reclaim {past : List (Deed δ τ α β)} {s : Shared δ} (h : PipeRun g device outside past s)
      {handle : Nat} (hheld : handle ∈ held past) :
      PipeRun g device outside (.reclaim handle s.reclaim.1 :: past) s.reclaim.2
  | lend {past : List (Deed δ τ α β)} {s : Shared δ} (h : PipeRun g device outside past s)
      (hlent : 0 < outsiders outside past) (references : Nat) :
      PipeRun g device outside (.lend references :: past) { s with outside := references }
  | poison {past : List (Deed δ τ α β)} {s : Shared δ} (h : PipeRun g device outside past s)
      (hlent : 0 < outsiders outside past) : PipeRun g device outside (.poison :: past) s.poison

/-! ## What the past tells -/

theorem Fault.ofHost_ne_crash (e : HostError) : Fault.ofHost e ≠ .crash := by
  rw [Fault.ofHost.eq_def]
  split
  · nofun
  · split <;> nofun

theorem Cell.settle_poisoned {α : Type} (result : Reply α × δ) :
    (Cell.settle result).2.poisoned = (Cell.settle result).1.unwound := by
  rcases result with ⟨_ | e | _, device⟩
  · rfl
  · exact (beq_eq_false_iff_ne.mpr (Fault.ofHost_ne_crash e)).symm
  · rfl

theorem Cell.settle_device {α : Type} (result : Reply α × δ) :
    (Cell.settle result).2.device = result.2 := by
  rcases result with ⟨_ | _ | _, device⟩ <;> rfl

/-- A pipe is as its past tells. -/
structure Shared.Follows (s : Shared δ) (m : Mechanism δ τ α β) (device : δ) (outside : Nat)
    (past : List (Deed δ τ α β)) : Prop where
  handles : s.handles = (held past).length
  outside : s.outside = outsiders outside past
  device : s.cell.device = deviceAfter m device past
  poisoned : s.cell.poisoned = unwound past

namespace Shared.Follows

variable {s : Shared δ} {m : Mechanism δ τ α β} {device : δ} {outside : Nat}
  {past : List (Deed δ τ α β)}

/-- The last reference is a handle exactly if no other handle is held, and none from outside. -/
theorem last_iff (h : s.Follows m device outside past) {handle : Nat} (hheld : handle ∈ held past) :
    s.handles = 1 ∧ s.outside = 0 ↔ held past = [handle] ∧ outsiders outside past = 0 := by
  rw [h.handles, h.outside, List.length_eq_one_iff]
  constructor
  · rintro ⟨⟨other, hother⟩, hnone⟩
    rw [hother] at hheld ⊢
    exact ⟨congrArg ([·]) (List.mem_singleton.mp hheld).symm, hnone⟩
  · exact fun ⟨honly, hnone⟩ => ⟨⟨handle, honly⟩, hnone⟩

theorem reclaim_eq (h : s.Follows m device outside past) {handle : Nat}
    (hheld : handle ∈ held past) :
    s.reclaim = if held past = [handle] ∧ outsiders outside past = 0
      then (some (deviceAfter m device past), s.drop) else (none, s) := by
  rw [Shared.reclaim, ← h.device]
  simp only [h.last_iff hheld]

/-- A transfer reaches the device, and leaves it as the device makes it, unless somebody gave way
before. -/
theorem transfer (h : s.Follows m device outside past) (text : String) (handle : Nat) (t : τ) :
    (s.through text (m.call t)).2.Follows m device outside
      (.transfer handle t (s.through text (m.call t)).1 :: past) := by
  have hunwound (outcome : Outcome (α t)) :
      unwound (.transfer handle t outcome :: past) = (outcome.unwound || unwound past) := rfl
  rw [Shared.through]
  -- the lock is poisoned exactly if somebody gave way before, so the split is one of the past
  split
  case isTrue hpoisoned =>
    rw [h.poisoned] at hpoisoned
    refine ⟨h.handles, h.outside, ?_, ?_⟩
    · rw [deviceAfter, if_pos hpoisoned, h.device]
    · rw [hunwound, hpoisoned, Bool.or_true, h.poisoned, hpoisoned]
  case isFalse hsound =>
    rw [h.poisoned, Bool.not_eq_true] at hsound
    refine ⟨h.handles, h.outside, ?_, ?_⟩
    · rw [deviceAfter, if_neg (ne_true_of_eq_false hsound), ← h.device]
      exact Cell.settle_device _
    · rw [hunwound, hsound, Bool.or_false]
      exact Cell.settle_poisoned _

end Shared.Follows

variable {m : Mechanism δ τ α β} {text : String} {device : δ} {outside : Nat}
  {past : List (Deed δ τ α β)} {s : Shared δ}

theorem PipeRun.follows (h : PipeRun (m.grip text) device outside past s) :
    s.Follows m device outside past := by
  induction h with
  | start => exact ⟨rfl, rfl, rfl, rfl⟩
  | clone _ _ _ ih => exact ⟨congrArg (· + 1) ih.handles, ih.outside, ih.device, ih.poisoned⟩
  | drop _ hheld ih =>
    refine ⟨?_, ih.outside, ih.device, ih.poisoned⟩
    rw [held, List.length_erase_of_mem hheld, ← ih.handles]
    rfl
  | transfer _ _ t ih => exact ih.transfer text _ t
  | contents _ _ ih => exact ⟨ih.handles, ih.outside, ih.device, ih.poisoned⟩
  | reclaim _ hheld ih =>
    rw [ih.reclaim_eq hheld]
    split
    case isTrue hlast =>
      refine ⟨?_, ih.outside, ih.device, ih.poisoned⟩
      rw [held, List.length_erase_of_mem hheld, ← ih.handles]
      rfl
    case isFalse => exact ⟨ih.handles, ih.outside, ih.device, ih.poisoned⟩
  | lend _ _ _ ih => exact ⟨ih.handles, rfl, ih.device, ih.poisoned⟩
  | poison _ _ ih => exact ⟨ih.handles, ih.outside, ih.device, rfl⟩

/-- A device is given back for the last reference, so that none is left. -/
theorem PipeRun.ended (h : PipeRun (m.grip text) device outside past s)
    (hgiven : past.any Deed.reclaims = true) : held past = [] ∧ outsiders outside past = 0 := by
  induction h with
  | start => cases hgiven
  | clone _ hheld _ ih | drop _ hheld ih | transfer _ hheld _ ih | contents _ hheld ih =>
    exact absurd (ih hgiven).1 (List.ne_nil_of_mem hheld)
  | lend _ hlent _ ih | poison _ hlent ih => exact absurd (ih hgiven).2 (Nat.ne_of_gt hlent)
  | @reclaim past s h handle hheld ih =>
    by_cases hlast : held past = [handle] ∧ outsiders outside past = 0
    · rw [h.follows.reclaim_eq hheld, if_pos hlast]
      refine ⟨?_, hlast.2⟩
      rw [held, hlast.1, List.erase_cons_head]
    · rw [h.follows.reclaim_eq hheld, if_neg hlast] at hgiven
      exact absurd (ih hgiven).1 (List.ne_nil_of_mem hheld)

/-- Nothing can be done with a pipe after its device was given back. -/
theorem PipeRun.any_reclaims_tail {deed : Deed δ τ α β}
    (h : PipeRun (m.grip text) device outside (deed :: past) s) :
    past.any Deed.reclaims = false := by
  refine Bool.eq_false_iff.mpr fun hgiven => ?_
  cases h with
  | clone h hheld _ | drop h hheld | transfer h hheld _ | contents h hheld | reclaim h hheld =>
    exact absurd (h.ended hgiven).1 (List.ne_nil_of_mem hheld)
  | lend h hlent _ | poison h hlent => exact absurd (h.ended hgiven).2 (Nat.ne_of_gt hlent)

theorem PipeRun.countP_reclaims_le (h : PipeRun (m.grip text) device outside past s) :
    past.countP Deed.reclaims ≤ 1 := by
  cases past with
  | nil => exact Nat.zero_le 1
  | cons deed past =>
    have hbefore : past.countP Deed.reclaims = 0 := by
      rw [List.countP_eq_zero]
      exact List.any_eq_false.mp h.any_reclaims_tail
    rw [List.countP_cons, hbefore]
    split <;> decide

/-- What the holders of a pipe rely on after any run. -/
structure Owned (m : Mechanism δ τ α β) (g : Grip δ τ α β) (text : String) (device : δ)
    (outside : Nat) (past : List (Deed δ τ α β)) (s : Shared δ) : Prop where
  /-- Every reference is a handle that is held, or one from outside. -/
  references : s.references = (held past).length + outsiders outside past
  /-- The device is given for a handle exactly if it is the last reference, with all that the
  transfers did to it; else everything stays as it was. -/
  reclaim : ∀ handle ∈ held past, s.reclaim =
    if held past = [handle] ∧ outsiders outside past = 0
    then (some (deviceAfter m device past), s.drop) else (none, s)
  once : past.countP Deed.reclaims ≤ 1
  /-- Before anybody gave way transfers reach the device. -/
  reaches : unwound past = false → ∀ t, ((g.transfer t s).1, (g.transfer t s).2.cell) =
    Cell.settle (m.call t (deviceAfter m device past))
  /-- After somebody gave way every transfer is a trap, and nothing is done. -/
  traps : unwound past = true → ∀ t, ∃ fault, fault = .trapText text ∧ fault.isTrap = true ∧
    g.transfer t s = (.error fault, s)
  shows : g.contents s = m.view (deviceAfter m device past)

theorem PipeRun.owned (h : PipeRun (m.grip text) device outside past s) :
    Owned m (m.grip text) text device outside past s := by
  have hs := h.follows
  refine ⟨?_, fun handle hheld => hs.reclaim_eq hheld, h.countP_reclaims_le, fun hsound t => ?_,
    fun hunwound t => ⟨_, rfl, rfl, ?_⟩, congrArg m.view hs.device⟩
  · rw [Shared.references, hs.handles, hs.outside]
  · show ((s.through text (m.call t)).1, (s.through text (m.call t)).2.cell) = _
    rw [Shared.through, if_neg (by rw [hs.poisoned, hsound]; nofun), hs.device]
  · show s.through text (m.call t) = _
    rw [Shared.through, if_pos (hs.poisoned.trans hunwound)]

/-- Whatever the holders of a pipe do with it, and whenever its device gives way: the device comes
back for the last reference only, once, and as the transfers left it; and from when somebody gave
way under the lock every transfer is a trap that does not reach the device, while everything else
goes on.  This holds over every device, and of the pipes that are read and those that are
written. -/
theorem pipes_owned :
    (∀ (δ τ : Type) (α : τ → Type) (β : Type) (m : Mechanism δ τ α β) text device outside past s,
      PipeRun (m.grip text) device outside past s →
        Owned m (m.grip text) text device outside past s) ∧
    (∀ device outside past s, PipeRun Reader.grip device outside past s →
      Owned Reader.mechanism Reader.grip "pipe reader poisoned" device outside past s) ∧
    ∀ device outside past s, PipeRun Writer.grip device outside past s →
      Owned Writer.mechanism Writer.grip "pipe writer poisoned" device outside past s := by
  rw [Reader.grip_eq, Writer.grip_eq]
  exact ⟨fun _ _ _ _ _ _ _ _ _ _ h => h.owned, fun _ _ _ _ h => h.owned, fun _ _ _ _ h => h.owned⟩

end

/-- Memory that gives way at a zero, when it has kept what comes before it. -/
def fragile : Mechanism Bytes Bytes (fun _ => Nat) Bytes where
  call bytes stored :=
    if 0 ∈ bytes then (.crashed, stored ++ bytes.takeWhile (· ≠ 0))
    else (.done bytes.length, stored ++ bytes)
  view stored := stored

/-- Two handles write, the memory gives way, and one of them is left. -/
def fragilePast : List (Deed Bytes Bytes (fun _ => Nat) Bytes) :=
  [.lend 0, .reclaim 0 none, .drop 1, .contents 1 [104, 105, 33],
    .transfer 0 [63] (.error (.trapText "poisoned")), .transfer 1 [33, 0, 63] (.error .crash),
    .clone 0 1, .transfer 0 [104, 105] (.ok 2)]

theorem pipes_owned_fragile :
    let s : Shared Bytes := ⟨⟨[104, 105, 33], true⟩, 1, 0⟩
    PipeRun (fragile.grip "poisoned") [] 1 fragilePast s ∧
      Owned fragile (fragile.grip "poisoned") "poisoned" [] 1 fragilePast s ∧
      held fragilePast = [0] ∧ s.reclaim.1 = some [104, 105, 33] := by
  intro s
  have hwritten : PipeRun (fragile.grip "poisoned") [] 1 (fragilePast.drop 7)
      ⟨.new [104, 105], 1, 1⟩ := .transfer .start (by decide) [104, 105]
  have hunwound : PipeRun (fragile.grip "poisoned") [] 1 (fragilePast.drop 5)
      ⟨⟨[104, 105, 33], true⟩, 2, 1⟩ :=
    .transfer (.clone hwritten (by decide) (by decide)) (by decide) [33, 0, 63]
  have hrefused : PipeRun (fragile.grip "poisoned") [] 1 (fragilePast.drop 3)
      ⟨⟨[104, 105, 33], true⟩, 2, 1⟩ :=
    .contents (.transfer hunwound (by decide) [63]) (by decide)
  have hrun : PipeRun (fragile.grip "poisoned") [] 1 fragilePast s :=
    .lend (.reclaim (.drop hrefused (by decide)) (by decide)) (by decide) 0
  exact ⟨hrun, pipes_owned.1 _ _ _ _ _ _ _ _ _ _ hrun, by decide, by decide⟩

end Hostcall
