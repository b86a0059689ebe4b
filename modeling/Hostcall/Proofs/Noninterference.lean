import Hostcall.Proofs.Alike.Call
import Hostcall.Proofs.Confinement

/-!
# Noninterference

What lies outside the preopens does not show in any answer.

* `Volume.Agrees` says that two file systems agree on related nodes and `Host.Agrees` that two
  hosts agree on what a list of settings grants; of all else they may differ;
* `World.Twins` is the relation of two runs, kept by `World.call_twins`;
* `World.run_answers_eq` compares whole runs of guests as their builders left them.
-/

namespace Hostcall

/-! ## Agreement -/

/-- Existing nodes of two file systems, related one to one, that cannot be told apart. -/
structure Volume.Agrees (R : Ino → Ino → Prop) (v v' : Volume) : Prop where
  unique : Relator.BiUnique R
  lt_size : ∀ i j, R i j → i < v.nodes.size ∧ j < v'.nodes.size
  clock : v.clock = v'.clock
  node : ∀ i j, R i j → (v.node i).Alike R (v'.node j)

/-- Both hosts open related directories, or neither opens one. -/
def RootsAgree (R : Ino → Ino → Prop) : Except HostError Ino → Except HostError Ino → Prop
  | .ok i, .ok j => R i j
  | .error _, .error _ => True
  | _, _ => False

/-- Hosts that agree on what settings grant.  They may differ in all other nodes, in the number
of any node, in the holders of anything but the granted pipes, and in their clocks. -/
structure Host.Agrees (R : Ino → Ino → Prop) (settings : List Setting) (host host' : Host) :
    Prop where
  volume : host.volume.Agrees R host'.volume
  streams : host.streams = host'.streams
  pipes : EndsAlike R host.volume (Handle.endsOf (host.peers.map (·.2)))
    (Handle.endsOf (host'.peers.map (·.2)))
  roots : ∀ path guest, .preopen path guest ∈ settings →
    RootsAgree R (host.volume.openHostDirectory (utf8 path))
      (host'.volume.openHostDirectory (utf8 path))

/-! ## Numbers of new nodes -/

/-- Related nodes, and nodes created in step. -/
def Grown (R : Ino → Ino → Prop) (n n' : Nat) (i j : Ino) : Prop :=
  R i j ∨ ∃ k, i = n + k ∧ j = n' + k

namespace Volume

variable {R : Ino → Ino → Prop} {v v' : Volume}

theorem Agrees.grown_unique (h : v.Agrees R v') :
    Relator.BiUnique (Grown R v.nodes.size v'.nodes.size) := by
  constructor
  · rintro i i' j (hij | ⟨k, rfl, rfl⟩) (hij' | ⟨k', rfl, hk'⟩)
    · exact h.unique.1 hij hij'
    · have hlt := (h.lt_size _ _ hij).2
      rw [hk'] at hlt
      exact absurd hlt (Nat.not_lt.mpr (Nat.le_add_right _ _))
    · exact absurd (h.lt_size _ _ hij').2 (Nat.not_lt.mpr (Nat.le_add_right _ _))
    · rw [Nat.add_left_cancel hk']
  · rintro i j j' (hij | ⟨k, rfl, rfl⟩) (hij' | ⟨k', hk', rfl⟩)
    · exact h.unique.2 hij hij'
    · have hlt := (h.lt_size _ _ hij).1
      rw [hk'] at hlt
      exact absurd hlt (Nat.not_lt.mpr (Nat.le_add_right _ _))
    · exact absurd (h.lt_size _ _ hij').1 (Nat.not_lt.mpr (Nat.le_add_right _ _))
    · rw [Nat.add_left_cancel hk']

theorem Node.Alike.mono {Q : Ino → Ino → Prop} {n n' : Node} (hRQ : ∀ i j, R i j → Q i j)
    (h : n.Alike R n') : n.Alike Q n' := ⟨h.body.mono hRQ, h.links, h.accessed, h.modified⟩

/-- Nodes that do not exist yet look alike too. -/
theorem Agrees.alike (h : v.Agrees R v') : v.Alike (Grown R v.nodes.size v'.nodes.size) v' := by
  refine ⟨h.grown_unique, h.clock, fun k => .inr ⟨k, rfl, rfl⟩, ?_⟩
  rintro i j (hij | ⟨k, rfl, rfl⟩)
  · exact Node.Alike.mono (fun _ _ => .inl) (h.node i j hij)
  · rw [node_of_le (Nat.le_add_right _ _), node_of_le (Nat.le_add_right _ _)]
    exact ⟨.directory .nil, rfl, rfl, rfl⟩

theorem Agrees.lists_lt (h : v.Agrees R v') {d i j : Ino} (hd : R d j) (hi : v.Lists d i) :
    i < v.nodes.size := by
  obtain ⟨name, hi⟩ := hi
  have hentries := (h.node d j hd).body.entries.imp fun e e' he =>
    And.intro (h.lt_size _ _ he.2).1 he
  exact ((List.forall₂_and_left _ _).mp hentries).1 (name, i) hi

/-- Volumes that look alike agree on their existing nodes. -/
theorem Alike.agrees (h : v.Alike R v')
    (hlists : ∀ d i, (∃ j, R d j) → v.Lists d i → i < v.nodes.size) :
    v.Agrees (fun i j => R i j ∧ i < v.nodes.size) v' := by
  refine ⟨⟨fun i i' j hij hij' => h.unique.1 hij.1 hij'.1,
    fun i j j' hij hij' => h.unique.2 hij.1 hij'.1⟩,
    fun i j hij => ⟨hij.2, (h.lt_size_iff hij.1).mp hij.2⟩, h.clock, fun i j hij => ?_⟩
  obtain ⟨hbody, hlinks, haccessed, hmodified⟩ := h.node i j hij.1
  refine ⟨?_, hlinks, haccessed, hmodified⟩
  have hentries : ∀ e ∈ (v.node i).body.entries, e.2 < v.nodes.size :=
    fun e he => hlists i e.2 ⟨j, hij.1⟩ ⟨e.1, he⟩
  generalize (v.node i).body = b at hbody hentries ⊢
  generalize (v'.node j).body = b' at hbody ⊢
  cases hbody with
  | directory hlisted =>
    have hboth := (List.forall₂_and_left _ _).mpr ⟨hentries, hlisted⟩
    exact .directory (hboth.imp fun e e' he => ⟨he.2.1, he.2.2, he.1⟩)
  | file h => exact .file h
  | link target => exact .link target
  | fifo queue => exact .fifo queue
  | socket => exact .socket
  | device d => exact .device d

end Volume

/-! ## Two runs -/

namespace World

variable {R : Ino → Ino → Prop} {w w' : World}

/-- Guests that look alike, on hosts whose other programs hold the same named pipes, and whose
related directories name existing nodes. -/
structure Twins (R : Ino → Ino → Prop) (w w' : World) : Prop where
  alike : w.Alike R w'
  peers : w.PeersAlike R w'
  lists : ∀ d i, (∃ j, R d j) → w.volume.Lists d i → i < w.volume.nodes.size

theorem call_twins (h : w.Twins R w') (c : Call) :
    c.veil (w.call c).1 = c.veil (w'.call c).1 ∧ (w.call c).2.Twins R (w'.call c).2 := by
  obtain ⟨hanswer, halike⟩ := h.alike.call (h.alike.ends h.peers) c
  obtain ⟨-, hpeers, -, hvolume⟩ := w.call_transition c
  obtain ⟨-, hpeers', -, -⟩ := w'.call_transition c
  refine ⟨hanswer, halike, fun i j queue hij hqueue => ?_, hvolume.lists_lt h.lists⟩
  -- a call makes no pipe, so the holders of this one were counted alike before
  obtain ⟨queue₀, hqueue₀⟩ := hvolume.fifo_before hqueue
  rw [hpeers, hpeers']
  exact h.peers i j queue₀ hij hqueue₀

/-- The answers to calls made one after another. -/
def answers (w : World) : List Call → List (Outcome Answer)
  | [] => []
  | c :: rest => (w.call c).1 :: (w.call c).2.answers rest

theorem run_twins (h : w.Twins R w') (calls : List Call) :
    List.zipWith Call.veil calls (w.answers calls) =
        List.zipWith Call.veil calls (w'.answers calls) ∧
      (w.run calls).Twins R (w'.run calls) := by
  induction calls generalizing w w' with
  | nil => exact ⟨rfl, h⟩
  | cons c rest ih =>
    obtain ⟨hanswer, hcall⟩ := call_twins h c
    obtain ⟨hrest, hrun⟩ := ih hcall
    refine ⟨?_, hrun⟩
    rw [answers, answers, List.zipWith_cons_cons, List.zipWith_cons_cons, hanswer, hrest]

/-! ## Builders -/

namespace Alike

theorem setStdio (h : w.Alike R w') (kind : StdioKind) (stream : Stream) :
    (w.setStdio kind stream).Alike R (w'.setStdio kind stream) := by
  have hkind : kind.fd < Table.capacity := by cases kind <;> decide
  exact h.withTable (h.table.insertAt hkind (.stdio _))

theorem fresh {host host' : Host} (hvolume : host.volume.Alike R host'.volume)
    (hstreams : host.streams = host'.streams) (random random' : KeyStream) :
    (World.fresh host random).Alike R (World.fresh host' random') := by
  obtain ⟨volume, streams, clocks, peers⟩ := host
  obtain ⟨volume', streams', clocks', peers'⟩ := host'
  obtain rfl : streams = streams' := hstreams
  have hempty : World.Alike R
      ⟨⟨.empty, .empty, random, .empty, []⟩, ⟨volume, streams, clocks, peers⟩⟩
      ⟨⟨.empty, .empty, random', .empty, []⟩, ⟨volume', streams, clocks', peers'⟩⟩ := by
    refine ⟨hvolume, fun id => ?_, .nil, rfl, rfl, rfl⟩
    rw [World.table, World.table, Table.get?_empty]
    exact .none
  have hinput := (hempty.withStreams (streams.addReader .empty).2).setStdio .stdin
    (streams.addReader .empty).1
  exact (((hinput.withStreams _).setStdio .stdout _).withStreams _).setStdio .stderr _

theorem pushArg (h : w.Alike R w') (arg : String) :
    Hostcall.Alike (World.Alike R) (w.pushArg arg) (w'.pushArg arg) := by
  rw [World.pushArg, World.pushArg, ← h.args]
  refine (Hostcall.Alike.refl _).map fun args args' hargs => ?_
  exact ⟨h.volume, h.table, h.preopens, hargs, h.env, h.streams⟩

theorem pushEnv (h : w.Alike R w') (key value : String) :
    Hostcall.Alike (World.Alike R) (w.pushEnv key value) (w'.pushEnv key value) := by
  rw [World.pushEnv, World.pushEnv, ← h.env]
  refine (Hostcall.Alike.refl _).map fun env env' henv => ?_
  exact ⟨h.volume, h.table, h.preopens, h.args, henv, h.streams⟩

theorem pushAll {α : Type} {push : World → α → Except StringListError World}
    (hpush : ∀ w w' a, w.Alike R w' → Hostcall.Alike (World.Alike R) (push w a) (push w' a))
    (list : List α) (h : w.Alike R w') :
    (configure.strings (World.pushAll push w list)).2.Alike R
      (configure.strings (World.pushAll push w' list)).2 := by
  induction list generalizing w w' with
  | nil => exact h
  | cons a rest ih =>
    have hstep := hpush w w' a h
    rw [World.pushAll, World.pushAll]
    generalize push w a = o at hstep ⊢
    generalize push w' a = o' at hstep ⊢
    cases hstep with
    | error e => exact h
    | ok hw => exact ih hw

theorem pushPreopen (h : w.Alike R w') {host : String} (guest : Bytes)
    (hroots : RootsAgree R (w.volume.openHostDirectory (utf8 host))
      (w'.volume.openHostDirectory (utf8 host))) :
    StepAlike R Eq (w.pushPreopen host guest) (w'.pushPreopen host guest) ∨
      ∃ f f', w.pushPreopen host guest = (.error f, w) ∧
        w'.pushPreopen host guest = (.error f', w') := by
  rw [World.pushPreopen, World.pushPreopen]
  generalize w.volume.openHostDirectory (utf8 host) = o at hroots ⊢
  generalize w'.volume.openHostDirectory (utf8 host) = o' at hroots ⊢
  cases o with
  | error e =>
    cases o' with
    | error e' =>
      -- the errors may differ, and both builders go on without the preopen
      exact .inr ⟨_, _, rfl, rfl⟩
    | ok j => exact hroots.elim
  | ok i =>
    cases o' with
    | error e' => exact hroots.elim
    | ok j =>
      left
      dsimp only
      rw [← h.preopens.length_eq]
      have hij : R i j := hroots
      refine (h.allocate (.directory (.mk hij ..))).andThen fun fd fd' u u' hfd hu => ?_
      subst hfd
      refine ⟨.ok rfl, hu.volume, hu.table, ?_, hu.args, hu.env, hu.streams⟩
      exact List.rel_append hu.preopens (.cons (.mk hij ..) .nil)

theorem configure (h : w.Alike R w') {s : Setting}
    (hroots : ∀ host guest, s = .preopen host guest →
      RootsAgree R (w.volume.openHostDirectory (utf8 host))
        (w'.volume.openHostDirectory (utf8 host))) :
    (w.configure s).2.Alike R (w'.configure s).2 := by
  have hvariable : ∀ w w' v, w.Alike R w' → Hostcall.Alike (World.Alike R)
      (World.configure.pushVariable w v) (World.configure.pushVariable w' v) :=
    fun _ _ v h => h.pushEnv v.1 v.2
  cases s with
  | arg s => exact h.pushAll (fun _ _ a h => h.pushArg a) _
  | args list => exact h.pushAll (fun _ _ a h => h.pushArg a) _
  | env key value => exact h.pushAll hvariable _
  | envs list => exact h.pushAll hvariable _
  | stdio kind stream => exact h.setStdio kind stream
  | preopen host guest =>
    rw [World.configure, World.configure]
    rcases h.pushPreopen guest (hroots host guest rfl) with hstep | ⟨f, f', hstep, hstep'⟩
    · generalize w.pushPreopen host guest = step at hstep ⊢
      generalize w'.pushPreopen host guest = step' at hstep ⊢
      obtain ⟨outcome, u⟩ := step
      obtain ⟨outcome', u'⟩ := step'
      obtain ⟨houtcome, hu⟩ := hstep
      cases (houtcome : Hostcall.Alike Eq outcome outcome') with
      | ok => exact hu
      | error => exact hu
    · rw [hstep, hstep']
      exact h

end Alike

/-- Two builders that follow the same requests on hosts that agree on them. -/
theorem build_alike {host host' : Host} {settings : List Setting} (h : host.Agrees R settings host')
    (random random' : KeyStream) :
    ((fresh host random).build settings).Alike
      (Grown R host.volume.nodes.size host'.volume.nodes.size)
      ((fresh host' random').build settings) := by
  have hroots : ∀ path guest, .preopen path guest ∈ settings →
      RootsAgree (Grown R host.volume.nodes.size host'.volume.nodes.size)
        (host.volume.openHostDirectory (utf8 path))
        (host'.volume.openHostDirectory (utf8 path)) := by
    intro path guest hpath
    have hagree := h.roots path guest hpath
    generalize host.volume.openHostDirectory (utf8 path) = o at hagree ⊢
    generalize host'.volume.openHostDirectory (utf8 path) = o' at hagree ⊢
    cases o <;> cases o'
    · trivial
    · exact hagree.elim
    · exact hagree.elim
    · exact .inl hagree
  have hbuild : ∀ (rest : List Setting) (w w' : World), (∀ s ∈ rest, s ∈ settings) →
      w.Furnished host settings → w'.Furnished host' settings →
      w.Alike (Grown R host.volume.nodes.size host'.volume.nodes.size) w' →
      (w.build rest).Alike (Grown R host.volume.nodes.size host'.volume.nodes.size)
        (w'.build rest) := by
    intro rest
    induction rest with
    | nil => exact fun w w' _ _ _ h => h
    | cons s rest ih =>
      intro w w' hrest hw hw' halike
      have hs := hrest s List.mem_cons_self
      refine ih _ _ (fun s' hs' => hrest s' (List.mem_cons_of_mem _ hs')) (hw.configure hs)
        (hw'.configure hs) (halike.configure ?_)
      rintro path guest rfl
      rw [hw.volume, hw'.volume]
      exact hroots path guest hs
  exact hbuild settings _ _ (fun _ hs => hs) (.fresh host random settings)
    (.fresh host' random' settings) (.fresh h.volume.alike h.streams random random')

theorem build_twins {host host' : Host} {settings : List Setting} (h : host.Agrees R settings host')
    (random random' : KeyStream) :
    ((fresh host random).build settings).Twins
      (Grown R host.volume.nodes.size host'.volume.nodes.size)
      ((fresh host' random').build settings) := by
  have hw := build_furnished host random settings
  have hw' := build_furnished host' random' settings
  refine ⟨build_alike h random random', fun i j queue hij hqueue => ?_, fun d i hd hi => ?_⟩
  · rw [hw.volume] at hqueue
    rw [hw.peers, hw'.peers]
    rcases hij with hij | ⟨k, rfl, -⟩
    · exact h.pipes i j queue hij hqueue
    · -- a node that does not exist yet is no pipe
      rw [Volume.body, Volume.node_of_le (Nat.le_add_right _ _)] at hqueue
      cases hqueue
  · rw [hw.volume] at hi ⊢
    obtain ⟨j, hj | ⟨k, rfl, -⟩⟩ := hd
    · exact h.volume.lists_lt hj hi
    · obtain ⟨name, hi⟩ := hi
      rw [Volume.entries_of_le (Nat.le_add_right _ _)] at hi
      cases hi

/-- The roots of both guests are related before any call. -/
theorem build_preopens {host host' : Host} {settings : List Setting}
    (h : host.Agrees R settings host') (random random' : KeyStream) :
    List.Forall₂ (Preopen.Alike R) ((fresh host random).build settings).context.preopens
      ((fresh host' random').build settings).context.preopens := by
  have hlt : ∀ p ∈ ((fresh host random).build settings).context.preopens,
      p.root < host.volume.nodes.size := by
    intro p hp
    obtain ⟨hsetting, hroot⟩ := (build_furnished host random settings).roots p hp
    have hroots := h.roots p.host p.guest hsetting
    rw [hroot] at hroots
    cases hroot' : host'.volume.openHostDirectory (utf8 p.host) with
    | error e =>
      rw [hroot'] at hroots
      exact hroots.elim
    | ok j =>
      rw [hroot'] at hroots
      exact (h.volume.lt_size _ j hroots).1
  have hpreopens := (List.forall₂_and_left _ _).mpr ⟨hlt, (build_alike h random random').preopens⟩
  refine hpreopens.imp fun p p' ⟨hp, hpp'⟩ => ?_
  cases hpp' with
  | mk hij =>
    rcases hij with hij | ⟨k, rfl, -⟩
    · exact .mk hij ..
    · exact absurd hp (Nat.not_lt.mpr (Nat.le_add_right _ _))

/-- Guests of two hosts that agree on what their builder was asked to grant get the same answers
to the same calls, and the hosts agree on it afterwards. -/
theorem run_answers_eq (host host' : Host) (random random' : KeyStream) (settings : List Setting)
    (calls : List Call) (R : Ino → Ino → Prop) (h : host.Agrees R settings host') :
    let start := (fresh host random).build settings
    let start' := (fresh host' random').build settings
    List.zipWith Call.veil calls (start.answers calls) =
        List.zipWith Call.veil calls (start'.answers calls) ∧
      ∃ Q : Ino → Ino → Prop, (∀ i j, R i j → Q i j) ∧
        (start.run calls).volume.Agrees Q (start'.run calls).volume ∧
        List.Forall₂ (Preopen.Alike Q) (start.run calls).context.preopens
          (start'.run calls).context.preopens := by
  intro start start'
  have hfurnished : start.Furnished host settings := build_furnished host random settings
  obtain ⟨hanswers, hfinal⟩ := run_twins (build_twins h random random') calls
  have hgrows : host.volume.nodes.size ≤ (start.run calls).volume.nodes.size :=
    (run_contained (fun i hi => .inr hi) hfurnished.contained calls).volume.grows
  -- what was related is still there, and what was created in step is related now
  have hold : ∀ i j, R i j → Grown R host.volume.nodes.size host'.volume.nodes.size i j ∧
      i < (start.run calls).volume.nodes.size := fun i j hij =>
    ⟨.inl hij, Nat.lt_of_lt_of_le (h.volume.lt_size i j hij).1 hgrows⟩
  refine ⟨hanswers, _, hold, hfinal.alike.volume.agrees hfinal.lists, ?_⟩
  rw [run_preopens, run_preopens]
  refine (build_preopens h random random').imp fun p p' hp => ?_
  cases hp with
  | mk hij => exact .mk (hold _ _ hij) ..

/-- The host of `guardedHost` without the file that the link points at. -/
def bareHost : Host :=
  let v := ((Volume.new default).create Volume.top (utf8 "guest") (.directory [])).2
  ⟨(v.create 1 (utf8 "out") (.link (utf8 "../secret"))).2, default, ⟨5, 5, 5, 5, 1⟩, []⟩

/-- The numbers of the directory and of the link on these two hosts. -/
def GuestNode (i j : Ino) : Prop := (i = 1 ∧ j = 1) ∨ (i = 3 ∧ j = 2)

/-- Asks for what is behind the link in several ways. -/
def probeCalls : List Call :=
  [.pathFilestatGet 3 LookupFlags.symlinkFollow "out",
    .pathOpen 3 .empty "out" .empty .empty .empty .empty,
    .pathFilestatGet 3 .empty "out",
    .fdReaddir 3 (List.replicate 64 0) 0,
    .randomGet [0, 0]]

theorem run_answers_eq_escaping :
    guardedHost.Agrees GuestNode [.preopen "guest" [47]] bareHost ∧
      List.zipWith Call.veil (probeCalls ++ escapeCalls)
          (((fresh guardedHost (.ofSeed 1)).build [.preopen "guest" [47]]).answers
            (probeCalls ++ escapeCalls)) =
        List.zipWith Call.veil (probeCalls ++ escapeCalls)
          (((fresh bareHost (.ofSeed 2)).build [.preopen "guest" [47]]).answers
            (probeCalls ++ escapeCalls)) := by
  have hvolume : guardedHost.volume.Agrees GuestNode bareHost.volume := by
    refine ⟨⟨?_, ?_⟩, ?_, rfl, ?_⟩
    · rintro i i' j (⟨rfl, rfl⟩ | ⟨rfl, rfl⟩) (⟨rfl, hj⟩ | ⟨rfl, hj⟩) <;> trivial
    · rintro i j j' (⟨rfl, rfl⟩ | ⟨rfl, rfl⟩) (⟨hi, rfl⟩ | ⟨hi, rfl⟩) <;> trivial
    · rintro i j (⟨rfl, rfl⟩ | ⟨rfl, rfl⟩) <;> decide
    · have hguest : guardedHost.volume.node 1 = ⟨.directory [(utf8 "out", 3)], 1, 0, 0⟩ := rfl
      have hguest' : bareHost.volume.node 1 = ⟨.directory [(utf8 "out", 2)], 1, 0, 0⟩ := rfl
      have hout : guardedHost.volume.node 3 = ⟨.link (utf8 "../secret"), 1, 0, 0⟩ := rfl
      have hout' : bareHost.volume.node 2 = ⟨.link (utf8 "../secret"), 1, 0, 0⟩ := rfl
      rintro i j (⟨rfl, rfl⟩ | ⟨rfl, rfl⟩)
      · rw [hguest, hguest']
        exact ⟨.directory (.cons ⟨rfl, .inr ⟨rfl, rfl⟩⟩ .nil), rfl, rfl, rfl⟩
      · rw [hout, hout']
        exact ⟨.link _, rfl, rfl, rfl⟩
  have hagrees : guardedHost.Agrees GuestNode [.preopen "guest" [47]] bareHost := by
    refine ⟨hvolume, rfl, fun i j queue _ _ => rfl, fun path guest hpath => ?_⟩
    rw [(Setting.preopen.inj (List.mem_singleton.mp hpath)).1]
    have hopened : guardedHost.volume.openHostDirectory (utf8 "guest") = .ok 1 := by decide +kernel
    have hopened' : bareHost.volume.openHostDirectory (utf8 "guest") = .ok 1 := by decide +kernel
    rw [hopened, hopened']
    exact .inl ⟨rfl, rfl⟩
  exact ⟨hagrees, (run_answers_eq guardedHost bareHost (.ofSeed 1) (.ofSeed 2) _
    (probeCalls ++ escapeCalls) GuestNode hagrees).1⟩

end World

end Hostcall
