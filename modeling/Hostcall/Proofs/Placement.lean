import Hostcall.Proofs.Building
import Hostcall.Proofs.Names
import Hostcall.Proofs.Transition

/-!
# Where directories lie

A directory descriptor lies beneath a preopen that exists, at proper names, so a guest path
can always be resolved against it.

* `Directory.Placed` is that invariant, `World.call_placed` and `World.run_placed` keep it;
* `Resolved.LiesAt` is what a resolution gives against a placed directory;
* `World.run_resolve` is both for a guest as its builder left it.
-/

namespace Hostcall

/-! ## Invariant -/

/-- A directory beneath a preopen of a list, the root of one if it goes by a name. -/
structure Directory.Placed (preopens : List Preopen) (d : Directory) : Prop where
  preopen_lt : d.preopen < preopens.length
  names : ∀ n ∈ d.relative, ProperName n
  root : ∀ guest, d.guestName = some guest →
    d.relative = [] ∧ ∃ p, preopens[d.preopen]? = some p ∧ p.guest = guest

/-- The faults of a resolution that would blame the table and not the guest. -/
def unplacedFaults (fd : Nat) : List Fault :=
  [.because .badFileDescriptor ("descriptor " ++ toString fd ++ " has no preopen"),
    .because .notCapable "base path is not root-relative",
    .because .illegalByteSequence "base path"]

/-- A place beneath the preopen of a directory, with its path on the host. -/
structure Resolved.LiesAt (preopens : List Preopen) (d : Directory) (r : Resolved) : Prop where
  index : r.index = d.preopen
  preopen : preopens[d.preopen]? = some r.preopen
  names : ∀ n ∈ r.place.names, ProperName n
  hostPath : ∃ rest, r.hostPath = r.preopen.host ++ rest
  components : components (utf8 r.hostPath) =
    Hostcall.components (utf8 r.preopen.host) ++ r.place.names.map fun n => .name (utf8 n)

theorem Directory.Placed.pathNames {preopens : List Preopen} {d : Directory}
    (h : d.Placed preopens) : ∀ n ∈ d.relative, PathName n :=
  fun n hn => (h.names n hn).pathName

/-! ## Host paths -/

theorem eq_append_slash_of_getLast? {s : String} (h : s.toList.getLast? = some '/') :
    ∃ t, s = t ++ "/" := by
  obtain ⟨front, hfront⟩ := List.getLast?_eq_some_iff.mp h
  refine ⟨String.ofList front, ?_⟩
  rw [← String.toList_inj, hfront, String.toList_append, String.toList_ofList]
  rfl

theorem components_hostPath {r : Resolved} (h : ∀ n ∈ r.place.names, ProperName n) :
    components (utf8 r.hostPath) =
      components (utf8 r.preopen.host) ++ r.place.names.map fun n => .name (utf8 n) := by
  have hnames : ∀ n ∈ r.place.names, PathName n := fun n hn => (h n hn).pathName
  have hpieces := pieces_utf8_joinNames hnames
  by_cases hempty : r.preopen.host = ""
  · simp only [Resolved.hostPath, hempty, true_or, if_true, String.empty_append]
    exact components_utf8_joinNames hnames
  -- the slash between the two is the last character of the root or is put there
  by_cases hslash : r.preopen.host.toList.getLast? = some '/'
  · simp only [Resolved.hostPath, hslash, or_true, if_true, String.append_empty]
    obtain ⟨front, hfront⟩ := eq_append_slash_of_getLast? hslash
    rw [hfront, utf8_append, utf8_append, List.append_assoc]
    refine (components_append (utf8 front) _).trans ?_
    exact congrArg _ hpieces
  · simp only [Resolved.hostPath, hempty, hslash, or_self, if_false]
    rw [utf8_append, utf8_append, List.append_assoc]
    refine (components_append (utf8 r.preopen.host) _).trans ?_
    rw [components_append_slash (mt utf8_eq_nil_iff.mp hempty)]
    exact congrArg _ hpieces

theorem hostPath_eq_append (r : Resolved) : ∃ rest, r.hostPath = r.preopen.host ++ rest := by
  simp only [Resolved.hostPath, String.append_assoc]
  exact ⟨_, rfl⟩

/-! ## Resolving against a placed directory -/

/-- Resolution is the lookup of a preopen that is there and the folding of the path. -/
theorem resolve_of_placed {t : DescriptorTable} {preopens : List Preopen} {fd : Nat}
    {d : Directory} (hd : t.getDirectory fd = .ok d) (hplaced : d.Placed preopens) (path : String) :
    ∃ p, preopens[d.preopen]? = some p ∧
      resolve t preopens fd path = (foldPath d.relative path).map (⟨p, d.preopen, ·⟩) := by
  have hp := List.getElem?_eq_getElem hplaced.preopen_lt
  refine ⟨_, hp, ?_⟩
  simp only [resolve, hd, Bind.bind, Except.bind, hp, normalize_joinNames hplaced.pathNames]
  cases foldPath d.relative path <;> rfl

theorem because_inj {e e' : Errno} {s s' : String} (h : Fault.because e s = Fault.because e' s') :
    e = e' ∧ s = s' := by
  cases h
  exact ⟨rfl, rfl⟩

theorem getDirectory_eq_ok {t : DescriptorTable} {fd : Nat} {d : Directory} :
    t.getDirectory fd = .ok d ↔ t.get? fd = some (.directory d) := by
  constructor
  · intro h
    obtain ⟨d', hd', h⟩ := bind_eq_ok.mp h
    cases d' with
    | directory d' =>
      cases h
      exact Table.get?_of_get hd'
    | file _ | stdio _ => cases h
  · intro h
    rw [DescriptorTable.getDirectory, Table.get_of_get? h]
    rfl

theorem getDirectory_eq_error {t : DescriptorTable} {fd : Nat} {fault : Fault}
    (h : t.getDirectory fd = .error fault) :
    fault = Table.notOpen fd ∨ ∃ d, fault = DescriptorTable.wrongKind .notDirectory fd d := by
  rw [DescriptorTable.getDirectory, Table.get] at h
  cases hd : t.get? fd with
  | none =>
    rw [hd] at h
    cases h
    exact .inl rfl
  | some d =>
    rw [hd] at h
    cases d with
    | directory d => cases h
    | file e =>
      cases h
      exact .inr ⟨_, rfl⟩
    | stdio e =>
      cases h
      exact .inr ⟨_, rfl⟩

theorem notMem_unplacedFaults_of_getDirectory {t : DescriptorTable} {fd : Nat} {fault : Fault}
    (h : t.getDirectory fd = .error fault) : fault ∉ unplacedFaults fd := by
  intro hmem
  rcases getDirectory_eq_error h with rfl | ⟨d, rfl⟩
  · simp only [unplacedFaults, List.mem_cons, List.not_mem_nil, or_false] at hmem
    rcases hmem with hmem | hmem | hmem
    · have hmessage := (because_inj hmem).2
      rw [String.append_right_inj] at hmessage
      exact absurd hmessage (by decide)
    · cases (because_inj hmem).1
    · cases (because_inj hmem).1
  · simp only [unplacedFaults, List.mem_cons, List.not_mem_nil, or_false] at hmem
    rcases hmem with hmem | hmem | hmem <;> cases (because_inj hmem).1

theorem notMem_unplacedFaults_of_foldPath {names : List String} {path : String} {fault : Fault}
    (h : foldPath names path = .error fault) (fd : Nat) : fault ∉ unplacedFaults fd := by
  -- the messages differ in their first characters, whatever path they quote
  have hfirst : ∀ {s s' : String} {rest : String}, s.toList.head? ≠ s'.toList.head? →
      s.toList ≠ [] → s ++ rest ≠ s' := by
    intro s s' rest hne hs heq
    subst heq
    rw [String.toList_append] at hne
    cases hchars : s.toList with
    | nil => exact hs hchars
    | cons c chars =>
      rw [hchars] at hne
      exact hne rfl
  intro hmem
  simp only [unplacedFaults, List.mem_cons, List.not_mem_nil, or_false] at hmem
  rw [foldPath] at h
  split at h
  · cases h
    rcases hmem with hmem | hmem | hmem <;> cases (because_inj hmem).1
  · split at h
    · cases h
      rcases hmem with hmem | hmem | hmem
      · cases (because_inj hmem).1
      · cases (because_inj hmem).1
      · exact absurd (because_inj hmem).2 (by decide)
    · split at h
      · cases h
        rcases hmem with hmem | hmem | hmem
        · cases (because_inj hmem).1
        · exact hfirst (by decide) (by decide) (because_inj hmem).2
        · cases (because_inj hmem).1
      · split at h
        · cases h
          rcases hmem with hmem | hmem | hmem
          · cases (because_inj hmem).1
          · have hmessage := (because_inj hmem).2
            rw [String.append_assoc] at hmessage
            exact hfirst (by decide) (by decide) hmessage
          · cases (because_inj hmem).1
        · cases h

theorem liesAt_of_resolve {t : DescriptorTable} {preopens : List Preopen} {fd : Nat}
    {d : Directory} {path : String} {r : Resolved} (hd : t.getDirectory fd = .ok d)
    (hplaced : d.Placed preopens) (hr : resolve t preopens fd path = .ok r) :
    r.LiesAt preopens d := by
  obtain ⟨p, hp, hresolve⟩ := resolve_of_placed hd hplaced path
  rw [hresolve] at hr
  obtain ⟨place, hplace, rfl⟩ := map_eq_ok.mp hr
  have hnames : ∀ n ∈ place.names, ProperName n :=
    properName_of_normalize hplaced.names
      ((normalize_joinNames hplaced.pathNames path).trans hplace)
  exact ⟨rfl, hp, hnames, hostPath_eq_append _, components_hostPath hnames⟩

/-! ## Runs -/

namespace World

variable {w : World}

/-- A guest all of whose directories are placed. -/
def Placed (w : World) : Prop :=
  ∀ fd d, w.table.get? fd = some (.directory d) → d.Placed w.context.preopens

theorem Furnished.placed {host : Host} {settings : List Setting} (h : w.Furnished host settings) :
    w.Placed := by
  intro fd d hd
  obtain ⟨index, p, hp, rfl⟩ := h.descriptors fd _ hd
  refine ⟨(List.getElem?_eq_some_iff.mp hp).1, nofun, fun guest hguest => ?_⟩
  cases hguest
  exact ⟨rfl, p, hp, rfl⟩

theorem placed_nested {preopens : List Preopen} {d : Directory} {r : Resolved}
    (h : r.LiesAt preopens d) (i : Ino) :
    (Directory.nested r.index r.place.names i).Placed preopens := by
  refine ⟨?_, h.names, nofun⟩
  rw [Directory.nested, h.index]
  exact (List.getElem?_eq_some_iff.mp h.preopen).1

theorem Placed.liesAt (h : w.Placed) {dirfd : Nat} {path : String} {r : Resolved}
    (hr : w.resolve dirfd path = .ok r) :
    ∃ d, w.table.get? dirfd = some (.directory d) ∧ r.LiesAt w.context.preopens d := by
  obtain ⟨d, hd, -⟩ := bind_eq_ok.mp hr
  have hget := getDirectory_eq_ok.mp hd
  exact ⟨d, hget, liesAt_of_resolve hd (h dirfd d hget) hr⟩

/-- The step: what a call opens is named by a resolution, and the rest of the table was there
before. -/
theorem call_placed (h : w.Placed) (c : Call) : (w.call c).2.Placed := by
  obtain ⟨hpreopens, -, htable, -⟩ := w.call_transition c
  intro fd d hd
  rw [hpreopens]
  refine htable.forall (Q := fun x => ∀ d, x = .directory d → d.Placed w.context.preopens)
    ?_ ?_ ?_ hd d rfl
  · rintro fd x hx d rfl
    exact h fd d hx
  · exact fun e handle _ _ d hd => by cases hd
  · -- a directory just opened carries the names that the path was resolved to
    intro dirfd path r x hr hx d hd
    obtain ⟨d₀, -, hlies⟩ := h.liesAt hr
    cases hx with
    | file => cases hd
    | directory =>
      cases hd
      exact placed_nested hlies _

theorem run_placed (h : w.Placed) (calls : List Call) : (w.run calls).Placed :=
  run_keeps (P := Placed) (fun _ c h => call_placed h c) h calls

/-- However a guest was built and whatever it called, its directories are placed, and a path
resolved against any id is refused for the id or for the path, or leads to a place beneath the
preopen of that id. -/
theorem run_resolve (host : Host) (random : KeyStream) (settings : List Setting)
    (calls : List Call) :
    let w := ((fresh host random).build settings).run calls
    (∀ fd d, w.table.get? fd = some (.directory d) → d.Placed w.context.preopens) ∧
    ∀ fd path,
      (∀ fault, w.resolve fd path = .error fault → fault ∉ unplacedFaults fd) ∧
      ∀ r, w.resolve fd path = .ok r →
        ∃ d, w.table.get? fd = some (.directory d) ∧ r.LiesAt w.context.preopens d := by
  intro w
  have hplaced : w.Placed := run_placed (build_furnished host random settings).placed calls
  refine ⟨hplaced, fun fd path => ⟨fun fault hfault => ?_, fun r hr => hplaced.liesAt hr⟩⟩
  cases hd : w.table.getDirectory fd with
  | error e =>
    rw [resolve, Hostcall.resolve, hd] at hfault
    cases hfault
    exact notMem_unplacedFaults_of_getDirectory hd
  | ok d =>
    obtain ⟨p, -, hresolve⟩ := resolve_of_placed hd (hplaced fd d (getDirectory_eq_ok.mp hd)) path
    rw [resolve, hresolve] at hfault
    cases hfold : foldPath d.relative path with
    | ok place =>
      rw [hfold] at hfault
      cases hfault
    | error e =>
      rw [hfold] at hfault
      cases hfault
      exact notMem_unplacedFaults_of_foldPath hfold fd

end World

end Hostcall
