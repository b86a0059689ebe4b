import Hostcall.Embedder
import Hostcall.Proofs.Outcome
import Hostcall.Proofs.Table

/-!
# What a builder leaves behind

A builder reads the host and changes nothing of its file system.  The descriptors it
installs are standard streams and roots of the preopens it notes, whether or not every
request to it succeeds.

* `World.Configured` is what one request makes of a guest;
* `World.Furnished` is what holds of a guest while its builder follows a list of them.
-/

namespace Hostcall

namespace World

/-! ## One request -/

/-- What a builder makes of a guest by one request, whether or not it succeeds. -/
inductive Configured (w : World) : Setting → World → Prop where
  | refused (s : Setting) : Configured w s w
  /-- Some strings more, those before the first that is refused. -/
  | strings (s : Setting) (args env : StringList) :
      Configured w s { w with context := { w.context with args, env } }
  | stdio (kind : StdioKind) (stream : Stream) :
      Configured w (.stdio kind stream) (w.setStdio kind stream)
  /-- A preopen is noted with the id that its root got. -/
  | preopen {path : String} {guest : Bytes} {root : Ino} {fd : Nat}
      (hroot : w.volume.openHostDirectory (utf8 path) = .ok root)
      (hfree : w.table.leastFree? = some fd) :
      Configured w (.preopen path guest)
        ⟨{ w.context with
            table := (w.table.allocate (.directory (.root w.context.preopens.length guest root))).2
            preopens := w.context.preopens ++ [⟨fd, guest, path, root⟩] }, w.host⟩

/-- Strings that are given to a guest change nothing else of it. -/
theorem pushAll_snd {α : Type} {push : World → α → Except StringListError World}
    (hpush : ∀ w w' a, push w a = .ok w' →
      ∃ args env, w' = { w with context := { w.context with args, env } })
    (w : World) (list : List α) :
    ∃ args env, (pushAll push w list).2 = { w with context := { w.context with args, env } } := by
  induction list generalizing w with
  | nil => exact ⟨_, _, rfl⟩
  | cons a rest ih =>
    rw [pushAll]
    split
    case h_1 => exact ⟨_, _, rfl⟩
    case h_2 w' hw' =>
      obtain ⟨args, env, rfl⟩ := hpush w w' a hw'
      exact ih _

theorem pushArg_eq_ok {w w' : World} {arg : String} (h : w.pushArg arg = .ok w') :
    ∃ args env, w' = { w with context := { w.context with args, env } } := by
  obtain ⟨args, -, rfl⟩ := map_eq_ok.mp h
  exact ⟨args, w.context.env, rfl⟩

theorem pushEnv_eq_ok {w w' : World} {key value : String} (h : w.pushEnv key value = .ok w') :
    ∃ args env, w' = { w with context := { w.context with args, env } } := by
  obtain ⟨env, -, rfl⟩ := map_eq_ok.mp h
  exact ⟨w.context.args, env, rfl⟩

theorem Configured.ofStrings {w : World} {s : Setting} {outcome : Except StringListError Unit × World}
    (h : ∃ args env, outcome.2 = { w with context := { w.context with args, env } }) :
    w.Configured s (configure.strings outcome).2 := by
  obtain ⟨args, env, h⟩ := h
  rcases outcome with ⟨_ | _, w'⟩
  · exact h ▸ .strings s args env
  · exact h ▸ .strings s args env

theorem allocate_of_full {w : World} (hfull : w.table.leastFree? = none) (d : Descriptor) :
    w.allocate d = (.error (.because .tooManyOpenFiles "descriptor table is full"), w) := by
  simp only [allocate, Table.allocate_fst, hfull, Table.allocate_snd_of_none hfull]
  rfl

theorem allocate_of_free {w : World} {fd : Nat} (hfree : w.table.leastFree? = some fd)
    (d : Descriptor) : w.allocate d = (.ok fd, w.withTable (w.table.allocate d).2) := by
  simp only [allocate, Table.allocate_fst, hfree]

/-- A request for a preopen changes nothing if it fails. -/
theorem pushPreopen_cases (w : World) (path : String) (guest : Bytes) :
    (∃ fault, w.pushPreopen path guest = (.error fault, w)) ∨
      ∃ root fd, w.volume.openHostDirectory (utf8 path) = .ok root ∧
        w.table.leastFree? = some fd ∧
        w.pushPreopen path guest = (.ok fd, ⟨{ w.context with
          table := (w.table.allocate (.directory (.root w.context.preopens.length guest root))).2
          preopens := w.context.preopens ++ [⟨fd, guest, path, root⟩] }, w.host⟩) := by
  rw [pushPreopen]
  split
  case h_1 => exact .inl ⟨_, rfl⟩
  case h_2 root hroot =>
    cases hfree : w.table.leastFree? with
    | none =>
      -- the root is opened and dropped again
      rw [allocate_of_full hfree]
      exact .inl ⟨_, rfl⟩
    | some fd =>
      refine .inr ⟨root, fd, hroot, rfl, ?_⟩
      rw [allocate_of_free hfree]
      rfl

theorem pushPreopen_configured (w : World) (path : String) (guest : Bytes) :
    w.Configured (.preopen path guest) (w.pushPreopen path guest).2 := by
  rcases w.pushPreopen_cases path guest with ⟨fault, hpush⟩ | ⟨root, fd, hroot, hfree, hpush⟩
  · rw [hpush]
    exact .refused _
  · rw [hpush]
    exact .preopen hroot hfree

theorem configure_configured (w : World) (s : Setting) : w.Configured s (w.configure s).2 := by
  cases s with
  | arg s => exact .ofStrings (pushAll_snd (fun _ _ _ => pushArg_eq_ok) w _)
  | args list => exact .ofStrings (pushAll_snd (fun _ _ _ => pushArg_eq_ok) w _)
  | env key value => exact .ofStrings (pushAll_snd (fun _ _ _ => pushEnv_eq_ok) w _)
  | envs list => exact .ofStrings (pushAll_snd (fun _ _ _ => pushEnv_eq_ok) w _)
  | stdio kind stream => exact .stdio kind stream
  | preopen path guest =>
    have hpush := w.pushPreopen_configured path guest
    rw [configure]
    split
    case h_1 heq =>
      rw [heq] at hpush
      exact hpush
    case h_2 heq =>
      rw [heq] at hpush
      exact hpush

/-! ## All requests -/

/-- A descriptor that a builder may install beside the given preopens. -/
def Installed (preopens : List Preopen) : Descriptor → Prop
  | .stdio _ => True
  | .directory d =>
    ∃ index p, preopens[index]? = some p ∧ d = .root index p.guest p.root
  | .file _ => False

theorem Installed.append {preopens : List Preopen} {d : Descriptor} (h : Installed preopens d)
    (p : Preopen) : Installed (preopens ++ [p]) d := by
  cases d with
  | stdio e => trivial
  | file e => exact h
  | directory d =>
    obtain ⟨index, q, hq, hd⟩ := h
    refine ⟨index, q, ?_, hd⟩
    rw [List.getElem?_append_left (List.getElem?_eq_some_iff.mp hq).1]
    exact hq

/-- What holds of a guest on a host while its builder follows a list of requests. -/
structure Furnished (host : Host) (settings : List Setting) (w : World) : Prop where
  volume : w.volume = host.volume
  peers : w.host.peers = host.peers
  descriptors : ∀ fd d, w.table.get? fd = some d → Installed w.context.preopens d
  roots : ∀ p ∈ w.context.preopens, .preopen p.host p.guest ∈ settings ∧
    host.volume.openHostDirectory (utf8 p.host) = .ok p.root

namespace Furnished

variable {host : Host} {settings : List Setting} {w : World}

theorem setStdio (h : w.Furnished host settings) (kind : StdioKind) (stream : Stream) :
    (w.setStdio kind stream).Furnished host settings := by
  refine ⟨h.volume, h.peers, fun fd d hd => ?_, h.roots⟩
  have hkind : kind.fd < Table.capacity := by cases kind <;> decide
  change (w.table.insertAt kind.fd _).2.get? fd = some d at hd
  rw [Table.get?_insertAt hkind] at hd
  split at hd
  · cases hd
    trivial
  · exact h.descriptors fd d hd

theorem withStreams (h : w.Furnished host settings) (streams : Streams) :
    (w.withStreams streams).Furnished host settings :=
  ⟨h.volume, h.peers, h.descriptors, h.roots⟩

theorem fresh (host : Host) (random : KeyStream) (settings : List Setting) :
    (World.fresh host random).Furnished host settings := by
  have hempty : Furnished host settings ⟨⟨.empty, .empty, random, .empty, []⟩, host⟩ := by
    refine ⟨rfl, rfl, fun fd d hd => ?_, nofun⟩
    rw [World.table, Table.get?_empty] at hd
    cases hd
  have hinput := (hempty.withStreams (host.streams.addReader .empty).2).setStdio .stdin
    (host.streams.addReader .empty).1
  exact (((hinput.withStreams _).setStdio .stdout _).withStreams _).setStdio .stderr _

theorem configure (h : w.Furnished host settings) {s : Setting} (hs : s ∈ settings) :
    (w.configure s).2.Furnished host settings := by
  have hconfigured := w.configure_configured s
  generalize (w.configure s).2 = w' at hconfigured ⊢
  cases hconfigured with
  | refused => exact h
  | strings => exact ⟨h.volume, h.peers, h.descriptors, h.roots⟩
  | stdio kind stream => exact h.setStdio kind stream
  | @preopen path guest root fd hroot hfree =>
    refine ⟨h.volume, h.peers, fun id d hd => ?_, fun p hp => ?_⟩
    · change (w.table.allocate _).2.get? id = some d at hd
      rw [Table.get?_allocate] at hd
      split at hd
      · cases hd
        exact ⟨w.context.preopens.length, ⟨fd, guest, path, root⟩,
          List.getElem?_concat_length, rfl⟩
      · exact (h.descriptors id d hd).append _
    · rcases List.mem_append.mp hp with hp | hp
      · exact h.roots p hp
      · rw [List.mem_singleton.mp hp, ← h.volume]
        exact ⟨hs, hroot⟩

end Furnished

/-- Whatever a builder is asked for and whatever of it fails, it leaves a furnished guest. -/
theorem build_furnished (host : Host) (random : KeyStream) (settings : List Setting) :
    ((fresh host random).build settings).Furnished host settings := by
  -- on the requests still to follow, of which every guest on the way is furnished
  have hbuild : ∀ (rest : List Setting) (w : World), (∀ s ∈ rest, s ∈ settings) →
      w.Furnished host settings → (w.build rest).Furnished host settings := by
    intro rest
    induction rest with
    | nil => exact fun w _ h => h
    | cons s rest ih =>
      intro w hrest h
      exact ih _ (fun s' hs' => hrest s' (List.mem_cons_of_mem _ hs'))
        (h.configure (hrest s List.mem_cons_self))
  exact hbuild settings _ (fun _ hs => hs) (Furnished.fresh host random settings)

end World

end Hostcall
