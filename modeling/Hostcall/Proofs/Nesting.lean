import Hostcall.Proofs.Authority

/-!
# Paths beneath directories that were opened by path

A directory that was opened by a path takes further paths as if they stood behind that path,
and so does what is opened beneath it in turn.

* `SameAnswer` is that a guest cannot tell two outcomes apart;
* `foldPath_append` is the fact about paths, `normalize_append` carries it to every base a path
  may be joined onto;
* `World.Descends` is a directory that was reached from another by opening paths one beneath
  the other, and `World.Descends.resolve` carries the fact through all of them.
-/

namespace Hostcall

/-- The same for a guest, who is told the error number of a fault and not its message. -/
inductive SameAnswer {α : Type} : Outcome α → Outcome α → Prop where
  | ok (a : α) : SameAnswer (.ok a) (.ok a)
  | error {f g : Fault} {e : Errno} (hf : f.errno? = some e) (hg : g.errno? = some e) :
      SameAnswer (.error f) (.error g)

namespace SameAnswer

variable {α β : Type} {x y z : Outcome α}

theorem trans (h : SameAnswer x y) (h' : SameAnswer y z) : SameAnswer x z := by
  cases h with
  | ok a => exact h'
  | error hf hg =>
    cases h' with
    | error hg' hz =>
      rw [hg] at hg'
      cases hg'
      exact .error hf hz

theorem map (h : SameAnswer x y) (f : α → β) : SameAnswer (x.map f) (y.map f) := by
  cases h with
  | ok a => exact .ok (f a)
  | error hf hg => exact .error hf hg

theorem because (e : Errno) (s t : String) :
    SameAnswer (.error (.because e s) : Outcome α) (.error (.because e t)) :=
  .error rfl rfl

end SameAnswer

/-! ## Names of a base -/

theorem slash_mem_utf8 {s : String} (h : '/' ∈ s.toList) : slash ∈ utf8 s :=
  List.mem_flatMap.mpr ⟨'/', h, by decide⟩

/-- A piece between slashes that names something is read back from its text. -/
theorem pathName_of_text? {b : Bytes} {s : String} (hs : text? b = some s) (hslash : slash ∉ b)
    (hname : Component.ofPiece? b = some (.name b)) : PathName s := by
  have hb := utf8_of_text? hs
  subst hb
  rw [Component.ofPiece?] at hname
  split at hname
  · cases hname
  split at hname
  · cases hname
  split at hname
  · cases hname
  case isFalse hempty hdot hdotDot =>
    refine ⟨mt utf8_eq_nil_iff.mpr hempty, ?_, ?_, fun h => hslash (slash_mem_utf8 h)⟩
    · rintro rfl
      exact hdot (by decide)
    · rintro rfl
      exact hdotDot (by decide)

theorem ofPiece?_eq_name {piece b : Bytes} (h : Component.ofPiece? piece = some (.name b)) :
    piece = b := by
  rw [Component.ofPiece?] at h
  split at h
  · cases h
  split at h
  · cases h
  split at h
  · cases h
  · cases h
    rfl

theorem name_mem_components {path b : Bytes} (h : .name b ∈ components path) :
    slash ∉ b ∧ Component.ofPiece? b = some (.name b) ∧ ∀ x ∈ b, x ∈ path := by
  have hpieces : .name b ∈ (path.splitOn slash).filterMap Component.ofPiece? := by
    rw [components] at h
    split at h
    · rcases List.mem_cons.mp h with hroot | hpieces
      · cases hroot
      · exact hpieces
    · exact h
  obtain ⟨piece, hpiece, hname⟩ := List.mem_filterMap.mp hpieces
  obtain rfl := ofPiece?_eq_name hname
  obtain ⟨hslash, hmem⟩ := mem_splitOn hpiece
  exact ⟨hslash, hname, hmem⟩

theorem baseNames_forall {Q : String → Prop} {list : List Component} {names : List String}
    (hlist : ∀ b s, .name b ∈ list → text? b = some s → Q s)
    (h : Path.baseNames list = .ok names) : ∀ n ∈ names, Q n := by
  induction list generalizing names with
  | nil =>
    cases h
    exact nofun
  | cons component rest ih =>
    have hrest : ∀ b s, .name b ∈ rest → text? b = some s → Q s :=
      fun b s hb hs => hlist b s (List.mem_cons_of_mem _ hb) hs
    cases component with
    | root | parent => cases h
    | current => exact ih hrest h
    | name b =>
      rw [Path.baseNames] at h
      cases hs : text? b with
      | none =>
        rw [hs] at h
        cases h
      | some s =>
        rw [hs] at h
        obtain ⟨others, hothers, rfl⟩ := map_eq_ok.mp h
        intro n hn
        rcases List.mem_cons.mp hn with rfl | hn
        · exact hlist b n List.mem_cons_self hs
        · exact ih hrest hothers n hn

theorem pathName_of_baseNames {base : Bytes} {names : List String}
    (h : Path.baseNames (components base) = .ok names) : ∀ n ∈ names, PathName n := by
  refine baseNames_forall (Q := PathName) ?_ h
  intro b s hb hs
  obtain ⟨hslash, hname, -⟩ := name_mem_components hb
  exact pathName_of_text? hs hslash hname

/-- Behind a fit base, and only there, a path is folded. -/
theorem normalize_eq_ok {base : Bytes} {path : String} {c : Canonical}
    (h : normalize base path = .ok c) :
    ∃ names, Path.baseNames (components base) = .ok names ∧ foldPath names path = .ok c := by
  cases hbase : Path.baseNames (components base) with
  | ok names =>
    rw [normalize_eq_foldPath hbase] at h
    exact ⟨names, rfl, h⟩
  | error fault =>
    simp only [normalize, hbase] at h
    split at h
    · cases h
    split at h
    · cases h
    split at h
    · cases h
    · cases h

theorem pathName_of_foldPath {names : List String} {path : String} {c : Canonical}
    (hnames : ∀ n ∈ names, PathName n) (h : foldPath names path = .ok c) :
    ∀ n ∈ c.names, PathName n := by
  obtain ⟨-, -, -, stack, hwalk, rfl⟩ := foldPath_eq_ok.mp h
  intro n hn
  apply walk_forall (fun n hn => hnames n (List.mem_reverse.mp hn)) _ hwalk n
    (List.mem_reverse.mp hn)
  intro s hs hempty hdot hdotDot
  exact ⟨hempty, hdot, hdotDot, (mem_segments hs).1⟩

/-! ## One path behind another -/

/-- A path that may stand behind another: it is not empty and does not begin with a slash. -/
def IsRelative (path : String) : Prop := path ≠ "" ∧ path.toList.head? ≠ some '/'

theorem IsRelative.toList_ne_nil {path : String} (h : IsRelative path) : path.toList ≠ [] :=
  mt String.toList_eq_nil_iff.mp h.1

theorem isRelative_of_foldPath {names : List String} {path : String} {c : Canonical}
    (h : foldPath names path = .ok c) : IsRelative path := by
  obtain ⟨hempty, -, hslash, -⟩ := foldPath_eq_ok.mp h
  exact ⟨mt String.toList_eq_nil_iff.mpr hempty, hslash⟩

theorem toList_behind (p q : String) :
    (p ++ "/" ++ q).toList = p.toList ++ '/' :: q.toList := by
  simp

theorem IsRelative.behind {p q : String} (hp : IsRelative p) : IsRelative (p ++ "/" ++ q) := by
  constructor
  · intro h
    have hlist := congrArg String.toList h
    simp at hlist
  · rw [toList_behind]
    cases hchars : p.toList with
    | nil => exact absurd hchars hp.toList_ne_nil
    | cons c rest =>
      have hslash := hp.2
      rw [hchars] at hslash
      simpa using hslash

theorem segments_behind (p q : String) : segments (p ++ "/" ++ q) = segments p ++ segments q := by
  rw [segments, toList_behind, List.splitOn_append_cons_self, List.map_append]
  rfl

theorem walk_append (stack before after : List String) :
    Path.walk stack (before ++ after) = (Path.walk stack before).bind (Path.walk · after) := by
  induction before generalizing stack with
  | nil => rfl
  | cons segment rest ih =>
    rw [List.cons_append, Path.walk, Path.walk, Option.bind_assoc]
    congr 1
    funext next
    exact ih next

theorem getLast?_behind {q : String} (hq : q.toList ≠ []) (p : String) :
    (p ++ "/" ++ q).toList.getLast? = q.toList.getLast? := by
  rw [toList_behind, List.getLast?_append, List.getLast?_cons]
  cases hlast : q.toList.getLast? with
  | none => exact absurd (List.getLast?_eq_none_iff.mp hlast) hq
  | some c => simp

/-- Folding a path beneath what another was folded to is folding both at once. -/
theorem foldPath_append {names : List String} {p q : String} {c : Canonical}
    (hc : foldPath names p = .ok c) (hq : IsRelative q) :
    SameAnswer (foldPath c.names q) (foldPath names (p ++ "/" ++ q)) := by
  have hboth := (isRelative_of_foldPath hc).behind (q := q)
  obtain ⟨-, hnul, -, stack, hwalk, rfl⟩ := foldPath_eq_ok.mp hc
  have hwalks : Path.walk names.reverse (segments (p ++ "/" ++ q)) =
      Path.walk stack (segments q) := by
    rw [segments_behind, walk_append, hwalk, Option.bind_some]
  -- the first path was folded, so only the second may have a NUL
  have hnuls : '\x00' ∈ (p ++ "/" ++ q).toList ↔ '\x00' ∈ q.toList := by
    rw [toList_behind, List.mem_append, List.mem_cons]
    constructor
    · rintro (h | h | h)
      · exact absurd h hnul
      · cases h
      · exact h
    · exact fun h => .inr (.inr h)
  simp only [foldPath, if_neg hq.toList_ne_nil, if_neg hq.2, if_neg hboth.toList_ne_nil,
    if_neg hboth.2, hnuls, hwalks, List.reverse_reverse, getLast?_behind hq.toList_ne_nil]
  split
  · exact .because ..
  · cases Path.walk stack (segments q) with
    | none => exact .because ..
    | some stack => exact .ok _

theorem normalize_append {base : Bytes} {p q : String} {c : Canonical}
    (hc : normalize base p = .ok c) (hq : IsRelative q) :
    SameAnswer (normalize (utf8 c.relative) q) (normalize base (p ++ "/" ++ q)) := by
  obtain ⟨names, hbase, hfold⟩ := normalize_eq_ok hc
  have hnames := pathName_of_foldPath (pathName_of_baseNames hbase) hfold
  rw [normalize_eq_foldPath hbase, Canonical.relative, normalize_joinNames hnames]
  exact foldPath_append hfold hq

/-- A path that cannot be folded is refused with an error number. -/
theorem sameAnswer_foldPath (names : List String) (path : String) :
    SameAnswer (foldPath names path) (foldPath names path) := by
  rw [foldPath]
  split
  · exact .because ..
  split
  · exact .because ..
  split
  · exact .because ..
  split
  · exact .because ..
  · exact .ok _

/-! ## Descents -/

namespace World

variable {w : World} {dirfd fd : Nat} {calls before : List Call} {o : Opening}

/-- A descriptor that a run leads to from a directory of its start by opening paths, each beneath
what the one before it opened.  What else the run does does not matter. -/
inductive Descends (w : World) (dirfd : Nat) : List Call → Nat → List String → Prop where
  | start {calls : List Call} {fd : Nat} (h : w.follow calls dirfd = some fd) :
      Descends w dirfd calls fd []
  | opened {calls before : List Call} {fd : Nat} {paths : List String} {o : Opening}
      (h : Descends w dirfd before o.dirfd paths) (ho : w.OpenedBy calls fd before o) :
      Descends w dirfd calls fd (paths ++ [o.path])

/-- Beneath what was opened by a path, further paths are resolved as if they stood behind that
path when it was opened. -/
theorem OpenedBy.resolve (hw : w.Reachable) (h : w.OpenedBy calls fd before o) {d : Directory}
    (hd : (w.run calls).table.get? fd = some (.directory d)) {q : String} (hq : IsRelative q) :
    IsRelative o.path ∧
      (∃ parent, (w.run before).table.get? o.dirfd = some (.directory parent)) ∧
      SameAnswer ((w.run calls).resolve fd q)
        ((w.run before).resolve o.dirfd (o.path ++ "/" ++ q)) := by
  obtain ⟨r, i, hr, rfl⟩ := (h.directory hw hd).directory
  obtain ⟨after, hrun⟩ := h.run_eq
  -- the directory was resolved beneath its parent, and lies beneath the same preopen
  obtain ⟨parent, hparent, -⟩ := bind_eq_ok.mp hr
  have hparent := getDirectory_eq_ok.mp hparent
  obtain ⟨p, hp, hbeneath⟩ := (hw.run before).resolve_eq hparent
  obtain ⟨p', hp', hafter⟩ := (hw.run calls).resolve_eq hd
  rw [hbeneath] at hr
  obtain ⟨place, hplace, rfl⟩ := map_eq_ok.mp hr
  rw [hrun, run_preopens] at hp'
  obtain rfl := Option.some.inj (hp.symm.trans hp')
  refine ⟨isRelative_of_foldPath hplace, ⟨parent, hparent⟩, ?_⟩
  rw [hafter, hbeneath]
  exact (foldPath_append hplace hq).map _

theorem joinNames_behind (paths : List String) (p q : String) :
    joinNames (paths ++ [p ++ "/" ++ q]) = joinNames (paths ++ [p] ++ [q]) := by
  induction paths with
  | nil => simp [joinNames]
  | cons path rest ih =>
    cases rest with
    | nil => simp [joinNames]
    | cons next rest =>
      simp only [joinNames, List.cons_append, String.intercalate_cons_cons] at ih ⊢
      rw [ih]

/-- What a descent leads to takes a path as its start took the paths of the descent and the path
behind them. -/
theorem Descends.resolve (hw : w.Reachable) {d₀ : Directory}
    (hd₀ : w.table.get? dirfd = some (.directory d₀)) {paths : List String}
    (h : w.Descends dirfd calls fd paths) {d : Directory}
    (hd : (w.run calls).table.get? fd = some (.directory d)) {q : String} (hq : IsRelative q) :
    SameAnswer ((w.run calls).resolve fd q) (w.resolve dirfd (joinNames (paths ++ [q]))) := by
  induction h generalizing d q with
  | start h =>
    obtain ⟨p, hp, hresolve⟩ := hw.resolve_eq hd₀
    rw [resolve_follow hw hd₀ h, List.nil_append, joinNames, String.intercalate_singleton,
      hresolve]
    exact (sameAnswer_foldPath _ _).map _
  | @opened calls before fd paths o h ho ih =>
    obtain ⟨hpath, ⟨parent, hparent⟩, hsame⟩ := ho.resolve hw hd hq
    -- the last path and the one behind it are one path to what lies above
    rw [← joinNames_behind]
    exact hsame.trans (ih hparent hpath.behind)

/-- Whatever a path is joined onto, folding another beneath the result gives what folding both
with a slash between them gives, or is refused with the same error number.  So a directory that
was opened by a path, at any depth and whatever was closed or moved since, takes paths as if they
stood behind the paths it was opened by. -/
theorem resolve_nested :
    (∀ (base : Bytes) (p q : String) (c : Canonical), normalize base p = .ok c → IsRelative q →
      SameAnswer (normalize (utf8 c.relative) q) (normalize base (p ++ "/" ++ q))) ∧
    ∀ (w : World) (dirfd : Nat) (d₀ : Directory), w.Reachable →
      w.table.get? dirfd = some (.directory d₀) →
      ∀ calls fd paths d q, w.Descends dirfd calls fd paths →
        (w.run calls).table.get? fd = some (.directory d) → IsRelative q →
        SameAnswer ((w.run calls).resolve fd q) (w.resolve dirfd (joinNames (paths ++ [q]))) ∧
        ∀ fd', w.follow calls dirfd = some fd' →
          SameAnswer ((w.run calls).resolve fd q)
            ((w.run calls).resolve fd' (joinNames (paths ++ [q]))) := by
  constructor
  · intro base p q c hc hq
    exact normalize_append hc hq
  · intro w dirfd d₀ hw hd₀ calls fd paths d q hdescends hd hq
    have hsame := hdescends.resolve hw hd₀ hd hq
    refine ⟨hsame, fun fd' hfollow => ?_⟩
    rw [resolve_follow hw hd₀ hfollow]
    exact hsame

/-- A guest that was granted `guest`. -/
def grantedGuest : World := (fresh nestedHost default).build [.preopen "guest" [47]]

/-- Opens `inner` beneath the root. -/
def opensInner : Opening := ⟨3, .empty, "inner", OpenFlags.directory, .empty, .empty, .empty⟩

/-- Opens `inner` beneath itself. -/
def opensAgain : Opening := ⟨4, .empty, "./", .empty, .empty, .empty, .empty⟩

/-- The id of the root is closed in between, and given again to what is opened last. -/
def descendingCalls : List Call := [opensInner.call, .fdClose 3, opensAgain.call]

theorem descends_descendingCalls : grantedGuest.Descends 3 descendingCalls 3 ["inner", "./"] := by
  have hopened : (grantedGuest.call opensInner.call).1 = .ok (.descriptor 4) :=
    call_opening_fst (by decide +kernel)
  have hagain : ((grantedGuest.run [opensInner.call, .fdClose 3]).call opensAgain.call).1 =
      .ok (.descriptor 3) := call_opening_fst (by decide +kernel)
  have hfollow : (grantedGuest.call opensInner.call).2.follow [.fdClose 3] 4 = some 4 := by
    decide +kernel
  have hfirst : grantedGuest.OpenedBy [opensInner.call, .fdClose 3] 4 [] opensInner :=
    ⟨[.fdClose 3], 4, rfl, hopened, hfollow⟩
  have hsecond : grantedGuest.OpenedBy descendingCalls 3 [opensInner.call, .fdClose 3]
    opensAgain := ⟨[], 3, rfl, hagain, rfl⟩
  exact .opened (.opened (.start rfl) hfirst) hsecond

theorem resolve_nested_descending :
    normalize [97, 47, 98] "../c" = .ok ⟨["a", "c"], false⟩ ∧
      SameAnswer (normalize (utf8 "a/c") "../../x") (normalize [97, 47, 98] "../c/../../x") ∧
      SameAnswer ((grantedGuest.run descendingCalls).resolve 3 "../x/")
        (grantedGuest.resolve 3 "inner/.//../x/") := by
  obtain ⟨hpaths, hdescents⟩ := resolve_nested
  have hfolded : normalize [97, 47, 98] "../c" = .ok ⟨["a", "c"], false⟩ := by decide +kernel
  have hreachable : grantedGuest.Reachable :=
    (Reachable.fresh nestedHost default nestedHost_grounded).build _
  have hroot : grantedGuest.table.get? 3 = some (.directory (.root 0 [47] 1)) := by
    decide +kernel
  have hinner : (grantedGuest.run descendingCalls).table.get? 3 =
      some (.directory (.nested 0 ["inner"] 2)) := by decide +kernel
  have hbeneath := hpaths _ _ "../../x" _ hfolded ⟨by decide, by decide⟩
  have hdescent := (hdescents _ 3 _ hreachable hroot _ 3 _ _ "../x/" descends_descendingCalls
    hinner ⟨by decide, by decide⟩).1
  rw [show Canonical.relative ⟨["a", "c"], false⟩ = "a/c" by decide] at hbeneath
  rw [show joinNames (["inner", "./"] ++ ["../x/"]) = "inner/.//../x/" by decide] at hdescent
  exact ⟨hfolded, hbeneath, hdescent⟩

end World

end Hostcall
