import Hostcall.Proofs.Nesting

/-!
# What a path is folded to

`normalize` joins a guest path onto a base and folds it by its text alone.  Here it is said without
the machine that does so: which of the reasons to refuse a path comes first, when it climbs above
the root, and which names are left.

* `refusal?` is the first reason to refuse a path, `Climbs` the last of these reasons;
* `enter` is what one segment makes of the names before it, and `Path.walk_eq_foldl` says that the
  machine does that with every segment;
* `normalize_exact` says what every path is answered with, and reads the answer back.
-/

namespace Hostcall

/-! ## Reasons to refuse a path -/

namespace Component

/-- The error number a component of a base is refused with. -/
def refusal? : Component → Option Errno
  | .root | .parent => some .notCapable
  | .current => none
  | .name b => if (text? b).isNone then some .illegalByteSequence else none

/-- The name a component of a base adds. -/
def label? : Component → Option String
  | .name b => text? b
  | .root | .current | .parent => none

end Component

/-- The names of a base. -/
def baseLabels (base : Bytes) : List String := (components base).filterMap Component.label?

/-- Whether a segment of a path adds a name. -/
def addsName (segment : String) : Bool := segment ≠ "" ∧ segment ≠ "." ∧ segment ≠ ".."

/-- Some `..` among the segments of a path has no more names before it, so many of the base
included, than other `..` before it. -/
def Climbs (count : Nat) (segments : List String) : Prop :=
  ∃ i < segments.length, segments[i]? = some ".." ∧
    count + (segments.take i).countP addsName ≤ (segments.take i).count ".."

instance (count : Nat) (segments : List String) : Decidable (Climbs count segments) :=
  inferInstanceAs (Decidable (∃ i < segments.length, _))

/-- The first reason to refuse a path on a base. -/
def refusal? (base : Bytes) (path : String) : Option Errno :=
  if path = "" then some .noSuchFileOrDirectory
  else if '\x00' ∈ path.toList then some .illegalByteSequence
  else if path.toList.head? = some '/' then some .notCapable
  else
    match (components base).findSome? Component.refusal? with
    | some e => some e
    | none =>
      if Climbs (baseLabels base).length (segments path) then some .notCapable else none

/-! ## Names of a base -/

namespace Path

theorem baseNames_refused {list : List Component} {e : Errno}
    (h : list.findSome? Component.refusal? = some e) :
    ∃ fault, baseNames list = .error fault ∧ fault.errno? = some e := by
  induction list with
  | nil => cases h
  | cons component rest ih =>
    cases component with
    | root | parent =>
      cases h
      exact ⟨_, rfl, rfl⟩
    | current => exact ih h
    | name b =>
      cases htext : text? b with
      | none =>
        simp only [List.findSome?_cons, Component.refusal?, htext] at h
        cases h
        exact ⟨_, by rw [baseNames, htext], rfl⟩
      | some s =>
        simp only [List.findSome?_cons, Component.refusal?, htext] at h
        obtain ⟨fault, hfault, he⟩ := ih h
        exact ⟨fault, by simp [baseNames, htext, hfault, Except.map], he⟩

theorem baseNames_eq_labels {list : List Component}
    (h : list.findSome? Component.refusal? = none) :
    baseNames list = .ok (list.filterMap Component.label?) := by
  induction list with
  | nil => rfl
  | cons component rest ih =>
    cases component with
    | root | parent => cases h
    | current => exact ih h
    | name b =>
      cases htext : text? b with
      | none => simp [Component.refusal?, htext] at h
      | some s =>
        have hrest : rest.findSome? Component.refusal? = none := by
          simpa [Component.refusal?, htext] using h
        simp [baseNames, Component.label?, htext, ih hrest, Except.map]

end Path

/-! ## The walk -/

/-- What a segment makes of the names before it: a name is put behind them, and `..` takes the last
of them off. -/
def enter (names : List String) (segment : String) : List String :=
  if addsName segment then names ++ [segment]
  else if segment = ".." then names.dropLast
  else names

theorem addsName_dotDot : addsName ".." = false := by decide

theorem climbs_nil (count : Nat) : ¬ Climbs count [] := by
  simp [Climbs]

/-- A path climbs at its first segment or behind it. -/
theorem climbs_cons {count : Nat} {segment : String} {rest : List String} :
    Climbs count (segment :: rest) ↔
      if segment = ".." then count = 0 ∨ Climbs (count - 1) rest
      else Climbs (if addsName segment then count + 1 else count) rest := by
  rw [Climbs, List.length_cons, Nat.exists_lt_succ_left]
  by_cases hdotDot : segment = ".."
  · subst hdotDot
    cases count with
    | zero => simp
    | succ count => simp [Climbs, addsName_dotDot, Nat.add_right_comm]
  · by_cases hadds : addsName segment
    · simp [Climbs, hdotDot, hadds, Nat.add_right_comm, ← Nat.add_assoc]
    · simp [Climbs, hdotDot, hadds]

namespace Path

/-- The machine stops at a `..` that climbs, and else does with its stack what the segments do with
the names. -/
theorem walk_eq_foldl (stack segments : List String) :
    walk stack segments = if Climbs stack.length segments then none
      else some (segments.foldl enter stack.reverse).reverse := by
  -- on the segments; the stack holds the names the other way round
  induction segments generalizing stack with
  | nil => simp [walk, climbs_nil]
  | cons segment rest ih =>
    simp only [walk, List.foldl_cons, climbs_cons]
    by_cases hdotDot : segment = ".."
    · subst hdotDot
      cases stack with
      | nil => simp [step]
      | cons top below => simp [step, ih, enter, addsName_dotDot]
    · by_cases hskip : segment = "" ∨ segment = "."
      · have hadds : addsName segment = false := by
          simp only [addsName, decide_eq_false_iff_not]
          tauto
        simp [step, hskip, hdotDot, hadds, enter, ih]
      · have hadds : addsName segment = true := by
          simp only [addsName, decide_eq_true_eq]
          tauto
        simp [step, hskip, hdotDot, hadds, enter, ih]

end Path

/-! ## Reading the answer back -/

theorem PathName.addsName {s : String} (h : PathName s) : addsName s = true := by
  simp [Hostcall.addsName, h.ne_empty, h.ne_dot, h.ne_dotDot]

/-- Names are put behind each other, and nothing of them climbs. -/
theorem foldl_enter_names {names : List String} (h : ∀ n ∈ names, PathName n)
    (front : List String) : names.foldl enter front = front ++ names := by
  induction names generalizing front with
  | nil => simp
  | cons n rest ih =>
    obtain ⟨hn, hrest⟩ := List.forall_mem_cons.mp h
    simp [enter, hn.addsName, ih hrest]

theorem not_climbs_names {names : List String} (h : ∀ n ∈ names, PathName n) (count : Nat) :
    ¬ Climbs count names := by
  rintro ⟨i, -, hdotDot, -⟩
  exact (h _ (List.mem_of_getElem? hdotDot)).ne_dotDot rfl

theorem toList_joinNames (names : List String) :
    (joinNames names).toList = ['/'].intercalate (names.map String.toList) :=
  String.toList_intercalate

theorem mem_toList_joinNames {names : List String} {c : Char}
    (h : c ∈ (joinNames names).toList) : c = '/' ∨ ∃ n ∈ names, c ∈ n.toList := by
  induction names with
  | nil => simp [joinNames] at h
  | cons n rest ih =>
    cases rest with
    | nil => exact .inr ⟨n, by simp, by simpa [joinNames] using h⟩
    | cons next rest =>
      rw [joinNames, String.intercalate_cons_cons] at h
      simp only [String.toList_append, List.mem_append] at h
      obtain (h | h) | h := h
      · exact .inr ⟨n, by simp, h⟩
      · exact .inl (by simpa using h)
      · obtain h | ⟨n', hn', hc⟩ := ih h
        · exact .inl h
        · exact .inr ⟨n', List.mem_cons_of_mem n hn', hc⟩

section

variable {names : List String} (h : ∀ n ∈ names, PathName n) (hnil : names ≠ [])
include h hnil

theorem segments_joinNames : segments (joinNames names) = names := by
  have hsplit : (joinNames names).toList.splitOn '/' = names.map String.toList := by
    rw [toList_joinNames]
    apply List.splitOn_intercalate
    · intro chars hchars
      obtain ⟨n, hn, rfl⟩ := List.mem_map.mp hchars
      exact (h n hn).no_slash
    · simpa using hnil
  simp [segments, hsplit, Function.comp_def]

-- a slash at either end would leave an empty piece there
theorem head?_joinNames : (joinNames names).toList.head? ≠ some '/' := by
  intro hhead
  obtain ⟨rest, hrest⟩ := List.head?_eq_some_iff.mp hhead
  have hsplit : segments (joinNames names) = "" :: (rest.splitOn '/').map String.ofList := by
    rw [segments, hrest, show '/' :: rest = [] ++ '/' :: rest from rfl,
      List.splitOn_append_cons_self]
    simp
  rw [segments_joinNames h hnil] at hsplit
  have hempty := h "" (by simp [hsplit])
  exact hempty.ne_empty rfl

theorem getLast?_joinNames : (joinNames names).toList.getLast? ≠ some '/' := by
  intro hlast
  obtain ⟨front, hfront⟩ := List.getLast?_eq_some_iff.mp hlast
  have hsplit : segments (joinNames names) = (front.splitOn '/').map String.ofList ++ [""] := by
    rw [segments, hfront, List.splitOn_append_cons_self]
    simp
  rw [segments_joinNames h hnil] at hsplit
  have hempty := h "" (by simp [hsplit])
  exact hempty.ne_empty rfl

end

theorem joinNames_eq_empty_iff {names : List String} (h : ∀ n ∈ names, PathName n) :
    joinNames names = "" ↔ names = [] := by
  constructor
  · intro hempty
    by_contra hnil
    have hsegments := segments_joinNames h hnil
    rw [hempty] at hsegments
    -- the empty text is one empty piece, which is no name
    have hname := h "" (by rw [← hsegments]; decide +kernel)
    exact hname.ne_empty rfl
  · rintro rfl
    rfl

/-- Joined names are folded to themselves. -/
theorem foldPath_joinNames {names : List String} (h : ∀ n ∈ names, PathName n)
    (hnul : ∀ n ∈ names, '\x00' ∉ n.toList) (hnil : names ≠ []) :
    foldPath [] (joinNames names) = .ok ⟨names, false⟩ := by
  have hne : (joinNames names).toList ≠ [] := by
    simpa using mt (joinNames_eq_empty_iff h).mp hnil
  have hnuls : '\x00' ∉ (joinNames names).toList := by
    intro hmem
    obtain hslash | ⟨n, hn, hc⟩ := mem_toList_joinNames hmem
    · cases hslash
    · exact hnul n hn hc
  have hwalk : Path.walk [] names = some names.reverse := by
    simp [Path.walk_eq_foldl, not_climbs_names h, foldl_enter_names h]
  simp [foldPath, hne, hnuls, head?_joinNames h hnil, segments_joinNames h hnil, hwalk,
    getLast?_joinNames h hnil]

/-! ## The whole answer -/

/-- What a path that is not refused is folded to. -/
structure Folded (base : Bytes) (path : String) (c : Canonical) : Prop where
  names : c.names = (segments path).foldl enter (baseLabels base)
  mustBeDir : c.mustBeDir = true ↔ path.toList.getLast? = some '/'
  /-- No name is empty, `.` or `..`, and none holds a slash. -/
  pathNames : ∀ n ∈ c.names, PathName n
  /-- The host reads the names back from the path, and nothing else. -/
  components : components (utf8 c.relative) = c.names.map fun n => .name (utf8 n)
  head : c.relative.toList.head? ≠ some '/'
  segments : c.relative ≠ "" → segments c.relative = c.names
  /-- The path is its own fold. -/
  fixed : 0 ∉ base → c.relative ≠ "" → normalize [] c.relative = .ok ⟨c.names, false⟩

theorem zero_mem_utf8 {s : String} (h : '\x00' ∈ s.toList) : 0 ∈ utf8 s :=
  List.mem_flatMap.mpr ⟨'\x00', h, by decide⟩

/-- Names have a NUL only from a base or a path that has one. -/
theorem nul_notMem_names {base : Bytes} {names : List String} {path : String} {c : Canonical}
    (hbase : Path.baseNames (components base) = .ok names) (hc : foldPath names path = .ok c)
    (hnul : 0 ∉ base) : ∀ n ∈ c.names, '\x00' ∉ n.toList := by
  obtain ⟨-, hpath, -, stack, hwalk, rfl⟩ := foldPath_eq_ok.mp hc
  have hnames : ∀ n ∈ names, '\x00' ∉ n.toList := by
    apply baseNames_forall (Q := fun n => '\x00' ∉ n.toList) _ hbase
    intro b s hb hs hmem
    obtain ⟨-, -, hsub⟩ := name_mem_components hb
    rw [← utf8_of_text? hs] at hsub
    exact hnul (hsub 0 (zero_mem_utf8 hmem))
  intro n hn
  apply walk_forall (Q := fun n => '\x00' ∉ n.toList) _ _ hwalk n (List.mem_reverse.mp hn)
  · intro n hn
    exact hnames n (List.mem_reverse.mp hn)
  · intro s hs _ _ _ hmem
    exact hpath ((mem_segments hs).2 _ hmem)

theorem normalize_refused {base : Bytes} {path : String} {e : Errno}
    (h : refusal? base path = some e) :
    ∃ fault, normalize base path = .error fault ∧ fault.errno? = some e := by
  by_cases hempty : path = ""
  · simp only [refusal?, hempty, if_true] at h
    cases h
    exact ⟨.because .noSuchFileOrDirectory "empty path", by simp [normalize, hempty], rfl⟩
  have hchars : path.toList ≠ [] := mt String.toList_eq_nil_iff.mp hempty
  by_cases hnul : '\x00' ∈ path.toList
  · simp only [refusal?, hempty, hnul, if_true, if_false] at h
    cases h
    exact ⟨.because .illegalByteSequence "path contains NUL", by simp [normalize, hchars, hnul], rfl⟩
  by_cases hslash : path.toList.head? = some '/'
  · simp only [refusal?, hempty, hnul, hslash, if_true, if_false] at h
    cases h
    exact ⟨.because .notCapable ("absolute path " ++ quoted path),
      by simp [normalize, hchars, hnul, hslash], rfl⟩
  simp only [refusal?, hempty, hnul, hslash, if_false] at h
  split at h
  case h_1 e' hbase =>
    cases h
    obtain ⟨fault, hfault, he⟩ := Path.baseNames_refused hbase
    exact ⟨fault, by simp [normalize, hchars, hnul, hslash, hfault], he⟩
  case h_2 hbase =>
    split at h
    case isTrue hclimbs =>
      cases h
      have hwalk : Path.walk (baseLabels base).reverse (segments path) = none := by
        rw [Path.walk_eq_foldl, List.length_reverse, if_pos hclimbs]
      rw [normalize_eq_foldPath (Path.baseNames_eq_labels hbase)]
      exact ⟨_, by simp only [foldPath, hchars, hnul, hslash, if_false]; rw [← baseLabels, hwalk],
        rfl⟩
    case isFalse => cases h

theorem refusal?_eq_none {base : Bytes} {path : String} (h : refusal? base path = none) :
    path.toList ≠ [] ∧ '\x00' ∉ path.toList ∧ path.toList.head? ≠ some '/' ∧
      (components base).findSome? Component.refusal? = none ∧
      ¬ Climbs (baseLabels base).length (segments path) := by
  simp only [refusal?] at h
  split at h
  · cases h
  split at h
  · cases h
  split at h
  · cases h
  split at h
  · cases h
  split at h
  · cases h
  case h_2 hempty hnul hslash _ hbase hclimbs =>
    exact ⟨mt String.toList_eq_nil_iff.mp hempty, hnul, hslash, hbase, hclimbs⟩

theorem normalize_folded {base : Bytes} {path : String} (h : refusal? base path = none) :
    ∃ c, normalize base path = .ok c ∧ Folded base path c := by
  obtain ⟨hchars, hnul, hslash, hbase, hclimbs⟩ := refusal?_eq_none h
  have hlabels := Path.baseNames_eq_labels hbase
  rw [← baseLabels] at hlabels
  have hwalk : Path.walk (baseLabels base).reverse (segments path) =
      some ((segments path).foldl enter (baseLabels base)).reverse := by
    rw [Path.walk_eq_foldl, List.length_reverse, if_neg hclimbs, List.reverse_reverse]
  have hfold : foldPath (baseLabels base) path =
      .ok ⟨(segments path).foldl enter (baseLabels base), path.toList.getLast? = some '/'⟩ := by
    rw [foldPath_eq_ok]
    exact ⟨hchars, hnul, hslash, _, hwalk, by simp⟩
  have hnames := pathName_of_foldPath (pathName_of_baseNames hlabels) hfold
  have hnil := joinNames_eq_empty_iff hnames
  refine ⟨_, (normalize_eq_foldPath hlabels path).trans hfold, ?_⟩
  constructor
  case names => rfl
  case mustBeDir => simp
  case pathNames => exact hnames
  case components => exact components_utf8_joinNames hnames
  case head =>
    intro hhead
    -- the empty path has no first character at all
    have hne : (segments path).foldl enter (baseLabels base) ≠ [] := by
      intro h
      simp [Canonical.relative, h, joinNames] at hhead
    exact head?_joinNames hnames hne hhead
  case segments =>
    intro hne
    exact segments_joinNames hnames (mt hnil.mpr hne)
  case fixed =>
    intro hzero hne
    have hnuls := nul_notMem_names hlabels hfold hzero
    have hempty : Path.baseNames (components []) = .ok [] := rfl
    rw [normalize_eq_foldPath hempty, Canonical.relative]
    exact foldPath_joinNames hnames hnuls (mt hnil.mpr hne)

/-- Every path is refused for the first reason there is to refuse it, or folded to the names that
its segments leave of the base and of each other. -/
theorem normalize_exact (base : Bytes) (path : String) :
    (∀ e, refusal? base path = some e →
      ∃ fault, normalize base path = .error fault ∧ fault.errno? = some e) ∧
    (refusal? base path = none → ∃ c, normalize base path = .ok c ∧ Folded base path c) :=
  ⟨fun _ => normalize_refused, normalize_folded⟩

example : refusal? (utf8 "a") "b/../../.." = some .notCapable := by decide +kernel

end Hostcall
