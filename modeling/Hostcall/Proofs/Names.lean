import Hostcall.Path
import Mathlib.Data.List.Basic

/-!
# Names and the paths made of them

* `ProperName` is what a name of a place below a root looks like, `PathName` the part of it
  that reading a path depends on;
* `components_utf8_joinNames` and `components_append` read joined names back on the
  host, where a path is bytes;
* `normalize_eq_foldPath` is what `normalize` does behind a fit base, and `normalize_joinNames`
  the whole of it on a base of joined names: the faults for an unfit base are not among its
  answers;
* `properName_of_normalize` says that the names it answers with are proper again.
-/

namespace Hostcall

/-! ## UTF-8 -/

@[simp] theorem utf8_append (s t : String) : utf8 (s ++ t) = utf8 s ++ utf8 t := by
  simp [utf8]

@[simp] theorem utf8_eq_nil_iff {s : String} : utf8 s = [] ↔ s = "" := by
  simp [utf8, List.flatMap_eq_nil_iff, String.utf8EncodeChar_ne_nil,
    ← List.eq_nil_iff_forall_not_mem]

theorem text?_utf8 (s : String) : text? (utf8 s) = some s := by
  have hbytes : (utf8 s).toByteArray = s.toByteArray := String.utf8Encode_toList
  rw [text?, hbytes, String.fromUTF8?, dif_pos s.isValidUTF8]
  rfl

theorem utf8_of_text? {b : Bytes} {s : String} (h : text? b = some s) : utf8 s = b := by
  rw [text?, String.fromUTF8?] at h
  split at h
  case isTrue =>
    cases h
    have hbytes : (utf8 (String.ofByteArray b.toByteArray ‹_›)).toByteArray = b.toByteArray :=
      String.utf8Encode_toList
    exact List.toByteArray_inj.mp hbytes
  case isFalse => cases h

theorem utf8_injective {s t : String} (h : utf8 s = utf8 t) : s = t := by
  have htext := congrArg text? h
  rw [text?_utf8, text?_utf8] at htext
  exact Option.some.inj htext

/-- The bytes of characters beyond the first 128 lie beyond the first 128 themselves. -/
theorem toNat_of_mem_utf8EncodeChar {c : Char} {b : UInt8} (hb : b.toNat < 128)
    (h : b ∈ String.utf8EncodeChar c) : c.toNat = b.toNat := by
  simp only [String.utf8EncodeChar] at h
  split at h
  case isTrue hc =>
    rw [List.mem_singleton.mp h, UInt8.toNat_ofNat_of_lt' (Nat.lt_of_le_of_lt hc (by decide))]
    rfl
  case isFalse =>
    -- every byte of a longer encoding has its highest bit set
    exfalso
    split at h
    · simp only [List.mem_cons, List.not_mem_nil, or_false] at h
      rcases h with rfl | rfl <;> simp at hb <;> omega
    · split at h
      · simp only [List.mem_cons, List.not_mem_nil, or_false] at h
        rcases h with rfl | rfl | rfl <;> simp at hb <;> omega
      · simp only [List.mem_cons, List.not_mem_nil, or_false] at h
        rcases h with rfl | rfl | rfl | rfl <;> simp at hb <;> omega

theorem mem_toList_of_mem_utf8 {s : String} {b : UInt8} (hb : b.toNat < 128) (h : b ∈ utf8 s) :
    Char.ofNat b.toNat ∈ s.toList := by
  obtain ⟨c, hc, hbc⟩ := List.mem_flatMap.mp h
  rw [← toNat_of_mem_utf8EncodeChar hb hbc, Char.ofNat_toNat]
  exact hc

theorem slash_notMem_utf8 {s : String} (h : '/' ∉ s.toList) : slash ∉ utf8 s :=
  fun hs => h (mem_toList_of_mem_utf8 (by decide) hs)

/-! ## Proper names -/

/-- A name of a place below a root. -/
structure ProperName (s : String) : Prop where
  ne_empty : s ≠ ""
  ne_dot : s ≠ "."
  ne_dotDot : s ≠ ".."
  no_slash : '/' ∉ s.toList
  no_nul : '\x00' ∉ s.toList

/-- A name that is read back as itself where it stands in a path. -/
structure PathName (s : String) : Prop where
  ne_empty : s ≠ ""
  ne_dot : s ≠ "."
  ne_dotDot : s ≠ ".."
  no_slash : '/' ∉ s.toList

theorem ProperName.pathName {s : String} (h : ProperName s) : PathName s :=
  ⟨h.ne_empty, h.ne_dot, h.ne_dotDot, h.no_slash⟩

theorem PathName.ofPiece? {s : String} (h : PathName s) :
    Component.ofPiece? (utf8 s) = some (.name (utf8 s)) := by
  have hdot : utf8 s ≠ dotName := fun hs => h.ne_dot (utf8_injective hs)
  have hdotDot : utf8 s ≠ dotDotName := fun hs => h.ne_dotDot (utf8_injective hs)
  rw [Component.ofPiece?, if_neg (mt utf8_eq_nil_iff.mp h.ne_empty), if_neg hdot, if_neg hdotDot]

/-! ## Joined names on the host -/

/-- The components of a piece of a path that is not read from its front. -/
def pieces (path : Bytes) : List Component := (path.splitOn slash).filterMap Component.ofPiece?

theorem components_of_head? {path : Bytes} (h : path.head? ≠ some slash) :
    components path = pieces path := by
  rw [components, if_neg h]
  rfl

theorem utf8_joinNames (names : List String) :
    utf8 (joinNames names) = [slash].intercalate (names.map utf8) := by
  induction names with
  | nil => rfl
  | cons name rest ih =>
    cases rest with
    | nil => simp [joinNames]
    | cons next rest =>
      rw [joinNames, String.intercalate_cons_cons, utf8_append, utf8_append, List.map_cons,
        List.map_cons, List.intercalate_cons_cons, ← List.map_cons, ← ih]
      rfl

theorem pieces_utf8_joinNames {names : List String} (h : ∀ n ∈ names, PathName n) :
    pieces (utf8 (joinNames names)) = names.map fun n => .name (utf8 n) := by
  by_cases hnil : names = []
  · subst hnil
    rfl
  -- no name holds a slash, so splitting takes the names apart again
  have hsplit : (utf8 (joinNames names)).splitOn slash = names.map utf8 := by
    rw [utf8_joinNames]
    refine List.splitOn_intercalate slash (fun b hb => ?_) (by simpa using hnil)
    obtain ⟨n, hn, rfl⟩ := List.mem_map.mp hb
    exact slash_notMem_utf8 (h n hn).no_slash
  rw [pieces, hsplit, List.filterMap_map, ← List.filterMap_eq_map]
  refine List.filterMap_congr fun n hn => ?_
  exact (h n hn).ofPiece?

theorem head?_utf8_joinNames {names : List String} (h : ∀ n ∈ names, PathName n) :
    (utf8 (joinNames names)).head? ≠ some slash := by
  cases names with
  | nil => exact nofun
  | cons n rest =>
    have hn := h n List.mem_cons_self
    cases hutf8 : utf8 n with
    | nil => exact absurd (utf8_eq_nil_iff.mp hutf8) hn.ne_empty
    | cons b bytes =>
      have hb : b ≠ slash := by
        rintro rfl
        exact slash_notMem_utf8 hn.no_slash (by rw [hutf8]; exact List.mem_cons_self)
      rw [utf8_joinNames, List.map_cons, hutf8, List.intercalate_cons_cons_left]
      simpa using hb

theorem components_utf8_joinNames {names : List String} (h : ∀ n ∈ names, PathName n) :
    components (utf8 (joinNames names)) = names.map fun n => .name (utf8 n) := by
  rw [components_of_head? (head?_utf8_joinNames h), pieces_utf8_joinNames h]

theorem head?_append_slash (path rest : Bytes) :
    (path ++ slash :: rest).head? = (path ++ [slash]).head? := by
  cases path <;> rfl

/-- What stands behind a slash adds its pieces to what stands before. -/
theorem components_append (path rest : Bytes) :
    components (path ++ slash :: rest) = components (path ++ [slash]) ++ pieces rest := by
  rw [components, components, head?_append_slash, List.splitOn_append_cons_self,
    List.splitOn_append_cons_self, List.filterMap_append, List.filterMap_append]
  split <;> simp [Component.ofPiece?, pieces]

theorem components_append_slash {path : Bytes} (h : path ≠ []) :
    components (path ++ [slash]) = components path := by
  have hhead : (path ++ [slash]).head? = path.head? := by
    cases path with
    | nil => exact absurd rfl h
    | cons b path => rfl
  rw [components, components, hhead, List.splitOn_append_cons_self, List.filterMap_append]
  split <;> simp [Component.ofPiece?]

/-! ## Guest paths -/

theorem baseNames_components {names : List String} (h : ∀ n ∈ names, PathName n) :
    Path.baseNames (components (utf8 (joinNames names))) = .ok names := by
  rw [components_utf8_joinNames h]
  clear h
  induction names with
  | nil => rfl
  | cons n rest ih =>
    rw [List.map_cons, Path.baseNames, text?_utf8]
    simp only [ih]
    rfl

/-- What a guest path is folded to beneath a directory of the given names. -/
def foldPath (names : List String) (path : String) : Outcome Canonical :=
  if path.toList = [] then .error (.because .noSuchFileOrDirectory "empty path")
  else if '\x00' ∈ path.toList then .error (.because .illegalByteSequence "path contains NUL")
  else if path.toList.head? = some '/' then
    .error (.because .notCapable ("absolute path " ++ quoted path))
  else
    match Path.walk names.reverse (segments path) with
    | none => .error (.because .notCapable ("path " ++ quoted path ++ " escapes its root"))
    | some stack => .ok ⟨stack.reverse, path.toList.getLast? = some '/'⟩

theorem normalize_eq_foldPath {base : Bytes} {names : List String}
    (h : Path.baseNames (components base) = .ok names) (path : String) :
    normalize base path = foldPath names path := by
  simp only [normalize, h]
  rfl

theorem normalize_joinNames {names : List String} (h : ∀ n ∈ names, PathName n) (path : String) :
    normalize (utf8 (joinNames names)) path = foldPath names path :=
  normalize_eq_foldPath (baseNames_components h) path

theorem mem_splitOn {α : Type} [BEq α] [LawfulBEq α] {a : α} {xs piece : List α}
    (h : piece ∈ xs.splitOn a) : a ∉ piece ∧ ∀ x ∈ piece, x ∈ xs := by
  induction xs generalizing piece with
  | nil =>
    rw [List.splitOn_nil, List.mem_singleton] at h
    subst h
    exact ⟨List.not_mem_nil, nofun⟩
  | cons x xs ih =>
    obtain ⟨first, others, hsplit⟩ := List.exists_cons_of_ne_nil (List.splitOn_ne_nil a xs)
    rw [List.splitOn_cons_eq_if_modifyHead] at h
    rw [hsplit] at h ih
    have hmono : piece ∈ first :: others → a ∉ piece ∧ ∀ y ∈ piece, y ∈ x :: xs :=
      fun hp => ⟨(ih hp).1, fun y hy => List.mem_cons_of_mem _ ((ih hp).2 y hy)⟩
    split at h
    case isTrue =>
      rcases List.mem_cons.mp h with rfl | h
      · exact ⟨List.not_mem_nil, nofun⟩
      · exact hmono h
    case isFalse hx =>
      -- the element goes to the front of the first piece
      rcases List.mem_cons.mp h with rfl | h
      · obtain ⟨hfirst, hmem⟩ := ih List.mem_cons_self
        refine ⟨fun ha => ?_, fun y hy => ?_⟩
        · rcases List.mem_cons.mp ha with rfl | ha
          · exact hx (beq_self_eq_true a)
          · exact hfirst ha
        · rcases List.mem_cons.mp hy with rfl | hy
          · exact List.mem_cons_self
          · exact List.mem_cons_of_mem _ (hmem y hy)
      · exact hmono (List.mem_cons_of_mem _ h)

theorem mem_segments {path s : String} (h : s ∈ segments path) :
    '/' ∉ s.toList ∧ ∀ c ∈ s.toList, c ∈ path.toList := by
  obtain ⟨piece, hpiece, rfl⟩ := List.mem_map.mp h
  rw [String.toList_ofList]
  exact mem_splitOn hpiece

/-- The stack of the walk holds names that were on it and segments that are names. -/
theorem walk_forall {Q : String → Prop} {stack segments stack' : List String}
    (hstack : ∀ n ∈ stack, Q n)
    (hsegments : ∀ s ∈ segments, s ≠ "" → s ≠ "." → s ≠ ".." → Q s)
    (h : Path.walk stack segments = some stack') : ∀ n ∈ stack', Q n := by
  induction segments generalizing stack with
  | nil =>
    cases h
    exact hstack
  | cons segment rest ih =>
    obtain ⟨next, hnext, h⟩ := Option.bind_eq_some_iff.mp h
    refine ih (fun n hn => ?_) (fun s hs => hsegments s (List.mem_cons_of_mem _ hs)) h
    unfold Path.step at hnext
    split at hnext
    case isTrue =>
      cases hnext
      exact hstack n hn
    case isFalse hskip =>
      obtain ⟨hempty, hdot⟩ := not_or.mp hskip
      split at hnext
      case isTrue =>
        cases stack with
        | nil => cases hnext
        | cons top below =>
          cases hnext
          exact hstack n (List.mem_cons_of_mem _ hn)
      case isFalse hdotDot =>
        -- only here a name is pushed, and it is none of those that were handled before
        cases hnext
        rcases List.mem_cons.mp hn with rfl | hn
        · exact hsegments n List.mem_cons_self hempty hdot hdotDot
        · exact hstack n hn

/-- What a path is folded to if nothing is wrong with it. -/
theorem foldPath_eq_ok {names : List String} {path : String} {c : Canonical} :
    foldPath names path = .ok c ↔
      path.toList ≠ [] ∧ '\x00' ∉ path.toList ∧ path.toList.head? ≠ some '/' ∧
        ∃ stack, Path.walk names.reverse (segments path) = some stack ∧
          c = ⟨stack.reverse, path.toList.getLast? = some '/'⟩ := by
  rw [foldPath]
  split
  case isTrue h => simp [h]
  case isFalse hempty =>
    split
    case isTrue h => simp [h]
    case isFalse hnul =>
      split
      case isTrue h => simp [h]
      case isFalse hslash =>
        cases hwalk : Path.walk names.reverse (segments path) with
        | none => simp
        | some stack => simp [hempty, hnul, hslash, eq_comm]

theorem properName_of_normalize {names : List String} {path : String} {c : Canonical}
    (hnames : ∀ n ∈ names, ProperName n) (h : normalize (utf8 (joinNames names)) path = .ok c) :
    ∀ n ∈ c.names, ProperName n := by
  rw [normalize_joinNames fun n hn => (hnames n hn).pathName] at h
  obtain ⟨-, hnul, -, stack, hwalk, rfl⟩ := foldPath_eq_ok.mp h
  intro n hn
  apply walk_forall (fun n hn => hnames n (List.mem_reverse.mp hn)) _ hwalk n (List.mem_reverse.mp hn)
  intro s hs hempty hdot hdotDot
  obtain ⟨hslash, hmem⟩ := mem_segments hs
  exact ⟨hempty, hdot, hdotDot, hslash, fun hs => hnul (hmem _ hs)⟩

end Hostcall
