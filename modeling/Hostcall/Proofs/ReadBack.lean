import Hostcall.Proofs.Building
import Hostcall.Proofs.Names
import Hostcall.Proofs.Transition

/-!
# Reading strings back

Arguments and environment variables reach a guest as one flat buffer.  Whoever reads from the
offsets up to the next NUL gets back what was pushed.

* `cString` is such a reading, and `ReadsBack` what a guest relies on: the sizes, the offsets, the
  strings at them, and that a buffer which is too short or the rest of a longer one is left alone;
* `StringList.pushed_fits` says what every list that was pushed together is like, on which the
  layout depends;
* `StringList.readsBack` is the layout of such a list;
* `World.strings_read_back` puts it together with what a builder pushes and no call changes.
-/

namespace Hostcall

/-- What a reader finds from an offset up to the first NUL. -/
def cString (buffer : Bytes) (offset : Nat) : Bytes := (buffer.drop offset).takeWhile (· ≠ 0)

/-- A buffer that holds strings: each is found at its offset and ends in a NUL, the next one begins
behind that, and the last NUL is the last of `size` bytes, behind which the buffer is as it was. -/
structure LaidOut (strings : List String) (size : Nat) (before : Bytes) (offsets : List UInt32)
    (after : Bytes) : Prop where
  length_offsets : offsets.length = strings.length
  increasing : offsets.Pairwise (· < ·)
  string : ∀ (i : Nat) o s, offsets[i]? = some o → strings[i]? = some s →
    cString after o.toNat = utf8 s ∧ after[o.toNat + (utf8 s).length]? = some 0
  next : ∀ (i : Nat) o o' s, offsets[i]? = some o → offsets[i + 1]? = some o' →
    strings[i]? = some s → o'.toNat = o.toNat + (utf8 s).length + 1
  last : ∀ o s, offsets.getLast? = some o → strings.getLast? = some s →
    o.toNat + (utf8 s).length = size - 1 ∧ 0 < size
  length_after : after.length = before.length
  rest : after.drop size = before.drop size

/-- Sizes and a copying function that tell a guest these strings. -/
structure ReadsBack (strings : List String) (sizes : Nat × Nat)
    (get : Bytes → Outcome (List UInt32) × Bytes) : Prop where
  count : sizes.1 = strings.length
  enough : ∀ buffer, sizes.2 ≤ buffer.length → ∃ offsets after,
    get buffer = (.ok offsets, after) ∧ LaidOut strings sizes.2 buffer offsets after
  short : ∀ buffer, buffer.length < sizes.2 → ∃ fault,
    get buffer = (.error fault, buffer) ∧ fault.errno? = some .invalidArgument

namespace StringList

/-! ## What was pushed -/

/-- Strings that were pushed one after another, none of them refused. -/
def Pushed (strings : List String) (l : StringList) : Prop :=
  strings.foldlM push empty = .ok l

/-- No string holds a NUL, and 32 bits tell how many bytes they take. -/
structure Fits (l : StringList) : Prop where
  noNul : ∀ s ∈ l.elements, 0 ∉ utf8 s
  total_le : total l.elements ≤ limit

theorem total_append (strings strings' : List String) :
    total (strings ++ strings') = total strings + total strings' := by
  rw [total, List.map_append, totalSize_append]
  rfl

theorem Fits.cumulativeSize_eq {l : StringList} (h : l.Fits) :
    l.cumulativeSize = total l.elements := Nat.min_eq_left h.total_le

theorem Fits.empty : empty.Fits := ⟨nofun, Nat.zero_le _⟩

theorem push_fits {l l' : StringList} {s : String} (hl : l.Fits) (h : l.push s = .ok l') :
    l'.elements = l.elements ++ [s] ∧ l'.Fits := by
  rw [push] at h
  split at h
  · cases h
  split at h
  · cases h
  split at h
  · cases h
  case isFalse htotal =>
    split at h
    · cases h
    case h_2 hnul =>
      cases h
      refine ⟨rfl, ?_, ?_⟩
      · intro x hx
        rcases List.mem_append.mp hx with hx | hx
        · exact hl.noNul x hx
        · rw [List.mem_singleton.mp hx]
          intro hzero
          simpa using List.findIdx?_eq_none_iff.mp hnul 0 hzero
      · rw [hl.cumulativeSize_eq] at htotal
        show total (l.elements ++ [s]) ≤ limit
        rw [total_append]
        show total l.elements + (s.utf8ByteSize + 1 + 0) ≤ limit
        omega

theorem foldlM_push_fits {l l' : StringList} {strings : List String} (hl : l.Fits)
    (h : strings.foldlM push l = .ok l') : l'.elements = l.elements ++ strings ∧ l'.Fits := by
  induction strings generalizing l with
  | nil =>
    cases h
    exact ⟨(List.append_nil _).symm, hl⟩
  | cons s rest ih =>
    rw [List.foldlM_cons] at h
    obtain ⟨l₁, hpush, hrest⟩ := bind_eq_ok.mp h
    obtain ⟨helements, hfits⟩ := push_fits hl hpush
    obtain ⟨helements', hfits'⟩ := ih hfits hrest
    refine ⟨?_, hfits'⟩
    rw [helements', helements, List.append_assoc, List.singleton_append]

/-- What was pushed is what the list holds. -/
theorem pushed_fits {strings : List String} {l : StringList} (h : Pushed strings l) :
    l.elements = strings ∧ l.Fits := foldlM_push_fits .empty h

/-! ## The flat form -/

theorem length_element (s : String) : (element s).length = s.utf8ByteSize + 1 := by
  rw [element, List.length_append, length_utf8]
  rfl

theorem length_flatMap_element (strings : List String) :
    (strings.flatMap element).length = total strings := by
  rw [length_flatMap, total]
  simp only [length_element]

theorem total_take_succ {strings : List String} {i : Nat} {s : String} (h : strings[i]? = some s) :
    total (strings.take (i + 1)) = total (strings.take i) + (utf8 s).length + 1 := by
  rw [List.take_add_one, h, total_append, length_utf8]
  rfl

/-- A string begins where those before it end. -/
theorem getElem?_offsetsFrom (start : Nat) (strings : List String) (i : Nat) :
    (offsetsFrom start strings)[i]? =
      if i < strings.length then some (start + total (strings.take i)) else none := by
  induction strings generalizing start i with
  | nil => rfl
  | cons s rest ih =>
    cases i with
    | zero => rfl
    | succ i =>
      rw [offsetsFrom, List.getElem?_cons_succ, ih, List.length_cons]
      simp only [Nat.add_lt_add_iff_right, List.take_succ_cons]
      have htotal : total (s :: rest.take i) = s.utf8ByteSize + 1 + total (rest.take i) := rfl
      rw [htotal, ← Nat.add_assoc, Nat.add_assoc start, Nat.add_assoc]

theorem length_offsetsFrom (start : Nat) (strings : List String) :
    (offsetsFrom start strings).length = strings.length := by
  induction strings generalizing start with
  | nil => rfl
  | cons s rest ih => rw [offsetsFrom, List.length_cons, List.length_cons, ih]

theorem drop_flatMap_element (strings : List String) (i : Nat) :
    (strings.flatMap element).drop (total (strings.take i)) = (strings.drop i).flatMap element := by
  rw [← length_flatMap_element]
  conv_lhs => rw [← List.take_append_drop i strings]
  rw [List.flatMap_append, List.take_append_drop, List.drop_left]

theorem total_take_le (strings : List String) (i : Nat) :
    total (strings.take i) ≤ total strings := by
  conv_rhs => rw [← List.take_append_drop i strings, total_append]
  exact Nat.le_add_right _ _

theorem total_take_lt {strings : List String} {i j : Nat} (hij : i < j) (hi : i < strings.length) :
    total (strings.take i) < total (strings.take j) := by
  have hsucc := total_take_succ (List.getElem?_eq_getElem hi)
  have hle := total_take_le (strings.take j) (i + 1)
  have hij : i + 1 ≤ j := hij
  rw [List.take_take, Nat.min_eq_left hij] at hle
  omega

theorem mapM_countOf {list : List Nat} (h : ∀ n ∈ list, n < UInt32.size) :
    list.mapM countOf = .ok (list.map UInt32.ofNat) := by
  induction list with
  | nil => rfl
  | cons n rest ih =>
    have hn : countOf n = .ok (UInt32.ofNat n) := if_pos (h n List.mem_cons_self)
    rw [List.mapM_cons, hn, ih fun m hm => h m (List.mem_cons_of_mem _ hm)]
    rfl

section

variable {l : StringList} (h : l.Fits)
include h

/-- Every string begins at a place that 32 bits tell. -/
theorem Fits.offset_lt (i : Nat) : total (l.elements.take i) < UInt32.size :=
  Nat.lt_of_le_of_lt (Nat.le_trans (total_take_le _ i) h.total_le) (by decide)

theorem Fits.mapM_offsets :
    (offsetsFrom 0 l.elements).mapM countOf =
      .ok ((offsetsFrom 0 l.elements).map UInt32.ofNat) := by
  apply mapM_countOf
  intro n hn
  obtain ⟨i, hi⟩ := List.mem_iff_getElem?.mp hn
  rw [getElem?_offsetsFrom, Nat.zero_add] at hi
  split at hi
  · cases hi
    exact h.offset_lt i
  · cases hi

theorem Fits.toNat_offset {i : Nat} {o : UInt32}
    (ho : ((offsetsFrom 0 l.elements).map UInt32.ofNat)[i]? = some o) :
    i < l.elements.length ∧ o.toNat = total (l.elements.take i) := by
  rw [List.getElem?_map, getElem?_offsetsFrom, Nat.zero_add] at ho
  split at ho
  case isTrue hi =>
    cases ho
    exact ⟨hi, UInt32.toNat_ofNat_of_lt' (h.offset_lt i)⟩
  case isFalse => cases ho

omit h in
/-- Behind the offset of a string follow its bytes, a NUL and the rest of the buffer. -/
theorem drop_offset {i : Nat} {s : String} (hs : l.elements[i]? = some s) (behind : Bytes) :
    ∃ rest, (l.encode ++ behind).drop (total (l.elements.take i)) = utf8 s ++ 0 :: rest := by
  obtain ⟨hi, rfl⟩ := List.getElem?_eq_some_iff.mp hs
  have hwithin : total (l.elements.take i) ≤ l.encode.length := by
    rw [encode, length_flatMap_element]
    exact total_take_le ..
  refine ⟨(l.elements.drop (i + 1)).flatMap element ++ behind, ?_⟩
  rw [List.drop_append_of_le_length hwithin, encode, drop_flatMap_element,
    List.drop_eq_getElem_cons hi, List.flatMap_cons, element]
  simp

theorem Fits.laidOut {buffer : Bytes} (hbuffer : l.cumulativeSize ≤ buffer.length) :
    LaidOut l.elements l.cumulativeSize buffer ((offsetsFrom 0 l.elements).map UInt32.ofNat)
      (overwrite buffer l.encode) := by
  have hlength : l.encode.length = l.cumulativeSize := by
    rw [h.cumulativeSize_eq, encode, length_flatMap_element]
  have hoffsets : ((offsetsFrom 0 l.elements).map UInt32.ofNat).length = l.elements.length := by
    rw [List.length_map, length_offsetsFrom]
  constructor
  case length_offsets => exact hoffsets
  case increasing =>
    rw [List.pairwise_iff_getElem]
    intro i j hi hj hij
    obtain ⟨hlt, ho⟩ := h.toNat_offset (List.getElem?_eq_getElem hi)
    obtain ⟨-, ho'⟩ := h.toNat_offset (List.getElem?_eq_getElem hj)
    rw [UInt32.lt_iff_toNat_lt, ho, ho']
    exact total_take_lt hij hlt
  case string =>
    intro i o s ho hs
    obtain ⟨-, ho⟩ := h.toNat_offset ho
    obtain ⟨rest, hrest⟩ := drop_offset hs (buffer.drop l.encode.length)
    have hnul := h.noNul s (List.mem_of_getElem? hs)
    constructor
    · rw [cString, ho, overwrite, hrest, List.takeWhile_append_of_pos]
      · simp
      · intro b hb
        simpa using fun hzero : b = 0 => hnul (hzero ▸ hb)
    · rw [ho, ← List.getElem?_drop, overwrite, hrest, List.getElem?_append_right (Nat.le_refl _)]
      simp
  case next =>
    intro i o o' s ho ho' hs
    obtain ⟨-, ho⟩ := h.toNat_offset ho
    obtain ⟨-, ho'⟩ := h.toNat_offset ho'
    rw [ho', ho, total_take_succ hs]
  case last =>
    intro o s ho hs
    rw [List.getLast?_eq_getElem?] at ho hs
    rw [hoffsets] at ho
    obtain ⟨hlt, ho⟩ := h.toNat_offset ho
    have htotal := total_take_succ hs
    rw [Nat.sub_add_cancel (by omega), List.take_length, ← h.cumulativeSize_eq] at htotal
    omega
  case length_after => exact length_overwrite (hlength ▸ hbuffer)
  case rest =>
    rw [overwrite, ← hlength, List.drop_left]

end

/-- A list whose strings were pushed tells a guest just these strings. -/
theorem readsBack {strings : List String} {l : StringList} (h : Pushed strings l) :
    ReadsBack strings (l.count, l.cumulativeSize) l.writeTo := by
  obtain ⟨rfl, hfits⟩ := pushed_fits h
  refine ⟨rfl, fun buffer hbuffer => ?_, fun buffer hbuffer => ?_⟩
  · refine ⟨_, _, ?_, hfits.laidOut hbuffer⟩
    rw [writeTo, if_neg (Nat.not_lt.mpr hbuffer), hfits.mapM_offsets]
  · rw [writeTo, if_pos hbuffer]
    exact ⟨_, rfl, rfl⟩

end StringList

/-! ## Guests -/

/-- A list after strings are pushed to it, up to the first that is refused. -/
def StringList.accept (l : StringList) : List String → StringList
  | [] => l
  | s :: rest =>
    match l.push s with
    | .ok l => l.accept rest
    | .error _ => l

namespace Setting

/-- The arguments that a request asks for. -/
def givenArgs : Setting → List String
  | .arg s => [s]
  | .args list => list
  | _ => []

/-- The variables that a request asks for. -/
def givenVars : Setting → List String
  | .env key value => [key ++ "=" ++ value]
  | .envs list => list.map fun v => v.1 ++ "=" ++ v.2
  | _ => []

end Setting

namespace StringList

theorem Pushed.empty : Pushed empty.elements empty := rfl

/-- What is in a list was pushed to it. -/
theorem pushed_accept {l : StringList} (h : Pushed l.elements l) (strings : List String) :
    Pushed (l.accept strings).elements (l.accept strings) := by
  induction strings generalizing l with
  | nil => exact h
  | cons s rest ih =>
    rw [accept]
    split
    case h_1 l' hpush =>
      apply ih
      rw [(push_fits (pushed_fits h).2 hpush).1, Pushed, List.foldlM_append]
      exact bind_eq_ok.mpr ⟨l, h, bind_eq_ok.mpr ⟨l', hpush, rfl⟩⟩
    case h_2 => exact h

/-- Where nothing is refused everything is accepted. -/
theorem accept_of_pushed {l l' : StringList} {strings : List String}
    (h : strings.foldlM push l = .ok l') : l.accept strings = l' := by
  induction strings generalizing l with
  | nil =>
    cases h
    rfl
  | cons s rest ih =>
    obtain ⟨l₁, hpush, hrest⟩ := bind_eq_ok.mp h
    rw [accept, hpush]
    exact ih hrest

/-- What a builder accepts was pushed. -/
theorem pushed_accepted {l : StringList} (h : Pushed l.elements l)
    (given : Setting → List String) (settings : List Setting) :
    let accepted := settings.foldl (fun l s => l.accept (given s)) l
    Pushed accepted.elements accepted := by
  induction settings generalizing l with
  | nil => exact h
  | cons s rest ih => exact ih (pushed_accept h (given s))

/-- Where nothing is refused a builder accepts everything, in order. -/
theorem accepted_of_pushed {given : Setting → List String} {settings : List Setting}
    {l l' : StringList} (h : (settings.flatMap given).foldlM push l = .ok l') :
    settings.foldl (fun l s => l.accept (given s)) l = l' := by
  induction settings generalizing l with
  | nil =>
    cases h
    rfl
  | cons s rest ih =>
    rw [List.flatMap_cons, List.foldlM_append] at h
    obtain ⟨l₁, hfirst, hrest⟩ := bind_eq_ok.mp h
    rw [List.foldl_cons, accept_of_pushed hfirst]
    exact ih hrest

end StringList

/-- The arguments that a builder accepts of those it is asked for. -/
def acceptedArgs (settings : List Setting) : StringList :=
  settings.foldl (fun l s => l.accept s.givenArgs) .empty

/-- The variables that a builder accepts of those it is asked for. -/
def acceptedVars (settings : List Setting) : StringList :=
  settings.foldl (fun l s => l.accept s.givenVars) .empty

namespace World

variable {w w' : World}

/-- Worlds in which a guest holds the same, whatever is open. -/
def SameButTable (w w' : World) : Prop :=
  w'.context = { w.context with table := w'.context.table }

namespace SameButTable

theorem refl (w : World) : w.SameButTable w := rfl

theorem fdClose (w : World) (fd : Nat) : w.SameButTable (w.fdClose fd).2 := by
  simp only [World.fdClose]
  split
  case h_1 => exact refl w
  case h_2 d _ =>
    obtain ⟨streams, hstreams⟩ := w.flushed_snd d
    rcases hstep : w.flushed d with ⟨_ | _, w'⟩ <;>
    · rw [hstep] at hstreams
      subst hstreams
      exact rfl

theorem fdRenumber (w : World) (source target : Nat) :
    w.SameButTable (w.fdRenumber source target).2 := by
  rw [World.fdRenumber]
  obtain ⟨streams, hstreams⟩ := w.flushedTarget_snd source target
  rcases hstep : w.flushedTarget source target with ⟨_ | _, w'⟩ <;>
  · rw [hstep] at hstreams
    subst hstreams
    exact rfl

theorem fdRead (w : World) (fd : Nat) (buffers : List Bytes) :
    w.SameButTable (w.fdRead fd buffers).2 := by
  simp only [World.fdRead]
  split
  case h_4 => split <;> exact rfl
  all_goals exact rfl

theorem fdWrite (w : World) (fd : Nat) (buffers : List Bytes) :
    w.SameButTable (w.fdWrite fd buffers).2 := by
  simp only [World.fdWrite]
  split
  case h_4 => split <;> exact rfl
  all_goals exact rfl

theorem fdPwrite (w : World) (fd : Nat) (buffers : List Bytes) (offset : UInt64) :
    w.SameButTable (w.fdPwrite fd buffers offset).2 := by
  simp only [World.fdPwrite]
  split
  case h_4 => split <;> exact rfl
  all_goals exact rfl

theorem fdSeek (w : World) (fd : Nat) (offset : Int64) (whence : Whence) :
    w.SameButTable (w.fdSeek fd offset whence).2 := by
  simp only [World.fdSeek]
  split
  · exact refl w
  split
  case h_4 => split <;> exact rfl
  all_goals exact rfl

theorem fdFdstatSetFlags (w : World) (fd : Nat) (flags : FdFlags) :
    w.SameButTable (w.fdFdstatSetFlags fd flags).2 := by
  rw [World.fdFdstatSetFlags]
  split
  case h_1 => exact refl w
  case h_2 => split <;> exact rfl

theorem pathOpen (w : World) (dirfd : Nat) (lookup : LookupFlags) (path : String)
    (flags : OpenFlags) (rights inheriting : Rights) (fdFlags : FdFlags) :
    w.SameButTable (w.pathOpen dirfd lookup path flags rights inheriting fdFlags).2 := by
  rw [World.pathOpen]
  split
  case h_1 => exact refl w
  case h_2 r _ =>
    rcases r.openNode w.volume w.ends (lookup.contains LookupFlags.symlinkFollow) flags
      (Access.ofRights rights) fdFlags with ⟨_ | _, _⟩ <;> exact rfl

theorem changed (w : World) (outcome : Outcome Volume) : w.SameButTable (w.changed outcome).2 := by
  cases outcome <;> exact rfl

/-- No call changes more of what a guest holds than its table, but one that asks for random
bytes. -/
theorem call (w : World) {c : Call} (hc : ∀ buffer, c ≠ .randomGet buffer) :
    w.SameButTable (w.call c).2 := by
  cases c with
  | fdClose fd => exact fdClose w fd
  | fdRenumber source target => exact fdRenumber w source target
  | fdRead fd buffers => exact fdRead w fd buffers
  | fdWrite fd buffers => exact fdWrite w fd buffers
  | fdPwrite fd buffers offset => exact fdPwrite w fd buffers offset
  | fdSeek fd offset whence => exact fdSeek w fd offset whence
  | fdTell fd => exact fdSeek w fd 0 .current
  | fdFdstatSetFlags fd flags => exact fdFdstatSetFlags w fd flags
  | pathOpen dirfd lookup path flags rights inheriting fdFlags =>
    exact pathOpen w dirfd lookup path flags rights inheriting fdFlags
  | fdFilestatSetSize _ _ | fdFilestatSetTimes _ _ | pathCreateDirectory _ _
  | pathFilestatSetTimes _ _ _ _ | pathRemoveDirectory _ _ | pathUnlinkFile _ _ =>
    exact changed w _
  | argsGet _ | argsSizesGet | environGet _ | environSizesGet | clockResGet _ | clockTimeGet _ _
  | fdDatasync _ | fdFdstatGet _ | fdFilestatGet _ | fdPread _ _ _ | fdPrestatGet _
  | fdPrestatDirName _ _ | fdReaddir _ _ _ | fdSync _ | pathFilestatGet _ _ _ | procExit _ =>
    exact rfl
  | randomGet buffer => exact absurd rfl (hc buffer)

end SameButTable

/-- Worlds in which a guest has the same arguments and variables. -/
def SameStrings (w w' : World) : Prop :=
  w'.context.args = w.context.args ∧ w'.context.env = w.context.env

namespace SameStrings

theorem refl (w : World) : w.SameStrings w := ⟨rfl, rfl⟩

theorem of_sameButTable (h : w.SameButTable w') : w.SameStrings w' := by
  rw [SameButTable] at h
  rw [SameStrings, h]
  exact ⟨rfl, rfl⟩

/-- What a guest was given stays, whatever it calls. -/
theorem call (w : World) (c : Call) : w.SameStrings (w.call c).2 := by
  by_cases hc : ∃ buffer, c = .randomGet buffer
  · obtain ⟨buffer, rfl⟩ := hc
    exact ⟨rfl, rfl⟩
  · exact of_sameButTable (.call w fun buffer hbuffer => hc ⟨buffer, hbuffer⟩)

theorem run (w : World) (calls : List Call) : w.SameStrings (w.run calls) := by
  refine run_keeps (P := w.SameStrings) (fun w' c h => ?_) (refl w) calls
  obtain ⟨hargs, henv⟩ := call w' c
  exact ⟨hargs.trans h.1, henv.trans h.2⟩

end SameStrings

theorem pushArgs_strings (w : World) (list : List String) :
    (configure.strings (pushAll pushArg w list)).2.context.args = w.context.args.accept list ∧
      (configure.strings (pushAll pushArg w list)).2.context.env = w.context.env := by
  induction list generalizing w with
  | nil => exact ⟨rfl, rfl⟩
  | cons arg rest ih =>
    rw [pushAll, pushArg, StringList.accept]
    cases w.context.args.push arg with
    | error e => exact ⟨rfl, rfl⟩
    | ok args => exact ih _

theorem pushVars_strings (w : World) (list : List (String × String)) :
    let vars := list.map fun v => v.1 ++ "=" ++ v.2
    (configure.strings (pushAll configure.pushVariable w list)).2.context.args = w.context.args ∧
      (configure.strings (pushAll configure.pushVariable w list)).2.context.env =
        w.context.env.accept vars := by
  induction list generalizing w with
  | nil => exact ⟨rfl, rfl⟩
  | cons v rest ih =>
    simp only [pushAll, configure.pushVariable, pushEnv, List.map_cons, StringList.accept] at ih ⊢
    cases w.context.env.push (v.1 ++ "=" ++ v.2) with
    | error e => exact ⟨rfl, rfl⟩
    | ok env => exact ih _

theorem configure_strings (w : World) (s : Setting) :
    (w.configure s).2.context.args = w.context.args.accept s.givenArgs ∧
      (w.configure s).2.context.env = w.context.env.accept s.givenVars := by
  cases s with
  | arg s => exact pushArgs_strings w [s]
  | args list => exact pushArgs_strings w list
  | env key value => exact pushVars_strings w [(key, value)]
  | envs list => exact pushVars_strings w list
  | stdio kind stream => exact ⟨rfl, rfl⟩
  | preopen host guest =>
    rw [configure, pushPreopen]
    cases w.volume.openHostDirectory (utf8 host) with
    | error e => exact ⟨rfl, rfl⟩
    | ok root =>
      simp only [allocate]
      cases (w.table.allocate (.directory (.root w.context.preopens.length guest root))).1 <;>
        exact ⟨rfl, rfl⟩

theorem build_strings (w : World) (settings : List Setting) :
    (w.build settings).context.args =
        settings.foldl (fun l s => l.accept s.givenArgs) w.context.args ∧
      (w.build settings).context.env =
        settings.foldl (fun l s => l.accept s.givenVars) w.context.env := by
  induction settings generalizing w with
  | nil => exact ⟨rfl, rfl⟩
  | cons s rest ih =>
    obtain ⟨hargs, henv⟩ := w.configure_strings s
    rw [build, List.foldl_cons, List.foldl_cons, ← hargs, ← henv]
    exact ih _

/-- Whatever strings were pushed to a list, its sizes and its copy in a buffer give just these
strings back.  A guest that a builder made is told the arguments and variables which the builder
accepted, at any time of its run, and the builder accepts all it is asked for in order if each of
them can be pushed. -/
theorem strings_read_back :
    (∀ strings l, StringList.Pushed strings l →
      ReadsBack strings (l.count, l.cumulativeSize) l.writeTo) ∧
    (∀ host random settings calls,
      let w := ((fresh host random).build settings).run calls
      ReadsBack (acceptedArgs settings).elements w.argsSizesGet w.argsGet ∧
        ReadsBack (acceptedVars settings).elements w.environSizesGet w.environGet) ∧
    ∀ settings l,
      (StringList.Pushed (settings.flatMap Setting.givenArgs) l → acceptedArgs settings = l) ∧
      (StringList.Pushed (settings.flatMap Setting.givenVars) l → acceptedVars settings = l) := by
  refine ⟨fun _ _ => StringList.readsBack, fun host random settings calls => ?_,
    fun _ _ => ⟨StringList.accepted_of_pushed, StringList.accepted_of_pushed⟩⟩
  intro w
  obtain ⟨hargs, henv⟩ := SameStrings.run ((fresh host random).build settings) calls
  obtain ⟨hargs', henv'⟩ := (fresh host random).build_strings settings
  have hargs : w.context.args = acceptedArgs settings := hargs.trans hargs'
  have henv : w.context.env = acceptedVars settings := henv.trans henv'
  rw [argsSizesGet, environSizesGet]
  refine ⟨?_, ?_⟩
  · rw [show w.argsGet = w.context.args.writeTo from rfl, hargs]
    exact StringList.readsBack (StringList.pushed_accepted .empty Setting.givenArgs settings)
  · rw [show w.environGet = w.context.env.writeTo from rfl, henv]
    exact StringList.readsBack (StringList.pushed_accepted .empty Setting.givenVars settings)

theorem strings_read_back_program :
    StringList.Pushed ["prog", "1", "22"] ⟨["prog", "1", "22"]⟩ ∧
      ReadsBack ["prog", "1", "22"] (3, 10) (StringList.writeTo ⟨["prog", "1", "22"]⟩) := by
  have hpushed : StringList.Pushed ["prog", "1", "22"] ⟨["prog", "1", "22"]⟩ := by rfl
  exact ⟨hpushed, strings_read_back.1 _ _ hpushed⟩

end World

end Hostcall
