import Hostcall.Proofs.ReadBack
import Mathlib.Algebra.Group.Nat.Defs

/-!
# What a list of strings takes

A list takes every string that leaves its count and its byte total within 32 bits, and of any other
it says which limit is passed first.

* `StringList.Accepts` is what a string needs to be appended, `StringList.Refuses` what it lacks
  first, in the order in which that is looked for;
* `StringList.offer` is a list after strings were offered to it, some of which it may have refused;
* `StringList.wordPush` and the sizes beside it are computed in machine words, which wrap, and in
  a size of 32 bits that saturates;
* `StringList.limits_exact` says that neither is ever noticed: words and numbers agree in every
  list that strings were offered to.
-/

namespace Hostcall

/-! ## The first NUL -/

theorem findIdx?_nul_of_notMem {s : String} (h : '\x00' ∉ s.toList) :
    (utf8 s).findIdx? (· = 0) = none := by
  rw [List.findIdx?_eq_none_iff]
  intro b hb
  simpa using fun hzero : b = 0 => h (mem_toList_of_mem_utf8 (by decide) (hzero ▸ hb))

/-- Among the bytes of a string the first NUL stands behind those of the characters before it. -/
theorem findIdx?_nul_of_split {s : String} {before after : List Char}
    (hs : s.toList = before ++ '\x00' :: after) (hfirst : '\x00' ∉ before) :
    (utf8 s).findIdx? (· = 0) = some (String.ofList before).utf8ByteSize := by
  have hbefore : (utf8 (String.ofList before)).findIdx? (· = 0) = none :=
    findIdx?_nul_of_notMem (by rwa [String.toList_ofList])
  -- a NUL is one byte, and no other character has a zero among its bytes
  have hsplit : utf8 s =
      utf8 (String.ofList before) ++ 0 :: after.flatMap String.utf8EncodeChar := by
    rw [utf8, hs, List.flatMap_append, List.flatMap_cons, utf8, String.toList_ofList]
    rfl
  rw [hsplit, List.findIdx?_append, hbefore, ← length_utf8]
  simp [List.findIdx?_cons]

namespace StringList

/-! ## What is accepted -/

/-- What a string needs to be appended to a list. -/
structure Accepts (l : StringList) (s : String) : Prop where
  count : l.elements.length + 1 ≤ limit
  size : s.utf8ByteSize + 1 ≤ limit
  total : total (l.elements ++ [s]) ≤ limit
  noNul : '\x00' ∉ s.toList

/-- What a string lacks first.  A NUL is told by how many bytes stand before the first one. -/
inductive Refuses (l : StringList) (s : String) : StringListError → Prop where
  | numberElements (h : limit < l.elements.length + 1) : Refuses l s .numberElements
  | elementSize (hcount : l.elements.length + 1 ≤ limit) (h : limit < s.utf8ByteSize + 1) :
      Refuses l s .elementSize
  | cumulativeSize (hcount : l.elements.length + 1 ≤ limit) (hsize : s.utf8ByteSize + 1 ≤ limit)
      (h : limit < total (l.elements ++ [s])) : Refuses l s .cumulativeSize
  | nul (hcount : l.elements.length + 1 ≤ limit) (hsize : s.utf8ByteSize + 1 ≤ limit)
      (htotal : total (l.elements ++ [s]) ≤ limit) {before after : List Char}
      (hs : s.toList = before ++ '\x00' :: after) (hfirst : '\x00' ∉ before) :
      Refuses l s (.nul (String.ofList before).utf8ByteSize)

/-- A string has everything it needs, or there is something it lacks first. -/
theorem accepts_or_refuses (l : StringList) (s : String) :
    l.Accepts s ∨ ∃ e, l.Refuses s e := by
  by_cases hcount : limit < l.elements.length + 1
  · exact .inr ⟨_, .numberElements hcount⟩
  by_cases hsize : limit < s.utf8ByteSize + 1
  · exact .inr ⟨_, .elementSize (Nat.le_of_not_lt hcount) hsize⟩
  by_cases htotal : limit < total (l.elements ++ [s])
  · exact .inr ⟨_, .cumulativeSize (Nat.le_of_not_lt hcount) (Nat.le_of_not_lt hsize) htotal⟩
  have hcount := Nat.le_of_not_lt hcount
  have hsize := Nat.le_of_not_lt hsize
  have htotal := Nat.le_of_not_lt htotal
  by_cases hnul : '\x00' ∈ s.toList
  · obtain ⟨before, after, hs, hfirst⟩ := List.eq_append_cons_of_mem hnul
    exact .inr ⟨_, .nul hcount hsize htotal hs hfirst⟩
  · exact .inl ⟨hcount, hsize, htotal, hnul⟩

theorem total_cons (s : String) (strings : List String) :
    total (s :: strings) = s.utf8ByteSize + 1 + total strings := rfl

theorem total_snoc (strings : List String) (s : String) :
    total (strings ++ [s]) = total strings + s.utf8ByteSize + 1 := by
  rw [total_append]
  rfl

section

variable {l : StringList} {s : String} (h : l.Fits)
include h

theorem Fits.push_of_accepts (hs : l.Accepts s) : l.push s = .ok ⟨l.elements ++ [s]⟩ := by
  have htotal := hs.total
  rw [total_snoc] at htotal
  rw [push, h.cumulativeSize_eq, count, if_neg (Nat.not_lt.mpr hs.count),
    if_neg (Nat.not_lt.mpr hs.size), if_neg (Nat.not_lt.mpr htotal),
    findIdx?_nul_of_notMem hs.noNul]

theorem Fits.push_of_refuses {e : StringListError} (hs : l.Refuses s e) :
    l.push s = .error e := by
  rw [push, h.cumulativeSize_eq, count]
  cases hs with
  | numberElements hcount => rw [if_pos hcount]
  | elementSize hcount hsize => rw [if_neg (Nat.not_lt.mpr hcount), if_pos hsize]
  | cumulativeSize hcount hsize htotal =>
    rw [total_snoc] at htotal
    rw [if_neg (Nat.not_lt.mpr hcount), if_neg (Nat.not_lt.mpr hsize), if_pos htotal]
  | nul hcount hsize htotal hsplit hfirst =>
    rw [total_snoc] at htotal
    rw [if_neg (Nat.not_lt.mpr hcount), if_neg (Nat.not_lt.mpr hsize),
      if_neg (Nat.not_lt.mpr htotal), findIdx?_nul_of_split hsplit hfirst]

theorem Fits.push_eq_ok_iff {l' : StringList} :
    l.push s = .ok l' ↔ l.Accepts s ∧ l' = ⟨l.elements ++ [s]⟩ := by
  constructor
  · intro hpush
    rcases l.accepts_or_refuses s with hs | ⟨e, hs⟩
    · rw [h.push_of_accepts hs] at hpush
      cases hpush
      exact ⟨hs, rfl⟩
    · rw [h.push_of_refuses hs] at hpush
      cases hpush
  · rintro ⟨hs, rfl⟩
    exact h.push_of_accepts hs

theorem Fits.push_eq_error_iff {e : StringListError} : l.push s = .error e ↔ l.Refuses s e := by
  constructor
  · intro hpush
    rcases l.accepts_or_refuses s with hs | ⟨e', hs⟩
    · rw [h.push_of_accepts hs] at hpush
      cases hpush
    · rw [h.push_of_refuses hs] at hpush
      cases hpush
      exact hs
  · exact h.push_of_refuses

end

/-! ## Histories -/

/-- What a push leaves: the longer list, or the list as it was. -/
def kept (l : StringList) : Except StringListError StringList → StringList
  | .ok l' => l'
  | .error _ => l

/-- A list after strings were offered to it one after another. -/
def offer (push : StringList → String → Except StringListError StringList) (l : StringList)
    (strings : List String) : StringList :=
  strings.foldl (fun l s => l.kept (push l s)) l

theorem offer_nil (push : StringList → String → Except StringListError StringList)
    (l : StringList) : l.offer push [] = l := rfl

theorem offer_cons (push : StringList → String → Except StringListError StringList)
    (l : StringList) (s : String) (rest : List String) :
    l.offer push (s :: rest) = (l.kept (push l s)).offer push rest := rfl

theorem offer_append (push : StringList → String → Except StringListError StringList)
    (l : StringList) (strings strings' : List String) :
    l.offer push (strings ++ strings') = (l.offer push strings).offer push strings' :=
  List.foldl_append

theorem Fits.kept {l : StringList} (h : l.Fits) (s : String) : (l.kept (l.push s)).Fits := by
  cases hpush : l.push s with
  | ok l' => exact (push_fits h hpush).2
  | error e => exact h

theorem Fits.offer {l : StringList} (h : l.Fits) (strings : List String) :
    (l.offer push strings).Fits := by
  induction strings generalizing l with
  | nil => exact h
  | cons s rest ih => exact ih (h.kept s)

/-! ## Machine words -/

/-- The bytes of a string and its NUL, in a word of 64 bits. -/
def wordSize (s : String) : UInt64 := UInt64.ofNat s.utf8ByteSize + 1

/-- The bytes of strings, each with its NUL, summed up in a word of 64 bits. -/
def wordTotal (elements : List String) : UInt64 :=
  elements.foldl (fun sum s => sum + wordSize s) 0

/-- The count, cut to a word of 32 bits. -/
def numberElements (l : StringList) : UInt32 := UInt32.ofNat l.elements.length

/-- The byte total in a word of 32 bits, the largest one where it is not below that. -/
def wordCumulativeSize (l : StringList) : UInt32 :=
  let sum := wordTotal l.elements
  if sum ≤ UInt64.ofNat limit then sum.toUInt32 else UInt32.ofNat limit

/-- Appends a string as a machine does, whose sums wrap. -/
def wordPush (l : StringList) (s : String) : Except StringListError StringList :=
  if UInt64.ofNat limit < UInt64.ofNat l.elements.length + 1 then .error .numberElements
  else if UInt64.ofNat limit < UInt64.ofNat s.utf8ByteSize + 1 then .error .elementSize
  else if UInt64.ofNat limit <
      l.wordCumulativeSize.toUInt64 + UInt64.ofNat s.utf8ByteSize + 1 then .error .cumulativeSize
  else
    match (utf8 s).findIdx? (· = 0) with
    | some position => .error (.nul position)
    | none => .ok ⟨l.elements ++ [s]⟩

theorem toNat_wordLimit : (UInt64.ofNat limit).toNat = limit := by decide

theorem wordLimit_lt_iff {sum : UInt64} {n : Nat} (h : sum.toNat = n) :
    UInt64.ofNat limit < sum ↔ limit < n := by
  rw [UInt64.lt_iff_toNat_lt, toNat_wordLimit, h]

theorem toNat_ofNat_add_one {n : Nat} (h : n < 2 ^ 63) : (UInt64.ofNat n + 1).toNat = n + 1 := by
  rw [UInt64.toNat_add, UInt64.toNat_ofNat', UInt64.toNat_one]
  omega

theorem toNat_foldl_wordSize (sum : UInt64) (elements : List String)
    (h : sum.toNat + total elements < 2 ^ 64) :
    (elements.foldl (fun sum s => sum + wordSize s) sum).toNat = sum.toNat + total elements := by
  induction elements generalizing sum with
  | nil => rfl
  | cons s rest ih =>
    have htotal := total_cons s rest
    -- the total bounds every partial sum, so no step of the sum wraps
    have hsize : (sum + wordSize s).toNat = sum.toNat + (s.utf8ByteSize + 1) := by
      rw [wordSize, UInt64.toNat_add, UInt64.toNat_add, UInt64.toNat_ofNat', UInt64.toNat_one]
      omega
    rw [List.foldl_cons, ih _ (by omega), hsize, htotal, Nat.add_assoc]

theorem length_le_total (elements : List String) : elements.length ≤ total elements := by
  induction elements with
  | nil => exact Nat.zero_le _
  | cons s rest ih =>
    rw [List.length_cons, total_cons]
    omega

section

variable {l : StringList} (h : l.Fits)
include h

theorem Fits.total_lt : total l.elements < 2 ^ 32 := Nat.lt_of_le_of_lt h.total_le (by decide)

theorem Fits.length_lt : l.elements.length < 2 ^ 32 :=
  Nat.lt_of_le_of_lt (length_le_total _) h.total_lt

theorem Fits.toNat_numberElements : l.numberElements.toNat = l.elements.length :=
  UInt32.toNat_ofNat_of_lt' h.length_lt

theorem Fits.toNat_wordTotal : (wordTotal l.elements).toNat = total l.elements := by
  have htotal := h.total_lt
  rw [wordTotal, toNat_foldl_wordSize _ _ (by rw [UInt64.toNat_zero]; omega), UInt64.toNat_zero,
    Nat.zero_add]

/-- The sum is told as it is, never as the largest word. -/
theorem Fits.wordCumulativeSize_eq : l.wordCumulativeSize = (wordTotal l.elements).toUInt32 := by
  rw [wordCumulativeSize, if_pos]
  rw [UInt64.le_iff_toNat_le, h.toNat_wordTotal, toNat_wordLimit]
  exact h.total_le

theorem Fits.toNat_wordCumulativeSize : l.wordCumulativeSize.toNat = total l.elements := by
  rw [h.wordCumulativeSize_eq, UInt64.toNat_toUInt32, h.toNat_wordTotal,
    Nat.mod_eq_of_lt h.total_lt]

/-- No sum of machine words that a push looks at wraps. -/
theorem Fits.wordPush_eq {s : String} (hs : s.utf8ByteSize < 2 ^ 63) : l.wordPush s = l.push s := by
  have hcount := toNat_ofNat_add_one (Nat.lt_trans h.length_lt (by decide : 2 ^ 32 < 2 ^ 63))
  have hsize := toNat_ofNat_add_one hs
  have htotal : (l.wordCumulativeSize.toUInt64 + UInt64.ofNat s.utf8ByteSize + 1).toNat =
      total l.elements + s.utf8ByteSize + 1 := by
    have := h.total_lt
    rw [UInt64.toNat_add, UInt64.toNat_add, UInt32.toNat_toUInt64, h.toNat_wordCumulativeSize,
      UInt64.toNat_ofNat', UInt64.toNat_one]
    omega
  rw [wordPush, push, count, h.cumulativeSize_eq]
  exact if_congr (wordLimit_lt_iff hcount) rfl
    (if_congr (wordLimit_lt_iff hsize) rfl (if_congr (wordLimit_lt_iff htotal) rfl rfl))

theorem Fits.offer_wordPush {strings : List String}
    (hstrings : ∀ s ∈ strings, s.utf8ByteSize < 2 ^ 63) :
    l.offer wordPush strings = l.offer push strings := by
  induction strings generalizing l with
  | nil => rw [offer_nil, offer_nil]
  | cons s rest ih =>
    rw [offer_cons, offer_cons, h.wordPush_eq (hstrings s List.mem_cons_self)]
    exact ih (h.kept s) fun t ht => hstrings t (List.mem_cons_of_mem _ ht)

/-- Copying fails for want of room only. -/
theorem Fits.writeTo_error {buffer : Bytes} {fault : Fault}
    (hfail : (l.writeTo buffer).1 = .error fault) : fault.errno? = some .invalidArgument := by
  rw [writeTo] at hfail
  split at hfail
  · cases hfail
    rfl
  · rw [h.mapM_offsets] at hfail
    cases hfail

end

/-- Whatever strings were offered to a list, it is the list that machine words make of them.  The
next string is accepted exactly if it leaves the count and the sizes within 32 bits and holds no
NUL; else it is refused for the first of these that fails, and the list stays.  Count and byte total
are told in 32 bits as they are, and copying the strings never meets an offset that is too large. -/
theorem limits_exact (strings : List String) (hstrings : ∀ s ∈ strings, s.utf8ByteSize < 2 ^ 63) :
    let l : StringList := empty.offer push strings
    empty.offer wordPush strings = l ∧
    (∀ s, s.utf8ByteSize < 2 ^ 63 → l.wordPush s = l.push s) ∧
    (∀ s l', l.push s = .ok l' ↔ l.Accepts s ∧ l' = ⟨l.elements ++ [s]⟩) ∧
    (∀ s e, l.push s = .error e ↔ l.Refuses s e) ∧
    (∀ s e, l.Refuses s e → empty.offer push (strings ++ [s]) = l) ∧
    l.numberElements.toNat = l.elements.length ∧
    (wordTotal l.elements).toNat = total l.elements ∧ total l.elements ≤ limit ∧
    l.wordCumulativeSize.toNat = total l.elements ∧ l.cumulativeSize = total l.elements ∧
    ∀ buffer fault, (l.writeTo buffer).1 = .error fault →
      fault.errno? = some .invalidArgument := by
  intro l
  have hfits : l.Fits := Fits.empty.offer strings
  refine ⟨Fits.empty.offer_wordPush hstrings, fun _ => hfits.wordPush_eq,
    fun _ _ => hfits.push_eq_ok_iff, fun _ _ => hfits.push_eq_error_iff, ?_,
    hfits.toNat_numberElements, hfits.toNat_wordTotal, hfits.total_le,
    hfits.toNat_wordCumulativeSize, hfits.cumulativeSize_eq, fun _ _ => hfits.writeTo_error⟩
  intro s e hs
  rw [offer_append, offer_cons, offer_nil]
  exact congrArg l.kept (hfits.push_of_refuses hs)

/-- A string that leaves room for one empty string behind it. -/
def brimming : String := String.ofList (List.replicate 4294967293 'a')

theorem utf8ByteSize_replicate (count : Nat) :
    (String.ofList (List.replicate count 'a')).utf8ByteSize = count := by
  have hchar : String.utf8EncodeChar 'a' = [97] := by decide
  rw [← length_utf8, utf8, String.toList_ofList, List.flatMap_replicate, hchar]
  simp

theorem utf8ByteSize_brimming : brimming.utf8ByteSize = 4294967293 := by
  unfold brimming
  exact utf8ByteSize_replicate 4294967293

theorem nul_notMem_brimming : '\x00' ∉ brimming.toList := by
  unfold brimming
  rw [String.toList_ofList, List.mem_replicate]
  exact fun h => absurd h.2 (by decide)

/-- Up to the largest total, told as it is, and no further. -/
theorem limits_exact_brimming :
    let l := empty.offer push [brimming, "", ""]
    l = ⟨[brimming, ""]⟩ ∧ l.numberElements.toNat = 2 ∧ l.wordCumulativeSize.toNat = limit ∧
      l.wordPush "" = .error .cumulativeSize ∧ l.wordPush "\x00" = .error .cumulativeSize := by
  have hsize := utf8ByteSize_brimming
  have hnul := nul_notMem_brimming
  -- the string is far too long to be looked at, and its size is all that counts
  generalize brimming = s at hsize hnul ⊢
  have htotal : total [s, ""] = limit := by
    rw [total_cons, hsize]
    rfl
  have hfirst : empty.push s = .ok ⟨[s]⟩ := by
    refine Fits.empty.push_of_accepts ⟨by decide, ?_, ?_, hnul⟩
    · rw [hsize]
      decide
    · show total [s] ≤ limit
      rw [total_cons, hsize]
      decide
  have hsecond : push ⟨[s]⟩ "" = .ok ⟨[s, ""]⟩ :=
    (push_fits Fits.empty hfirst).2.push_of_accepts
      ⟨show 2 ≤ limit by decide, by decide, Nat.le_of_eq htotal, by decide⟩
  have hfull (t : String) (ht : t.utf8ByteSize + 1 ≤ limit) :
      StringList.Refuses ⟨[s, ""]⟩ t .cumulativeSize := by
    refine .cumulativeSize (show 3 ≤ limit by decide) ht ?_
    rw [total_snoc, htotal]
    omega
  have hl : empty.offer push [s, "", ""] = ⟨[s, ""]⟩ := by
    have hthird := (push_fits (push_fits Fits.empty hfirst).2 hsecond).2.push_of_refuses
      (hfull "" (by decide))
    rw [offer_cons, hfirst, kept, offer_cons, hsecond, kept, offer_cons, hthird, kept, offer_nil]
  have hstrings : ∀ t ∈ [s, "", ""], t.utf8ByteSize < 2 ^ 63 := by
    simp [hsize]
  obtain ⟨-, hwords, -, herror, -, hcount, -, -, hbytes, -⟩ := limits_exact [s, "", ""] hstrings
  rw [hl] at hwords herror hcount hbytes ⊢
  refine ⟨rfl, hcount, hbytes.trans htotal, ?_, ?_⟩
  · rw [hwords "" (by decide)]
    exact (herror _ _).mpr (hfull "" (by decide))
  · rw [hwords "\x00" (by decide)]
    exact (herror _ _).mpr (hfull "\x00" (by decide))

end StringList

end Hostcall
