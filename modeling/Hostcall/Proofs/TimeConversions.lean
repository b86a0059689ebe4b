import Hostcall.Proofs.Timestamps

/-!
# Times as numbers and as words

Times are whole numbers of nanoseconds here.  The host keeps them as words, in seconds and in
nanoseconds, and so are the clocks sampled; a guest is told a word of nanoseconds.

* `Tells` is an answer in 64 bits to how much a number is;
* `sinceEpoch` is what there is to tell of a host time, and `timestamp_tells`, `asNanos_tells` and
  `Filestat.ofAttributes_eq_ok` say what is told of a time, of a clock and of a node;
* `TimeRequest.ReadsBack` is an update to a time that is told as it was asked for;
* `WordTime` is a host time in words, and `WordTime.told` and `ClockReading.wordNanos` are computed
  in machine words, which wrap; `time_conversions_exact` says that this is never noticed.
-/

namespace Hostcall

/-! ## Numbers told in 64 bits -/

/-- An answer in 64 bits to how much a number is: the number, or that it does not fit. -/
inductive Tells : Outcome UInt64 → Nat → Prop where
  | fits (w : UInt64) : Tells (.ok w) w.toNat
  | tooLarge {n : Nat} (h : UInt64.size ≤ n) : Tells (.error .overflow) n

namespace Tells

variable {o : Outcome UInt64} {n m : Nat} {w : UInt64}

theorem of_lt (h : n < UInt64.size) : Tells (.ok (UInt64.ofNat n)) n := by
  have hfits := Tells.fits (UInt64.ofNat n)
  rwa [UInt64.toNat_ofNat_of_lt' h] at hfits

theorem eq_of_ok (h : Tells (.ok w) n) : w.toNat = n := by
  cases h
  rfl

theorem eq_overflow {fault : Fault} (h : Tells (.error fault) n) : fault = .overflow := by
  cases h
  rfl

theorem exists_ok_iff (h : Tells o n) : (∃ w, o = .ok w) ↔ n < UInt64.size := by
  cases h with
  | fits w => exact ⟨fun _ => w.toNat_lt, fun _ => ⟨w, rfl⟩⟩
  | tooLarge hn => exact ⟨nofun, fun h => absurd h (Nat.not_lt.mpr hn)⟩

/-- There is one answer. -/
theorem unique {o' : Outcome UInt64} (h : Tells o n) (h' : Tells o' n) : o = o' := by
  cases h with
  | fits w =>
    obtain ⟨w', rfl⟩ := h'.exists_ok_iff.mpr w.toNat_lt
    rw [UInt64.toNat_inj.mp h'.eq_of_ok]
  | tooLarge hn =>
    cases h' with
    | fits w => exact absurd w.toNat_lt (Nat.not_lt.mpr hn)
    | tooLarge => rfl

end Tells

theorem tells_wordOf (n : Nat) : Tells (wordOf n) n := by
  rw [wordOf]
  split
  case isTrue h => exact .of_lt h
  case isFalse h => exact .tooLarge (Nat.le_of_not_lt h)

/-! ## What is told -/

/-- The nanoseconds from the epoch to a host time: none to a time before it, or to one that is
missing. -/
def sinceEpoch (t : Option HostTime) : Nat := (t.getD 0).toNat

theorem timestamp_tells (t : Option HostTime) : Tells (timestamp t) (sinceEpoch t) := by
  cases t with
  | none => exact .fits 0
  | some t =>
    show Tells (if t < 0 then .ok 0 else wordOf t.toNat) t.toNat
    split
    case isTrue hbefore =>
      rw [Int.toNat_of_nonpos (Int.le_of_lt hbefore)]
      exact .fits 0
    case isFalse => exact tells_wordOf _

/-- The later a time the more is told of it. -/
theorem timestamp_mono {s t : HostTime} (h : s ≤ t) {a b : UInt64}
    (hs : timestamp (some s) = .ok a) (ht : timestamp (some t) = .ok b) : a ≤ b := by
  have ha := timestamp_tells (some s)
  have hb := timestamp_tells (some t)
  rw [hs] at ha
  rw [ht] at hb
  rw [UInt64.le_iff_toNat_le, ha.eq_of_ok, hb.eq_of_ok]
  exact Int.toNat_le_toNat h

theorem ClockReading.asNanos_tells {r : ClockReading} (h : ¬ r.seconds < 0) :
    Tells r.asNanos (r.seconds.toInt.toNat * nanosPerSecond + r.nanoseconds.toNat) := by
  rw [asNanos, if_neg h]
  exact tells_wordOf _

theorem Filestat.ofAttributes_eq_ok {a : Attributes} {s : Filestat} :
    ofAttributes a = .ok s ↔
      timestamp a.accessed = .ok s.accessed ∧ timestamp a.modified = .ok s.modified ∧
        timestamp a.created = .ok s.created ∧
        s = ⟨a.device, a.inode, a.fileType, a.links, a.size, s.accessed, s.modified,
          s.created⟩ := by
  rw [ofAttributes]
  constructor
  · intro h
    split at h
    case h_1 haccessed hmodified hcreated =>
      cases h
      exact ⟨haccessed, hmodified, hcreated, rfl⟩
    all_goals cases h
  · rintro ⟨haccessed, hmodified, hcreated, hs⟩
    rw [haccessed, hmodified, hcreated]
    exact congrArg Except.ok hs.symm

/-- A guest is told of a node exactly if it can be told its three times. -/
theorem Filestat.exists_ofAttributes_iff {a : Attributes} :
    (∃ s, ofAttributes a = .ok s) ↔
      ∀ t ∈ [a.accessed, a.modified, a.created], sinceEpoch t < UInt64.size := by
  simp only [List.forall_mem_cons, List.not_mem_nil, false_imp_iff, implies_true, and_true,
    ← (timestamp_tells _).exists_ok_iff]
  constructor
  · rintro ⟨s, hs⟩
    obtain ⟨haccessed, hmodified, hcreated, -⟩ := ofAttributes_eq_ok.mp hs
    exact ⟨⟨_, haccessed⟩, ⟨_, hmodified⟩, ⟨_, hcreated⟩⟩
  · rintro ⟨⟨_, haccessed⟩, ⟨_, hmodified⟩, ⟨_, hcreated⟩⟩
    exact ⟨⟨_, _, _, _, _, _, _, _⟩,
      ofAttributes_eq_ok.mpr ⟨haccessed, hmodified, hcreated, rfl⟩⟩

/-- A time that does not fit is the only reason not to tell of a node. -/
theorem Filestat.eq_overflow_of_ofAttributes {a : Attributes} {fault : Fault}
    (h : ofAttributes a = .error fault) : fault = .overflow := by
  have htime : ∀ t, timestamp t = .error fault → fault = .overflow :=
    fun t ht => (ht ▸ timestamp_tells t).eq_overflow
  rw [ofAttributes] at h
  split at h
  case h_1 => cases h
  case h_2 haccessed =>
    cases h
    exact htime _ haccessed
  case h_3 hmodified _ =>
    cases h
    exact htime _ hmodified
  case h_4 hcreated _ _ =>
    cases h
    exact htime _ hcreated

/-! ## What is asked for -/

namespace TimeRequest

/-- An update that was asked for by a flag and a number of nanoseconds.  It sets a time exactly if
the flag says so, and that time is told as this number. -/
def ReadsBack (set : Bool) (ns : UInt64) : TimeUpdate → Prop
  | .absolute t => set = true ∧ timestamp (some t) = .ok ns
  | _ => set = false

theorem choice_readsBack (set : Bool) (ns : UInt64) (now : Bool) :
    ReadsBack set ns (choice set ns now) := by
  cases set with
  | false => cases now <;> rfl
  | true => exact ⟨rfl, timestamp_chosen true ns now 0 0⟩

theorem exists_updates_iff {r : TimeRequest} : (∃ u, r.updates = .ok u) ↔ ¬ r.Contradicts := by
  constructor
  · rintro ⟨u, hu⟩ h
    rw [updates_of_contradicts h] at hu
    cases hu
  · intro h
    obtain ⟨haccessed, hmodified⟩ := not_or.mp h
    rw [← Bool.and_eq_true, Bool.not_eq_true] at haccessed hmodified
    simp only [updates, update_eq, haccessed, hmodified]
    exact ⟨_, rfl⟩

end TimeRequest

/-! ## Machine words -/

/-- A host time as the host keeps it: seconds, and nanoseconds that do not reach a second. -/
structure WordTime where
  seconds : Int64
  nanoseconds : UInt32
  lt_second : nanoseconds.toNat < nanosPerSecond

namespace WordTime

/-- The time as a number. -/
def time (t : WordTime) : HostTime :=
  t.seconds.toInt * nanosPerSecond + t.nanoseconds.toNat

/-- The time so many nanoseconds after the epoch. -/
def ofNanos (ns : UInt64) : WordTime where
  seconds := (ns / 1000000000).toInt64
  nanoseconds := (ns % 1000000000).toUInt32
  lt_second := by
    rw [UInt64.toNat_toUInt32, UInt64.toNat_mod]
    exact Nat.lt_of_le_of_lt (Nat.mod_le _ _) (Nat.mod_lt _ (by decide))

/-- The nanoseconds from the epoch, counted in 128 bits.  The seconds are taken without a sign. -/
def nanos (t : WordTime) : BitVec 128 :=
  t.seconds.toBitVec.setWidth 128 * 1000000000 + t.nanoseconds.toBitVec.setWidth 128

/-- Tells the time to a guest. -/
def told (t : WordTime) : Outcome UInt64 :=
  if t.seconds < 0 then .ok 0
  else if t.nanos < 18446744073709551616 then .ok ⟨t.nanos.setWidth 64⟩
  else .error .overflow

/-- No second is lost, though the seconds of a host time have a sign. -/
theorem time_ofNanos (ns : UInt64) : (ofNanos ns).time = ns.toNat := by
  have hns := ns.toNat_lt
  have hquotient : (ns / 1000000000).toNat = ns.toNat / nanosPerSecond := UInt64.toNat_div _ _
  have hseconds : (ofNanos ns).seconds.toInt = (ns.toNat / nanosPerSecond : Nat) := by
    show (ns / 1000000000).toBitVec.toInt = _
    rw [BitVec.toInt_eq_toNat_of_lt, UInt64.toNat_toBitVec, hquotient]
    rw [UInt64.toNat_toBitVec, hquotient, nanosPerSecond]
    omega
  have hnanoseconds : (ofNanos ns).nanoseconds.toNat = ns.toNat % nanosPerSecond := by
    show (ns % 1000000000).toUInt32.toNat = _
    rw [UInt64.toNat_toUInt32, UInt64.toNat_mod]
    exact Nat.mod_eq_of_lt (Nat.lt_trans (Nat.mod_lt _ (by decide)) (by decide))
  rw [time, hseconds, hnanoseconds]
  exact_mod_cast Nat.div_add_mod' ns.toNat nanosPerSecond

/-- A time lies before the epoch as its seconds do. -/
theorem time_neg_iff {t : WordTime} : t.time < 0 ↔ t.seconds < 0 := by
  have hlt : t.nanoseconds.toNat < 1000000000 := t.lt_second
  rw [Int64.lt_iff_toInt_lt, Int64.toInt_zero]
  show t.seconds.toInt * 1000000000 + t.nanoseconds.toNat < 0 ↔ _
  omega

/-- Seconds without a sign are few enough for 128 bits. -/
theorem toNat_nanos {t : WordTime} (h : ¬ t.seconds < 0) : t.nanos.toNat = t.time.toNat := by
  have hseconds : (t.seconds.toBitVec.setWidth 128).toNat = t.seconds.toInt.toNat := by
    rw [BitVec.toNat_setWidth_of_le (by decide), Int64.toNat_toBitVec_of_le (Int64.not_lt.mp h)]
    rfl
  have hnanoseconds : (t.nanoseconds.toBitVec.setWidth 128).toNat = t.nanoseconds.toNat := by
    rw [BitVec.toNat_setWidth_of_le (by decide), UInt32.toNat_toBitVec]
  have hsecond : (1000000000 : BitVec 128).toNat = 1000000000 := rfl
  have hlarge := Int64.toInt_lt t.seconds
  have hsmall := t.nanoseconds.toNat_lt
  have hproduct : (t.seconds.toBitVec.setWidth 128 * 1000000000).toNat =
      t.seconds.toInt.toNat * 1000000000 := by
    rw [BitVec.toNat_mul_of_lt, hseconds, hsecond]
    rw [hseconds, hsecond]
    omega
  have hsum : t.nanos.toNat = t.seconds.toInt.toNat * 1000000000 + t.nanoseconds.toNat := by
    rw [nanos, BitVec.toNat_add_of_lt, hproduct, hnanoseconds]
    rw [hproduct, hnanoseconds]
    omega
  have hzero : 0 ≤ t.seconds.toInt := Int64.le_iff_toInt_le.mp (Int64.not_lt.mp h)
  rw [hsum]
  show _ = (t.seconds.toInt * 1000000000 + t.nanoseconds.toNat).toNat
  omega

theorem told_tells (t : WordTime) : Tells t.told t.time.toNat := by
  rw [told]
  split
  case isTrue hbefore =>
    rw [Int.toNat_of_nonpos (Int.le_of_lt (time_neg_iff.mpr hbefore))]
    exact .fits 0
  case isFalse hafter =>
    have hfits : t.nanos < 18446744073709551616 ↔ t.time.toNat < UInt64.size := by
      rw [BitVec.lt_def, toNat_nanos hafter]
      rfl
    split
    case isTrue h =>
      have hword := Tells.fits ⟨t.nanos.setWidth 64⟩
      rwa [UInt64.toNat_ofBitVec, BitVec.toNat_setWidth, toNat_nanos hafter,
        Nat.mod_eq_of_lt (hfits.mp h)] at hword
    case isFalse h => exact .tooLarge (Nat.not_lt.mp (hfits.not.mp h))

theorem told_eq (t : WordTime) : t.told = timestamp (some t.time) :=
  t.told_tells.unique (timestamp_tells (some t.time))

end WordTime

/-- The product of two words, if it is one.  A product that wrapped is smaller than it should be, so
that a division does not give the factor back. -/
def wordProduct (a b : UInt64) : Outcome UInt64 :=
  if a * b / b = a then .ok (a * b) else .error .overflow

/-- The sum of two words, if it is one. -/
def wordSum (a b : UInt64) : Outcome UInt64 :=
  if a + b < a then .error .overflow else .ok (a + b)

theorem wordProduct_tells {a b : UInt64} (hb : 0 < b.toNat) :
    Tells (wordProduct a b) (a.toNat * b.toNat) := by
  have hproduct : (a * b).toNat = a.toNat * b.toNat % UInt64.size := UInt64.toNat_mul a b
  have hback : a * b / b = a ↔ a.toNat * b.toNat < UInt64.size := by
    rw [← UInt64.toNat_inj, UInt64.toNat_div, hproduct]
    constructor
    · -- what wrapped is too small to give the factor back
      intro h
      by_contra hlarge
      have hwrapped : a.toNat * b.toNat % UInt64.size < a.toNat * b.toNat :=
        Nat.lt_of_lt_of_le (Nat.mod_lt _ (by decide)) (Nat.not_lt.mp hlarge)
      exact absurd h (Nat.ne_of_lt ((Nat.div_lt_iff_lt_mul hb).mpr hwrapped))
    · intro h
      rw [Nat.mod_eq_of_lt h, Nat.mul_div_cancel _ hb]
  rw [wordProduct]
  split
  case isTrue h =>
    rw [← Nat.mod_eq_of_lt (hback.mp h), ← hproduct]
    exact .fits _
  case isFalse h => exact .tooLarge (Nat.not_lt.mp (hback.not.mp h))

theorem wordSum_tells (a b : UInt64) : Tells (wordSum a b) (a.toNat + b.toNat) := by
  have hsum : (a + b).toNat = (a.toNat + b.toNat) % UInt64.size := UInt64.toNat_add a b
  have ha : a.toNat < UInt64.size := a.toNat_lt
  have hb : b.toNat < UInt64.size := b.toNat_lt
  have hwrapped : a + b < a ↔ UInt64.size ≤ a.toNat + b.toNat := by
    rw [UInt64.lt_iff_toNat_lt, hsum]
    rw [UInt64.size] at *
    omega
  rw [wordSum]
  split
  case isTrue h => exact .tooLarge (hwrapped.mp h)
  case isFalse h =>
    rw [← Nat.mod_eq_of_lt (Nat.not_le.mp (hwrapped.not.mp h)), ← hsum]
    exact .fits _

namespace ClockReading

/-- The reading as a guest timestamp, in words. -/
def wordNanos (r : ClockReading) : Outcome UInt64 :=
  if r.seconds < 0 then .error .overflow
  else wordProduct r.seconds.toUInt64 1000000000 >>= (wordSum · r.nanoseconds.toUInt64)

/-- Neither the product nor the carry into it is lost. -/
theorem wordNanos_eq (r : ClockReading) : r.wordNanos = r.asNanos := by
  by_cases hbefore : r.seconds < 0
  · rw [wordNanos, asNanos, if_pos hbefore, if_pos hbefore]
  · refine Tells.unique ?_ (asNanos_tells hbefore)
    have hproduct := @wordProduct_tells r.seconds.toUInt64 1000000000 (by decide)
    rw [Int64.toNat_toUInt64_of_le (Int64.not_lt.mp hbefore)] at hproduct
    rw [wordNanos, if_neg hbefore]
    cases hp : wordProduct r.seconds.toUInt64 1000000000 with
    | ok product =>
      rw [hp] at hproduct
      have hsum := wordSum_tells product r.nanoseconds.toUInt64
      rwa [hproduct.eq_of_ok, UInt32.toNat_toUInt64] at hsum
    | error =>
      -- what does not fit before the nanoseconds are added does not fit with them
      rw [hp] at hproduct
      cases hproduct with
      | tooLarge h => exact .tooLarge (Nat.le_trans h (Nat.le_add_right _ _))

end ClockReading

/-- No time is told wrong.  What a guest sets a time to is what it is told of this time; of any host
time it is told the nanoseconds since the epoch if they fit in 64 bits, and no more of an earlier
time; of a node it is told if its times fit; and a clock is told if what it shows does, however many
nanoseconds it shows.  Counting in machine words tells the same. -/
theorem time_conversions_exact :
    (∀ r : TimeRequest, ((∃ u, r.updates = .ok u) ↔ ¬ r.Contradicts) ∧ ∀ u, r.updates = .ok u →
      TimeRequest.ReadsBack (r.flags.contains TimeFlags.accessed) r.accessed u.accessed ∧
        TimeRequest.ReadsBack (r.flags.contains TimeFlags.modified) r.modified u.modified) ∧
    (∀ t, Tells (timestamp t) (sinceEpoch t)) ∧
    (∀ s t : HostTime, s ≤ t → ∀ a b, timestamp (some s) = .ok a → timestamp (some t) = .ok b →
      a ≤ b) ∧
    (∀ a, ((∃ s, Filestat.ofAttributes a = .ok s) ↔
        ∀ t ∈ [a.accessed, a.modified, a.created], sinceEpoch t < UInt64.size) ∧
      (∀ s, Filestat.ofAttributes a = .ok s →
        s.accessed.toNat = sinceEpoch a.accessed ∧ s.modified.toNat = sinceEpoch a.modified ∧
          s.created.toNat = sinceEpoch a.created) ∧
      ∀ fault, Filestat.ofAttributes a = .error fault → fault = .overflow) ∧
    (∀ r : ClockReading, if r.seconds < 0 then r.asNanos = .error .overflow
      else Tells r.asNanos (r.seconds.toInt.toNat * nanosPerSecond + r.nanoseconds.toNat)) ∧
    (∀ ns, (WordTime.ofNanos ns).time = ns.toNat ∧ (WordTime.ofNanos ns).told = .ok ns) ∧
    (∀ t : WordTime, t.told = timestamp (some t.time)) ∧
    ∀ r : ClockReading, r.wordNanos = r.asNanos := by
  refine ⟨fun r => ⟨TimeRequest.exists_updates_iff, fun u hu => ?_⟩, timestamp_tells,
    fun _ _ h _ _ => timestamp_mono h,
    fun a => ⟨Filestat.exists_ofAttributes_iff, fun s hs => ?_, fun _ =>
      Filestat.eq_overflow_of_ofAttributes⟩, fun r => ?_, fun ns => ⟨WordTime.time_ofNanos ns, ?_⟩,
    WordTime.told_eq, ClockReading.wordNanos_eq⟩
  · rw [TimeRequest.updates_eq_ok hu]
    exact ⟨TimeRequest.choice_readsBack _ _ _, TimeRequest.choice_readsBack _ _ _⟩
  · obtain ⟨haccessed, hmodified, hcreated, -⟩ := Filestat.ofAttributes_eq_ok.mp hs
    exact ⟨(haccessed ▸ timestamp_tells _).eq_of_ok, (hmodified ▸ timestamp_tells _).eq_of_ok,
      (hcreated ▸ timestamp_tells _).eq_of_ok⟩
  · split
    case isTrue hbefore => rw [ClockReading.asNanos, if_pos hbefore]
    case isFalse hbefore => exact ClockReading.asNanos_tells hbefore
  · rw [WordTime.told_eq, WordTime.time_ofNanos]
    exact TimeRequest.timestamp_chosen true ns false 0 0

/-- The last nanosecond that can be told, and the one after it.  The nanoseconds of the clock are
more than a second. -/
theorem time_conversions_exact_brim :
    TimeRequest.updates ⟨18446744073709551615, 0, TimeFlags.accessed⟩ =
        .ok ⟨.absolute 18446744073709551615, .unchanged⟩ ∧
      timestamp (some 18446744073709551615) = .ok 18446744073709551615 ∧
      ClockReading.wordNanos ⟨.realtime, 18446744072, 1709551615⟩ =
        .ok 18446744073709551615 ∧
      ClockReading.wordNanos ⟨.realtime, 18446744072, 1709551616⟩ = .error .overflow := by
  have hupdates : TimeRequest.updates ⟨18446744073709551615, 0, TimeFlags.accessed⟩ =
      .ok ⟨.absolute 18446744073709551615, .unchanged⟩ := rfl
  obtain ⟨hrequests, -, -, -, -, -, -, hclocks⟩ := time_conversions_exact
  refine ⟨hupdates, ((hrequests _).2 _ hupdates).1.2, ?_, ?_⟩
  · rw [hclocks]
    decide
  · rw [hclocks]
    decide

end Hostcall
