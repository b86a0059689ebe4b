import Hostcall.Random.Fill

/-!
# Random bytes chunk by chunk

A buffer is filled by one request after another, each for the next `maxFill` bytes or for what is
left, up to the first request that fails.

* `Watched` is a source with a record of the requests that were made to it;
* `Chunked` is what a guest relies on: which chunks were asked for, what became of each and of the
  bytes behind them, and how the fill ended;
* `Asked` follows the fill request by request, and `Asked.chunked` reads the rest off it;
* `fillBuffer_chunked` says so of every source that keeps the length of a slice, and of the bytes
  that a source makes whatever the slice held.
-/

namespace Hostcall

/-! ## Sources -/

/-- A request to a source: the slice as it was, how the request ended, and the slice afterwards. -/
structure FillRequest where
  before : Bytes
  outcome : Except String Unit
  after : Bytes

/-- A source with a record of the requests that were made to it. -/
structure Watched (σ : Type) where
  source : σ
  requests : List FillRequest

instance {σ : Type} [RandomSource σ] : RandomSource (Watched σ) where
  tryFill watched slice :=
    let filled := RandomSource.tryFill watched.source slice
    ⟨filled.outcome, filled.slice,
      ⟨filled.source, watched.requests ++ [⟨slice, filled.outcome, filled.slice⟩]⟩⟩

namespace RandomSource

/-- A slice that a source was given is as long as before. -/
def Sized (σ : Type) [RandomSource σ] : Prop :=
  ∀ (source : σ) slice, (tryFill source slice).slice.length = slice.length

/-- A source fills slices of one length with the same bytes, whatever they held. -/
def Overwrites (σ : Type) [RandomSource σ] : Prop :=
  ∀ (source : σ) slice slice', slice'.length = slice.length →
    (tryFill source slice').outcome = (tryFill source slice).outcome ∧
    (tryFill source slice').source = (tryFill source slice).source ∧
    ((tryFill source slice).outcome = .ok () →
      (tryFill source slice').slice = (tryFill source slice).slice)

end RandomSource

/-! ## Chunks -/

/-- A chunk of a buffer, by its number. -/
def chunkAt (buffer : Bytes) (i : Nat) : Bytes := (buffer.drop (i * maxFill)).take maxFill

/-- How long the chunks of a buffer are: whole ones, and one of what is left. -/
def chunkSizes (length : Nat) : List Nat :=
  List.replicate (length / maxFill) maxFill ++
    if length % maxFill = 0 then [] else [length % maxFill]

/-- What requests make of a buffer: each is for the next chunk of it, and the chunks behind the last
request are as they were.  A fill that succeeds has asked for every chunk and been refused none, and
one that fails ends with the only request that failed. -/
structure Chunked (buffer : Bytes) (requests : List FillRequest) (outcome : Outcome Unit)
    (after : Bytes) : Prop where
  length_after : after.length = buffer.length
  sizes : requests.map (·.before.length) = (chunkSizes buffer.length).take requests.length
  chunk : ∀ (i : Nat) r, requests[i]? = some r →
    r.before = chunkAt buffer i ∧ r.after = chunkAt after i
  rest : after.drop (requests.length * maxFill) = buffer.drop (requests.length * maxFill)
  filled : outcome = .ok () → requests.map (·.before.length) = chunkSizes buffer.length ∧
    (requests.map (·.after)).flatten = after ∧ ∀ r ∈ requests, r.outcome = .ok ()
  faulty : ∀ fault, outcome = .error fault →
    ∃ r ∈ requests, ∃ message, r.outcome = .error message
  failed : ∀ (k : Nat) r message, requests[k]? = some r → r.outcome = .error message →
    outcome = .error (sourceFailed message) ∧ (sourceFailed message).isTrap = true ∧
      requests.length = k + 1 ∧ ∀ r' ∈ requests.take k, r'.outcome = .ok ()

/-- A buffer filled by one request after another, up to the first that fails. -/
inductive Asked : Bytes → List FillRequest → Outcome Unit → Bytes → Prop where
  | nothing : Asked [] [] (.ok ()) []
  | failed {buffer after : Bytes} (hne : buffer ≠ []) (message : String)
      (hlength : after.length = (buffer.take maxFill).length) :
      Asked buffer [⟨buffer.take maxFill, .error message, after⟩] (.error (sourceFailed message))
        (after ++ buffer.drop maxFill)
  | filled {buffer after rest : Bytes} {requests : List FillRequest} {outcome : Outcome Unit}
      (hne : buffer ≠ []) (hlength : after.length = (buffer.take maxFill).length)
      (hrest : Asked (buffer.drop maxFill) requests outcome rest) :
      Asked buffer (⟨buffer.take maxFill, .ok (), after⟩ :: requests) outcome (after ++ rest)

theorem maxFill_pos : 0 < maxFill := by decide

theorem chunkSizes_zero : chunkSizes 0 = [] := by
  rw [chunkSizes, Nat.zero_div, Nat.zero_mod, if_pos rfl, List.replicate_zero, List.append_nil]

theorem chunkSizes_of_pos {n : Nat} (h : 0 < n) :
    chunkSizes n = min maxFill n :: chunkSizes (n - maxFill) := by
  rcases Nat.lt_or_ge n maxFill with hlt | hge
  · rw [Nat.sub_eq_zero_of_le (Nat.le_of_lt hlt), chunkSizes_zero, chunkSizes,
      Nat.div_eq_of_lt hlt, Nat.mod_eq_of_lt hlt, if_neg (Nat.ne_of_gt h),
      Nat.min_eq_right (Nat.le_of_lt hlt), List.replicate_zero, List.nil_append]
  · rw [chunkSizes, chunkSizes, Nat.div_eq_sub_div maxFill_pos hge, Nat.mod_eq_sub_mod hge,
      Nat.min_eq_left hge, List.replicate_succ, List.cons_append]

theorem chunkAt_zero (buffer : Bytes) : chunkAt buffer 0 = buffer.take maxFill := by
  rw [chunkAt, Nat.zero_mul, List.drop_zero]

theorem chunkAt_succ (buffer : Bytes) (i : Nat) :
    chunkAt buffer (i + 1) = chunkAt (buffer.drop maxFill) i := by
  rw [chunkAt, chunkAt, List.drop_drop, Nat.succ_mul, Nat.add_comm]

/-- A filled chunk and what stands behind it come apart where the chunk ends. -/
theorem append_of_chunk {buffer after rest : Bytes}
    (hlength : after.length = (buffer.take maxFill).length)
    (hrest : rest.length = (buffer.drop maxFill).length) :
    (after ++ rest).take maxFill = after ∧ (after ++ rest).drop maxFill = rest := by
  rw [List.length_take] at hlength
  rw [List.length_drop] at hrest
  rcases Nat.lt_or_ge buffer.length maxFill with hlt | hge
  · -- a short chunk is the last one
    have hnil : rest = [] := List.eq_nil_of_length_eq_zero (by omega)
    have hshort : after.length ≤ maxFill := by omega
    rw [hnil, List.append_nil, List.take_of_length_le hshort, List.drop_of_length_le hshort]
    exact ⟨rfl, rfl⟩
  · have hwhole : after.length = maxFill := by omega
    exact ⟨List.take_left' hwhole, List.drop_left' hwhole⟩

namespace Asked

variable {buffer after : Bytes} {requests : List FillRequest} {outcome : Outcome Unit}

theorem length_after (h : Asked buffer requests outcome after) :
    after.length = buffer.length := by
  induction h with
  | nothing => rfl
  | failed _ _ hlength =>
    rw [List.length_append, hlength, ← List.length_append, List.take_append_drop]
  | filled _ hlength _ ih =>
    rw [List.length_append, hlength, ih, ← List.length_append, List.take_append_drop]

theorem sizes (h : Asked buffer requests outcome after) :
    requests.map (·.before.length) = (chunkSizes buffer.length).take requests.length := by
  induction h with
  | nothing => rfl
  | failed hne message hlength =>
    rw [chunkSizes_of_pos (List.length_pos_iff.mpr hne)]
    simp only [List.map_cons, List.map_nil, List.length_cons, List.length_nil, List.length_take,
      List.take_succ_cons, List.take_zero]
  | filled hne hlength hrest ih =>
    rw [chunkSizes_of_pos (List.length_pos_iff.mpr hne), List.map_cons, List.length_cons,
      List.take_succ_cons, List.length_take, ih, List.length_drop]

theorem chunk (h : Asked buffer requests outcome after) (i : Nat) (r : FillRequest)
    (hr : requests[i]? = some r) : r.before = chunkAt buffer i ∧ r.after = chunkAt after i := by
  induction h generalizing i with
  | nothing => cases hr
  | failed hne message hlength =>
    cases i with
    | zero =>
      cases hr
      rw [chunkAt_zero, chunkAt_zero, (append_of_chunk hlength rfl).1]
      exact ⟨rfl, rfl⟩
    | succ i => cases hr
  | filled hne hlength hrest ih =>
    obtain ⟨htake, hdrop⟩ := append_of_chunk hlength hrest.length_after
    cases i with
    | zero =>
      cases hr
      rw [chunkAt_zero, chunkAt_zero, htake]
      exact ⟨rfl, rfl⟩
    | succ i =>
      rw [chunkAt_succ, chunkAt_succ, hdrop]
      exact ih i hr

theorem rest (h : Asked buffer requests outcome after) :
    after.drop (requests.length * maxFill) = buffer.drop (requests.length * maxFill) := by
  induction h with
  | nothing => rfl
  | failed hne message hlength =>
    rw [List.length_singleton, Nat.one_mul, (append_of_chunk hlength rfl).2]
  | filled hne hlength hrest ih =>
    rw [List.length_cons, Nat.succ_mul, Nat.add_comm, ← List.drop_drop, ← List.drop_drop,
      (append_of_chunk hlength hrest.length_after).2, ih]

theorem of_ok (h : Asked buffer requests outcome after) (hok : outcome = .ok ()) :
    requests.map (·.before.length) = chunkSizes buffer.length ∧
      (requests.map (·.after)).flatten = after ∧ ∀ r ∈ requests, r.outcome = .ok () := by
  induction h with
  | nothing => exact ⟨rfl, rfl, nofun⟩
  | failed => cases hok
  | filled hne hlength hrest ih =>
    obtain ⟨hsizes, hafter, hall⟩ := ih hok
    refine ⟨?_, ?_, ?_⟩
    · rw [chunkSizes_of_pos (List.length_pos_iff.mpr hne), List.map_cons, List.length_take, hsizes,
        List.length_drop]
    · rw [List.map_cons, List.flatten_cons, hafter]
    · exact List.forall_mem_cons.mpr ⟨rfl, hall⟩

theorem of_error (h : Asked buffer requests outcome after) (fault : Fault)
    (herror : outcome = .error fault) : ∃ r ∈ requests, ∃ message, r.outcome = .error message := by
  induction h with
  | nothing => cases herror
  | failed hne message => exact ⟨_, List.mem_singleton_self _, message, rfl⟩
  | filled hne hlength hrest ih =>
    obtain ⟨r, hr, hfailed⟩ := ih herror
    exact ⟨r, List.mem_cons_of_mem _ hr, hfailed⟩

theorem of_failed (h : Asked buffer requests outcome after) (k : Nat) (r : FillRequest)
    (message : String) (hr : requests[k]? = some r) (hfailed : r.outcome = .error message) :
    outcome = .error (sourceFailed message) ∧ (sourceFailed message).isTrap = true ∧
      requests.length = k + 1 ∧ ∀ r' ∈ requests.take k, r'.outcome = .ok () := by
  induction h generalizing k with
  | nothing => cases hr
  | failed =>
    cases k with
    | zero =>
      cases hr
      cases hfailed
      exact ⟨rfl, rfl, rfl, nofun⟩
    | succ k => cases hr
  | filled hne hlength hrest ih =>
    cases k with
    | zero =>
      cases hr
      cases hfailed
    | succ k =>
      obtain ⟨houtcome, htrap, hlast, hall⟩ := ih k hr
      exact ⟨houtcome, htrap, congrArg (· + 1) hlast, List.forall_mem_cons.mpr ⟨rfl, hall⟩⟩

theorem chunked (h : Asked buffer requests outcome after) :
    Chunked buffer requests outcome after :=
  ⟨h.length_after, h.sizes, h.chunk, h.rest, h.of_ok, h.of_error, h.of_failed⟩

end Asked

/-! ## Filling -/

section

variable {σ : Type} [RandomSource σ]

theorem fillBuffer_of_failed {source next : σ} {buffer slice : Bytes} {message : String}
    (hne : buffer ≠ [])
    (h : RandomSource.tryFill source (buffer.take maxFill) = ⟨.error message, slice, next⟩) :
    fillBuffer source buffer =
      (.error (sourceFailed message), slice ++ buffer.drop maxFill, next) := by
  cases buffer with
  | nil => exact absurd rfl hne
  | cons first later => rw [fillBuffer, h]

theorem fillBuffer_of_filled {source next : σ} {buffer slice : Bytes} (hne : buffer ≠ [])
    (h : RandomSource.tryFill source (buffer.take maxFill) = ⟨.ok (), slice, next⟩) :
    fillBuffer source buffer =
      ((fillBuffer next (buffer.drop maxFill)).1,
        slice ++ (fillBuffer next (buffer.drop maxFill)).2.1,
        (fillBuffer next (buffer.drop maxFill)).2.2) := by
  cases buffer with
  | nil => exact absurd rfl hne
  | cons first later => rw [fillBuffer, h]

/-- What holds of a fill holds of nothing, of a request that fails, and of a request before a
fill. -/
theorem fill_induction {motive : σ → Bytes → Prop} (nothing : ∀ source, motive source [])
    (failed : ∀ source next buffer slice message, buffer ≠ [] →
      RandomSource.tryFill source (buffer.take maxFill) = ⟨.error message, slice, next⟩ →
      motive source buffer)
    (filled : ∀ source next buffer slice, buffer ≠ [] →
      RandomSource.tryFill source (buffer.take maxFill) = ⟨.ok (), slice, next⟩ →
      motive next (buffer.drop maxFill) → motive source buffer)
    (source : σ) (buffer : Bytes) : motive source buffer := by
  fun_induction fillBuffer source buffer with
  | case1 source => exact nothing source
  | case2 source first later buffer given message hfailed =>
    refine failed source given.source buffer given.slice message (List.cons_ne_nil _ _) ?_
    rw [← hfailed]
  | case3 source first later buffer given hok outcome rest last hrest ih =>
    refine filled source given.source buffer given.slice (List.cons_ne_nil _ _) ?_ ih
    rw [← hok]

theorem tryFill_watched {source next : σ} {slice after : Bytes} {outcome : Except String Unit}
    (h : RandomSource.tryFill source slice = ⟨outcome, after, next⟩) (log : List FillRequest) :
    RandomSource.tryFill (⟨source, log⟩ : Watched σ) slice =
      ⟨outcome, after, ⟨next, log ++ [⟨slice, outcome, after⟩]⟩⟩ := by
  show Filled.mk _ _ _ = _
  rw [h]

theorem RandomSource.Sized.length_eq (hsized : RandomSource.Sized σ) {source next : σ}
    {slice after : Bytes} {outcome : Except String Unit}
    (h : RandomSource.tryFill source slice = ⟨outcome, after, next⟩) :
    after.length = slice.length := by
  have hlength := hsized source slice
  rwa [h] at hlength

theorem RandomSource.Overwrites.tryFill_take (h : RandomSource.Overwrites σ) {source next : σ}
    {buffer buffer' slice : Bytes} {outcome : Except String Unit}
    (hlength : buffer'.length = buffer.length)
    (hfill : RandomSource.tryFill source (buffer.take maxFill) = ⟨outcome, slice, next⟩) :
    ∃ slice', RandomSource.tryFill source (buffer'.take maxFill) = ⟨outcome, slice', next⟩ ∧
      (outcome = .ok () → slice' = slice) := by
  have hchunk : (buffer'.take maxFill).length = (buffer.take maxFill).length := by
    rw [List.length_take, List.length_take, hlength]
  have hsame := h source _ _ hchunk
  rw [hfill] at hsame
  rcases hfill' : RandomSource.tryFill source (buffer'.take maxFill) with ⟨outcome', slice', next'⟩
  rw [hfill'] at hsame
  obtain ⟨rfl, rfl, hslice⟩ := hsame
  exact ⟨slice', rfl, hslice⟩

/-- A watched source fills as the source does, and its record is how it was asked. -/
theorem fillBuffer_asked (hsized : RandomSource.Sized σ) (source : σ) (log : List FillRequest)
    (buffer : Bytes) :
    let filled := fillBuffer source buffer
    ∃ requests, fillBuffer (⟨source, log⟩ : Watched σ) buffer =
        (filled.1, filled.2.1, ⟨filled.2.2, log ++ requests⟩) ∧
      Asked buffer requests filled.1 filled.2.1 := by
  induction source, buffer using fill_induction generalizing log with
  | nothing source =>
    refine ⟨[], ?_, ?_⟩
    · rw [fillBuffer, fillBuffer, List.append_nil]
    · rw [fillBuffer]
      exact .nothing
  | failed source next buffer slice message hne h =>
    refine ⟨[⟨buffer.take maxFill, .error message, slice⟩], ?_, ?_⟩
    · rw [fillBuffer_of_failed hne h, fillBuffer_of_failed hne (tryFill_watched h log)]
    · rw [fillBuffer_of_failed hne h]
      exact .failed hne message (hsized.length_eq h)
  | filled source next buffer slice hne h ih =>
    obtain ⟨requests, hlater, hasked⟩ := ih (log ++ [⟨buffer.take maxFill, .ok (), slice⟩])
    refine ⟨⟨buffer.take maxFill, .ok (), slice⟩ :: requests, ?_, ?_⟩
    · rw [fillBuffer_of_filled hne h, fillBuffer_of_filled hne (tryFill_watched h log), hlater,
        List.append_assoc, List.singleton_append]
    · rw [fillBuffer_of_filled hne h]
      exact .filled hne (hsized.length_eq h) hasked

/-- What a source makes of buffers of one length does not depend on what they held. -/
theorem fillBuffer_overwrites (h : RandomSource.Overwrites σ) (source : σ) {buffer buffer' : Bytes}
    (hlength : buffer'.length = buffer.length) :
    (fillBuffer source buffer').1 = (fillBuffer source buffer).1 ∧
      (fillBuffer source buffer').2.2 = (fillBuffer source buffer).2.2 ∧
      ((fillBuffer source buffer).1 = .ok () →
        (fillBuffer source buffer').2.1 = (fillBuffer source buffer).2.1) := by
  induction source, buffer using fill_induction generalizing buffer' with
  | nothing source =>
    rw [List.eq_nil_of_length_eq_zero hlength]
    exact ⟨rfl, rfl, fun _ => rfl⟩
  | failed source next buffer slice message hne hfill =>
    have hne' : buffer' ≠ [] := List.length_pos_iff.mp (hlength ▸ List.length_pos_iff.mpr hne)
    obtain ⟨slice', hfill', -⟩ := h.tryFill_take hlength hfill
    rw [fillBuffer_of_failed hne hfill, fillBuffer_of_failed hne' hfill']
    exact ⟨rfl, rfl, nofun⟩
  | filled source next buffer slice hne hfill ih =>
    have hne' : buffer' ≠ [] := List.length_pos_iff.mp (hlength ▸ List.length_pos_iff.mpr hne)
    have hbehind : (buffer'.drop maxFill).length = (buffer.drop maxFill).length := by
      rw [List.length_drop, List.length_drop, hlength]
    obtain ⟨slice', hfill', hslice⟩ := h.tryFill_take hlength hfill
    obtain ⟨houtcome, hsource, hbytes⟩ := ih hbehind
    rw [fillBuffer_of_filled hne hfill, fillBuffer_of_filled hne' hfill',
      hslice rfl]
    exact ⟨houtcome, hsource, fun hok => congrArg (slice ++ ·) (hbytes hok)⟩

/-- So many random bytes are what any buffer of that length is filled with. -/
theorem fillRandom_eq (h : RandomSource.Overwrites σ) (source : σ) (buffer : Bytes) :
    fillRandom source buffer.length =
      ((fillBuffer source buffer).1.map fun _ => (fillBuffer source buffer).2.1,
        (fillBuffer source buffer).2.2) := by
  -- the zeros that random bytes are made from are one buffer of that length
  obtain ⟨houtcome, hsource, hbytes⟩ := fillBuffer_overwrites h source
    (List.length_replicate : (List.replicate buffer.length (0 : UInt8)).length = buffer.length)
  rw [fillRandom]
  rcases hzeros : fillBuffer source (List.replicate buffer.length 0) with ⟨_ | _, bytes, last⟩
  · rw [hzeros] at houtcome hsource
    rw [← houtcome, ← hsource]
    rfl
  · rw [hzeros] at houtcome hsource hbytes
    rw [← houtcome, ← hsource, ← hbytes houtcome.symm]
    rfl

theorem length_fillRandom (hsized : RandomSource.Sized σ) (source : σ) {n : Nat} {bytes : Bytes}
    (h : (fillRandom source n).1 = .ok bytes) : bytes.length = n := by
  obtain ⟨requests, -, hasked⟩ := fillBuffer_asked hsized source [] (List.replicate n 0)
  have hlength := hasked.length_after
  rw [List.length_replicate] at hlength
  rw [fillRandom] at h
  split at h
  case h_1 hfill =>
    cases h
    rw [hfill] at hlength
    exact hlength
  case h_2 => cases h

/-- A buffer is filled chunk by chunk, whatever source fills it, and fails with the first request
that does.  The bytes of a source that writes over what it is given do not depend on what the
buffer held, and so many random bytes are just these. -/
theorem fillBuffer_chunked (hsized : RandomSource.Sized σ) (source : σ) (buffer : Bytes) :
    let filled := fillBuffer source buffer
    (∃ requests, fillBuffer (⟨source, []⟩ : Watched σ) buffer =
        (filled.1, filled.2.1, ⟨filled.2.2, requests⟩) ∧
      Chunked buffer requests filled.1 filled.2.1) ∧
    (∀ n bytes, (fillRandom source n).1 = .ok bytes → bytes.length = n) ∧
    (RandomSource.Overwrites σ →
      fillRandom source buffer.length = (filled.1.map fun _ => filled.2.1, filled.2.2)) := by
  intro filled
  obtain ⟨requests, hwatched, hasked⟩ := fillBuffer_asked hsized source [] buffer
  exact ⟨⟨requests, hwatched, hasked.chunked⟩, fun _ _ => length_fillRandom hsized source,
    fun h => fillRandom_eq h source buffer⟩

end

/-! ## Sources that number their slices -/

theorem sized_numberedSource : RandomSource.Sized NumberedSource := by
  intro source slice
  dsimp only [RandomSource.tryFill]
  split
  · rfl
  · exact List.length_replicate

theorem overwrites_numberedSource : RandomSource.Overwrites NumberedSource := by
  intro source slice slice' hlength
  dsimp only [RandomSource.tryFill]
  rw [hlength]
  split
  · exact ⟨rfl, rfl, nofun⟩
  · exact ⟨rfl, rfl, fun _ => rfl⟩

theorem tryFill_numbered_of_ne {source : NumberedSource} {slice : Bytes}
    (h : source.failAt ≠ some (source.requests ++ [slice.length]).length) :
    RandomSource.tryFill source slice =
      ⟨.ok (), List.replicate slice.length
          (UInt8.ofNat (source.requests ++ [slice.length]).length),
        { source with requests := source.requests ++ [slice.length] }⟩ := by
  dsimp only [RandomSource.tryFill]
  rw [if_neg h]

theorem tryFill_numbered_of_eq {source : NumberedSource} {slice : Bytes}
    (h : source.failAt = some (source.requests ++ [slice.length]).length) :
    RandomSource.tryFill source slice =
      ⟨.error source.message, slice,
        { source with requests := source.requests ++ [slice.length] }⟩ := by
  dsimp only [RandomSource.tryFill]
  rw [if_pos h]

/-- Two chunks and one byte, of a source that fails when it is asked for the second: the first chunk
is filled, the second and the last byte are as they were. -/
theorem fillBuffer_chunked_failing :
    let source : NumberedSource := ⟨[], some 2, "no entropy"⟩
    let filled := fillBuffer source (List.replicate 131073 170)
    RandomSource.Sized NumberedSource ∧ RandomSource.Overwrites NumberedSource ∧
      filled = (.error (sourceFailed "no entropy"),
        List.replicate 65536 1 ++ List.replicate 65537 170,
        ⟨[65536, 65536], some 2, "no entropy"⟩) ∧
      (∃ requests, Chunked (List.replicate 131073 170) requests filled.1 filled.2.1) ∧
      fillRandom source 131073 = (.error (sourceFailed "no entropy"),
        ⟨[65536, 65536], some 2, "no entropy"⟩) := by
  intro source filled
  have hne (n : Nat) (hn : 0 < n) : List.replicate n (170 : UInt8) ≠ [] := by
    rw [ne_eq, List.replicate_eq_nil_iff]
    exact Nat.ne_of_gt hn
  have htake (n : Nat) (hn : maxFill ≤ n) :
      (List.replicate n (170 : UInt8)).take maxFill = List.replicate maxFill 170 := by
    rw [List.take_replicate, Nat.min_eq_left hn]
  have hfirst : RandomSource.tryFill source ((List.replicate 131073 170).take maxFill) =
      ⟨.ok (), List.replicate maxFill 1, ⟨[maxFill], some 2, "no entropy"⟩⟩ := by
    rw [htake _ (by decide), tryFill_numbered_of_ne (by decide), List.length_replicate]
    rfl
  have hbehind : (List.replicate 131073 (170 : UInt8)).drop maxFill = List.replicate 65537 170 :=
    List.drop_replicate
  have hsecond : RandomSource.tryFill (⟨[maxFill], some 2, "no entropy"⟩ : NumberedSource)
      ((List.replicate 65537 170).take maxFill) =
      ⟨.error "no entropy", List.replicate maxFill 170,
        ⟨[maxFill, maxFill], some 2, "no entropy"⟩⟩ := by
    rw [htake _ (by decide), tryFill_numbered_of_eq (by decide), List.length_replicate]
    rfl
  have hfilled : filled = (.error (sourceFailed "no entropy"),
      List.replicate maxFill 1 ++ List.replicate 65537 170,
      ⟨[maxFill, maxFill], some 2, "no entropy"⟩) := by
    rw [show filled = fillBuffer source (List.replicate 131073 170) from rfl,
      fillBuffer_of_filled (hne _ (by decide)) hfirst, hbehind,
      fillBuffer_of_failed (hne _ (by decide)) hsecond, List.drop_replicate,
      List.replicate_append_replicate]
    rfl
  obtain ⟨⟨requests, -, hchunked⟩, -, hrandom⟩ :=
    fillBuffer_chunked sized_numberedSource source (List.replicate 131073 170)
  have hsame := hrandom overwrites_numberedSource
  rw [List.length_replicate] at hsame
  exact ⟨sized_numberedSource, overwrites_numberedSource, hfilled, ⟨requests, hchunked⟩, by
    rw [hsame, show fillBuffer source (List.replicate 131073 170) = filled from rfl, hfilled]
    rfl⟩

end Hostcall
