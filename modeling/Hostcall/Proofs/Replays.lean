import Hostcall.Proofs.Chunks
import Hostcall.Proofs.ReadBack

/-!
# Replayed streams and their chunks

A request for bytes drops what is left of its last word, so a stream that is asked twice need not
show the bytes of one longer request.  It does where the first request ends with a word, and every
chunk but the last one does.

* `KeyStream.wordAt` is a word by its place, of which `KeyStream.words` is a run;
* `KeyStream.take_add` cuts a request in two, and `KeyStream.fillBuffer_eq` puts the chunks of a
  fill together;
* `World.Event` is what may happen to a guest, of which `World.through_random` keeps the position of
  the stream;
* `World.replays_unchunked` says of every seed and all that happened before what a guest is given.
-/

namespace Hostcall

namespace KeyStream

/-! ## Words -/

/-- The word at a place of the stream of a key. -/
def wordAt (key : List UInt32) (i : Nat) : UInt32 := (block key (i / 16)).getD (i % 16) 0

theorem length_block (key : List UInt32) (counter : Nat) : (block key counter).length = 16 := by
  rw [block]
  exact Vector.length_toList

theorem block_eq (key : List UInt32) (counter : Nat) :
    block key counter = (List.range 16).map fun j => wordAt key (16 * counter + j) := by
  refine List.ext_getElem ?_ fun j hj _ => ?_
  · rw [length_block, List.length_map, List.length_range]
  · rw [length_block] at hj
    rw [List.getElem_map, List.getElem_range, wordAt, Nat.mul_add_div (by decide),
      Nat.div_eq_of_lt hj, Nat.add_zero, Nat.mul_add_mod, Nat.mod_eq_of_lt hj,
      List.getD_eq_getElem?_getD, List.getElem?_eq_getElem, Option.getD_some]

theorem blocks_eq (key : List UInt32) (counter count : Nat) :
    ((List.range count).flatMap fun i => block key (counter + i)) =
      (List.range (16 * count)).map fun j => wordAt key (16 * counter + j) := by
  induction count with
  | zero => rfl
  | succ count ih =>
    rw [List.range_succ, List.flatMap_append, ih, Nat.mul_succ, List.range_add, List.map_append,
      List.flatMap_singleton, block_eq, List.map_map]
    refine congrArg _ (List.map_congr_left fun j _ => ?_)
    rw [Function.comp, Nat.mul_add, Nat.add_assoc]

/-- A run of words is one word after another, whatever blocks they come from. -/
theorem words_eq (key : List UInt32) (position count : Nat) :
    words key position count = (List.range count).map fun j => wordAt key (position + j) := by
  rw [words, blocks_eq]
  refine List.ext_getElem? fun j => ?_
  rw [List.getElem?_take, List.getElem?_drop, List.getElem?_map, List.getElem?_map]
  by_cases hj : j < count
  · -- the blocks reach as far as the run does
    have hlast : position % 16 + j < 16 * ((position % 16 + count + 15) / 16) := by omega
    rw [if_pos hj, List.getElem?_range hlast, List.getElem?_range hj, Option.map_some,
      Option.map_some, ← Nat.add_assoc, Nat.div_add_mod]
  · have hnone : (List.range count)[j]? = none := by
      rw [List.getElem?_eq_none_iff, List.length_range]
      exact Nat.le_of_not_lt hj
    rw [if_neg hj, hnone, Option.map_none]

theorem length_words (key : List UInt32) (position count : Nat) :
    (words key position count).length = count := by
  rw [words_eq, List.length_map, List.length_range]

theorem words_add (key : List UInt32) (position a b : Nat) :
    words key position (a + b) = words key position a ++ words key (position + a) b := by
  rw [words_eq, words_eq, words_eq, List.range_add, List.map_append, List.map_map]
  refine congrArg _ (List.map_congr_left fun j _ => ?_)
  rw [Function.comp, Nat.add_assoc]

/-! ## Requests -/

theorem wordsFor_add {a : Nat} (ha : a % 4 = 0) (b : Nat) :
    wordsFor (a + b) = wordsFor a + wordsFor b := by
  rw [wordsFor, wordsFor, wordsFor]
  omega

/-- The bytes of a run of words, lowest first. -/
theorem length_bytesOf (words : List UInt32) :
    (words.flatMap fun w => littleEndian 4 w.toNat).length = 4 * words.length := by
  induction words with
  | nil => rfl
  | cons w rest ih =>
    rw [List.flatMap_cons, List.length_append, ih, length_littleEndian, List.length_cons]
    omega

theorem take_zero (stream : KeyStream) : stream.take 0 = ([], stream) := rfl

theorem length_take (stream : KeyStream) (count : Nat) : (stream.take count).1.length = count := by
  rw [take, List.length_take, length_bytesOf, length_words, wordsFor]
  omega

/-- A request that ends with a word and the one behind it are one request. -/
theorem take_add (stream : KeyStream) {a : Nat} (ha : a % 4 = 0) (b : Nat) :
    stream.take (a + b) =
      ((stream.take a).1 ++ ((stream.take a).2.take b).1, ((stream.take a).2.take b).2) := by
  -- no byte of the words of the first request is dropped
  have hwhole : ((words stream.key stream.position (wordsFor a)).flatMap
      fun w => littleEndian 4 w.toNat).length = a := by
    rw [length_bytesOf, length_words, wordsFor]
    omega
  rw [take, take, take, wordsFor_add ha, words_add, List.flatMap_append,
    List.take_of_length_le (Nat.le_of_eq hwhole), ← Nat.add_assoc]
  refine congrArg (·, _) ?_
  rw [List.take_append, hwhole, Nat.add_sub_cancel_left, List.take_of_length_le (by omega)]

/-! ## Fills -/

theorem maxFill_mod : maxFill % 4 = 0 := by decide

theorem tryFill_eq (stream : KeyStream) (slice : Bytes) :
    RandomSource.tryFill stream slice =
      ⟨.ok (), (stream.take slice.length).1, (stream.take slice.length).2⟩ := rfl

/-- A fill is one request for the whole buffer. -/
theorem fillBuffer_eq (stream : KeyStream) (buffer : Bytes) :
    fillBuffer stream buffer =
      (.ok (), (stream.take buffer.length).1, (stream.take buffer.length).2) := by
  induction stream, buffer using fill_induction with
  | nothing stream => rw [fillBuffer, List.length_nil, take_zero]
  | failed stream next buffer slice message hne hfill => cases hfill
  | filled stream next buffer slice hne hfill ih =>
    rw [fillBuffer_of_filled hne hfill, ih]
    obtain ⟨-, rfl, rfl⟩ := Filled.mk.inj ((tryFill_eq stream _).symm.trans hfill)
    rcases Nat.lt_or_ge buffer.length maxFill with hlt | hge
    · rw [List.drop_of_length_le (Nat.le_of_lt hlt), List.take_of_length_le (Nat.le_of_lt hlt),
        List.length_nil, take_zero, List.append_nil]
    · -- the chunk is a whole one, so it ends with a word
      have hcut : buffer.length = maxFill + (buffer.length - maxFill) := by omega
      rw [List.length_take, Nat.min_eq_left hge, List.length_drop]
      conv => rhs; rw [hcut, take_add stream maxFill_mod]

/-- A fill that ends with a word and the one behind it are one fill. -/
theorem fillBuffer_add (stream : KeyStream) {first second both : Bytes}
    (hwords : first.length % 4 = 0) (hboth : both.length = first.length + second.length) :
    fillBuffer stream both = (.ok (),
      (fillBuffer stream first).2.1 ++ (fillBuffer (fillBuffer stream first).2.2 second).2.1,
      (fillBuffer (fillBuffer stream first).2.2 second).2.2) := by
  rw [fillBuffer_eq, fillBuffer_eq, fillBuffer_eq, hboth, take_add stream hwords]

/-- So many random bytes are one request for them. -/
theorem fillRandom_eq (stream : KeyStream) (count : Nat) :
    fillRandom stream count = (.ok (stream.take count).1, (stream.take count).2) := by
  rw [fillRandom, fillBuffer_eq, List.length_replicate]

end KeyStream

namespace World

/-! ## What happens to a guest -/

/-- What may happen to a guest: its builder is asked for something, it calls, or the program that
runs it takes so many random bytes itself. -/
inductive Event where
  | setting (s : Setting)
  | call (c : Call)
  | draw (count : Nat)

/-- How many random bytes an event takes. -/
def Event.drawn : Event → Nat
  | .call (.randomGet buffer) => buffer.length
  | .draw count => count
  | _ => 0

/-- What an event makes of a guest. -/
def meet (w : World) : Event → World
  | .setting s => (w.configure s).2
  | .call c => (w.call c).2
  | .draw count => (w.fillRandom count).2

/-- What events make of a guest, one after another. -/
def through (w : World) (events : List Event) : World := events.foldl meet w

/-- The world with another stream of random bytes. -/
def withRandom (w : World) (random : KeyStream) : World :=
  { w with context := { w.context with random } }

theorem randomGet_eq (w : World) (buffer : Bytes) :
    w.randomGet buffer = (.ok (), (w.context.random.take buffer.length).1,
      w.withRandom (w.context.random.take buffer.length).2) := by
  rw [randomGet, KeyStream.fillBuffer_eq]
  rfl

theorem randomGet_add (w : World) {first second both : Bytes} (hwords : first.length % 4 = 0)
    (hboth : both.length = first.length + second.length) :
    w.randomGet both = (.ok (),
      (w.randomGet first).2.1 ++ ((w.randomGet first).2.2.randomGet second).2.1,
      ((w.randomGet first).2.2.randomGet second).2.2) := by
  rw [randomGet_eq, randomGet_eq, randomGet_eq, hboth, KeyStream.take_add _ hwords]
  rfl

theorem fillRandom_eq (w : World) (count : Nat) :
    w.fillRandom count = (.ok (w.context.random.take count).1,
      w.withRandom (w.context.random.take count).2) := by
  rw [fillRandom, KeyStream.fillRandom_eq]
  rfl

theorem drawn_call {c : Call} (hc : ∀ buffer, c ≠ .randomGet buffer) :
    (Event.call c).drawn = 0 := by
  cases c with
  | randomGet buffer => exact absurd rfl (hc buffer)
  | _ => rfl

theorem configure_random (w : World) (s : Setting) :
    (w.configure s).2.context.random = w.context.random := by
  have hconfigured := w.configure_configured s
  generalize (w.configure s).2 = w' at hconfigured
  cases hconfigured <;> rfl

theorem call_random (w : World) {c : Call} (hc : ∀ buffer, c ≠ .randomGet buffer) :
    (w.call c).2.context.random = w.context.random := by
  have hsame := SameButTable.call w hc
  rw [SameButTable] at hsame
  rw [hsame]

/-- An event moves the stream past what it takes. -/
theorem meet_random (w : World) (e : Event) :
    (w.meet e).context.random = (w.context.random.take e.drawn).2 := by
  cases e with
  | setting s =>
    rw [show (Event.setting s).drawn = 0 from rfl, KeyStream.take_zero]
    exact w.configure_random s
  | call c =>
    by_cases hc : ∃ buffer, c = .randomGet buffer
    · obtain ⟨buffer, rfl⟩ := hc
      rw [meet, call, randomGet_eq]
      rfl
    · have hother : ∀ buffer, c ≠ .randomGet buffer := fun buffer h => hc ⟨buffer, h⟩
      rw [drawn_call hother, KeyStream.take_zero]
      exact w.call_random hother
  | draw count =>
    rw [meet, fillRandom_eq]
    rfl

theorem through_random (w : World) (events : List Event) :
    (w.through events).context.random =
      ⟨w.context.random.key, w.context.random.position +
        totalSize (events.map fun e => KeyStream.wordsFor e.drawn)⟩ := by
  induction events generalizing w with
  | nil => rfl
  | cons e rest ih =>
    rw [through, List.foldl_cons, ← through, ih, meet_random, List.map_cons, totalSize_cons,
      ← Nat.add_assoc]
    rfl

/-- Whatever happened before to a guest whose random bytes replay a seed, the chunks of a fill do
not show: it is one request for the whole buffer, which leaves the stream where such a request
leaves it.  Two fills are one for both buffers if the first ends with a word. -/
theorem replays_unchunked (host : Host) (seed : UInt64) (history : List Event) :
    let w := (fresh host (.ofSeed seed)).through history
    let stream := w.context.random
    stream = ⟨(KeyStream.ofSeed seed).key,
      totalSize (history.map fun e => KeyStream.wordsFor e.drawn)⟩ ∧
    (∀ buffer,
      let once := RandomSource.tryFill stream buffer
      once.slice.length = buffer.length ∧
      fillBuffer stream buffer = (.ok (), once.slice, once.source) ∧
      Hostcall.fillRandom stream buffer.length = (.ok once.slice, once.source) ∧
      w.randomGet buffer = (.ok (), once.slice, w.withRandom once.source) ∧
      w.fillRandom buffer.length = (.ok once.slice, w.withRandom once.source)) ∧
    ∀ first second both, first.length % 4 = 0 → both.length = first.length + second.length →
      (let one := fillBuffer stream first
        let two := fillBuffer one.2.2 second
        fillBuffer stream both = (.ok (), one.2.1 ++ two.2.1, two.2.2)) ∧
      (let one := w.randomGet first
        let two := one.2.2.randomGet second
        w.randomGet both = (.ok (), one.2.1 ++ two.2.1, two.2.2)) := by
  intro w stream
  have hstart : (fresh host (.ofSeed seed)).context.random = .ofSeed seed := rfl
  refine ⟨?_, fun buffer => ?_, fun first second both hwords hboth => ?_⟩
  · rw [show stream = w.context.random from rfl, through_random, hstart]
    exact congrArg _ (Nat.zero_add _)
  · exact ⟨stream.length_take _, stream.fillBuffer_eq buffer, stream.fillRandom_eq _,
      w.randomGet_eq buffer, w.fillRandom_eq _⟩
  · exact ⟨stream.fillBuffer_add hwords hboth, w.randomGet_add hwords hboth⟩

/-- Three bytes and one more have taken a word each, and the seven bytes behind them may be asked
for at once or in two parts, the first of four. -/
theorem replays_unchunked_seven :
    let w := (fresh default (.ofSeed 7)).through [.draw 3, .call (.fdClose 0),
      .call (.randomGet [170])]
    let one := w.randomGet [0, 0, 0, 0]
    let two := one.2.2.randomGet [0, 0, 0]
    w.context.random.position = 2 ∧ ([0, 0, 0, 0] : Bytes).length % 4 = 0 ∧
      w.randomGet [1, 2, 3, 4, 5, 6, 7] = (.ok (), one.2.1 ++ two.2.1, two.2.2) := by
  intro w one two
  obtain ⟨hstream, -, hcut⟩ := replays_unchunked default 7
    [.draw 3, .call (.fdClose 0), .call (.randomGet [170])]
  exact ⟨congrArg KeyStream.position hstream, rfl,
    (hcut [0, 0, 0, 0] [0, 0, 0] [1, 2, 3, 4, 5, 6, 7] rfl rfl).2⟩

end World

end Hostcall
