import Hostcall.Bytes

/-!
# Replayed random streams

The stream of a seeded generator.  A 64-bit seed is stretched by a linear
congruential generator to the 256-bit key of ChaCha with twelve rounds, a zero
nonce and a 64-bit block counter from zero.  A request for bytes takes whole words
of the key stream and drops what is left of its last word.

* `KeyStream.ofSeed` is the stream of a seed;
* `KeyStream.block` is one block of sixteen words, `KeyStream.words` any run of them;
* `KeyStream.take` answers a request.
-/

namespace Hostcall

/-- A place in the key stream of a key, counted in words. -/
structure KeyStream where
  key : List UInt32
  position : Nat
  deriving DecidableEq, Repr, Inhabited

namespace KeyStream

/-! ## The key of a seed -/

/-- Turns a word right by a number of bits below 32. -/
def rotateRight (x : UInt32) (n : UInt32) : UInt32 :=
  if n = 0 then x else (x >>> n) ||| (x <<< (32 - n))

/-- The next state of the seed's generator. -/
def advance (state : UInt64) : UInt64 := state * 6364136223846793005 + 11634580027462260723

/-- The word a state of the seed's generator shows. -/
def output (state : UInt64) : UInt32 :=
  rotateRight (((state >>> 18) ^^^ state) >>> 27).toUInt32 (state >>> 59).toUInt32

/-- The words the seed's generator shows after each of its next steps. -/
def seedWords : Nat → UInt64 → List UInt32
  | 0, _ => []
  | n + 1, state =>
    let next := advance state
    output next :: seedWords n next

/-- The stream of a seed, at its start. -/
def ofSeed (seed : UInt64) : KeyStream := ⟨seedWords 8 seed, 0⟩

/-! ## Blocks -/

/-- Turns a word left by a number of bits between 1 and 31. -/
def rotateLeft (x : UInt32) (n : UInt32) : UInt32 := (x <<< n) ||| (x >>> (32 - n))

/-- Mixes four words of a state. -/
def quarterRound (s : Vector UInt32 16) (a b c d : Fin 16) : Vector UInt32 16 :=
  let s := s.set a (s[a] + s[b])
  let s := s.set d (rotateLeft (s[d] ^^^ s[a]) 16)
  let s := s.set c (s[c] + s[d])
  let s := s.set b (rotateLeft (s[b] ^^^ s[c]) 12)
  let s := s.set a (s[a] + s[b])
  let s := s.set d (rotateLeft (s[d] ^^^ s[a]) 8)
  let s := s.set c (s[c] + s[d])
  s.set b (rotateLeft (s[b] ^^^ s[c]) 7)

/-- One round over the columns of a state and one over its diagonals. -/
def doubleRound (s : Vector UInt32 16) : Vector UInt32 16 :=
  let s := quarterRound s 0 4 8 12
  let s := quarterRound s 1 5 9 13
  let s := quarterRound s 2 6 10 14
  let s := quarterRound s 3 7 11 15
  let s := quarterRound s 0 5 10 15
  let s := quarterRound s 1 6 11 12
  let s := quarterRound s 2 7 8 13
  quarterRound s 3 4 9 14

/-- The words every state starts with. -/
def constants : List UInt32 := [0x61707865, 0x3320646e, 0x79622d32, 0x6b206574]

/-- The state of a block before its rounds: constants, key, counter, nonce. -/
def initial (key : List UInt32) (counter : Nat) : Vector UInt32 16 :=
  let words := constants ++ key ++
    [UInt32.ofNat counter, UInt32.ofNat (counter / 4294967296), 0, 0]
  Vector.ofFn fun i => words.getD i 0

/-- One block of the stream of a key. -/
def block (key : List UInt32) (counter : Nat) : List UInt32 :=
  let start := initial key counter
  let mixed := Nat.repeat doubleRound 6 start
  (Vector.zipWith (· + ·) mixed start).toList

/-- A run of words from a word position of the stream of a key. -/
def words (key : List UInt32) (position count : Nat) : List UInt32 :=
  let skip := position % 16
  let blocks := (List.range ((skip + count + 15) / 16)).flatMap fun i =>
    block key (position / 16 + i)
  (blocks.drop skip).take count

/-! ## Requests -/

/-- How many words a request for bytes takes. -/
def wordsFor (count : Nat) : Nat := (count + 3) / 4

/-- Answers a request for bytes and moves past the words it took. -/
def take (stream : KeyStream) (count : Nat) : Bytes × KeyStream :=
  let taken := words stream.key stream.position (wordsFor count)
  ((taken.flatMap fun w => littleEndian 4 w.toNat).take count,
    { stream with position := stream.position + wordsFor count })

end KeyStream

end Hostcall
