/-!
# A stream of random words

The words come from the ChaCha block function with twelve rounds. A key of eight
words and a block number are spread over sixteen words, which are stirred by
twelve rounds and added to what they were; these are the sixteen words of that
block. A stream is nothing but a key: its words are found by their position.
-/

namespace ByteMachine.Random

/-- Eight words that determine a stream. -/
abbrev Key := Vector UInt32 8

/-- The key whose words are all zero. -/
instance (priority := 2000) : OfNat Key 0 := ⟨Vector.replicate 8 0⟩

/-- The sixteen words that the block function works on. -/
abbrev Block := Vector UInt32 16

/-- Rotates a word to the left by fewer than 32 places. -/
def rotateLeft (x : UInt32) (places : UInt32) : UInt32 :=
  (x <<< places) ||| (x >>> (32 - places))

/-- Stirs four words of a block. -/
def quarterRound (s : Block) (a b c d : Fin 16) : Block :=
  let s := s.set a (s[a] + s[b])
  let s := s.set d (rotateLeft (s[d] ^^^ s[a]) 16)
  let s := s.set c (s[c] + s[d])
  let s := s.set b (rotateLeft (s[b] ^^^ s[c]) 12)
  let s := s.set a (s[a] + s[b])
  let s := s.set d (rotateLeft (s[d] ^^^ s[a]) 8)
  let s := s.set c (s[c] + s[d])
  s.set b (rotateLeft (s[b] ^^^ s[c]) 7)

/-- Two rounds: one down the columns of the block, one along its diagonals. -/
def doubleRound (s : Block) : Block :=
  let s := quarterRound s 0 4 8 12
  let s := quarterRound s 1 5 9 13
  let s := quarterRound s 2 6 10 14
  let s := quarterRound s 3 7 11 15
  let s := quarterRound s 0 5 10 15
  let s := quarterRound s 1 6 11 12
  let s := quarterRound s 2 7 8 13
  quarterRound s 3 4 9 14

/-- The block before it is stirred: four fixed words, the key, the block number with
its low word first, and two zeros. -/
def initialBlock (key : Key) (number : UInt64) : Block :=
  #v[0x61707865, 0x3320646e, 0x79622d32, 0x6b206574, key[0], key[1], key[2], key[3], key[4],
    key[5], key[6], key[7], number.toUInt32, (number >>> 32).toUInt32, 0, 0]

/-- The words of a block. -/
def block (key : Key) (number : UInt64) : Block :=
  let start := initialBlock key number
  let stirred := Nat.repeat doubleRound 6 start
  stirred.zipWith (· + ·) start

/-- The word of a stream at a position. -/
def word (key : Key) (position : Nat) : UInt32 :=
  (block key (UInt64.ofNat (position / 16))).get ⟨position % 16, Nat.mod_lt _ (by decide)⟩

end ByteMachine.Random
