import ByteMachine.Random.Stream

/-!
# Random bytes

A generator is a stream and the position of the next word that it has not used. Any
key may be its stream's. A seed of 64 bits gives one, word after word, from a linear
congruence whose states are shuffled before they are used. A byte from 1 to 255 is
drawn by scaling a word to 255 steps; only where the fraction that is lost could
reach the next step does a second word decide.
-/

namespace ByteMachine.Random

/-- A stream and the position of its next word. -/
structure Generator where
  /-- The key of the stream. -/
  key : Key
  /-- How many words have been used. -/
  position : Nat := 0
  deriving DecidableEq, Repr

namespace Seed

/-- The next state of the congruence. -/
def next (state : UInt64) : UInt64 := state * 6364136223846793005 + 11634580027462260723

/-- Rotates a word to the right by a number of places taken modulo 32. -/
def rotateRight (x : UInt32) (places : UInt32) : UInt32 :=
  (x >>> places) ||| (x <<< (32 - places))

/-- The key word that a state of the congruence gives. -/
def keyWord (state : UInt64) : UInt32 :=
  let shuffled := (((state >>> 18) ^^^ state) >>> 27).toUInt32
  rotateRight shuffled (state >>> 59).toUInt32

/-- The state of the congruence after a number of steps. -/
def stateAfter (seed : UInt64) (steps : Nat) : UInt64 := Nat.repeat next steps seed

/-- The key of a seed. -/
def key (seed : UInt64) : Key := Vector.ofFn fun i => keyWord (stateAfter seed (i.val + 1))

end Seed

namespace Generator

/-- The generator of a seed, at the start of its stream. -/
def ofSeed (seed : UInt64) : Generator := ⟨Seed.key seed, 0⟩

/-- The generator of a seed or, where there is none, of a key, at the start of its stream. -/
def start (seed : Option UInt64) (key : Key) : Generator :=
  match seed with
  | some seed => ofSeed seed
  | none => ⟨key, 0⟩

@[simp]
theorem start_some (seed : UInt64) (key : Key) : start (some seed) key = ofSeed seed := rfl

/-- The next word, and the generator behind it. -/
def nextWord (g : Generator) : UInt32 × Generator :=
  (word g.key g.position, { g with position := g.position + 1 })

/-- The whole steps of a word that is scaled to 255 steps. -/
def steps (w : UInt32) : Nat := w.toNat * 255 / UInt32.size

/-- The fraction of a step that scaling leaves over. -/
def fraction (w : UInt32) : Nat := w.toNat * 255 % UInt32.size

/-- A byte from 1 to 255, and the generator behind it. -/
def nextByte (g : Generator) : UInt8 × Generator :=
  let (w, g) := g.nextWord
  if UInt32.size - 255 < fraction w then
    let (v, g) := g.nextWord
    let carry := if UInt32.size ≤ fraction w + steps v then 1 else 0
    (UInt8.ofNat (1 + steps w + carry), g)
  else (UInt8.ofNat (1 + steps w), g)

end Generator

end ByteMachine.Random
