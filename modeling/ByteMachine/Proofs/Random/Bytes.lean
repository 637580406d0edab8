import ByteMachine.Random.Generator

/-!
# The bytes of a stream

Scaling a word to 255 steps gives 254 whole steps at most. A second word can carry one more,
but it is only asked where the fraction that is left is almost a step, and behind 254 whole
steps no word leaves so much. So a number from 1 to 255 is drawn, and putting it into a byte
loses nothing.
-/

namespace ByteMachine.Random.Generator

/-- The step that a second word carries over, where it is asked. -/
def carry (g : Generator) : Nat :=
  let w := word g.key g.position
  let v := word g.key (g.position + 1)
  if UInt32.size - 255 < fraction w ∧ UInt32.size ≤ fraction w + steps v then 1 else 0

/-- The number that is drawn next. -/
def number (g : Generator) : Nat := 1 + steps (word g.key g.position) + g.carry

/-- The generator when some bytes have been drawn. -/
def after (g : Generator) : Nat → Generator
  | 0 => g
  | k + 1 => g.nextByte.2.after k

/-- A word is its whole steps and the fraction that is left. -/
theorem steps_add_fraction (w : UInt32) :
    UInt32.size * steps w + fraction w = w.toNat * 255 :=
  Nat.div_add_mod _ _

/-- Scaling gives 254 whole steps at most. -/
theorem steps_le (w : UInt32) : steps w ≤ 254 := by
  have hsum := steps_add_fraction w
  have hword : w.toNat < UInt32.size := w.toNat_lt
  unfold UInt32.size at hsum hword
  omega

/-- Where almost a step is left, there are fewer than 254 whole ones. -/
theorem steps_le_of_fraction {w : UInt32} (h : UInt32.size - 255 < fraction w) :
    steps w ≤ 253 := by
  have hsum := steps_add_fraction w
  have hword : w.toNat < UInt32.size := w.toNat_lt
  unfold UInt32.size at h hsum hword
  omega

/-- A number from 1 to 255 is drawn. -/
theorem number_bounds (g : Generator) : 1 ≤ g.number ∧ g.number ≤ 255 := by
  have hsteps := steps_le (word g.key g.position)
  unfold number carry
  dsimp only
  split
  · rename_i hcarry
    have hfewer := steps_le_of_fraction hcarry.1
    omega
  · omega

/-- The byte that is drawn is that number. -/
theorem toNat_nextByte (g : Generator) : g.nextByte.1.toNat = g.number := by
  have hbyte {n : Nat} (hn : n = g.number) : (UInt8.ofNat n).toNat = g.number := by
    have hfits := g.number_bounds.2
    rw [hn]
    exact Nat.mod_eq_of_lt (Nat.lt_succ_of_le hfits)
  unfold nextByte nextWord
  dsimp only
  split
  · rename_i hclose
    refine hbyte ?_
    rw [number, carry]
    simp only [hclose, true_and]
  · rename_i hfar
    refine hbyte ?_
    rw [number, carry]
    simp only [hfar, false_and, if_false, Nat.add_zero]

end ByteMachine.Random.Generator
