/-!
# Ripple-carry addition on bit patterns

Every sum the machine forms, from a program counter moving on by one to a
comparison that is thrown away, goes through one adder. It takes two 32-bit
patterns and a width, looks at the lowest bits of that width only, and reports
the pattern of the sum with the carry out of its highest bit. There is no
overflow error: a subtraction is an addition of the two's-complement pattern.
-/

namespace ByteMachine.Word

/-- The pattern of a sum and the carry that left its highest bit. -/
structure Sum where
  /-- The sum, reduced to the width it was formed at. -/
  result : UInt32
  /-- Whether a carry left the highest bit. -/
  carry : Bool
  deriving DecidableEq, Repr

/-- The carry as the byte that a flag register holds. -/
def Sum.carryByte (s : Sum) : UInt8 := if s.carry then 1 else 0

/-- One full adder: the sum bit and the carry out of two bits and a carry in. -/
def fullAdder (a b carry : Bool) : Bool × Bool :=
  ((a ^^ b) ^^ carry, (a && b) || ((a ^^ b) && carry))

/-- A chain of `width` full adders, lowest bit first. Each one hands its carry to
the next; the last carry is returned beside the pattern. -/
def ripple : (width a b : Nat) → (carry : Bool) → Nat × Bool
  | 0, _, _, carry => (0, carry)
  | width + 1, a, b, carry =>
    let bit := fullAdder (a.testBit 0) (b.testBit 0) carry
    let rest := ripple width (a / 2) (b / 2) bit.2
    (bit.1.toNat + 2 * rest.1, rest.2)

/-- Adds the lowest `width` bits of two patterns. -/
def addWithCarry (a b : UInt32) (width : Nat) : Sum :=
  let sum := ripple width a.toNat b.toNat false
  ⟨UInt32.ofNat sum.1, sum.2⟩

end ByteMachine.Word
