import Mathlib.Algebra.Ring.Nat
import ByteMachine.Word.Adder

/-!
# Sums that the adder forms

A chain of full adders counts: the pattern it forms and the carry behind it are together
the sum of the lowest bits of its two patterns. The pattern alone is that sum, reduced to
the width, and the carry tells whether anything had to be reduced.
-/

namespace ByteMachine.Word

/-- A full adder counts the ones among its three bits. -/
theorem fullAdder_value (a b carry : Bool) :
    (fullAdder a b carry).1.toNat + 2 * (fullAdder a b carry).2.toNat =
      a.toNat + b.toNat + carry.toNat := by
  cases a <;> cases b <;> cases carry <;> rfl

/-- The chain forms the sum of the lowest bits exactly: what does not fit the width is
the carry. -/
theorem ripple_value (width a b : Nat) (carry : Bool) :
    (ripple width a b carry).1 + 2 ^ width * (ripple width a b carry).2.toNat =
      a % 2 ^ width + b % 2 ^ width + carry.toNat := by
  induction width generalizing a b carry with
  | zero => simp [ripple, Nat.mod_one]
  | succ width ih =>
    have ha : a % 2 ^ (width + 1) = a % 2 + 2 * (a / 2 % 2 ^ width) := by
      rw [Nat.pow_succ, Nat.mul_comm, Nat.mod_mul]
    have hb : b % 2 ^ (width + 1) = b % 2 + 2 * (b / 2 % 2 ^ width) := by
      rw [Nat.pow_succ, Nat.mul_comm, Nat.mod_mul]
    have hbits (n : Nat) : (n.testBit 0).toNat = n % 2 := by
      rw [Nat.testBit_zero]
      rcases Nat.mod_two_eq_zero_or_one n with h | h <;> simp [h]
    have hadder := fullAdder_value (a.testBit 0) (b.testBit 0) carry
    have hrest := ih (a / 2) (b / 2) (fullAdder (a.testBit 0) (b.testBit 0) carry).2
    rw [hbits, hbits] at hadder
    rw [ha, hb, Nat.pow_succ]
    simp only [ripple]
    grind

/-- The pattern of a sum lies within its width. -/
theorem ripple_fst_lt (width a b : Nat) (carry : Bool) :
    (ripple width a b carry).1 < 2 ^ width := by
  induction width generalizing a b carry with
  | zero => simp [ripple]
  | succ width ih =>
    have hrest := ih (a / 2) (b / 2) (fullAdder (a.testBit 0) (b.testBit 0) carry).2
    have hbit := Bool.toNat_le (fullAdder (a.testBit 0) (b.testBit 0) carry).1
    rw [Nat.pow_succ]
    simp only [ripple]
    omega

/-- The pattern of a sum is the sum of the lowest bits, reduced to the width. -/
theorem ripple_fst (width a b : Nat) (carry : Bool) :
    (ripple width a b carry).1 =
      (a % 2 ^ width + b % 2 ^ width + carry.toNat) % 2 ^ width := by
  rw [← ripple_value, Nat.add_mul_mod_self_left, Nat.mod_eq_of_lt (ripple_fst_lt width a b carry)]

/-- There is a carry exactly if the sum of the lowest bits does not fit the width. -/
theorem ripple_snd (width a b : Nat) (carry : Bool) :
    (ripple width a b carry).2 =
      decide (2 ^ width ≤ a % 2 ^ width + b % 2 ^ width + carry.toNat) := by
  have hvalue := ripple_value width a b carry
  have hlow := ripple_fst_lt width a b carry
  rw [Bool.eq_iff_iff, decide_eq_true_iff]
  cases hbit : (ripple width a b carry).2 with
  | false =>
    rw [hbit, Bool.toNat_false] at hvalue
    exact ⟨nofun, fun hlarge => absurd hvalue (by omega)⟩
  | true =>
    rw [hbit, Bool.toNat_true] at hvalue
    exact ⟨fun _ => by omega, fun _ => rfl⟩

section

variable {width : Nat} (a b : UInt32)

/-- At a width that patterns have, the sum of two patterns is their sum modulo the width. -/
theorem toNat_result_addWithCarry (h : width ≤ 32) :
    (addWithCarry a b width).result.toNat =
      (a.toNat % 2 ^ width + b.toNat % 2 ^ width) % 2 ^ width := by
  have hlow := ripple_fst_lt width a.toNat b.toNat false
  have hle : 2 ^ width ≤ 2 ^ 32 := Nat.pow_le_pow_right (by decide) h
  rw [addWithCarry, UInt32.toNat_ofNat', Nat.mod_eq_of_lt (Nat.lt_of_lt_of_le hlow hle), ripple_fst,
    Bool.toNat_false, Nat.add_zero]

/-- Its carry tells whether the sum is too large for the width. -/
theorem carry_addWithCarry :
    (addWithCarry a b width).carry =
      decide (2 ^ width ≤ a.toNat % 2 ^ width + b.toNat % 2 ^ width) := by
  rw [addWithCarry, ripple_snd, Bool.toNat_false, Nat.add_zero]

end

end ByteMachine.Word
