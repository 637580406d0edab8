import Mathlib.Data.Int.ModEq
import ByteMachine.Proofs.Register

/-!
# Sums and differences at every width

The adder has no subtraction of its own. A pattern is taken away by adding a complement of
it, which is any pattern that makes up a multiple of the power of two together with it: the
negative word is one at every width, and the negative byte is one at eight bits. So what the
adder forms is the difference modulo the width, and there is a carry unless nothing is taken
away or more than there is. Taking an amount from a register and adding it again gives back
what was there.
-/

namespace ByteMachine

namespace Word

/-- A pattern that takes another one away when it is added: together they are nothing at
this width. -/
def IsComplement (width : Nat) (pattern complement : UInt32) : Prop :=
  2 ^ width ∣ complement.toNat + pattern.toNat

variable {width : Nat} {a b n : UInt32}

/-- The negative word is a complement at every width. -/
theorem isComplement_neg (h : width ≤ 32) (b : UInt32) : IsComplement width b (0 - b) := by
  have hb := b.toNat_lt
  have hword : 2 ^ 32 ∣ (0 - b).toNat + b.toNat := by
    rw [UInt32.toNat_sub, UInt32.toNat_zero]
    omega
  exact (Nat.pow_dvd_pow 2 h).trans hword

/-- The negative byte is a complement at eight bits. -/
theorem isComplement_neg_byte (v : UInt8) :
    IsComplement 8 v.toUInt32 (0 - v).toUInt32 := by
  have hv := v.toNat_lt
  rw [IsComplement, UInt8.toNat_toUInt32, UInt8.toNat_toUInt32, UInt8.toNat_sub, UInt8.toNat_zero]
  omega

namespace IsComplement

/-- The lowest bits of a complement are nothing, or what the pattern is short of the power of
two. -/
theorem mod_add_mod (h : IsComplement width b n) :
    n.toNat % 2 ^ width + b.toNat % 2 ^ width = 0 ∨
      n.toNat % 2 ^ width + b.toNat % 2 ^ width = 2 ^ width := by
  have hn : n.toNat % 2 ^ width < 2 ^ width := Nat.mod_lt _ (Nat.two_pow_pos width)
  have hb : b.toNat % 2 ^ width < 2 ^ width := Nat.mod_lt _ (Nat.two_pow_pos width)
  have hdvd : 2 ^ width ∣ n.toNat % 2 ^ width + b.toNat % 2 ^ width := by
    rw [Nat.dvd_iff_mod_eq_zero, ← Nat.add_mod]
    exact Nat.mod_eq_zero_of_dvd h
  obtain ⟨k, hk⟩ := hdvd
  have hlt : 2 ^ width * k < 2 ^ width * 2 := by omega
  have hless : k < 2 := Nat.lt_of_mul_lt_mul_left hlt
  obtain rfl | rfl : k = 0 ∨ k = 1 := by omega
  · exact .inl hk
  · exact .inr (hk.trans (Nat.mul_one _))

/-- What a complement is added to becomes the difference modulo the width. -/
theorem toNat_result (h : IsComplement width b n) (hle : width ≤ 32) (a : UInt32) :
    ((addWithCarry a n width).result.toNat : Int) = ((a.toNat : Int) - b.toNat) % 2 ^ width := by
  obtain ⟨k, hk⟩ := h
  have hsum : ((a.toNat + n.toNat : Nat) : Int) =
      (a.toNat : Int) - b.toNat + 2 ^ width * k := by
    have hcast : (n.toNat : Int) + b.toNat = 2 ^ width * k := by exact_mod_cast hk
    rw [Int.natCast_add]
    omega
  rw [toNat_result_addWithCarry a n hle, ← Nat.add_mod, Int.natCast_emod, hsum, Int.natCast_pow]
  exact Int.add_mul_emod_self_left _ _ _

/-- There is a carry then unless nothing is taken away, or more than there is. -/
theorem carry (h : IsComplement width b n) (a : UInt32) :
    (addWithCarry a n width).carry =
      decide (0 < b.toNat % 2 ^ width ∧ b.toNat % 2 ^ width ≤ a.toNat % 2 ^ width) := by
  have ha : a.toNat % 2 ^ width < 2 ^ width := Nat.mod_lt _ (Nat.two_pow_pos width)
  have hn : n.toNat % 2 ^ width < 2 ^ width := Nat.mod_lt _ (Nat.two_pow_pos width)
  have hcases := h.mod_add_mod
  rw [carry_addWithCarry, decide_eq_decide]
  omega

end IsComplement

/-- How the adder counts at a width: sums and differences are those modulo the width, and the
carry tells what has been left out of a sum, or not been borrowed for a difference. -/
structure CountsModulo (width : Nat) (a b : UInt32) : Prop where
  /-- The sum is that of the lowest bits, reduced to the width. -/
  sum : (addWithCarry a b width).result.toNat =
    (a.toNat % 2 ^ width + b.toNat % 2 ^ width) % 2 ^ width
  /-- The carry is one if the sum has been reduced, and otherwise zero. -/
  carry : (addWithCarry a b width).carryByte =
    if 2 ^ width ≤ a.toNat % 2 ^ width + b.toNat % 2 ^ width then 1 else 0
  /-- The negative word is a complement of the second pattern. -/
  complement : IsComplement width b (0 - b)
  /-- With a complement of the second pattern, the sum is the difference. -/
  difference : ∀ n, IsComplement width b n →
    ((addWithCarry a n width).result.toNat : Int) = ((a.toNat : Int) - b.toNat) % 2 ^ width
  /-- The carry is one then if there is something to take away and no more than there is, and
  otherwise zero. -/
  borrow : ∀ n, IsComplement width b n → (addWithCarry a n width).carryByte =
    if 0 < b.toNat % 2 ^ width ∧ b.toNat % 2 ^ width ≤ a.toNat % 2 ^ width then 1 else 0

/-- A carry is the byte one, and no carry is zero. -/
theorem carryByte_of_carry {s : Sum} {p : Prop} [Decidable p] (h : s.carry = decide p) :
    s.carryByte = if p then 1 else 0 := by
  rw [Sum.carryByte, h]
  by_cases hp : p <;> simp [hp]

theorem countsModulo (hle : width ≤ 32) (a b : UInt32) : CountsModulo width a b where
  sum := toNat_result_addWithCarry a b hle
  carry := carryByte_of_carry (carry_addWithCarry a b)
  complement := isComplement_neg hle b
  difference := fun _ hn => hn.toNat_result hle a
  borrow := fun _ hn => carryByte_of_carry (hn.carry a)

end Word

namespace RegisterFile

/-- Adding to a slot wraps around after 255. -/
theorem get_increment_self (f : RegisterFile) (r : Register) (amount : UInt8) :
    (f.increment r amount).get r = f.get r + amount := by
  rw [increment, additionWrites, write_cons, toUInt8_sum_result]
  by_cases hr : r = .ra
  · subst hr
    rw [if_pos rfl, get_write_of_not_mem (not_mem_flagWrites rfl _ _), get_set_self]
  · rw [if_neg hr, write_nil, get_set_self]

/-- Taking an amount away and adding it again is no change. -/
theorem get_increment_decrement (f : RegisterFile) (r : Register) (amount : UInt8) :
    ((f.decrement r amount).increment r amount).get r = f.get r := by
  rw [get_increment_self, decrement, get_increment_self, UInt8.zero_sub, ← UInt8.sub_eq_add_neg,
    UInt8.sub_add_cancel]

end RegisterFile

/-- At every width, the adder counts modulo the width: its sums, and the differences that it
forms with a complement, are those modulo the power of two, and its carry says exactly when a
sum has wrapped around or a difference has not. Registers count in bytes, for which the negative
byte is a complement, so that what is taken from any of them can be added again. -/
theorem adder_counts_modulo {width : Nat} (hle : width ≤ 32) (a b : UInt32) :
    Word.CountsModulo width a b ∧
      (∀ v : UInt8, Word.IsComplement 8 v.toUInt32 (0 - v).toUInt32) ∧
      ∀ (f : RegisterFile) (r : Register) (amount : UInt8),
        ((f.decrement r amount).increment r amount).get r = f.get r :=
  ⟨Word.countsModulo hle a b, Word.isComplement_neg_byte,
    RegisterFile.get_increment_decrement⟩

/-- At the full width of patterns, the largest pattern and two make one with a carry, and two
less that pattern makes three without. Taking one from an empty stack pointer and adding it
again leaves it empty. -/
theorem wide_adder_counts_modulo : 32 ≤ 32 ∧
    (Word.addWithCarry 2 0xFFFFFFFF 32).result.toNat = 1 ∧
    (Word.addWithCarry 2 0xFFFFFFFF 32).carryByte = 1 ∧
    ((Word.addWithCarry 2 (0 - 0xFFFFFFFF) 32).result.toNat : Int) = 3 ∧
    (Word.addWithCarry 2 (0 - 0xFFFFFFFF) 32).carryByte = 0 ∧
    ((RegisterFile.zero.decrement .sp 1).increment .sp 1).get .sp = 0 := by
  obtain ⟨hcounts, -, hregisters⟩ := adder_counts_modulo (Nat.le_refl 32) 2 0xFFFFFFFF
  refine ⟨Nat.le_refl 32, hcounts.sum.trans (by decide), hcounts.carry.trans (by decide),
    ?_, ?_, ?_⟩
  · exact (hcounts.difference _ hcounts.complement).trans (by decide)
  · exact (hcounts.borrow _ hcounts.complement).trans (by decide)
  · exact hregisters .zero .sp 1

end ByteMachine
