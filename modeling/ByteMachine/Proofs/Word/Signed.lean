import Mathlib.Data.Nat.Bitwise
import ByteMachine.Word.Signed

/-!
# Numbers behind patterns

Taking away one and flipping every bit of a width is taking the pattern away from the power
of two behind the width. So a pattern whose highest bit is set stands for what it is short of
that power, with a minus sign. For bytes this is the usual two's complement.
-/

namespace ByteMachine.Word

/-- Flipping the lowest bits of a number, and no others, takes them away from all ones. -/
theorem flip_low_bits (width n : Nat) :
    (n ^^^ (2 ^ width - 1)) &&& (2 ^ width - 1) = 2 ^ width - (n % 2 ^ width + 1) := by
  have hlt : n % 2 ^ width < 2 ^ width := Nat.mod_lt _ (Nat.two_pow_pos width)
  apply Nat.eq_of_testBit_eq
  intro i
  rw [Nat.testBit_and, Nat.testBit_xor, Nat.testBit_two_pow_sub_one,
    Nat.testBit_two_pow_sub_succ hlt, Nat.testBit_mod_two_pow]
  by_cases hi : i < width <;> simp [hi]

/-- The mask of a width that a pattern has is one less than the power of two behind it. -/
theorem toNat_mask {width : Nat} (h : width ≤ 32) : (mask width).toNat = 2 ^ width - 1 := by
  have hpos : 0 < 2 ^ width := Nat.two_pow_pos width
  have hle : 2 ^ width ≤ 2 ^ 32 := Nat.pow_le_pow_right (by decide) h
  rw [mask, Nat.one_shiftLeft, UInt32.toNat_ofNat', Nat.mod_eq_of_lt]
  omega

/-- A pattern whose highest bit is set lies in the upper half of its width. -/
theorem le_mod_of_isNegative {pattern : UInt32} {width : Nat} (hpos : 0 < width)
    (h : isNegative pattern width = true) : 2 ^ (width - 1) ≤ pattern.toNat % 2 ^ width := by
  have hlow : (pattern.toNat % 2 ^ width).testBit (width - 1) = true := by
    rw [Nat.testBit_mod_two_pow, decide_eq_true (by omega), Bool.true_and]
    exact h
  exact Nat.ge_two_pow_of_testBit hlow

/-- A pattern whose highest bit is set stands for what it is short of the power of two. -/
theorem decodeSigned_of_isNegative {pattern : UInt32} {width : Nat} (hpos : 0 < width)
    (hle : width ≤ 32) (h : isNegative pattern width = true) :
    decodeSigned pattern width = ((pattern.toNat % 2 ^ width : Nat) : Int) - 2 ^ width := by
  have hbit := le_mod_of_isNegative hpos h
  have hhalf : 0 < 2 ^ (width - 1) := Nat.two_pow_pos _
  have hlt : pattern.toNat % 2 ^ width < 2 ^ width := Nat.mod_lt _ (Nat.two_pow_pos width)
  have hmod : pattern.toNat % 2 ^ width ≤ pattern.toNat := Nat.mod_le _ _
  -- the highest bit is set, so one can be taken away without a borrow
  have hsub : (pattern - 1).toNat = pattern.toNat - 1 := by
    apply UInt32.toNat_sub_of_le
    rw [UInt32.le_iff_toNat_le, UInt32.toNat_one]
    omega
  have hless : (pattern.toNat - 1) % 2 ^ width = pattern.toNat % 2 ^ width - 1 := by
    have hdiv := Nat.div_add_mod pattern.toNat (2 ^ width)
    have heq : pattern.toNat - 1 =
        pattern.toNat % 2 ^ width - 1 + 2 ^ width * (pattern.toNat / 2 ^ width) := by
      omega
    rw [heq, Nat.add_mul_mod_self_left, Nat.mod_eq_of_lt]
    omega
  rw [decodeSigned, if_pos h, UInt32.toNat_and, UInt32.toNat_xor, toNat_mask hle, hsub,
    flip_low_bits, hless]
  have hone : 1 ≤ pattern.toNat % 2 ^ width := by omega
  rw [Nat.sub_add_cancel hone, Int.ofNat_sub hlt.le, Int.neg_sub, Int.natCast_pow]
  rfl

/-- A pattern that fits into 31 bits, with its highest bit clear, stands for itself. -/
theorem decodeSigned_of_not_isNegative {pattern : UInt32} {width : Nat}
    (hsmall : pattern.toNat < 2 ^ 31) (h : isNegative pattern width = false) :
    decodeSigned pattern width = pattern.toNat := by
  have hhalf : 2 * pattern.toNat < 2 ^ 32 := by omega
  rw [decodeSigned, h, if_neg Bool.false_ne_true]
  exact BitVec.toInt_eq_toNat_of_lt hhalf

/-- A byte is negative from its middle on. -/
theorem isNegative_byte {pattern : UInt32} (h : pattern.toNat < 256) :
    isNegative pattern 8 = decide (128 ≤ pattern.toNat) := by
  rw [isNegative, Nat.testBit_eq_decide_div_mod_eq, decide_eq_decide]
  omega

/-- The number behind a byte is the byte in two's complement. -/
theorem signedByte_eq (byte : UInt8) : signedByte byte = byte.toInt8.toInt := by
  have hpattern : byte.toUInt32.toNat = byte.toNat := UInt8.toNat_toUInt32 byte
  have hlt : byte.toNat < 2 ^ 8 := byte.toNat_lt
  have hsign : isNegative byte.toUInt32 8 = decide (128 ≤ byte.toNat) := by
    rw [isNegative_byte, hpattern]
    omega
  have htwo : byte.toInt8.toInt =
      if 2 * byte.toNat < 2 ^ 8 then (byte.toNat : Int) else byte.toNat - 2 ^ 8 :=
    BitVec.toInt_eq_toNat_cond byte.toBitVec
  rw [signedByte, htwo]
  by_cases hnegative : 128 ≤ byte.toNat
  · rw [decide_eq_true hnegative] at hsign
    rw [decodeSigned_of_isNegative (by decide) (by decide) hsign, hpattern, if_neg (by omega),
      Nat.mod_eq_of_lt hlt]
  · rw [decide_eq_false hnegative] at hsign
    rw [decodeSigned_of_not_isNegative (by omega) hsign, hpattern, if_pos (by omega)]

/-- The bytes from 128 on stand for the numbers below zero. -/
theorem signedByte_eq_ite (byte : UInt8) :
    signedByte byte = if byte.toNat < 128 then (byte.toNat : Int) else byte.toNat - 256 := by
  have htwo : byte.toInt8.toInt =
      if 2 * byte.toNat < 2 ^ 8 then (byte.toNat : Int) else byte.toNat - 2 ^ 8 :=
    BitVec.toInt_eq_toNat_cond byte.toBitVec
  rw [signedByte_eq, htwo]
  split <;> split <;> omega

end ByteMachine.Word
