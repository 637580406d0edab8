import Mathlib.Data.Int.ModEq
import ByteMachine.Proofs.Word.Adder
import ByteMachine.Proofs.Word.Signed

/-!
# Two's complement at every width

A pattern that lies within a width stands for its balanced remainder: of the numbers that are
congruent to it modulo the power of two, the one in the range of the width. So each number in
that range has exactly one pattern, and adding patterns adds numbers: the pattern of a sum
stands for a number congruent to the sum of the numbers, which is that sum wherever it is in
the range.
-/

namespace ByteMachine.Word

/-- The numbers that patterns of a width stand for. -/
def InRange (width : Nat) (n : Int) : Prop := -2 ^ (width - 1) ≤ n ∧ n < 2 ^ (width - 1)

variable {width : Nat}

/-- The power of two behind a width is twice that behind its range. -/
theorem two_pow_eq (hpos : 0 < width) : (2 : Int) ^ width = 2 * 2 ^ (width - 1) := by
  rw [← pow_succ', Nat.sub_add_cancel hpos]

/-- The balanced remainder of a number is the one number in the range that is congruent to
it. -/
theorem bmod_eq_iff_inRange (hpos : 0 < width) {n m : Int} :
    n.bmod (2 ^ width) = m ↔ InRange width m ∧ (2 : Int) ^ width ∣ m - n := by
  have hhalf := two_pow_eq hpos
  rw [Int.bmod_eq_iff (Nat.two_pow_pos width), InRange, Nat.cast_pow, Nat.cast_ofNat, ← and_assoc]
  refine and_congr_left fun _ => ?_
  omega

/-- A number is its own balanced remainder exactly if it is in the range. -/
theorem bmod_eq_self_iff_inRange (hpos : 0 < width) {n : Int} :
    n.bmod (2 ^ width) = n ↔ InRange width n := by
  rw [bmod_eq_iff_inRange hpos, sub_self]
  exact and_iff_left (dvd_zero _)

/-- Each number is congruent to its balanced remainder. -/
theorem bmod_modEq (n : Int) : n.bmod (2 ^ width) ≡ n [ZMOD 2 ^ width] := by
  have hmod : n.bmod (2 ^ width) % ((2 ^ width : Nat) : Int) = n % ((2 ^ width : Nat) : Int) :=
    Int.bmod_emod
  rw [Nat.cast_pow, Nat.cast_ofNat] at hmod
  exact hmod

section

variable {p q : UInt32}

/-- A pattern within a width whose highest bit is clear lies in the lower half. -/
theorem toNat_lt_of_not_isNegative (hp : p.toNat < 2 ^ width)
    (h : isNegative p width = false) : p.toNat < 2 ^ (width - 1) := by
  refine Nat.lt_pow_two_of_testBit _ fun i hi => ?_
  by_cases heq : i = width - 1
  · rw [heq]
    exact h
  · exact Nat.testBit_lt_two_pow (hp.trans_le (Nat.pow_le_pow_right (by decide) (by omega)))

/-- A pattern that lies within its width stands for its balanced remainder. -/
theorem decodeSigned_eq_bmod (hpos : 0 < width) (hle : width ≤ 32) (hp : p.toNat < 2 ^ width) :
    decodeSigned p width = (p.toNat : Int).bmod (2 ^ width) := by
  have hhalf := two_pow_eq hpos
  symm
  rw [bmod_eq_iff_inRange hpos, InRange]
  cases h : isNegative p width with
  | true =>
    have hbit := le_mod_of_isNegative hpos h
    rw [Nat.mod_eq_of_lt hp] at hbit
    have hlow : (2 : Int) ^ (width - 1) ≤ p.toNat := by exact_mod_cast hbit
    have hhigh : (p.toNat : Int) < 2 ^ width := by exact_mod_cast hp
    rw [decodeSigned_of_isNegative hpos hle h, Nat.mod_eq_of_lt hp]
    refine ⟨by omega, ?_⟩
    rw [sub_sub_cancel_left]
    exact Int.dvd_neg.mpr (dvd_refl _)
  | false =>
    have hbit := toNat_lt_of_not_isNegative hp h
    have hhigh : (p.toNat : Int) < 2 ^ (width - 1) := by exact_mod_cast hbit
    have hsmall : 2 ^ (width - 1) ≤ 2 ^ 31 := Nat.pow_le_pow_right (by decide) (by omega)
    rw [decodeSigned_of_not_isNegative (hbit.trans_le hsmall) h, sub_self]
    exact ⟨by omega, dvd_zero _⟩

/-- Every number that is read, whatever the width, is one of 32 bits. -/
theorem inRange_decodeSigned (hpos : 0 < width) (hle : width ≤ 32) (p : UInt32) :
    InRange 32 (decodeSigned p width) := by
  cases h : isNegative p width with
  | true =>
    have hhalf := two_pow_eq hpos
    have hbit : (2 : Int) ^ (width - 1) ≤ (p.toNat % 2 ^ width : Nat) := by
      exact_mod_cast le_mod_of_isNegative hpos h
    have hlt : ((p.toNat % 2 ^ width : Nat) : Int) < 2 ^ width := by
      exact_mod_cast Nat.mod_lt _ (Nat.two_pow_pos width)
    have hsmall : (2 : Int) ^ (width - 1) ≤ 2 ^ 31 := by
      exact_mod_cast Nat.pow_le_pow_right (Nat.two_pos) (by omega : width - 1 ≤ 31)
    rw [decodeSigned_of_isNegative hpos hle h, InRange]
    omega
  | false =>
    rw [decodeSigned, h]
    exact ⟨p.toInt32.le_toInt, p.toInt32.toInt_lt⟩

/-- A number in the range is read from the pattern of its remainder. -/
theorem decodeSigned_emod (hpos : 0 < width) (hle : width ≤ 32) {n : Int} (hn : InRange width n) :
    decodeSigned (UInt32.ofNat (n % 2 ^ width).toNat) width = n := by
  have hpow : (0 : Int) < 2 ^ width := Int.pow_pos (by decide)
  have hnonneg : 0 ≤ n % 2 ^ width := Int.emod_nonneg n hpow.ne'
  have hlt : (n % 2 ^ width).toNat < 2 ^ width := by
    have hint := Int.emod_lt_of_pos n hpow
    have hcast : ((n % 2 ^ width).toNat : Int) < ((2 ^ width : Nat) : Int) := by
      rw [Int.toNat_of_nonneg hnonneg, Nat.cast_pow, Nat.cast_ofNat]
      exact hint
    exact_mod_cast hcast
  have hword : 2 ^ width ≤ 2 ^ 32 := Nat.pow_le_pow_right (by decide) hle
  have hpattern : (UInt32.ofNat (n % 2 ^ width).toNat).toNat = (n % 2 ^ width).toNat := by
    rw [UInt32.toNat_ofNat', Nat.mod_eq_of_lt (hlt.trans_le hword)]
  rw [decodeSigned_eq_bmod hpos hle (hpattern.trans_lt hlt), hpattern,
    Int.toNat_of_nonneg hnonneg]
  have hbalanced := (bmod_eq_self_iff_inRange hpos).mpr hn
  rw [← Int.emod_bmod, Nat.cast_pow, Nat.cast_ofNat] at hbalanced
  exact hbalanced

/-- Different patterns within a width stand for different numbers. -/
theorem eq_of_decodeSigned_eq (hpos : 0 < width) (hle : width ≤ 32) (hp : p.toNat < 2 ^ width)
    (hq : q.toNat < 2 ^ width) (h : decodeSigned p width = decodeSigned q width) : p = q := by
  rw [decodeSigned_eq_bmod hpos hle hp, decodeSigned_eq_bmod hpos hle hq] at h
  have hmod : (p.toNat : Int) % ((2 ^ width : Nat) : Int) =
      (q.toNat : Int) % ((2 ^ width : Nat) : Int) := by
    rw [← Int.bmod_emod, h, Int.bmod_emod]
  apply UInt32.toNat_inj.mp
  rw [← Nat.mod_eq_of_lt hp, ← Nat.mod_eq_of_lt hq]
  exact_mod_cast hmod

/-- The pattern of a sum stands for the balanced remainder of the sum of the numbers. -/
theorem decodeSigned_addWithCarry (hpos : 0 < width) (hle : width ≤ 32)
    (hp : p.toNat < 2 ^ width) (hq : q.toNat < 2 ^ width) :
    decodeSigned (addWithCarry p q width).result width =
      (decodeSigned p width + decodeSigned q width).bmod (2 ^ width) := by
  have hresult := toNat_result_addWithCarry p q hle
  have hlt : (addWithCarry p q width).result.toNat < 2 ^ width := by
    rw [hresult]
    exact Nat.mod_lt _ (Nat.two_pow_pos width)
  rw [decodeSigned_eq_bmod hpos hle hlt, decodeSigned_eq_bmod hpos hle hp,
    decodeSigned_eq_bmod hpos hle hq, hresult, ← Nat.add_mod, Int.natCast_emod, Int.emod_bmod,
    Int.bmod_add_bmod, Int.add_bmod_bmod, Int.natCast_add]

end

/-- How patterns of a width are read. -/
structure ReadsTwosComplement (width : Nat) : Prop where
  /-- With the highest bit set, the lowest bits stand for what they are short of the power of
  two, with a minus sign. -/
  negative : ∀ p : UInt32, p.toNat.testBit (width - 1) = true →
    decodeSigned p width = ((p.toNat % 2 ^ width : Nat) : Int) - 2 ^ width
  /-- With the highest bit clear, the whole pattern is taken as a number of 32 bits. -/
  whole : ∀ p : UInt32, p.toNat.testBit (width - 1) = false →
    decodeSigned p width = p.toInt32.toInt
  /-- What is read is a number of 32 bits in either case. -/
  fits : ∀ p : UInt32, InRange 32 (decodeSigned p width)
  /-- Each number in the range is read from its remainder. -/
  reads : ∀ n, InRange width n → decodeSigned (UInt32.ofNat (n % 2 ^ width).toNat) width = n
  /-- No two patterns within the width are read as the same number. -/
  injective : ∀ p q : UInt32, p.toNat < 2 ^ width → q.toNat < 2 ^ width →
    decodeSigned p width = decodeSigned q width → p = q
  /-- The sum of two patterns within the width is congruent to the sum of their numbers. -/
  sum : ∀ p q : UInt32, p.toNat < 2 ^ width → q.toNat < 2 ^ width →
    decodeSigned (addWithCarry p q width).result width ≡
      decodeSigned p width + decodeSigned q width [ZMOD 2 ^ width]
  /-- It is that sum exactly where that sum is in the range. -/
  exact : ∀ p q : UInt32, p.toNat < 2 ^ width → q.toNat < 2 ^ width →
    (decodeSigned (addWithCarry p q width).result width =
        decodeSigned p width + decodeSigned q width ↔
      InRange width (decodeSigned p width + decodeSigned q width))

/-- At every width, patterns are read in two's complement, and the adder adds what they stand
for. The highest bit of the width decides how a pattern is read; each number in the range of the
width has one pattern within the width, from which it is read; and the pattern of a sum stands
for the sum modulo the power of two, which is the sum itself exactly if that is in the range. -/
theorem patterns_read_in_twos_complement (hpos : 0 < width) (hle : width ≤ 32) :
    ReadsTwosComplement width where
  negative := fun _ hbit => decodeSigned_of_isNegative hpos hle hbit
  whole := fun _ hbit => if_neg (Bool.eq_false_iff.mp hbit)
  fits := inRange_decodeSigned hpos hle
  reads := fun _ hn => decodeSigned_emod hpos hle hn
  injective := fun _ _ hp hq h => eq_of_decodeSigned_eq hpos hle hp hq h
  sum := by
    intro p q hp hq
    rw [decodeSigned_addWithCarry hpos hle hp hq]
    exact bmod_modEq _
  exact := by
    intro p q hp hq
    rw [decodeSigned_addWithCarry hpos hle hp hq]
    exact bmod_eq_self_iff_inRange hpos

/-- At the full width, the highest bit alone stands for the least number, which is read from its
remainder. One more than the greatest number is out of the range, so its pattern is not read as
that. -/
theorem wide_patterns_read_in_twos_complement : 0 < 32 ∧ 32 ≤ 32 ∧
    decodeSigned 0x80000000 32 = -0x80000000 ∧
    decodeSigned (UInt32.ofNat (-0x80000000 % 2 ^ 32 : Int).toNat) 32 = -0x80000000 ∧
    decodeSigned (addWithCarry 0x7FFFFFFF 1 32).result 32 ≠
      decodeSigned 0x7FFFFFFF 32 + decodeSigned 1 32 := by
  have hreads := patterns_read_in_twos_complement (by decide : 0 < 32) (by decide)
  have hgreatest : decodeSigned 0x7FFFFFFF 32 = 0x7FFFFFFF :=
    (hreads.whole 0x7FFFFFFF (by decide)).trans (by decide)
  have hone : decodeSigned 1 32 = 1 := (hreads.whole 1 (by decide)).trans (by decide)
  refine ⟨by decide, by decide, (hreads.negative _ (by decide)).trans (by decide), ?_, ?_⟩
  · exact hreads.reads _ ⟨by decide, by decide⟩
  · rw [Ne, hreads.exact _ _ (by decide) (by decide), hgreatest, hone, InRange]
    decide

end ByteMachine.Word
