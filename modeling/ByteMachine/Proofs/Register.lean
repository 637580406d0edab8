import ByteMachine.Register
import ByteMachine.Proofs.Word.Adder

/-!
# Sums in registers

The chain of full adders, taken eight bits wide, adds bytes as bytes are added. So a
register that an amount is added to wraps around after 255, and the writes of such an
addition touch that register and, for the accumulator, the flags.
-/

namespace ByteMachine

/-- The registers that an addition to a register writes: with the accumulator the flags. -/
def Register.besides (r : Register) : List Register :=
  if r = .ra then [.ra, .z, .c, .n] else [r]

namespace RegisterFile

variable (f : RegisterFile) (r : Register) (amount : UInt8)

/-- The pattern of a sum is the sum of two bytes modulo 256. -/
theorem toNat_sum_result :
    (f.sum r amount).result.toNat = ((f.get r).toNat + amount.toNat) % 256 := by
  rw [sum, Word.toNat_result_addWithCarry _ _ (by decide), UInt8.toNat_toUInt32,
    UInt8.toNat_toUInt32]
  omega

/-- The sum of a slot and an amount is the sum of two bytes. -/
theorem toUInt8_sum_result : (f.sum r amount).result.toUInt8 = f.get r + amount := by
  apply UInt8.toNat_inj.mp
  rw [UInt32.toNat_toUInt8, toNat_sum_result, UInt8.toNat_add]
  omega

/-- A carry leaves such a sum exactly if it is no byte. -/
theorem carry_sum :
    (f.sum r amount).carry = decide (256 ≤ (f.get r).toNat + amount.toNat) := by
  have hget := (f.get r).toNat_lt
  have hamount := amount.toNat_lt
  rw [sum, Word.carry_addWithCarry, UInt8.toNat_toUInt32, UInt8.toNat_toUInt32, decide_eq_decide]
  omega

/-- A slot that is not written keeps its value. -/
theorem get_write_of_not_mem {f : RegisterFile} {s : Register} {ws : List (Register × UInt8)}
    (h : s ∉ ws.map Prod.fst) : (f.write ws).get s = f.get s := by
  induction ws generalizing f with
  | nil => rfl
  | cons w ws ih =>
    rw [List.map_cons, List.mem_cons, not_or] at h
    rw [write_cons, ih h.2, get_set_of_ne f h.1]

/-- Writing every slot of a file leaves that file. -/
theorem write_toList (f g : RegisterFile) : f.write g.toList = g := by
  simp only [toList, Register.all, List.map_cons, List.map_nil, write_cons, write_nil, set, get]

/-- The slots of the writes that show a result in the flags. -/
theorem map_fst_flagWrites (result : UInt32) (carry : UInt8) :
    (flagWrites result carry).map Prod.fst = [.z, .c, .n] := rfl

/-- The slots of the writes that add to a slot. -/
theorem map_fst_additionWrites : (f.additionWrites r amount).map Prod.fst = r.besides := by
  by_cases hr : r = .ra
  · subst hr
    rfl
  · simp only [additionWrites, Register.besides, if_neg hr, List.map_cons, List.map_nil]

/-- A slot that is no flag is none of those in which a result shows. -/
theorem not_mem_flagWrites {s : Register} (hflag : s.isFlag = false) (result : UInt32)
    (carry : UInt8) : s ∉ (flagWrites result carry).map Prod.fst := by
  rw [map_fst_flagWrites]
  cases s <;> first | decide | cases hflag

/-- An addition writes its slot, and the flags only beside the accumulator. -/
theorem not_mem_additionWrites {s : Register} (hne : s ≠ r) (hflag : s.isFlag = false) :
    s ∉ (f.additionWrites r amount).map Prod.fst := by
  rw [map_fst_additionWrites, Register.besides]
  split
  · rename_i hr
    rw [List.mem_cons, not_or]
    rw [hr] at hne
    exact ⟨hne, not_mem_flagWrites hflag 0 0⟩
  · rw [List.mem_singleton]
    exact hne

/-- Adding to any slot but the accumulator is one write. -/
theorem additionWrites_of_ne {r : Register} (h : r ≠ .ra) :
    f.additionWrites r amount = [(r, f.get r + amount)] := by
  rw [additionWrites, toUInt8_sum_result, if_neg h]

end RegisterFile

end ByteMachine
