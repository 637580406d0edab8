import ByteMachine.Proofs.Effects
import ByteMachine.Proofs.Machine.Faults
import ByteMachine.Proofs.Word.Signed

/-!
# What the flags say of a calculation

Six operations add to the accumulator or take from it, and two form a difference and throw it
away. All of them go through the same adder, which takes an amount away by adding what it is
short of 256, and show the sum in the flags. So the flags say of each calculation whether its
result is zero, whether it is at least 128, and whether there was a carry: of a sum, that it
is no byte, and of a difference, that something was taken away and could be.
-/

namespace ByteMachine

/-- A calculation with two bytes. -/
inductive Calculation where
  /-- The second one is added to the first one. -/
  | sum (left right : UInt8)
  /-- The second one is taken away from the first one. -/
  | difference (left right : UInt8)
  deriving DecidableEq, Repr

/-- What the three flags say. -/
@[ext]
structure Flags where
  /-- The zero flag. -/
  zero : UInt8
  /-- The carry flag. -/
  carry : UInt8
  /-- The negative flag. -/
  negative : UInt8
  deriving DecidableEq, Repr

namespace Calculation

/-- The result, which is taken modulo 256. -/
def result : Calculation → Nat
  | sum left right => (left.toNat + right.toNat) % 256
  | difference left right => (left.toNat + (256 - right.toNat)) % 256

/-- Whether there is a carry: a sum is 256 at least, and of a difference, something is taken
away that is not more than there is. -/
def carries : Calculation → Bool
  | sum left right => 256 ≤ left.toNat + right.toNat
  | difference left right => 0 < right.toNat ∧ right.toNat ≤ left.toNat

/-- The flags that show a calculation. -/
def flags (k : Calculation) : Flags where
  zero := if k.result = 0 then 1 else 0
  carry := if k.carries then 1 else 0
  negative := if 128 ≤ k.result then 1 else 0

theorem result_lt (k : Calculation) : k.result < 256 := by
  cases k <;> exact Nat.mod_lt _ (by decide)

variable (left right : UInt8)

/-- Taking a byte away is adding what it is short of 256. -/
theorem result_sum_neg : (sum left (0 - right)).result = (difference left right).result := by
  have hright := right.toNat_lt
  have hzero : (0 : UInt8).toNat = 0 := rfl
  rw [result, result, UInt8.toNat_sub, hzero]
  omega

/-- That sum has a carry unless nothing is taken away, or more than there is. -/
theorem carries_sum_neg : (sum left (0 - right)).carries = (difference left right).carries := by
  have hleft := left.toNat_lt
  have hright := right.toNat_lt
  have hzero : (0 : UInt8).toNat = 0 := rfl
  rw [carries, carries, UInt8.toNat_sub, hzero, decide_eq_decide]
  omega

theorem flags_sum_neg : (sum left (0 - right)).flags = (difference left right).flags := by
  rw [flags, flags, result_sum_neg, carries_sum_neg]

end Calculation

namespace RegisterFile

/-- The three flags of a file. -/
def flags (f : RegisterFile) : Flags := ⟨f.z, f.c, f.n⟩

variable (f : RegisterFile) (amount : UInt8)

/-- Files with the same flags, one by one, have the same flags. -/
theorem flags_eq_of_get {f g : RegisterFile}
    (h : ∀ s : Register, s.isFlag = true → f.get s = g.get s) : f.flags = g.flags :=
  Flags.ext (h .z rfl) (h .c rfl) (h .n rfl)

/-- A sum with the accumulator shows in the flags, whatever else is written. -/
theorem flags_write_flagWrites (g : RegisterFile) :
    (g.write (flagWrites (f.sum .ra amount).result (f.sum .ra amount).carryByte)).flags =
      (Calculation.sum f.ra amount).flags := by
  have hresult : (f.sum .ra amount).result.toNat = (Calculation.sum f.ra amount).result :=
    f.toNat_sum_result .ra amount
  have hcarry : (f.sum .ra amount).carry = (Calculation.sum f.ra amount).carries :=
    f.carry_sum .ra amount
  have hlt := (Calculation.sum f.ra amount).result_lt
  have hlow : (f.sum .ra amount).result &&& 0xFF = 0 ↔
      (Calculation.sum f.ra amount).result = 0 := by
    have hmask : (0xFF : UInt32).toNat = 2 ^ 8 - 1 := rfl
    have hzero : (0 : UInt32).toNat = 0 := rfl
    rw [← UInt32.toNat_inj, UInt32.toNat_and, hmask, Nat.and_two_pow_sub_one_eq_mod, hresult,
      Nat.mod_eq_of_lt hlt, hzero]
  have hsign : Word.isNegative (f.sum .ra amount).result 8 =
      decide (128 ≤ (Calculation.sum f.ra amount).result) := by
    rw [← hresult] at hlt ⊢
    exact Word.isNegative_byte hlt
  apply Flags.ext
  · exact if_congr hlow rfl rfl
  · exact congrArg (fun carry : Bool => if carry then (1 : UInt8) else 0) hcarry
  · have hflag : (if Word.isNegative (f.sum .ra amount).result 8 then (1 : UInt8) else 0) =
        if 128 ≤ (Calculation.sum f.ra amount).result then 1 else 0 := by
      rw [hsign]
      exact if_congr decide_eq_true_iff rfl rfl
    exact hflag

/-- Adding to the accumulator writes it, and then the flags. -/
theorem increment_ra : f.increment .ra amount = (f.set .ra (f.ra + amount)).write
    (flagWrites (f.sum .ra amount).result (f.sum .ra amount).carryByte) := by
  rw [increment, additionWrites, if_pos rfl, write_cons, toUInt8_sum_result, get]

/-- Adding to the accumulator leaves the sum there. -/
theorem ra_increment :
    (f.increment .ra amount).ra.toNat = (Calculation.sum f.ra amount).result := by
  rw [increment_ra, Calculation.result, ← UInt8.toNat_add]
  rfl

theorem flags_increment :
    (f.increment .ra amount).flags = (Calculation.sum f.ra amount).flags := by
  rw [increment_ra, flags_write_flagWrites]

/-- Taking from the accumulator leaves the difference there. -/
theorem ra_decrement :
    (f.decrement .ra amount).ra.toNat = (Calculation.difference f.ra amount).result :=
  (f.ra_increment (0 - amount)).trans (Calculation.result_sum_neg f.ra amount)

theorem flags_decrement :
    (f.decrement .ra amount).flags = (Calculation.difference f.ra amount).flags :=
  (f.flags_increment (0 - amount)).trans (Calculation.flags_sum_neg f.ra amount)

end RegisterFile

namespace Machine

/-- The byte in the cell whose address is behind the program counter, if there is one. -/
def indirect? (m : Machine) : Option UInt8 :=
  m.operand?.bind fun address => (m.memory.load address).toOption

end Machine

namespace Opcode

/-- Whether an operation is for a calculation with the accumulator. -/
def calculates : Opcode → Bool
  | inc | dec | addi | add | subi | sub | comparei | compare => true
  | _ => false

/-- Whether it throws the result away. -/
def compares : Opcode → Bool
  | comparei | compare => true
  | _ => false

/-- The calculation that an operation makes, if it is for one and what it needs is there. -/
def calculation? (o : Opcode) (m : Machine) : Option Calculation :=
  match o with
  | inc => some (.sum m.registers.ra 1)
  | dec => some (.difference m.registers.ra 1)
  | addi => m.operand?.map (.sum m.registers.ra)
  | add => m.indirect?.map (.sum m.registers.ra)
  | subi | comparei => m.operand?.map (.difference m.registers.ra)
  | sub | compare => m.indirect?.map (.difference m.registers.ra)
  | _ => none

/-- The jumps that the flags decide about. -/
def conditionals : List Opcode := [jumpLess, jumpEqual, jumpGreater]

variable {o : Opcode} {m : Machine} {k : Calculation}

/-- What a calculation leaves in the registers: its flags, and its result, unless this is
thrown away. -/
structure Leaves (o : Opcode) (k : Calculation) (ra : UInt8) (f : RegisterFile) : Prop where
  /-- The flags show the calculation. -/
  flags : f.flags = k.flags
  /-- The accumulator holds the result, or what it held before. -/
  accumulator : f.ra.toNat = if o.compares then ra.toNat else k.result

/-- Adding to the accumulator is a sum. -/
theorem leaves_increment (ho : o.compares = false) (amount : UInt8) (m : Machine) :
    ∃ m' ns, Action.increment .ra amount m = ⟨.ok (), m', ns⟩ ∧
      o.Leaves (.sum m.registers.ra amount) m.registers.ra m'.registers := by
  refine ⟨{ m with registers := m.registers.increment .ra amount }, _, rfl, ?_, ?_⟩
  · exact m.registers.flags_increment amount
  · rw [ho, if_neg Bool.false_ne_true]
    exact m.registers.ra_increment amount

/-- Taking from the accumulator is a difference. -/
theorem leaves_decrement (ho : o.compares = false) (amount : UInt8) (m : Machine) :
    ∃ m' ns, Action.decrement .ra amount m = ⟨.ok (), m', ns⟩ ∧
      o.Leaves (.difference m.registers.ra amount) m.registers.ra m'.registers := by
  refine ⟨{ m with registers := m.registers.decrement .ra amount }, _, rfl, ?_, ?_⟩
  · exact m.registers.flags_decrement amount
  · rw [ho, if_neg Bool.false_ne_true]
    exact m.registers.ra_decrement amount

/-- A comparison is a difference that is thrown away. -/
theorem leaves_compareWith (ho : o.compares = true) (amount : UInt8) (m : Machine) :
    ∃ m' ns, Action.compareWith amount m = ⟨.ok (), m', ns⟩ ∧
      o.Leaves (.difference m.registers.ra amount) m.registers.ra m'.registers := by
  let s := m.registers.sum .ra (0 - amount)
  let writes := RegisterFile.flagWrites s.result s.carryByte
  have hra : Register.ra ∉ writes.map Prod.fst := RegisterFile.not_mem_flagWrites rfl _ _
  refine ⟨{ m with registers := m.registers.write writes }, _, rfl, ?_, ?_⟩
  · rw [m.registers.flags_write_flagWrites (0 - amount), Calculation.flags_sum_neg]
  · rw [ho, if_pos rfl]
    exact congrArg UInt8.toNat (RegisterFile.get_write_of_not_mem hra)

/-- A calculation with the operand reads it first. -/
theorem leaves_operand {f : UInt8 → Action Unit} {g : UInt8 → Calculation} {ra : UInt8}
    (hf : ∀ v, ∃ m' ns, f v m.advanced = ⟨.ok (), m', ns⟩ ∧ o.Leaves (g v) ra m'.registers)
    (hk : m.operand?.map g = some k) :
    ∃ m' ns, (Action.operand >>= f) m = ⟨.ok (), m', ns⟩ ∧ o.Leaves k ra m'.registers := by
  obtain ⟨v, hv, rfl⟩ := Option.map_eq_some_iff.mp hk
  obtain ⟨m', ns, hrun, hleft⟩ := hf v
  have hload := Memory.toOption_load_eq_some_iff.mp hv
  exact ⟨m', _, Action.bind_eq (Action.operand_of_ok hload) hrun, hleft⟩

/-- A calculation with the cell that the operand names reads both first. -/
theorem leaves_indirect {f : UInt8 → Action Unit} {g : UInt8 → Calculation} {ra : UInt8}
    (hf : ∀ v, ∃ m' ns, f v m.advanced = ⟨.ok (), m', ns⟩ ∧ o.Leaves (g v) ra m'.registers)
    (hk : m.indirect?.map g = some k) :
    ∃ m' ns, (Action.operand >>= fun address => Action.load address >>= f) m =
      ⟨.ok (), m', ns⟩ ∧ o.Leaves k ra m'.registers := by
  obtain ⟨v, hv, rfl⟩ := Option.map_eq_some_iff.mp hk
  obtain ⟨address, haddress, hcell⟩ := Option.bind_eq_some_iff.mp hv
  obtain ⟨m', ns, hrun, hleft⟩ := hf v
  have hoperand := Action.operand_of_ok (Memory.toOption_load_eq_some_iff.mp haddress)
  -- moving on to the operand leaves memory alone
  have hload : m.advanced.memory.load address = .ok v :=
    Memory.toOption_load_eq_some_iff.mp hcell
  exact ⟨m', _, Action.bind_eq hoperand (Action.bind_eq (Action.load_of_ok hload) hrun), hleft⟩

/-- An operation that makes a calculation goes through. -/
theorem run_of_calculation (h : o.calculation? m = some k) :
    ∃ m' ns, o.run m = ⟨.ok (), m', ns⟩ ∧ o.Leaves k m.registers.ra m'.registers := by
  cases o with
  | inc =>
    cases h
    exact leaves_increment rfl 1 m
  | dec =>
    cases h
    exact leaves_decrement rfl 1 m
  | addi => exact leaves_operand (fun v => leaves_increment rfl v m.advanced) h
  | subi => exact leaves_operand (fun v => leaves_decrement rfl v m.advanced) h
  | comparei => exact leaves_operand (fun v => leaves_compareWith rfl v m.advanced) h
  | add => exact leaves_indirect (fun v => leaves_increment rfl v m.advanced) h
  | sub => exact leaves_indirect (fun v => leaves_decrement rfl v m.advanced) h
  | compare => exact leaves_indirect (fun v => leaves_compareWith rfl v m.advanced) h
  | _ => cases h

/-- An operation that is for a calculation and makes none fails, when it has only been begun. -/
theorem run_of_no_calculation (ho : o.calculates = true) (h : o.calculation? m = none) :
    ∃ fault ns, o.run m = ⟨.error (.fault fault), m.begun o, ns⟩ := by
  have hoperand (hform : o.form ≠ .bare) (hnone : m.operand? = none) :
      ∃ fault ns, o.run m = ⟨.error (.fault fault), m.begun o, ns⟩ := by
    have hbeyond := Memory.toOption_load_eq_none_iff.mp hnone
    obtain ⟨ns, hrun⟩ := run_of_operand_error hform (Memory.load_of_size_le hbeyond)
    exact ⟨_, ns, hrun⟩
  have hcell (hindirect : o.isIndirect = true) {address : UInt8}
      (haddress : m.operand? = some address) (hnone : (m.memory.load address).toOption = none) :
      ∃ fault ns, o.run m = ⟨.error (.fault fault), m.begun o, ns⟩ := by
    have hload := Memory.toOption_load_eq_some_iff.mp haddress
    have hbeyond := Memory.toOption_load_eq_none_iff.mp hnone
    obtain ⟨ns, hrun⟩ := run_of_address_beyond hindirect hload hbeyond
    exact ⟨_, ns, hrun⟩
  cases o with
  | inc | dec => cases h
  | addi | subi | comparei => exact hoperand nofun (Option.map_eq_none_iff.mp h)
  | add | sub | compare =>
    have hnone : m.indirect? = none := Option.map_eq_none_iff.mp h
    cases haddress : m.operand? with
    | none => exact hoperand nofun haddress
    | some address =>
      rw [Machine.indirect?, haddress, Option.bind_some] at hnone
      exact hcell rfl haddress hnone
  | _ => cases ho

end Opcode

namespace Machine

variable {m : Machine} {o : Opcode} {k : Calculation} {address : UInt8}

/-- A step with a calculation goes through. -/
theorem step_of_calculation (hdeed : m.deed = .execute address o) (h : o.calculation? m = some k) :
    ∃ m' ns, m.step = some ⟨.ok (), m', ns⟩ ∧ o.Leaves k m.registers.ra m'.registers := by
  have hcontrol : o.control = .proceed := by
    cases o <;> first | rfl | cases h
  obtain ⟨m', ns, hrun, hleft⟩ := Opcode.run_of_calculation h
  exact ⟨m'.advanced, _, step_of_run hdeed hcontrol hrun, hleft.flags, hleft.accumulator⟩

/-- A step that is for a calculation and comes to none fails, and leaves the flags alone. -/
theorem step_of_no_calculation (hdeed : m.deed = .execute address o) (ho : o.calculates = true)
    (h : o.calculation? m = none) :
    ∃ fault m' ns, m.step = some ⟨.error fault, m', ns⟩ ∧
      m'.registers.flags = m.registers.flags := by
  obtain ⟨fault, ns, hrun⟩ := Opcode.run_of_no_calculation ho h
  exact ⟨fault, _, ns, step_of_run_error hdeed hrun, rfl⟩

/-- The flags after a step are those of its calculation, or the same as before. -/
theorem flags_of_step (hdeed : m.deed = .execute address o)
    {r : Reply Machine (Except Fault Unit)} (hr : m.step = some r) :
    r.next.registers.flags = ((o.calculation? m).map Calculation.flags).getD m.registers.flags := by
  cases hk : o.calculation? m with
  | some k =>
    obtain ⟨m', ns, hstep, hleft⟩ := step_of_calculation hdeed hk
    cases hstep.symm.trans hr
    exact hleft.flags
  | none =>
    by_cases ho : o.calculates = true
    · obtain ⟨fault, m', ns, hstep, hflags⟩ := step_of_no_calculation hdeed ho hk
      cases hstep.symm.trans hr
      exact hflags
    · -- no other operation is for the flags
      refine RegisterFile.flags_eq_of_get fun s hs => (confined_of_step hdeed hr).1 s ?_
      intro hmem
      have hpc : s ≠ .pc := by
        rintro rfl
        cases hs
      have htarget := (List.mem_cons.mp hmem).resolve_left hpc
      have hflag := (Opcode.flag_mem_targets_iff hs).mp htarget
      cases o <;> first | exact ho rfl | simp at hflag

/-- A machine with the program counter at an address. -/
def standingAt (m : Machine) (pc : UInt8) : Machine :=
  { m with registers := m.registers.set .pc pc }

/-- A step with a jump that the flags decide about goes on at its target if it is taken, and
otherwise behind the operand. -/
theorem step_of_conditional {target : UInt8} (ho : o ∈ Opcode.conditionals)
    (hdeed : m.deed = .execute address o) (htarget : m.operand? = some target) :
    ∃ ns, m.step = some ⟨.ok (),
      m.standingAt (if o.jumps m.registers then target else m.registers.pc + 2), ns⟩ := by
  have hoperand := Action.operand_of_ok (Memory.toOption_load_eq_some_iff.mp htarget)
  have hjump (taken : Bool) : ∃ ns, Opcode.jumpIf Action.operand taken m =
      ⟨.ok (), m.standingAt (if taken then target - 1 else m.registers.pc + 1), ns⟩ := by
    rw [Opcode.jumpIf, Action.bind_ok hoperand]
    cases taken <;> exact ⟨_, rfl⟩
  obtain ⟨ns, hrun⟩ : ∃ ns, o.run m = ⟨.ok (), m.standingAt
      (if o.jumps m.registers then target - 1 else m.registers.pc + 1), ns⟩ := by
    obtain ⟨ns, hjumped⟩ := hjump (o.jumps m.registers)
    have hmachine : Action.machine m = ⟨.ok m, m, []⟩ := rfl
    cases o with
    | jumpLess | jumpEqual | jumpGreater => exact ⟨_, Action.bind_eq hmachine hjumped⟩
    | _ => simp [Opcode.conditionals] at ho
  have hcontrol : o.control = .proceed := by
    cases o <;> first | rfl | simp [Opcode.conditionals] at ho
  have hstep := step_of_run hdeed hcontrol hrun
  have hmoved (pc : UInt8) : (m.standingAt pc).advanced = m.standingAt (pc + 1) := rfl
  have hnext : (if o.jumps m.registers then target - 1 else m.registers.pc + 1) + 1 =
      if o.jumps m.registers then target else m.registers.pc + 2 := by
    split
    · exact UInt8.sub_add_cancel _ _
    · exact UInt8.add_assoc _ 1 1
  rw [hmoved, hnext] at hstep
  exact ⟨_, hstep⟩

end Machine

end ByteMachine
