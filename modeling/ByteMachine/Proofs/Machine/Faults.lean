import ByteMachine.Proofs.Histories
import ByteMachine.Proofs.Machine.Stack
import ByteMachine.Proofs.Machine.Successor

/-!
# How an instruction fails

An instruction fails for want of a cell, or because there is no operation with its code. The
conditions are written down here as a list of checks, each with the fault that it finds; they
speak of the registers, of the size of memory, and of the two bytes at the program counter,
and not of what has been executed so far. No other condition makes an instruction fail. One
that fails has done little: it has moved the program counter on to its operand if it has one,
and a call has noted where it would return to.
-/

namespace ByteMachine

/-- Whether the operand of an operation is the address of a cell that it needs. -/
def Opcode.isIndirect : Opcode → Bool
  | load | store | add | sub | compare => true
  | _ => false

/-- An operation with an address has an operand. -/
theorem Opcode.form_ne_bare_of_isIndirect {o : Opcode} (h : o.isIndirect = true) :
    o.form ≠ .bare := by
  cases o <;> first | decide | cases h

namespace Machine

/-- The fault of an address that lies beyond memory. -/
def beyond? (m : Machine) (address : UInt8) : Option Fault :=
  if m.memory.size ≤ address.toNat then
    some (.memory (.outOfBounds address.toNat m.memory.size))
  else none

/-- What is checked about an instruction, in this order. -/
inductive Check where
  /-- There is a byte under the program counter. -/
  | counter
  /-- It is the code of an operation. -/
  | code
  /-- There is a byte behind it, if the operation has an operand. -/
  | operand
  /-- There is a cell with this byte as its address, if the operation needs one. -/
  | address
  /-- There is a cell under the stack pointer, if the operation is a push. -/
  | stack
  deriving DecidableEq, Repr

/-- The checks in their order. -/
def Check.order : List Check := [counter, code, operand, address, stack]

/-- What a check finds. -/
def Check.fault? (m : Machine) : Check → Option Fault
  | counter => m.beyond? m.registers.pc
  | code => m.memory.cells[m.registers.pc.toNat]?.bind fun byte =>
    if Opcode.ofByte? byte = none then some (.unknownOpcode m.registers.pc byte) else none
  | operand => m.current?.bind fun o =>
    if o.form = .bare then none else m.beyond? (m.registers.pc + 1)
  | address => m.current?.bind fun o =>
    if o.isIndirect then m.memory.cells[(m.registers.pc + 1).toNat]?.bind m.beyond? else none
  | stack => m.current?.bind fun o => if o = .push then m.beyond? m.registers.sp else none

/-- The fault of the instruction under the program counter: what the first check that fails
finds. -/
def fault? (m : Machine) : Option Fault := Check.order.findSome? (Check.fault? m)

/-- A machine that has begun an operation: the program counter has moved on to its operand,
and a call has noted where it returns to. -/
def begun (m : Machine) (o : Opcode) : Machine :=
  { m with
    registers := { m.registers with
      pc := if o.form = .bare then m.registers.pc else m.registers.pc + 1
      ret := if o = .call then m.registers.pc + 1 else m.registers.ret } }

/-- A machine that has begun the operation under its program counter, if there is one. -/
def brokenOff (m : Machine) : Machine := m.current?.elim m m.begun

variable {m : Machine} {o : Opcode}

/-- Exactly the operations without an operand are begun without a change of the registers. -/
theorem registers_begun_eq_iff : (m.begun o).registers = m.registers ↔ o.form = .bare := by
  constructor
  · intro hsame
    by_contra hform
    have hpc := congrArg RegisterFile.pc hsame
    dsimp only [begun] at hpc
    rw [if_neg hform] at hpc
    have hmoved : m.registers.pc + 1 ≠ m.registers.pc := by
      rw [Ne, UInt8.add_eq_left]
      decide
    exact hmoved hpc
  · intro hform
    have hcall : o ≠ .call := by
      rintro rfl
      cases hform
    dsimp only [begun]
    rw [if_pos hform, if_neg hcall]

theorem beyond?_eq_some_iff {address : UInt8} {fault : Fault} :
    m.beyond? address = some fault ↔
      m.memory.size ≤ address.toNat ∧
        fault = .memory (.outOfBounds address.toNat m.memory.size) := by
  unfold beyond?
  split
  · rename_i hbeyond
    simp [hbeyond, eq_comm]
  · rename_i hinside
    simp [hinside]

theorem beyond?_eq_none_iff {address : UInt8} :
    m.beyond? address = none ↔ address.toNat < m.memory.size := by
  unfold beyond?
  split
  · rename_i hbeyond
    simp [Nat.not_lt.mpr hbeyond]
  · rename_i hinside
    simp [Nat.not_le.mp hinside]

/-- Where all checks but one find nothing, the fault is what this one finds. -/
theorem fault?_of_others {check : Check}
    (hothers : ∀ other : Check, other ≠ check → other.fault? m = none) :
    m.fault? = check.fault? m := by
  cases hfound : check.fault? m with
  | none =>
    refine List.findSome?_eq_none_iff.mpr fun other _ => ?_
    by_cases heq : other = check
    · rw [heq]
      exact hfound
    · exact hothers other heq
  | some fault =>
    cases check <;> simp [fault?, Check.order, hothers, hfound]

/-- In the largest memory a byte cannot lie beyond. -/
theorem beyond?_of_largest (h : m.memory.size = maxMemorySize) (address : UInt8) :
    m.beyond? address = none := by
  have hbyte := address.toNat_lt
  rw [beyond?_eq_none_iff, h, maxMemorySize]
  exact hbyte

/-- In the largest memory only the code of an instruction can be at fault. -/
theorem fault?_of_largest (h : m.memory.size = maxMemorySize) :
    m.fault? = Check.code.fault? m := by
  refine fault?_of_others fun other hother => ?_
  have hinside : m.beyond? = fun _ => none := funext (beyond?_of_largest h)
  cases other with
  | code => exact absurd rfl hother
  | counter | operand | address | stack => simp [Check.fault?, hinside]

/-- An operation that has no address and is no push fails only for want of its operand. -/
theorem fault?_of_direct (ho : m.current? = some o) (hdirect : o.isIndirect = false)
    (hpush : o ≠ .push) : m.fault? = Check.operand.fault? m := by
  refine fault?_of_others fun other hother => ?_
  have hbyte := Memory.load_eq_ok_iff.mp (current?_eq_some_iff.mp ho)
  cases other with
  | operand => exact absurd rfl hother
  | counter => exact beyond?_eq_none_iff.mpr (List.getElem?_eq_some_iff.mp hbyte).1
  | code =>
    rw [Check.fault?, hbyte, Option.bind_some, Opcode.ofByte?_code]
    exact if_neg nofun
  | address =>
    rw [Check.fault?, ho, Option.bind_some, hdirect]
    exact if_neg nofun
  | stack => rw [Check.fault?, ho, Option.bind_some, if_neg hpush]

end Machine

namespace Opcode

open ByteMachine.Action (given given_apply outcome_given_bind)

variable {m : Machine} {o : Opcode}

/-- An operation whose operand cannot be read fails when it has only been begun. -/
theorem run_of_operand_error {e : MemoryError} (hform : o.form ≠ .bare)
    (h : m.memory.load (m.registers.pc + 1) = .error e) :
    ∃ ns, o.run m = ⟨.error (.fault (.memory e)), m.begun o, ns⟩ := by
  have hoperand := Action.operand_eq_error h
  have hmachine : Action.machine m = ⟨.ok m, m, []⟩ := rfl
  cases o with
  | stop | inc | dec | push | pop | ret | random => exact absurd rfl hform
  | jumpLess | jumpGreater | jumpEqual =>
    exact ⟨_, Action.bind_eq hmachine (Action.bind_error hoperand)⟩
  | call =>
    -- the return address is written first, which moves neither memory nor the counter
    have hregister : Action.register .pc m = ⟨.ok m.registers.pc, m, []⟩ := rfl
    have hwrite : Action.write .ret (m.registers.pc + 1) m =
        ⟨.ok (), m.returning, [.register .ret (m.registers.pc + 1)]⟩ := rfl
    have hreturning : m.returning.memory.load (m.returning.registers.pc + 1) = .error e := h
    exact ⟨_, Action.bind_eq hregister (Action.bind_eq hwrite
      (Action.bind_error (Action.operand_eq_error hreturning)))⟩
  | _ => exact ⟨_, Action.bind_error hoperand⟩

/-- An operation whose operand is an address beyond memory fails when it has only been
begun. -/
theorem run_of_address_beyond {address : UInt8} (hindirect : o.isIndirect = true)
    (h : m.memory.load (m.registers.pc + 1) = .ok address)
    (hbeyond : m.memory.size ≤ address.toNat) :
    ∃ ns, o.run m =
      ⟨.error (.fault (.memory (.outOfBounds address.toNat m.memory.size))), m.begun o, ns⟩ := by
  have hoperand : Action.operand m =
      ⟨.ok address, m.advanced, [.register .pc (m.registers.pc + 1)]⟩ := by
    rw [Action.operand_eq_given h, given_apply]
  -- moving on to the operand leaves memory alone
  have hadvanced : m.advanced.memory.size ≤ address.toNat := hbeyond
  cases o with
  | load | add | sub | compare =>
    have hload := Action.load_of_error (Memory.load_of_size_le hadvanced)
    exact ⟨_, Action.bind_eq hoperand (Action.bind_error hload)⟩
  | store =>
    have hra : Action.register .ra m.advanced = ⟨.ok m.registers.ra, m.advanced, []⟩ := rfl
    exact ⟨_, Action.bind_eq hoperand
      (Action.bind_eq hra (Action.store_of_size_le hadvanced m.registers.ra))⟩
  | _ => cases hindirect

/-- A jump to an operand that is given goes through, taken or not. -/
theorem outcome_jumpIf_given (value : UInt8) (taken : Bool) (m : Machine) :
    (jumpIf (given value) taken m).outcome = .ok () := by
  cases taken <;> rfl

/-- A suspension may run over the clock, but it does not fail. -/
theorem outcome_sleep_ne_fault (timeout : Option Nat) (m : Machine) (fault : Fault) :
    (Action.sleep timeout m).outcome ≠ .error (.fault fault) := by
  unfold Action.sleep
  split <;> exact nofun

/-- An operation that has all the cells it needs does not fail. -/
theorem outcome_run_ne_fault {value : UInt8}
    (hoperand : o.form ≠ .bare → m.memory.load (m.registers.pc + 1) = .ok value)
    (haddress : o.isIndirect = true → value.toNat < m.memory.size)
    (hstack : o = .push → m.registers.sp.toNat < m.memory.size) (fault : Fault) :
    (o.run m).outcome ≠ .error (.fault fault) := by
  have hadvanced (hindirect : o.isIndirect = true) : value.toNat < m.advanced.memory.size :=
    haddress hindirect
  rw [run_eq_runWith_given hoperand]
  intro hfault
  cases o with
  | stop | inc | dec | ret | random | addi | subi | comparei | movei | jump | call => cases hfault
  | jumpLess | jumpGreater | jumpEqual =>
    cases (outcome_jumpIf_given value _ m).symm.trans hfault
  | push => cases (outcome_run_push_iff.mpr (hstack rfl)).symm.trans hfault
  | pop => cases (outcome_run_pop m).symm.trans hfault
  | load | add | sub | compare =>
    have hcell := Memory.load_eq_ok_iff.mpr (List.getElem?_eq_getElem (hadvanced rfl))
    rw [runWith, outcome_given_bind, Action.bind_ok (Action.load_of_ok hcell)] at hfault
    cases hfault
  | store =>
    have hra : Action.register .ra m.advanced = ⟨.ok m.registers.ra, m.advanced, []⟩ := rfl
    rw [runWith, outcome_given_bind, Action.bind_ok hra, Action.store_of_lt (hadvanced rfl)]
      at hfault
    cases hfault
  | input =>
    rw [runWith, outcome_given_bind] at hfault
    split at hfault
    · have hsleep := outcome_sleep_ne_fault none m.advanced fault
      have hrequest (u : Unit) (m : Machine) :
          (Action.requestInput m).outcome ≠ .error (.fault fault) := by
        intro hrequested
        cases hrequested
      exact Action.outcome_bind_ne hsleep hrequest hfault
    · cases hfault
  | output =>
    rw [runWith, outcome_given_bind] at hfault
    split at hfault <;> cases hfault
  | sleep =>
    rw [runWith, outcome_given_bind] at hfault
    exact outcome_sleep_ne_fault _ _ fault hfault

end Opcode

namespace Machine

variable {m : Machine} {o : Opcode} {fault : Fault}

/-- A cycle whose operation fails comes to what the operation has come to. -/
theorem cycle_of_run_error (ho : m.current? = some o) {ns : List Notice}
    (hrun : o.run m = ⟨.error (.fault fault), m.begun o, ns⟩) :
    cycle m = ⟨.error (.fault fault), m.brokenOff, ns⟩ := by
  rw [cycle_eq_complete (current?_eq_some_iff.mp ho), complete, Action.bind_error hrun, brokenOff,
    ho, Option.elim_some]

/-- Where a check fails, the cycle fails with what it finds. -/
theorem cycle_of_check {check : Check} (h : check.fault? m = some fault) :
    ∃ ns, cycle m = ⟨.error (.fault fault), m.brokenOff, ns⟩ := by
  cases check with
  | counter =>
    obtain ⟨hbeyond, rfl⟩ := beyond?_eq_some_iff.mp h
    have hload := Memory.load_of_size_le hbeyond
    have hcurrent : m.current? = none := by
      rw [current?, hload]
      rfl
    rw [cycle, Action.bind_error (fetch_of_error hload), brokenOff, hcurrent]
    exact ⟨_, rfl⟩
  | code =>
    obtain ⟨byte, hbyte, hcode⟩ := Option.bind_eq_some_iff.mp h
    split at hcode
    · rename_i hnone
      cases hcode
      have hload := Memory.load_eq_ok_iff.mpr hbyte
      have hcurrent : m.current? = none := by
        rw [current?, hload]
        exact hnone
      have hfetch := fetch_of_ok hload
      rw [hnone] at hfetch
      rw [cycle, Action.bind_error hfetch, brokenOff, hcurrent]
      exact ⟨_, rfl⟩
    · cases hcode
  | operand =>
    obtain ⟨o, ho, hoperand⟩ := Option.bind_eq_some_iff.mp h
    split at hoperand
    · cases hoperand
    · rename_i hform
      obtain ⟨hbeyond, rfl⟩ := beyond?_eq_some_iff.mp hoperand
      obtain ⟨ns, hrun⟩ := Opcode.run_of_operand_error hform (Memory.load_of_size_le hbeyond)
      exact ⟨ns, cycle_of_run_error ho hrun⟩
  | address =>
    obtain ⟨o, ho, haddress⟩ := Option.bind_eq_some_iff.mp h
    split at haddress
    · rename_i hindirect
      obtain ⟨address, hcell, hfault⟩ := Option.bind_eq_some_iff.mp haddress
      obtain ⟨hbeyond, rfl⟩ := beyond?_eq_some_iff.mp hfault
      have hload := Memory.load_eq_ok_iff.mpr hcell
      obtain ⟨ns, hrun⟩ := Opcode.run_of_address_beyond hindirect hload hbeyond
      exact ⟨ns, cycle_of_run_error ho hrun⟩
    · cases haddress
  | stack =>
    obtain ⟨o, ho, hstack⟩ := Option.bind_eq_some_iff.mp h
    split at hstack
    · rename_i hpush
      subst hpush
      obtain ⟨hbeyond, rfl⟩ := beyond?_eq_some_iff.mp hstack
      exact ⟨_, cycle_of_run_error ho (Opcode.run_push_of_le hbeyond)⟩
    · cases hstack

/-- What passes all checks is an operation that has all the cells it needs. -/
theorem exists_operation_of_checks (hchecks : ∀ check : Check, check.fault? m = none) :
    ∃ o value, m.current? = some o ∧
      (o.form ≠ .bare → m.memory.load (m.registers.pc + 1) = .ok value) ∧
      (o.isIndirect = true → value.toNat < m.memory.size) ∧
      (o = .push → m.registers.sp.toNat < m.memory.size) := by
  have hbyte := List.getElem?_eq_getElem (beyond?_eq_none_iff.mp (hchecks .counter))
  have hcode := hchecks .code
  rw [Check.fault?, hbyte, Option.bind_some] at hcode
  obtain ⟨o, hopcode⟩ := Option.ne_none_iff_exists'.mp fun hnone => by
    rw [if_pos hnone] at hcode
    cases hcode
  have hload : m.memory.load m.registers.pc = .ok o.code := by
    rw [Memory.load_eq_ok_iff, hbyte, Opcode.code_of_ofByte? hopcode]
  have ho := current?_eq_some_iff.mpr hload
  have hstack : o = .push → m.registers.sp.toNat < m.memory.size := by
    intro hpush
    have hcheck := hchecks .stack
    rw [Check.fault?, ho, Option.bind_some, if_pos hpush] at hcheck
    exact beyond?_eq_none_iff.mp hcheck
  by_cases hform : o.form = .bare
  · refine ⟨o, 0, ho, fun hne => absurd hform hne, ?_, hstack⟩
    exact fun hindirect => absurd hform (Opcode.form_ne_bare_of_isIndirect hindirect)
  · have hoperand := hchecks .operand
    rw [Check.fault?, ho, Option.bind_some, if_neg hform] at hoperand
    have hcell := List.getElem?_eq_getElem (beyond?_eq_none_iff.mp hoperand)
    refine ⟨o, _, ho, fun _ => Memory.load_eq_ok_iff.mpr hcell, ?_, hstack⟩
    intro hindirect
    have haddress := hchecks .address
    rw [Check.fault?, ho, Option.bind_some, if_pos hindirect, hcell, Option.bind_some]
      at haddress
    exact beyond?_eq_none_iff.mp haddress

/-- Where all checks pass, the cycle does not fail. -/
theorem outcome_cycle_ne_fault (h : m.fault? = none) :
    (cycle m).outcome ≠ .error (.fault fault) := by
  have hchecks (check : Check) : check.fault? m = none :=
    List.findSome?_eq_none_iff.mp h check (by cases check <;> decide)
  obtain ⟨o, value, ho, hoperand, haddress, hstack⟩ := exists_operation_of_checks hchecks
  rw [cycle_eq_complete (current?_eq_some_iff.mp ho)]
  refine Action.outcome_bind_ne (o.outcome_run_ne_fault hoperand haddress hstack fault) ?_
  intro u m'
  cases o.control <;> exact nofun

/-- A step of a running program fails with what the first check that fails has found, and
leaves the machine with the instruction begun and the run ended. -/
theorem step_of_fault? (hrunning : m.scheduler.state = .running) (h : m.fault? = some fault) :
    ∃ ns, m.step = some
      ⟨.error fault, { m.brokenOff with scheduler := m.scheduler.stop }, ns⟩ := by
  obtain ⟨check, -, hcheck⟩ := List.exists_of_findSome?_eq_some h
  obtain ⟨ns, hcycle⟩ := cycle_of_check hcheck
  have hscheduler : m.brokenOff.scheduler = m.scheduler := by
    unfold brokenOff
    cases m.current? <;> rfl
  rw [step, if_pos hrunning, hcycle, conclude, hscheduler]
  exact ⟨ns, rfl⟩

/-- A step of a running program that passes all checks does not answer with a fault. -/
theorem answer_of_fault?_eq_none (h : m.fault? = none)
    {r : Reply Machine (Except Fault Unit)} (hr : m.step = some r) : r.answer = .ok () := by
  unfold step conclude at hr
  split at hr
  · split at hr
    · cases hr
      rfl
    · rename_i hfault
      exact absurd hfault (outcome_cycle_ne_fault h)
    · cases hr
  · cases hr
    rfl

/-- A step of a running program answers with a fault exactly if that is what the first check
that fails has found. -/
theorem step_error_iff (hrunning : m.scheduler.state = .running) :
    (∃ r, m.step = some r ∧ r.answer = .error fault) ↔ m.fault? = some fault := by
  constructor
  · rintro ⟨r, hr, hanswer⟩
    cases hfault : m.fault? with
    | none => cases (answer_of_fault?_eq_none hfault hr).symm.trans hanswer
    | some found =>
      obtain ⟨ns, hstep⟩ := step_of_fault? hrunning hfault
      cases hstep.symm.trans hr
      cases hanswer
      rfl
  · intro hfault
    obtain ⟨ns, hstep⟩ := step_of_fault? hrunning hfault
    exact ⟨_, hstep, rfl⟩

end Machine

end ByteMachine
