import ByteMachine.Proofs.Machine.Faults

/-!
# Steps that fail

A step of a running program fails exactly where one of the checks of its instruction does,
with what the first of them has found. It ends the run, and nothing that the program has
stored, put out or drawn is touched. But the registers are not always those that the
instruction has found: one with an operand has moved the program counter on to it by then,
and a call has set the return register.
-/

namespace ByteMachine.Computer

variable {c : Computer} {o : Opcode} {fault : Fault} {r : Reply Computer (Except Fault Unit)}

/-- A step fails exactly if the step of its machine does. -/
theorem step_error_iff_fault? (hrunning : c.state = .running) :
    (∃ r, c.step = some r ∧ r.answer = .error fault) ↔ c.machine.fault? = some fault := by
  rw [← Machine.step_error_iff hrunning]
  constructor
  · rintro ⟨r, hr, hanswer⟩
    obtain ⟨r', hr', rfl⟩ := Option.map_eq_some_iff.mp hr
    exact ⟨r', hr', hanswer⟩
  · rintro ⟨r', hr', hanswer⟩
    exact ⟨_, Option.map_eq_some_iff.mpr ⟨r', hr', rfl⟩, hanswer⟩

/-- A step that fails leaves the instruction begun and the run ended. -/
theorem next_of_step_error (hrunning : c.state = .running) (hr : c.step = some r)
    (hfault : r.answer = .error fault) :
    r.next = { c with machine :=
      { c.machine.brokenOff with scheduler := c.machine.scheduler.stop } } := by
  have hfound := (step_error_iff_fault? hrunning).mp ⟨r, hr, hfault⟩
  obtain ⟨ns, hstep⟩ := Machine.step_of_fault? hrunning hfound
  rw [step, hstep, Option.map_some] at hr
  cases hr
  rfl

/-- A running program fails in its next step exactly if a check of the instruction does: the
program counter has to be inside memory, the byte under it the code of an operation, the
next address inside memory if there is an operand, the operand inside memory if it is an
address, and the stack pointer inside memory if the operation is a push. The first of these
that fails is what is reported. Whatever is reported, the run has ended without a timer and
without a question. So an operation that has its operand, no address and is no push goes
through, and in the largest memory only a code that stands for no operation is reported. -/
theorem step_fails_on_first_check (hrunning : c.state = .running) :
    (∀ fault, (∃ r, c.step = some r ∧ r.answer = .error fault) ↔
      c.machine.fault? = some fault) ∧
    (∀ r fault, c.step = some r → r.answer = .error fault →
      r.next.state = .stopped ∧ r.next.timeToWake = none ∧ r.next.isAwaitingInput = false) ∧
    (∀ o, c.machine.current? = some o → o.isIndirect = false → o ≠ .push →
      (o.form ≠ .bare → (c.machine.registers.pc + 1).toNat < c.machine.memory.size) →
      ∀ r, c.step = some r → r.answer = .ok ()) ∧
    (c.machine.memory.size = maxMemorySize →
      ∀ r fault, c.step = some r → r.answer = .error fault →
        ∃ byte, c.machine.memory.load c.machine.registers.pc = .ok byte ∧
          Opcode.ofByte? byte = none ∧
          fault = .unknownOpcode c.machine.registers.pc byte) := by
  refine ⟨fun fault => step_error_iff_fault? hrunning, ?_, ?_, ?_⟩
  · intro r fault hr hfault
    rw [next_of_step_error hrunning hr hfault]
    exact ⟨rfl, rfl, rfl⟩
  · intro o ho hdirect hpush hoperand r hr
    have hnone : c.machine.fault? = none := by
      rw [Machine.fault?_of_direct ho hdirect hpush, Machine.Check.fault?, ho, Option.bind_some]
      split
      · rfl
      · rename_i hform
        exact Machine.beyond?_eq_none_iff.mpr (hoperand hform)
    obtain ⟨r', hr', rfl⟩ := Option.map_eq_some_iff.mp hr
    exact Machine.answer_of_fault?_eq_none hnone hr'
  · intro hsize r fault hr hfault
    have hfound := (step_error_iff_fault? hrunning).mp ⟨r, hr, hfault⟩
    rw [Machine.fault?_of_largest hsize, Machine.Check.fault?] at hfound
    obtain ⟨byte, hbyte, hcode⟩ := Option.bind_eq_some_iff.mp hfound
    split at hcode
    · rename_i hnone
      cases hcode
      exact ⟨byte, Memory.load_eq_ok_iff.mpr hbyte, hnone, rfl⟩
    · cases hcode

/-- A program is loaded and started. -/
def starting (source : String) : List Command := [.assemble source, .run]

/-- An addition of a cell that is not there fails at its address, although it is the last
thing to be checked. -/
theorem starting_fails_on_address : ∃ c r, ofSettings { memorySize := 2 } 0 = .ok c ∧
    c.performAll (starting "ADD RA, 05") = some r ∧ r.next.state = .running ∧
    ∃ s, r.next.step = some s ∧ s.answer = .error (.memory (.outOfBounds 5 2)) := by
  refine ⟨_, _, rfl, rfl, rfl, ?_⟩
  exact ((step_fails_on_first_check rfl).1 (.memory (.outOfBounds 5 2))).mpr rfl

/-- A step that fails changes nothing but the run state and two registers. If there is no
operation under the program counter, both are as before. Otherwise the program counter has
moved on to the operand, if the operation has one, and a call has set the return register to
this address. So all registers are as the instruction has found them exactly if it has no
operand. -/
theorem failed_step_has_moved_counter (hrunning : c.state = .running) (hr : c.step = some r)
    (hfault : r.answer = .error fault) :
    r.next = { c with machine := { c.machine with
      registers := r.next.machine.registers, scheduler := c.machine.scheduler.stop } } ∧
    (c.machine.current? = none → r.next.machine.registers = c.machine.registers) ∧
    (∀ o, c.machine.current? = some o → r.next.machine.registers =
      { c.machine.registers with
        pc := if o.form = .bare then c.machine.registers.pc else c.machine.registers.pc + 1
        ret := if o = .call then c.machine.registers.pc + 1 else c.machine.registers.ret }) ∧
    (r.next.machine.registers = c.machine.registers ↔
      ∀ o, c.machine.current? = some o → o.form = .bare) := by
  have hregisters : r.next.machine.registers = c.machine.brokenOff.registers := by
    rw [next_of_step_error hrunning hr hfault]
  rw [hregisters, next_of_step_error hrunning hr hfault]
  cases ho : c.machine.current? with
  | none =>
    rw [Machine.brokenOff, ho]
    refine ⟨rfl, fun _ => rfl, ?_, ?_⟩
    · intro o ho
      cases ho
    · simp
  | some o =>
    rw [Machine.brokenOff, ho, Option.elim_some, Machine.registers_begun_eq_iff]
    refine ⟨rfl, ?_, ?_, ?_⟩
    · intro hnone
      cases hnone
    · intro o' ho'
      cases ho'
      rfl
    · simp

/-- The addition has moved on to its address before it has failed. -/
theorem starting_has_moved_counter : ∃ c r s, ofSettings { memorySize := 2 } 0 = .ok c ∧
    c.performAll (starting "ADD RA, 05") = some r ∧ r.next.state = .running ∧
    r.next.step = some s ∧ s.answer = .error (.memory (.outOfBounds 5 2)) ∧
    r.next.machine.registers = { sp := 1 } ∧
    s.next.machine.registers = { sp := 1, pc := 1 } := by
  obtain ⟨c, r, s, hc, hr, hrunning, hs, hfault, hfound, hcurrent⟩ :
      ∃ c r s, ofSettings { memorySize := 2 } 0 = .ok c ∧
        c.performAll (starting "ADD RA, 05") = some r ∧ r.next.state = .running ∧
        r.next.step = some s ∧ s.answer = .error (.memory (.outOfBounds 5 2)) ∧
        r.next.machine.registers = { sp := 1 } ∧ r.next.machine.current? = some .add :=
    ⟨_, _, _, rfl, rfl, rfl, rfl, rfl, rfl, rfl⟩
  obtain ⟨-, -, hbegun, -⟩ := failed_step_has_moved_counter hrunning hs hfault
  refine ⟨c, r, s, hc, hr, hrunning, hs, hfault, hfound, ?_⟩
  rw [hbegun .add hcurrent, hfound]
  rfl

/-- A call in a memory of one cell has changed two registers before it has failed: they are
not those that it has found. -/
theorem starting_call_has_moved : ∃ c r s, ofSettings { memorySize := 1 } 0 = .ok c ∧
    c.performAll (starting "BYTE 11") = some r ∧ r.next.state = .running ∧
    r.next.step = some s ∧ s.answer = .error (.memory (.outOfBounds 1 1)) ∧
    r.next.machine.registers = {} ∧ s.next.machine.registers = { pc := 1, ret := 1 } ∧
    s.next.machine.registers ≠ r.next.machine.registers := by
  have hdiffer : ({ pc := 1, ret := 1 } : RegisterFile) ≠ {} := by decide
  exact ⟨_, _, _, rfl, rfl, rfl, rfl, rfl, rfl, rfl, hdiffer⟩

end ByteMachine.Computer
