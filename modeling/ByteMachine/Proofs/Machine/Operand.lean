import ByteMachine.Proofs.Machine.Action

/-!
# Operations with a given operand

An operation reads its operand by moving the program counter on and loading what is
there. Here an operation can be given its operand instead, so that what it does can be
said without a memory to read it from. The program counter moves on all the same; where
the operation then leaves it depends on the flags alone.
-/

namespace ByteMachine

/-- Moves the program counter on as if an operand were read, which is this byte. -/
def Action.given (value : UInt8) : Action UInt8 := do
  increment .pc 1
  pure value

/-- A machine with the program counter moved on by one. -/
def Machine.advanced (m : Machine) : Machine :=
  { m with registers := m.registers.set .pc (m.registers.pc + 1) }

/-- A machine that remembers to return behind the operand of a call. -/
def Machine.returning (m : Machine) : Machine :=
  { m with registers := m.registers.set .ret (m.registers.pc + 1) }

namespace Action

variable {α : Type}

/-- Moving the program counter on by one is one write, which is announced. -/
theorem increment_pc_apply (m : Machine) :
    increment .pc 1 m = ⟨.ok (), m.advanced, [.register .pc (m.registers.pc + 1)]⟩ :=
  increment_apply (r := .pc) (by decide) 1 m

theorem given_apply (value : UInt8) (m : Machine) :
    given value m = ⟨.ok value, m.advanced, [.register .pc (m.registers.pc + 1)]⟩ := by
  rw [given, bind_ok (increment_pc_apply m)]
  rfl

/-- Where the cell behind the program counter can be read, reading the operand is being
given what is there. -/
theorem operand_eq_given {m : Machine} {value : UInt8}
    (h : m.memory.load (m.registers.pc + 1) = .ok value) : operand m = given value m := by
  have hregister : register .pc m.advanced = ⟨.ok (m.registers.pc + 1), m.advanced, []⟩ := rfl
  have hload : load (m.registers.pc + 1) m.advanced = ⟨.ok value, m.advanced, []⟩ :=
    load_of_ok h
  rw [given_apply, operand, bind_ok (increment_pc_apply m), bind_ok hregister, hload]
  rfl

/-- Reading an operand that is there moves the program counter on to it. -/
theorem operand_of_ok {m : Machine} {value : UInt8}
    (h : m.memory.load (m.registers.pc + 1) = .ok value) :
    operand m = ⟨.ok value, m.advanced, [.register .pc (m.registers.pc + 1)]⟩ := by
  rw [operand_eq_given h, given_apply]

/-- Where that cell cannot be read, neither can the operand. -/
theorem operand_eq_error {m : Machine} {e : MemoryError}
    (h : m.memory.load (m.registers.pc + 1) = .error e) :
    operand m =
      ⟨.error (.fault (.memory e)), m.advanced, [.register .pc (m.registers.pc + 1)]⟩ := by
  have hregister : register .pc m.advanced = ⟨.ok (m.registers.pc + 1), m.advanced, []⟩ := rfl
  have hload : load (m.registers.pc + 1) m.advanced =
      ⟨.error (.fault (.memory e)), m.advanced, []⟩ :=
    load_of_error h
  rw [operand, bind_ok (increment_pc_apply m), bind_ok hregister, hload]
  rfl

/-- Whatever follows an operand can be given it. -/
theorem operand_bind_eq_given_bind {m : Machine} {value : UInt8}
    (h : m.memory.load (m.registers.pc + 1) = .ok value) (f : UInt8 → Action α) :
    (operand >>= f) m = (given value >>= f) m := by
  rw [bind_apply, bind_apply, operand_eq_given h]

/-- After an operand that is given, the rest sees a program counter moved on by one. -/
theorem machine_given_bind (value : UInt8) (f : UInt8 → Action α) (m : Machine) :
    ((given value >>= f) m).machine = (f value m.advanced).machine := by
  rw [bind_ok (given_apply value m)]

/-- An operand that is given does not cut the rest short. -/
theorem outcome_given_bind (value : UInt8) (f : UInt8 → Action α) (m : Machine) :
    ((given value >>= f) m).outcome = (f value m.advanced).outcome := by
  rw [bind_ok (given_apply value m)]

end Action

namespace Opcode

open ByteMachine.Action (given operand operand_bind_eq_given_bind)

/-- An operation whose operand can be read does what it does when it is given it. -/
theorem run_eq_runWith_given {o : Opcode} {m : Machine} {value : UInt8}
    (h : o.form ≠ .bare → m.memory.load (m.registers.pc + 1) = .ok value) :
    o.run m = o.runWith (given value) m := by
  have hfirst (hform : o.form ≠ .bare) (f : UInt8 → Action Unit) :
      (operand >>= f) m = (given value >>= f) m :=
    operand_bind_eq_given_bind (h hform) f
  have hmachine (f : Machine → Action Unit) : (Action.machine >>= f) m = f m m := rfl
  cases o with
  | stop | inc | dec | push | pop | ret | random => rfl
  | jumpLess | jumpGreater | jumpEqual =>
    rw [run, runWith, runWith, hmachine, hmachine]
    exact hfirst nofun _
  | call =>
    -- the return address is written first, which moves neither memory nor the counter
    have hregister : Action.register .pc m = ⟨.ok m.registers.pc, m, []⟩ := rfl
    have hwrite : Action.write .ret (m.registers.pc + 1) m =
        ⟨.ok (), m.returning, [.register .ret (m.registers.pc + 1)]⟩ := rfl
    have hload : m.returning.memory.load (m.returning.registers.pc + 1) = .ok value := h nofun
    rw [run, runWith, runWith, Action.bind_ok hregister, Action.bind_ok hregister,
      Action.bind_ok hwrite, Action.bind_ok hwrite, jumpIf, jumpIf,
      operand_bind_eq_given_bind hload]
  | _ => exact hfirst nofun _

end Opcode

end ByteMachine
