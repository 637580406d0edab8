import ByteMachine.Proofs.Machine.Cycle
import ByteMachine.Proofs.Machine.Operand

/-!
# Where a program goes on

An operation leaves the program counter on its last byte, or one short of where it jumps
to, and then the counter moves on by one. The two moves together lead behind the
operation, or exactly to the target, address zero included.
-/

namespace ByteMachine

open ByteMachine.Action (Keeps given)

/-- Whether an operation goes on at the address that is its operand. -/
def Opcode.jumps (o : Opcode) (f : RegisterFile) : Bool :=
  match o with
  | jump | call => true
  | jumpLess => f.flag .n
  | jumpGreater => !f.flag .n && !f.flag .z
  | jumpEqual => f.z == 1
  | _ => false

/-- Where a program goes on after an operation, given the registers before it, its operand,
and the address behind it. The end of a program stays where it is. -/
def Opcode.successor (o : Opcode) (f : RegisterFile) (value next : UInt8) : UInt8 :=
  if o.jumps f then value
  else
    match o with
    | ret => f.ret + 1
    | stop => f.pc
    | _ => next

namespace Opcode

/-- Where an operation leaves the program counter before it moves on. -/
def resting (o : Opcode) (f : RegisterFile) (value : UInt8) : UInt8 :=
  if o.jumps f then value - 1
  else
    match o with
    | ret => f.ret
    | _ => if o.form = .bare then f.pc else f.pc + 1

/-- The final move leads from where an operation rests to its successor. -/
theorem resting_add_one {o : Opcode} (h : o.control = .proceed) (f : RegisterFile)
    (value : UInt8) : o.resting f value + 1 = o.successor f value (f.pc + UInt8.ofNat o.width) := by
  have htwo : f.pc + 1 + 1 = f.pc + 2 := UInt8.add_assoc _ 1 1
  unfold resting successor
  by_cases hjumps : o.jumps f = true
  · rw [if_pos hjumps, if_pos hjumps, UInt8.sub_add_cancel]
  · rw [if_neg hjumps, if_neg hjumps]
    cases o with
    | stop => cases h
    | ret => rfl
    | inc | dec | push | pop | random => rfl
    | _ => exact htwo

variable (value : UInt8) (m : Machine)

/-- What leaves the program counter alone leaves it on the operand it was given. -/
theorem pc_given_bind {f : UInt8 → Action Unit}
    (hf : ∀ v, Keeps (fun m => m.registers.get .pc) (f v)) :
    ((given value >>= f) m).machine.registers.pc = m.registers.pc + 1 := by
  rw [Action.machine_given_bind]
  exact hf value m.advanced

/-- A jump that is taken leaves the counter one short of its target. -/
theorem pc_jumpIf (taken : Bool) :
    (jumpIf (given value) taken m).machine.registers.pc =
      if taken then value - 1 else m.registers.pc + 1 := by
  rw [jumpIf, Action.machine_given_bind]
  cases taken <;> rfl

/-- A call leaves the counter one short of its target and remembers where its operand is. -/
theorem registers_call :
    (call.runWith (given value) m).machine.registers.pc = value - 1 ∧
      (call.runWith (given value) m).machine.registers.ret = m.registers.pc + 1 := by
  have hregister : Action.register .pc m = ⟨.ok m.registers.pc, m, []⟩ := rfl
  have hwrite : Action.write .ret (m.registers.pc + 1) m =
      ⟨.ok (), m.returning, [.register .ret (m.registers.pc + 1)]⟩ := rfl
  rw [runWith, Action.bind_ok hregister, Action.bind_ok hwrite]
  constructor
  · exact pc_jumpIf value m.returning true
  · rw [jumpIf, Action.machine_given_bind]
    rfl

/-- An operation leaves the program counter on its last byte, unless it jumps. -/
theorem pc_runWith_given (o : Opcode) :
    (o.runWith (given value) m).machine.registers.pc = o.resting m.registers value := by
  have hne : Register.pc ≠ .ra := by decide
  have hkeep {x : Action Unit} (hx : Keeps (fun m => m.registers.get .pc) x) :
      (x m).machine.registers.pc = m.registers.pc := hx m
  cases o with
  | inc => exact hkeep (.increment hne rfl 1)
  | dec => exact hkeep (.decrement hne rfl 1)
  | addi => exact pc_given_bind value m fun v => .increment hne rfl v
  | subi => exact pc_given_bind value m fun v => .decrement hne rfl v
  | comparei => exact pc_given_bind value m fun v => .compareWith rfl v
  | movei => exact pc_given_bind value m fun v => .write hne v
  | add =>
    exact pc_given_bind value m fun v => .bind (.load v) fun w => .increment hne rfl w
  | sub =>
    exact pc_given_bind value m fun v => .bind (.load v) fun w => .decrement hne rfl w
  | compare =>
    exact pc_given_bind value m fun v => .bind (.load v) fun w => .compareWith rfl w
  | load =>
    exact pc_given_bind value m fun v => .bind (.load v) fun w => .write hne w
  | store =>
    refine pc_given_bind value m fun v => .bind (.register .ra) fun w => ?_
    exact (Action.keeps_registers_store v w).comp fun f => f.get .pc
  | jump => exact pc_jumpIf value m true
  | call => exact (registers_call value m).1
  | jumpLess => exact pc_jumpIf value m (m.registers.flag .n)
  | jumpGreater => exact pc_jumpIf value m (!m.registers.flag .n && !m.registers.flag .z)
  | jumpEqual => exact pc_jumpIf value m (m.registers.z == 1)
  | ret => rfl
  | stop => rfl
  | push =>
    refine hkeep (.bind (.register .sp) fun s => .bind (.register .ra) fun a => ?_)
    refine .bind ?_ fun _ => .decrement (by decide) rfl 1
    exact (Action.keeps_registers_store s a).comp fun f => f.get .pc
  | pop =>
    refine hkeep (.bind .machine fun m => ?_)
    split
    · refine .bind (.increment (by decide) rfl 1) fun _ => .bind (.register .sp) fun s => ?_
      exact (Action.keeps_registers_store s 0).comp fun f => f.get .pc
    · exact .pure ()
  | input =>
    refine pc_given_bind value m fun v => ?_
    split
    · refine .bind ?_ fun _ => ?_
      · exact (Action.keeps_registers_sleep none).comp fun f => f.get .pc
      · exact Action.keeps_registers_requestInput.comp fun f => f.get .pc
    · exact .pure ()
  | output =>
    refine pc_given_bind value m fun v => ?_
    split
    · refine .bind (.register .ra) fun a => ?_
      exact (Action.keeps_registers_putOut a).comp fun f => f.get .pc
    · exact .pure ()
  | sleep =>
    refine pc_given_bind value m fun v => .bind .machine fun m => ?_
    exact (Action.keeps_registers_sleep _).comp fun f => f.get .pc
  | random =>
    refine hkeep (.bind ?_ fun v => .write hne v)
    exact Action.keeps_registers_randomByte.comp fun f => f.get .pc

end Opcode

namespace Machine

variable {m : Machine} {o : Opcode}

@[simp]
theorem pc_advanced (m : Machine) : m.advanced.registers.pc = m.registers.pc + 1 := rfl

@[simp]
theorem ret_advanced (m : Machine) : m.advanced.registers.ret = m.registers.ret := rfl

/-- An operation that goes through is followed by the move of the program counter, or by
the end of the run. -/
theorem machine_complete {body : Action Unit} (h : (complete o body m).outcome = .ok ()) :
    (complete o body m).machine =
      match o.control with
      | .proceed => (body m).machine.advanced
      | .halt => { (body m).machine with scheduler := (body m).machine.scheduler.stop } := by
  cases hbody : body m with
  | mk outcome machine notices =>
    cases outcome with
    | error i =>
      rw [complete, Action.bind_error hbody] at h
      cases h
    | ok u =>
      rw [complete, Action.bind_ok hbody]
      cases o.control with
      | proceed =>
        dsimp only
        rw [Action.increment_pc_apply]
      | halt => rfl

/-- With its operand behind it, that is the operation on the operand. -/
theorem cycle_eq_complete_given {value : UInt8} (h : m.memory.load m.registers.pc = .ok o.code)
    (hvalue : o.form ≠ .bare → m.memory.load (m.registers.pc + 1) = .ok value) :
    cycle m = complete o (o.runWith (given value)) m := by
  rw [cycle_eq_complete h, complete, complete, Action.bind_apply, Action.bind_apply,
    Opcode.run_eq_runWith_given hvalue]

/-- An operation that goes through leaves the program counter on its successor. -/
theorem pc_complete {value : UInt8}
    (h : (complete o (o.runWith (given value)) m).outcome = .ok ()) :
    (complete o (o.runWith (given value)) m).machine.registers.pc =
      o.successor m.registers value (m.registers.pc + UInt8.ofNat o.width) := by
  have hpc := o.pc_runWith_given value m
  rw [machine_complete h]
  cases hcontrol : o.control with
  | halt =>
    have hstop : o = .stop := by
      cases o <;> first | rfl | cases hcontrol
    subst hstop
    exact hpc
  | proceed =>
    dsimp only
    rw [pc_advanced, hpc, Opcode.resting_add_one hcontrol]

/-- A call that goes through remembers the address of its operand. -/
theorem ret_complete_call {value : UInt8}
    (h : (complete .call (Opcode.call.runWith (given value)) m).outcome = .ok ()) :
    (complete .call (Opcode.call.runWith (given value)) m).machine.registers.ret =
      m.registers.pc + 1 := by
  have hcontrol : Opcode.call.control = .proceed := rfl
  rw [machine_complete h, hcontrol]
  dsimp only
  rw [ret_advanced, (Opcode.registers_call value m).2]

/-- The end of a program stops the run. -/
theorem state_complete_stop {body : Action Unit}
    (h : (complete .stop body m).outcome = .ok ()) :
    (complete .stop body m).machine.scheduler.state = .stopped := by
  rw [machine_complete h]
  rfl

end Machine

end ByteMachine
