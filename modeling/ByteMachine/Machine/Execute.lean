import ByteMachine.Instruction
import ByteMachine.Machine

/-!
# Executing instructions

An instruction starts with the program counter on its code and leaves it on its
last byte; then the counter moves on by one. A jump therefore leaves the counter
one short of its target. A call remembers the address of its operand, so that a
return, after the same move, goes on behind the call.
-/

namespace ByteMachine

/-- The port that a program reads from. -/
def inputPort : UInt8 := 0

/-- The port that a program writes to. -/
def outputPort : UInt8 := 1

/-- What follows an instruction. -/
inductive Control where
  /-- The next instruction. -/
  | proceed
  /-- The end of the program. -/
  | halt
  deriving DecidableEq, Repr

namespace Opcode

section

variable (fetch : Action UInt8)

/-- Reads the target and jumps there if the condition holds. -/
def jumpIf (taken : Bool) : Action Unit := do
  let target ← fetch
  if taken then Action.write .pc (target - 1)

/-- What an operation does before the program counter moves on, where its operand is
fetched by this action. -/
def runWith : Opcode → Action Unit
  | inc => Action.increment .ra 1
  | dec => Action.decrement .ra 1
  | addi => do Action.increment .ra (← fetch)
  | subi => do Action.decrement .ra (← fetch)
  | add => do Action.increment .ra (← Action.load (← fetch))
  | sub => do Action.decrement .ra (← Action.load (← fetch))
  | comparei => do Action.compareWith (← fetch)
  | compare => do Action.compareWith (← Action.load (← fetch))
  | movei => do Action.write .ra (← fetch)
  | load => do Action.write .ra (← Action.load (← fetch))
  | store => do
    let address ← fetch
    Action.store address (← Action.register .ra)
  | jump => jumpIf fetch true
  | jumpLess => do
    let m ← Action.machine
    jumpIf fetch (m.registers.flag .n)
  | jumpGreater => do
    let m ← Action.machine
    jumpIf fetch (!m.registers.flag .n && !m.registers.flag .z)
  | jumpEqual => do
    let m ← Action.machine
    jumpIf fetch (m.registers.z == 1)
  | call => do
    let pc ← Action.register .pc
    Action.write .ret (pc + 1)
    jumpIf fetch true
  | ret => do Action.write .pc (← Action.register .ret)
  | push => do
    Action.store (← Action.register .sp) (← Action.register .ra)
    Action.decrement .sp 1
  | pop => do
    let m ← Action.machine
    if m.registers.sp.toNat < m.memory.size - 1 then
      Action.increment .sp 1
      Action.store (← Action.register .sp) 0
  | input => do
    let port ← fetch
    if port = inputPort then
      Action.sleep none
      Action.requestInput
  | output => do
    let port ← fetch
    if port = outputPort then
      Action.putOut (← Action.register .ra)
  | sleep => do
    let units ← fetch
    let m ← Action.machine
    Action.sleep (some (m.scheduler.sleepUnit * units.toNat))
  | random => do Action.write .ra (← Action.randomByte)
  | stop => pure ()

end

/-- What an operation of a program does: its operand is the byte behind its code. -/
def run (o : Opcode) : Action Unit := o.runWith Action.operand

/-- Whether the program goes on behind an operation. -/
def control : Opcode → Control
  | stop => .halt
  | _ => .proceed

end Opcode

namespace Machine

/-- Reads the code under the program counter. -/
def fetch : Action Opcode := do
  let address ← Action.register .pc
  let byte ← Action.load address
  match Opcode.ofByte? byte with
  | some opcode => pure opcode
  | none => Action.fail (.unknownOpcode address byte)

/-- An operation, and then the move of the program counter. -/
def complete (o : Opcode) (body : Action Unit) : Action Unit := do
  body
  match o.control with
  | .proceed => Action.increment .pc 1
  | .halt => Action.update fun m => { m with scheduler := m.scheduler.stop }

/-- One instruction, up to and including the move of the program counter. -/
def cycle : Action Unit := do
  let opcode ← fetch
  complete opcode opcode.run

/-- What a step comes to. A fault stops the program and is the answer. There is no reply if
the clock has no moment as late as a sleep would end. -/
def conclude (e : Effect Unit) : Option (Reply Machine (Except Fault Unit)) :=
  match e.outcome with
  | .ok () => some ⟨.ok (), e.machine, e.notices⟩
  | .error (.fault fault) =>
    some ⟨.error fault, { e.machine with scheduler := e.machine.scheduler.stop }, e.notices⟩
  | .error .clockOverflow => none

/-- One instruction of a running program. -/
def step (m : Machine) : Option (Reply Machine (Except Fault Unit)) :=
  if m.scheduler.state = .running then conclude (cycle m) else some ⟨.ok (), m, []⟩

end Machine

end ByteMachine
