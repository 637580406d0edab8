import ByteMachine.Notice
import ByteMachine.Random.Generator

/-!
# The machine and its actions

The machine is what instructions act on: memory, registers, the output latch, the
scheduler and the random generator. An action is a piece of an instruction. It
changes the machine and announces what it changed, and it may be cut short by a
fault or because the clock has no moment as late as it needs. What had been done
before that stays done.
-/

namespace ByteMachine

/-- Everything that instructions act on. -/
@[ext]
structure Machine where
  /-- The cells. -/
  memory : Memory
  /-- The register file. -/
  registers : RegisterFile := .zero
  /-- The number that was last put out. -/
  latch : Int := 0
  /-- The run state. -/
  scheduler : Scheduler
  /-- The source of random bytes. -/
  generator : Random.Generator
  deriving DecidableEq, Repr

/-- Why an instruction failed. -/
inductive Fault where
  /-- The byte at this address is no code. -/
  | unknownOpcode (address byte : UInt8)
  /-- A cell that does not exist was needed. -/
  | memory (error : MemoryError)
  deriving DecidableEq, Repr

/-- The text that reports why an instruction failed. -/
def Fault.message : Fault → String
  | unknownOpcode address byte =>
    "unknown opcode " ++ Text.showByte byte ++ " at " ++ Text.showByte address
  | memory error => error.message

/-- What cuts an action short. -/
inductive Interruption where
  /-- The instruction failed. -/
  | fault (fault : Fault)
  /-- A sleep would end after the last moment of the clock. -/
  | clockOverflow
  deriving DecidableEq, Repr

/-- What an action has come to. -/
structure Effect (α : Type) where
  /-- Its result, or what cut it short. -/
  outcome : Except Interruption α
  /-- The machine afterwards. -/
  machine : Machine
  /-- What it announced. -/
  notices : List Notice := []

/-- A piece of an instruction. -/
def Action (α : Type) : Type := Machine → Effect α

namespace Action

variable {α β : Type}

/-- Does nothing and has a result. -/
protected def pure (a : α) : Action α := fun m => ⟨.ok a, m, []⟩

/-- Goes on with the result of an action, unless it was cut short. -/
protected def bind (x : Action α) (f : α → Action β) : Action β := fun m =>
  match x m with
  | ⟨.ok a, m, notices⟩ =>
    let e := f a m
    ⟨e.outcome, e.machine, notices ++ e.notices⟩
  | ⟨.error i, m, notices⟩ => ⟨.error i, m, notices⟩

instance : Monad Action where
  pure := Action.pure
  bind := Action.bind

@[simp]
theorem pure_apply (a : α) (m : Machine) : (pure a : Action α) m = ⟨.ok a, m, []⟩ := rfl

theorem bind_apply (x : Action α) (f : α → Action β) (m : Machine) :
    (x >>= f) m =
      match x m with
      | ⟨.ok a, m, notices⟩ =>
        ⟨(f a m).outcome, (f a m).machine, notices ++ (f a m).notices⟩
      | ⟨.error i, m, notices⟩ => ⟨.error i, m, notices⟩ := rfl

theorem bind_ok {x : Action α} {f : α → Action β} {m m' : Machine} {a : α} {ns : List Notice}
    (h : x m = ⟨.ok a, m', ns⟩) :
    (x >>= f) m = ⟨(f a m').outcome, (f a m').machine, ns ++ (f a m').notices⟩ := by
  rw [bind_apply, h]

theorem bind_error {x : Action α} {f : α → Action β} {m m' : Machine} {i : Interruption}
    {ns : List Notice} (h : x m = ⟨.error i, m', ns⟩) : (x >>= f) m = ⟨.error i, m', ns⟩ := by
  rw [bind_apply, h]

/-- The machine as it is. -/
def machine : Action Machine := fun m => ⟨.ok m, m, []⟩

/-- The value of a register. -/
def register (r : Register) : Action UInt8 := fun m => ⟨.ok (m.registers.get r), m, []⟩

/-- Changes the machine without announcing anything. -/
def update (f : Machine → Machine) : Action Unit := fun m => ⟨.ok (), f m, []⟩

/-- Fails. -/
def fail (f : Fault) : Action α := fun m => ⟨.error (.fault f), m, []⟩

/-- Writes registers in order and announces each write. -/
def writeAll (writes : List (Register × UInt8)) : Action Unit := fun m =>
  ⟨.ok (), { m with registers := m.registers.write writes },
    writes.map fun w => .register w.1 w.2⟩

/-- Writes one register. -/
def write (r : Register) (value : UInt8) : Action Unit := writeAll [(r, value)]

/-- Adds an amount to a register. -/
def increment (r : Register) (amount : UInt8) : Action Unit := fun m =>
  writeAll (m.registers.additionWrites r amount) m

/-- Takes an amount from a register. -/
def decrement (r : Register) (amount : UInt8) : Action Unit := increment r (0 - amount)

/-- Shows in the flags how the accumulator compares with a value. -/
def compareWith (value : UInt8) : Action Unit := fun m =>
  let s := m.registers.sum .ra (0 - value)
  writeAll (RegisterFile.flagWrites s.result s.carryByte) m

/-- Reads the cell at an address. -/
def load (address : UInt8) : Action UInt8 := fun m =>
  match m.memory.load address with
  | .ok value => ⟨.ok value, m, []⟩
  | .error e => ⟨.error (.fault (.memory e)), m, []⟩

/-- Writes the cell at an address and announces memory. -/
def store (address value : UInt8) : Action Unit := fun m =>
  match m.memory.store address value with
  | .ok memory => ⟨.ok (), { m with memory }, [.memory memory]⟩
  | .error e => ⟨.error (.fault (.memory e)), m, []⟩

/-- Moves the program counter on to the operand and reads it. The program counter has
moved even if there is nothing to read. -/
def operand : Action UInt8 := do
  increment .pc 1
  load (← register .pc)

/-- Puts a byte into the output latch, which shows it as a signed number. -/
def putOut (value : UInt8) : Action Unit := fun m =>
  let number := Word.signedByte value
  ⟨.ok (), { m with latch := number }, [.output number]⟩

/-- Suspends the program. -/
def sleep (timeout : Option Nat) : Action Unit := fun m =>
  match m.scheduler.sleep timeout with
  | some scheduler => ⟨.ok (), { m with scheduler }, []⟩
  | none => ⟨.error .clockOverflow, m, []⟩

/-- Asks for a byte. -/
def requestInput : Action Unit := fun m =>
  ⟨.ok (), { m with scheduler := m.scheduler.awaitInput },
    [.inputRequested m.scheduler.nextTicket]⟩

/-- Draws a random byte. -/
def randomByte : Action UInt8 := fun m =>
  let (value, generator) := m.generator.nextByte
  ⟨.ok value, { m with generator }, []⟩

end Action

end ByteMachine
