import ByteMachine.Source.Line

/-!
# The instruction set

Twenty-four operations, each with a code, a mnemonic and a form, and the raw byte
that a program may hold between them. The form fixes both how an instruction is
written in source and how many bytes it takes, so the assembler, the listing and
the machine share it.
-/

namespace ByteMachine

/-- The operations of the machine. -/
inductive Opcode where
  /-- Ends the program. -/
  | stop
  /-- Adds one to the accumulator. -/
  | inc
  /-- Takes one from the accumulator. -/
  | dec
  /-- Puts the accumulator on the stack. -/
  | push
  /-- Drops the top of the stack. -/
  | pop
  /-- Returns behind the last call. -/
  | ret
  /-- Puts a number into the accumulator. -/
  | movei
  /-- Puts a memory cell into the accumulator. -/
  | load
  /-- Puts the accumulator into a memory cell. -/
  | store
  /-- Adds a number to the accumulator. -/
  | addi
  /-- Adds a memory cell to the accumulator. -/
  | add
  /-- Takes a number from the accumulator. -/
  | subi
  /-- Takes a memory cell from the accumulator. -/
  | sub
  /-- Compares the accumulator with a number. -/
  | comparei
  /-- Compares the accumulator with a memory cell. -/
  | compare
  /-- Jumps. -/
  | jump
  /-- Jumps if the last result was negative. -/
  | jumpLess
  /-- Jumps if the last result was neither negative nor zero. -/
  | jumpGreater
  /-- Jumps if the last result was zero. -/
  | jumpEqual
  /-- Jumps and remembers where it came from. -/
  | call
  /-- Asks for a byte. -/
  | input
  /-- Shows the accumulator. -/
  | output
  /-- Suspends the program for a while. -/
  | sleep
  /-- Puts a random byte into the accumulator. -/
  | random
  deriving DecidableEq, Repr

/-- What an instruction line stands for. -/
inductive Instruction where
  /-- An operation. -/
  | op (opcode : Opcode)
  /-- A byte of data, which has no code of its own. -/
  | raw
  deriving DecidableEq, Repr

/-- How an instruction is written and laid out. -/
inductive Form where
  /-- The mnemonic alone. -/
  | bare
  /-- The accumulator, then a value. -/
  | accumulatorValue
  /-- The accumulator, then an address. -/
  | accumulatorAddress
  /-- An address, then the accumulator. -/
  | addressAccumulator
  /-- One value. -/
  | value
  /-- One number without a code in front. -/
  | data
  deriving DecidableEq, Repr

namespace Opcode

/-- The byte that stands for an operation in memory. -/
def code : Opcode → UInt8
  | movei => 0
  | load => 1
  | store => 2
  | addi => 3
  | add => 4
  | subi => 5
  | sub => 6
  | inc => 7
  | dec => 8
  | comparei => 9
  | compare => 10
  | jump => 11
  | jumpLess => 12
  | jumpGreater => 13
  | jumpEqual => 14
  | push => 15
  | pop => 16
  | call => 17
  | ret => 18
  | input => 19
  | output => 20
  | stop => 21
  | sleep => 22
  | random => 23

/-- The word that names an operation in source. The two moves between the accumulator
and memory share one. -/
def mnemonic : Opcode → String
  | stop => "STOP"
  | inc => "INC"
  | dec => "DEC"
  | push => "PUSH"
  | pop => "POP"
  | ret => "RET"
  | movei => "MOVEI"
  | load => "MOVE"
  | store => "MOVE"
  | addi => "ADDI"
  | add => "ADD"
  | subi => "SUBI"
  | sub => "SUB"
  | comparei => "COMPAREI"
  | compare => "COMPARE"
  | jump => "JUMP"
  | jumpLess => "JLESS"
  | jumpGreater => "JGREATER"
  | jumpEqual => "JEQUAL"
  | call => "CALL"
  | input => "IN"
  | output => "OUT"
  | sleep => "SLEEP"
  | random => "RAND"

/-- The form of an operation. -/
def form : Opcode → Form
  | stop | inc | dec | push | pop | ret | random => .bare
  | movei | addi | add | subi | sub | comparei | compare => .accumulatorValue
  | load => .accumulatorAddress
  | store => .addressAccumulator
  | jump | jumpLess | jumpGreater | jumpEqual | call | input | output | sleep => .value

/-- The operations in the order in which they are looked up. -/
def all : List Opcode :=
  [stop, inc, dec, push, pop, ret, movei, load, store, addi, add, subi, sub, comparei, compare,
    jump, jumpLess, jumpGreater, jumpEqual, call, input, output, sleep, random]

/-- The operation that a byte stands for. -/
def ofByte? (byte : UInt8) : Option Opcode := all.find? fun o => o.code = byte

end Opcode

/-- Every operation has a place in the lookup order. -/
theorem Opcode.mem_all (o : Opcode) : o ∈ all := by
  cases o <;> decide

/-- The code of an operation stands for that operation and no other. -/
@[simp]
theorem Opcode.ofByte?_code (o : Opcode) : ofByte? o.code = some o := by
  cases o <;> rfl

theorem Opcode.code_of_ofByte? {byte : UInt8} {o : Opcode} (h : ofByte? byte = some o) :
    o.code = byte := by
  simpa using List.find?_some h

/-- The bytes that an instruction of this form takes. -/
def Form.width : Form → Nat
  | bare | data => 1
  | accumulatorValue | accumulatorAddress | addressAccumulator | value => 2

/-- Whether the operands of a line fit a form. Of the two forms of the move between
accumulator and memory at most one fits. -/
def Form.accepts (form : Form) (operands : Source.Operands) : Bool :=
  match form, operands.first, operands.second with
  | bare, none, none => true
  | accumulatorValue, some a, some _ => a.isAccumulator
  | accumulatorAddress, some a, some b => a.isAccumulator && !b.isAccumulator
  | addressAccumulator, some a, some b => b.isAccumulator && !a.isAccumulator
  | value, some _, none => true
  | data, some _, none => true
  | _, _, _ => false

namespace Opcode

/-- The bytes that an operation takes. -/
def width (o : Opcode) : Nat := o.form.width

end Opcode

namespace Instruction

/-- The instructions in the order in which they are looked up. -/
def all : List Instruction := Opcode.all.map op ++ [raw]

/-- The byte in front of an instruction, if it has one. -/
def code? : Instruction → Option UInt8
  | op o => some o.code
  | raw => none

/-- The word that names an instruction in source. -/
def mnemonic : Instruction → String
  | op o => o.mnemonic
  | raw => "BYTE"

/-- The form of an instruction. -/
def form : Instruction → Form
  | op o => o.form
  | raw => .data

/-- The bytes that an instruction takes. -/
def width (i : Instruction) : Nat := i.form.width

/-- The instructions that a mnemonic names, in lookup order. -/
def named (mnemonic : String) : List Instruction := all.filter fun i => i.mnemonic = mnemonic

end Instruction

end ByteMachine
