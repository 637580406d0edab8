import ByteMachine.Instruction
import ByteMachine.Memory
import ByteMachine.Source.Lexer
import ByteMachine.Source.Lines

/-!
# Assembling source text

A program is laid down in two passes. The first goes through the lines in order,
appends the bytes of each instruction to memory, notes where labels stand and
leaves a zero wherever one is used. The second goes through those zeros and writes
the addresses. A label may be defined again; its latest address counts everywhere.

Assembling stops at the first fault. The memory as that fault left it is part of
the answer, because whoever owns the memory decides whether to clear it.
-/

namespace ByteMachine

/-- Why a source text was refused. -/
inductive AssemblyError where
  /-- The line has none of the accepted shapes. -/
  | malformedLine (line : Nat) (text : String)
  /-- No instruction has this mnemonic. -/
  | unknownMnemonic (line : Nat) (mnemonic : String)
  /-- No instruction of this mnemonic takes these operands. -/
  | invalidOperands (line : Nat) (mnemonic text : String)
  /-- The operand is not the hexadecimal number of a byte. -/
  | invalidLiteral (line : Nat) (literal : String)
  /-- The line would lie outside of memory. -/
  | programTooLarge (line size : Nat)
  /-- The label, given with its mark, is used but defined nowhere. -/
  | labelNotFound (label : String)
  deriving DecidableEq, Repr

/-- The text that reports why a source was refused. -/
def AssemblyError.message : AssemblyError → String
  | malformedLine line text => "syntax error on line " ++ toString line ++ ": " ++ text
  | unknownMnemonic line mnemonic =>
    "unknown instruction '" ++ mnemonic ++ "' on line " ++ toString line
  | invalidOperands line mnemonic text =>
    "invalid operands for " ++ mnemonic ++ " on line " ++ toString line ++ ": " ++ text
  | invalidLiteral line literal =>
    "'" ++ literal ++ "' on line " ++ toString line ++ " is not a hexadecimal byte"
  | programTooLarge line size =>
    "program does not fit in " ++ toString size ++ " bytes (line " ++ toString line ++ ")"
  | labelNotFound label => "label not found: " ++ label

/-- What is known about a program once it has been assembled. -/
structure Artifacts where
  /-- The labels in the order of their first definitions, each with its latest address. -/
  labels : List (String × UInt8)
  /-- The lines that hold an instruction, each with the address of its first byte. -/
  lines : List (Nat × UInt8)
  /-- The number of bytes. -/
  length : Nat
  deriving DecidableEq, Repr

namespace Assembly

/-- One byte of an instruction as its source line gives it. -/
inductive Cell where
  /-- A byte that is known already. -/
  | byte (value : UInt8)
  /-- A number in hexadecimal. -/
  | literal (text : String)
  /-- The address of a label. -/
  | address (label : String)
  deriving DecidableEq, Repr

/-- The byte that an operand gives. -/
def Cell.ofOperand : Source.Operand → Cell
  | .label name => address name
  | .word text => literal text

end Assembly

/-- The bytes of an instruction with its operands, or nothing if the operands do not
fit. Data is a number and never an address, so a label there is taken as it is spelled,
and no label is spelled like a number. -/
def Instruction.cells (i : Instruction) (operands : Source.Operands) :
    Option (List Assembly.Cell) :=
  if i.form.accepts operands then
    match i, i.form, operands.first, operands.second with
    | op o, .bare, _, _ => some [.byte o.code]
    | op o, .accumulatorValue, _, some v => some [.byte o.code, .ofOperand v]
    | op o, .accumulatorAddress, _, some v => some [.byte o.code, .ofOperand v]
    | op o, .addressAccumulator, some v, _ => some [.byte o.code, .ofOperand v]
    | op o, .value, some v, _ => some [.byte o.code, .ofOperand v]
    | raw, _, some v, _ => some [.literal v.spelling]
    | _, _, _, _ => none
  else none

namespace Assembly

/-- A label used on a line, and the address of the byte that waits for it. -/
structure Patch where
  /-- The label, without its mark. -/
  label : String
  /-- Where its address goes. -/
  address : Nat
  /-- The line that uses it. -/
  line : Nat
  deriving DecidableEq, Repr

/-- What the first pass has gathered so far. -/
structure Draft where
  /-- Memory, with the program up to here. -/
  memory : Memory
  /-- The labels defined so far. -/
  labels : List (String × UInt8) := []
  /-- The instruction lines so far. -/
  lines : List (Nat × UInt8) := []
  /-- The labels used so far. -/
  patches : List Patch := []
  deriving DecidableEq, Repr

/-- A refusal, with memory as it was then. -/
structure Failure where
  /-- Why. -/
  error : AssemblyError
  /-- How far memory had been written. -/
  memory : Memory
  deriving DecidableEq, Repr

/-- The label table after a definition: a known label keeps its place and takes the new
address, a new one goes to the end. -/
def define (labels : List (String × UInt8)) (name : String) (address : UInt8) :
    List (String × UInt8) :=
  match labels with
  | [] => [(name, address)]
  | l :: ls => if l.1 = name then (name, address) :: ls else l :: define ls name address

/-- The address of a label. -/
def address? (labels : List (String × UInt8)) (name : String) : Option UInt8 := labels.lookup name

namespace Draft

/-- The refusal of a draft. -/
def refuse {α : Type} (d : Draft) (error : AssemblyError) : Except Failure α :=
  .error ⟨error, d.memory⟩

/-- The address of the next byte, as long as a byte can hold it. -/
def here (d : Draft) (line : Nat) : Except Failure UInt8 :=
  if d.memory.pointer ≤ 255 then .ok (UInt8.ofNat d.memory.pointer)
  else d.refuse (.programTooLarge line d.memory.size)

/-- Appends a byte. -/
def appendByte (d : Draft) (line : Nat) (value : UInt8) : Except Failure Draft :=
  match d.memory.append value with
  | .ok memory => .ok { d with memory }
  | .error _ => d.refuse (.programTooLarge line d.memory.size)

/-- Appends one byte of an instruction: a number once it is read, an address as a zero
that is noted for the second pass. -/
def appendCell (line : Nat) (d : Draft) : Cell → Except Failure Draft
  | .byte value => d.appendByte line value
  | .literal text =>
    match Text.hexByte? text.toList with
    | some value => d.appendByte line value
    | none => d.refuse (.invalidLiteral line text)
  | .address label =>
    let waiting : Draft := { d with patches := d.patches ++ [⟨label, d.memory.pointer, line⟩] }
    waiting.appendByte line 0

/-- Notes a label that is defined here. -/
def defineLabel (d : Draft) (line : Nat) : Option String → Except Failure Draft
  | none => .ok d
  | some name => do
    let address ← d.here line
    return { d with labels := define d.labels name address }

/-- Appends the instruction of a line. -/
def appendInstruction (d : Draft) (line : Nat) (text : List Char) (mnemonic : String)
    (operands : Source.Operands) : Except Failure Draft :=
  match Instruction.named mnemonic with
  | [] => d.refuse (.unknownMnemonic line mnemonic)
  | candidates =>
    match candidates.findSome? fun i => i.cells operands with
    | none =>
      d.refuse (.invalidOperands line mnemonic (String.ofList (Text.trimChars text)))
    | some cells => do
      let address ← d.here line
      let d := { d with lines := d.lines ++ [(line, address)] }
      cells.foldlM (appendCell line) d

/-- The first pass over one line. -/
def readLine (d : Draft) (line : Nat × List Char) : Except Failure Draft :=
  match Source.lineOfChars? line.2 with
  | none => d.refuse (.malformedLine line.1 (String.ofList line.2))
  | some parts => do
    let d ← d.defineLabel line.1 parts.label
    match parts.mnemonic with
    | none => return d
    | some mnemonic => d.appendInstruction line.1 line.2 mnemonic parts.operands

/-- The second pass over one use of a label. -/
def applyPatch (labels : List (String × UInt8)) (m : Memory) (p : Patch) :
    Except Failure Memory :=
  match address? labels p.label with
  | none =>
    .error ⟨.labelNotFound ((Source.Operand.label p.label).spelling), m⟩
  | some address =>
    match m.patch p.address address with
    | .ok m => .ok m
    | .error _ => .error ⟨.programTooLarge p.line m.size, m⟩

/-- The second pass. -/
def resolve (d : Draft) : Except Failure Memory := d.patches.foldlM (applyPatch d.labels) d.memory

end Draft

/-- The first pass over all lines of a source, on a cleared memory. -/
def firstPass (m : Memory) (source : String) : Except Failure Draft :=
  (Source.numberedLines source).foldlM Draft.readLine { memory := m.clear }

/-- Both passes: the assembled memory with what is known about the program. -/
def assemble (m : Memory) (source : String) : Except Failure (Memory × Artifacts) := do
  let draft ← firstPass m source
  let memory ← draft.resolve
  return (memory, ⟨draft.labels, draft.lines, memory.pointer⟩)

end Assembly

/-- Assembles a source into a memory. After a refusal memory is as the fault left it. -/
def Memory.assemble (m : Memory) (source : String) : Memory × Except AssemblyError Artifacts :=
  match Assembly.assemble m source with
  | .ok (memory, artifacts) => (memory, .ok artifacts)
  | .error failure => (failure.memory, .error failure.error)

end ByteMachine
