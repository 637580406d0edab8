/-!
# Source lines

A line of source holds at most a label definition, an instruction with up to two
operands, and a comment. This module has the parts of a line as data. How a text
is split into them is the lexer's business, what they mean is the assembler's.
-/

namespace ByteMachine.Source

/-- The character in front of a label, where it is defined and where it is used. -/
def labelMark : Char := '@'

/-- The character that ends a label definition. -/
def labelEnd : Char := ':'

/-- The character that starts a comment. -/
def commentMark : Char := '#'

/-- What an instruction is applied to. -/
inductive Operand where
  /-- The address of a label, named without its mark. -/
  | label (name : String)
  /-- Anything else: a register name or a hexadecimal number. -/
  | word (text : String)
  deriving DecidableEq, Repr

namespace Operand

/-- The operand as it is written in source. -/
def spelling : Operand → String
  | label name => String.ofList [labelMark] ++ name
  | word text => text

/-- Whether the operand names the accumulator. A label of that name does not. -/
def isAccumulator : Operand → Bool
  | word text => text = "RA"
  | label _ => false

end Operand

/-- The two operand places of an instruction. -/
structure Operands where
  /-- The operand right behind the mnemonic. -/
  first : Option Operand := none
  /-- The operand behind the comma. -/
  second : Option Operand := none
  deriving DecidableEq, Repr

/-- The parts of one line. -/
structure Line where
  /-- The label defined here, without its mark. -/
  label : Option String := none
  /-- The instruction's mnemonic. -/
  mnemonic : Option String := none
  /-- The instruction's operands. -/
  operands : Operands := {}
  /-- The comment, with the mark that starts it. -/
  comment : Option String := none
  deriving DecidableEq, Repr

end ByteMachine.Source
