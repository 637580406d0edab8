import ByteMachine.Instruction
import ByteMachine.Text.HexByte

/-!
# Instructions as source text

An instruction with its operand byte is written the way a line of source would
have it: mnemonic, the accumulator where the form asks for it, and the byte in
two upper-case digits.
-/

namespace ByteMachine.Instruction

/-- The source text of an instruction. Without an operand byte its place stays empty. -/
def render (i : Instruction) (operand : Option UInt8) : String :=
  let byte := (operand.map Text.showByte).getD ""
  match i.form with
  | .bare => i.mnemonic
  | .accumulatorValue | .accumulatorAddress => i.mnemonic ++ " RA, " ++ byte
  | .addressAccumulator => i.mnemonic ++ " " ++ byte ++ ", RA"
  | .value | .data => i.mnemonic ++ " " ++ byte

/-- The code of an instruction as a number, with -1 where there is none. -/
def codeNumber (i : Instruction) : Int :=
  match i.code? with
  | some code => code.toNat
  | none => -1

/-- The name of an instruction with its code, which tells the two moves apart. -/
def description (i : Instruction) : String :=
  i.mnemonic ++ " (" ++ toString i.codeNumber ++ ")"

end ByteMachine.Instruction
