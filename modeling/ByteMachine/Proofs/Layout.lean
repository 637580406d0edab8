import Mathlib.Data.List.Basic
import ByteMachine.Assembly
import ByteMachine.Proofs.Text.HexNumber

/-!
# The layout of a program

A layout says where every instruction line of a source stands and which bytes it takes,
without looking at memory: the address of a line is the sum of the widths of the lines
before it, and a label stands for the address of the last line that defines it. This
module has the layout as a definition, with the laws by which it grows line by line.
What the two passes of the assembler make of a source is compared with it elsewhere.
-/

namespace ByteMachine

/-- The operand that an instruction of this form keeps as a byte. A word that only names
the accumulator is not kept. -/
def Form.encoded (form : Form) (operands : Source.Operands) : Option Source.Operand :=
  match form with
  | bare => none
  | accumulatorValue | accumulatorAddress => operands.second
  | addressAccumulator | value | data => operands.first

namespace Source

/-- The lines of a source in order, if every one of them can be read. -/
def lines? (source : String) : Option (List Line) :=
  (splitLines source.toList).mapM lineOfChars?

/-- The instruction on a line: the first of its mnemonic whose form takes its operands. -/
def Line.instruction? (l : Line) : Option Instruction :=
  l.mnemonic.bind fun m => (Instruction.named m).find? fun i => i.form.accepts l.operands

/-- The bytes that a line takes. -/
def Line.width (l : Line) : Nat := (l.instruction?.map Instruction.width).getD 0

end Source

namespace Layout

open Source (Line Operand)

/-- The address of the line with this index: the widths of all lines before it. -/
def address (ls : List Line) (index : Nat) : Nat := ((ls.take index).map Line.width).sum

/-- The bytes that all lines take. -/
def length (ls : List Line) : Nat := (ls.map Line.width).sum

/-- What the lines give, in order, each by its index and its address. -/
def collect {α : Type} (f : (index address : Nat) → Line → Option α) (ls : List Line) : List α :=
  ls.zipIdx.filterMap fun l => f l.2 (address ls l.2) l.1

/-- An instruction line in its place. -/
structure Row where
  /-- The number of the line, from one. -/
  line : Nat
  /-- The address of its first byte. -/
  address : Nat
  /-- The instruction. -/
  instruction : Instruction
  /-- The operand that is kept as a byte. -/
  operand : Option Operand
  deriving DecidableEq, Repr

/-- The row of a line, if it holds an instruction. -/
def row? (index address : Nat) (l : Line) : Option Row :=
  l.instruction?.map fun i => ⟨index + 1, address, i, i.form.encoded l.operands⟩

/-- The label that a line defines, with its address. -/
def definition? (_index address : Nat) (l : Line) : Option (String × Nat) :=
  l.label.map fun name => (name, address)

/-- The instruction lines in order. -/
def rows (ls : List Line) : List Row := collect row? ls

/-- The label definitions in order. -/
def definitions (ls : List Line) : List (String × Nat) := collect definition? ls

/-- The address of a label: that of its last definition. -/
def labelAddress? (ls : List Line) (name : String) : Option Nat :=
  (((definitions ls).filter fun d => d.1 = name).getLast?).map Prod.snd

/-- The byte of an operand, once labels stand for bytes. -/
def operandByte (labels : String → UInt8) : Operand → UInt8
  | .label name => labels name
  | .word text => UInt8.ofNat ((Text.hexNumber? text.toList).getD 0)

/-- The bytes of a row: the code, where there is one, and the operand, where there is one. -/
def Row.bytes (labels : String → UInt8) (r : Row) : List UInt8 :=
  r.instruction.code?.toList ++ (r.operand.map (operandByte labels)).toList

/-- The bytes of all rows. -/
def bytes (labels : String → UInt8) (ls : List Line) : List UInt8 :=
  (rows ls).flatMap (Row.bytes labels)

/-- The byte that a label stands for. -/
def labelByte (ls : List Line) (name : String) : UInt8 :=
  UInt8.ofNat ((labelAddress? ls name).getD 0)

/-- The bytes of the program, with every label at its address. -/
def image (ls : List Line) : List UInt8 := bytes (labelByte ls) ls

/-- A row whose operand can be turned into a byte, a label aside. -/
structure Row.Readable (r : Row) : Prop where
  /-- A word is the hexadecimal number of a byte. -/
  literal : ∀ text, r.operand = some (.word text) →
    ∃ v ≤ 255, Text.hexNumber? text.toList = some v
  /-- Data is not given by a label. -/
  data : r.instruction = .raw → ∀ name, r.operand ≠ some (.label name)

/-- What lines have to meet so that they can be laid out in a memory of this size, their
references to labels aside. -/
structure Fits (size : Nat) (ls : List Line) : Prop where
  /-- Every mnemonic names an instruction that takes the operands. -/
  known : ∀ l ∈ ls, ∀ m, l.mnemonic = some m →
    ∃ i ∈ Instruction.named m, i.form.accepts l.operands = true
  /-- Every operand that is kept can be turned into a byte. -/
  readable : ∀ r ∈ rows ls, r.Readable
  /-- There is room for every byte. -/
  room : length ls ≤ size
  /-- No label is defined behind the last address. -/
  addressable : ∀ d ∈ definitions ls, d.2 ≠ 256

/-- Every label that is used is defined on some line. -/
def Closed (ls : List Line) : Prop :=
  ∀ r ∈ rows ls, ∀ name, r.operand = some (.label name) → ∃ l ∈ ls, l.label = some name

/-- Lines behind an address do not move it. -/
theorem address_append_of_le {ls : List Line} {index : Nat} (h : index ≤ ls.length)
    (ms : List Line) : address (ls ++ ms) index = address ls index := by
  rw [address, address, List.take_append_of_le_length h]

/-- Behind the last line the address is the length. -/
theorem address_length (ls : List Line) : address ls ls.length = length ls := by
  rw [address, List.take_length, length]

@[simp]
theorem length_append_singleton (ls : List Line) (l : Line) :
    length (ls ++ [l]) = length ls + l.width := by
  simp [length]

/-- A line at the end adds what it gives by itself, at the address where the others end. -/
theorem collect_append_singleton {α : Type} (f : Nat → Nat → Line → Option α) (ls : List Line)
    (l : Line) : collect f (ls ++ [l]) = collect f ls ++ (f ls.length (length ls) l).toList := by
  have hearlier : ls.zipIdx.filterMap (fun p => f p.2 (address (ls ++ [l]) p.2) p.1) =
      ls.zipIdx.filterMap fun p => f p.2 (address ls p.2) p.1 := by
    apply List.filterMap_congr
    intro p hp
    have hlt := List.snd_lt_of_mem_zipIdx hp
    rw [address_append_of_le (by omega)]
  have hlast : address (ls ++ [l]) ls.length = length ls := by
    rw [address_append_of_le (Nat.le_refl _), address_length]
  rw [collect, List.zipIdx_append, List.filterMap_append, hearlier]
  simp only [Nat.zero_add, List.zipIdx_singleton, List.filterMap_cons, List.filterMap_nil, hlast]
  cases f ls.length (length ls) l <;> rfl

theorem rows_append_singleton (ls : List Line) (l : Line) :
    rows (ls ++ [l]) = rows ls ++ (row? ls.length (length ls) l).toList :=
  collect_append_singleton row? ls l

theorem definitions_append_singleton (ls : List Line) (l : Line) :
    definitions (ls ++ [l]) = definitions ls ++ (definition? ls.length (length ls) l).toList :=
  collect_append_singleton definition? ls l

theorem bytes_append_singleton (labels : String → UInt8) (ls : List Line) (l : Line) :
    bytes labels (ls ++ [l]) =
      bytes labels ls ++ (row? ls.length (length ls) l).toList.flatMap (Row.bytes labels) := by
  rw [bytes, rows_append_singleton, List.flatMap_append, bytes]

end Layout

end ByteMachine
