import ByteMachine.Computer

/-!
# Snapshots

A snapshot shows a computer at one moment: its run state, its registers, its memory
and its output. It is written as a record in one line, or spread over many lines
with one item on each, where every item is followed by a comma.
-/

namespace ByteMachine

/-- What a snapshot shows. -/
structure Snapshot where
  /-- The run state. -/
  state : RunState
  /-- The registers in listing order. -/
  registers : List (Register × UInt8)
  /-- The cells. -/
  memory : List UInt8
  /-- The number in the output latch. -/
  output : Int
  deriving DecidableEq, Repr

/-- The snapshot of a computer. -/
def Computer.snapshot (c : Computer) : Snapshot where
  state := c.state
  registers := c.machine.registers.toList
  memory := c.machine.memory.cells
  output := c.machine.latch

namespace Snapshot

/-- The name of a register in a snapshot. -/
def registerName : Register → String
  | .ra => "Ra"
  | .pc => "Pc"
  | .sp => "Sp"
  | .ret => "Ret"
  | .z => "Z"
  | .c => "C"
  | .n => "N"

/-- A register with its value, with `gap` behind the comma. -/
def registerItem (gap : String) (r : Register × UInt8) : String :=
  "(" ++ registerName r.1 ++ "," ++ gap ++ toString r.2.toNat ++ ")"

/-- The items of a snapshot's memory. -/
def memoryItems (s : Snapshot) : List String := s.memory.map fun b => toString b.toNat

/-- Items in one line, between brackets. -/
def inlineList (items : List String) : String := "[" ++ ",".intercalate items ++ "]"

/-- The snapshot in one line. -/
def compact (s : Snapshot) : String :=
  "(state:" ++ s.state.name ++ ",registers:" ++ inlineList (s.registers.map (registerItem "")) ++
    ",memory:" ++ inlineList s.memoryItems ++ ",output:" ++ toString s.output ++ ")"

/-- Items on lines of their own at the second level of indentation, between brackets. -/
def blockList (items : List String) : String :=
  "[\n" ++ String.join (items.map fun i => "        " ++ i ++ ",\n") ++ "    ]"

/-- The snapshot with one item on each line. -/
def pretty (s : Snapshot) : String :=
  "(\n    state: " ++ s.state.name ++ ",\n    registers: " ++
    blockList (s.registers.map (registerItem " ")) ++ ",\n    memory: " ++
    blockList s.memoryItems ++ ",\n    output: " ++ toString s.output ++ ",\n)"

end Snapshot

end ByteMachine
