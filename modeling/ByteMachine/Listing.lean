import ByteMachine.Instruction.Source
import ByteMachine.Memory

/-!
# Listing a program

A listing reads the bytes of a program from the start and shows each instruction as
a line of source. A byte that is no code, or whose operand would lie behind the end,
is shown as a byte of data, so every region has a listing and every byte of it is
shown once.
-/

namespace ByteMachine

/-- One entry of a listing. -/
structure Listing.Entry where
  /-- The instruction, or data. -/
  instruction : Instruction
  /-- The operand, or the byte of data. -/
  operand : Option UInt8
  deriving DecidableEq, Repr

namespace Listing

/-- The bytes that an entry stands for. -/
def Entry.bytes (e : Entry) : List UInt8 := e.instruction.code?.toList ++ e.operand.toList

/-- The entry as a line of source. -/
def Entry.text (e : Entry) : String := e.instruction.render e.operand

/-- The entry of a byte that stands last in its region. -/
def lastEntry (byte : UInt8) : Entry :=
  match Opcode.ofByte? byte with
  | some o => if o.width = 1 then ⟨.op o, none⟩ else ⟨.raw, some byte⟩
  | none => ⟨.raw, some byte⟩

/-- The entries of a region. -/
def entries : List UInt8 → List Entry
  | [] => []
  | [byte] => [lastEntry byte]
  | byte :: next :: rest =>
    match Opcode.ofByte? byte with
    | none => ⟨.raw, some byte⟩ :: entries (next :: rest)
    | some o =>
      if o.width = 1 then ⟨.op o, none⟩ :: entries (next :: rest)
      else ⟨.op o, some next⟩ :: entries rest

@[simp]
theorem Entry.bytes_raw (byte : UInt8) : Entry.bytes ⟨.raw, some byte⟩ = [byte] := rfl

@[simp]
theorem Entry.bytes_op (o : Opcode) (operand : Option UInt8) :
    Entry.bytes ⟨.op o, operand⟩ = o.code :: operand.toList := rfl

@[simp]
theorem bytes_lastEntry (byte : UInt8) : (lastEntry byte).bytes = [byte] := by
  unfold lastEntry
  split
  · rename_i o h
    split <;> simp [Opcode.code_of_ofByte? h]
  · simp

/-- The entries of a region tile it: their bytes in order are the region. -/
theorem flatMap_bytes_entries (region : List UInt8) :
    (entries region).flatMap Entry.bytes = region := by
  fun_induction entries region with
  | case1 => rfl
  | case2 byte => simp
  | case3 byte next rest h ih => simp [ih]
  | case4 byte next rest o h hw ih => simp [Opcode.code_of_ofByte? h, ih]
  | case5 byte next rest o h hw ih => simp [Opcode.code_of_ofByte? h, ih]

/-- Entries with the addresses at which they start. -/
def located (address : Nat) : List Entry → List (Nat × Entry)
  | [] => []
  | e :: es => (address, e) :: located (address + e.bytes.length) es

/-- The lines of the listing of a region. -/
def lines (region : List UInt8) : List (UInt8 × String) :=
  (located 0 (entries region)).map fun e => (UInt8.ofNat e.1, e.2.text)

end Listing

end ByteMachine
