import ByteMachine.Proofs.Layout.Encoding
import ByteMachine.Proofs.Memory

/-!
# Writing an instruction

The assembler looks for the first instruction of a mnemonic that has cells for the operands of a
line, and appends these cells. Here the two are taken apart. An instruction is chosen by its form
alone; an encoder then writes it to a sink, and knows neither mnemonics nor where labels are
defined. The encoder judges the operands once more, and it has its own reasons to fail, which are
tied to a line only afterwards. Both ways of assembling an instruction come to the same, whether
or not they succeed, so what is true of the encoder is true of the assembler.
-/

namespace ByteMachine

open Source (Operand Operands)

namespace Assembly

/-- Why an instruction is not written. -/
inductive EncodingError where
  /-- The instruction does not take the operands. -/
  | rejected
  /-- The operand is not the hexadecimal number of a byte. -/
  | invalidLiteral (literal : String)
  /-- There is no room behind the pointer. -/
  | full
  deriving DecidableEq, Repr

/-- Where instructions are written to. -/
structure Sink where
  /-- Memory, with the program up to here. -/
  memory : Memory
  /-- The labels used so far. -/
  patches : List Patch
  deriving DecidableEq, Repr

/-- Writing to a sink. What has been written when it fails stays there. -/
abbrev Encoding := EStateM EncodingError Sink PUnit

namespace Encoding

/-- Writes a byte. -/
def write (byte : UInt8) : Encoding := fun s =>
  match s.memory.append byte with
  | .ok memory => .ok () { s with memory }
  | .error _ => .error .full s

/-- Writes the code of an instruction, and rejects one that has none. -/
def writeCode (i : Instruction) : Encoding :=
  match i.code? with
  | some code => write code
  | none => throw .rejected

/-- Writes a number. A label is none. -/
def writeLiteral : Operand → Encoding
  | .word text =>
    match Text.hexByte? text.toList with
    | some value => write value
    | none => throw (.invalidLiteral text)
  | .label name => throw (.invalidLiteral (Operand.label name).spelling)

/-- Writes a number, or a zero that waits for the address of a label. The label is noted before
the zero is written. -/
def writeOperand (line : Nat) : Operand → Encoding
  | .label name => do
    modify fun s => { s with patches := s.patches ++ [⟨name, s.memory.pointer, line⟩] }
    write 0
  | .word text => writeLiteral (.word text)

end Encoding

end Assembly

open Assembly (Encoding EncodingError Sink Patch Draft Failure Cell)
open Assembly.Encoding (write writeCode writeLiteral writeOperand)

/-- Writes an instruction that stands on this line, with its operands. -/
def Instruction.encode (i : Instruction) (line : Nat) (operands : Operands) : Encoding :=
  if i.form.accepts operands then
    match i.form, operands.first, operands.second with
    | .bare, _, _ => writeCode i
    | .accumulatorValue, _, some value
    | .accumulatorAddress, _, some value
    | .addressAccumulator, some value, _
    | .value, some value, _ => do
      writeCode i
      writeOperand line value
    | .data, some value, _ => writeLiteral value
    | _, _, _ => throw .rejected
  else throw .rejected

namespace Assembly

/-- The error that is reported for an instruction of this mnemonic on this line. -/
def EncodingError.report (line : Nat) (mnemonic text : String) (size : Nat) :
    EncodingError → AssemblyError
  | rejected => .invalidOperands line mnemonic text
  | invalidLiteral literal => .invalidLiteral line literal
  | full => .programTooLarge line size

namespace Draft

/-- Writes to the memory of a draft, and to its list of labels that are used. -/
def receive (d : Draft) (report : EncodingError → AssemblyError) (x : Encoding) :
    Except Failure Draft :=
  match x ⟨d.memory, d.patches⟩ with
  | .ok _ s => .ok { d with memory := s.memory, patches := s.patches }
  | .error e s => .error ⟨report e, s.memory⟩

/-- Appends the instruction of a line: the first one of its mnemonic whose form takes the operands
is chosen, and the encoder writes it. -/
def encodeInstruction (d : Draft) (line : Nat) (text : List Char) (mnemonic : String)
    (operands : Operands) : Except Failure Draft :=
  let shown := String.ofList (Text.trimChars text)
  match Instruction.named mnemonic with
  | [] => d.refuse (.unknownMnemonic line mnemonic)
  | candidates =>
    match candidates.find? fun i => i.form.accepts operands with
    | none => d.refuse (.invalidOperands line mnemonic shown)
    | some i => do
      let address ← d.here line
      let d := { d with lines := d.lines ++ [(line, address)] }
      d.receive (EncodingError.report line mnemonic shown d.memory.size) (i.encode line operands)

end Draft

end Assembly

namespace Instruction

/-- Writes the operand that an instruction keeps. Data is a number. -/
def writeKept (line : Nat) : Instruction → Operand → Encoding
  | op _, operand => writeOperand line operand
  | raw, operand => writeLiteral operand

/-- An instruction that takes its operands is written as its code and what is kept. -/
theorem encode_of_accepts {i : Instruction} {operands : Operands}
    (h : i.form.accepts operands = true) (line : Nat) :
    i.encode line operands = (do
      i.code?.forM write
      (i.form.encoded operands).forM (i.writeKept line)) := by
  obtain ⟨first, second⟩ := operands
  unfold encode
  rw [if_pos h]
  -- the form says which operands are there, and with them both sides compute
  cases i with
  | raw =>
    cases first <;> cases second <;> simp_all [form, Form.accepts]
    rfl
  | op o =>
    cases hform : o.form with
    | data => exact absurd hform o.form_ne_data
    | bare =>
      simp only [form, hform, Form.encoded, code?, writeCode]
      exact (bind_pure (write o.code)).symm
    | _ =>
      cases first <;> cases second <;> simp_all [form, Form.accepts]
      all_goals rfl

end Instruction

namespace Assembly.Draft

open Instruction (writeKept)

variable {d : Draft} {report : EncodingError → AssemblyError} {line : Nat}

/-- A draft has received what the encoder has written. -/
theorem receive_eq_ok_iff {d' : Draft} {x : Encoding} :
    d.receive report x = .ok d' ↔
      ∃ s, x ⟨d.memory, d.patches⟩ = .ok () s ∧
        d' = { d with memory := s.memory, patches := s.patches } := by
  unfold receive
  cases x ⟨d.memory, d.patches⟩ with
  | ok _ s => simp [eq_comm]
  | error e s => simp

/-- A draft that is refused shows how far the encoder has come. -/
theorem receive_eq_error_iff {f : Failure} {x : Encoding} :
    d.receive report x = .error f ↔
      ∃ e s, x ⟨d.memory, d.patches⟩ = .error e s ∧ f = ⟨report e, s.memory⟩ := by
  unfold receive
  cases x ⟨d.memory, d.patches⟩ with
  | ok _ s => simp
  | error e s => simp [eq_comm]

/-- One thing is written behind the other. -/
theorem receive_bind (d : Draft) (report : EncodingError → AssemblyError) (x : Encoding)
    (y : PUnit → Encoding) :
    d.receive report (x >>= y) = d.receive report x >>= fun d' => d'.receive report (y ()) := by
  simp only [receive, bind, EStateM.bind]
  cases x ⟨d.memory, d.patches⟩ <;> rfl

/-- A byte is written as it is appended. -/
theorem receive_write (hfull : report .full = .programTooLarge line d.memory.size) (byte : UInt8) :
    d.receive report (write byte) = d.appendByte line byte := by
  unfold receive write appendByte
  cases d.memory.append byte with
  | ok m => rfl
  | error e =>
    dsimp only
    rw [hfull]
    rfl

/-- What an instruction keeps is written as its cell is appended. -/
theorem receive_writeKept (hfull : report .full = .programTooLarge line d.memory.size)
    (hliteral : ∀ text, report (.invalidLiteral text) = .invalidLiteral line text)
    (i : Instruction) (operand : Operand) :
    d.receive report (i.writeKept line operand) = d.appendCell line (i.keptCell operand) := by
  have hword (text : String) : d.receive report (writeLiteral (.word text)) =
      d.appendCell line (.literal text) := by
    rw [writeLiteral, appendCell]
    cases Text.hexByte? text.toList with
    | some value => exact receive_write hfull value
    | none =>
      dsimp only
      rw [← hliteral]
      rfl
  cases i with
  | op o =>
    cases operand with
    | word text => exact hword text
    | label name =>
      let noted : Draft := { d with patches := d.patches ++ [⟨name, d.memory.pointer, line⟩] }
      exact receive_write (d := noted) hfull 0
  | raw =>
    cases operand with
    | word text => exact hword text
    | label name =>
      rw [Instruction.keptCell, appendCell, Operand.hexByte?_spelling_label, refuse, ← hliteral]
      rfl

/-- An instruction that takes its operands is written as its cells are appended. -/
theorem receive_encode (hfull : report .full = .programTooLarge line d.memory.size)
    (hliteral : ∀ text, report (.invalidLiteral text) = .invalidLiteral line text)
    {i : Instruction} {operands : Operands} (h : i.form.accepts operands = true) :
    d.receive report (i.encode line operands) =
      (i.code?.toList.map Cell.byte ++
        (i.form.encoded operands).toList.map i.keptCell).foldlM (appendCell line) d := by
  -- the draft has its code by then, so all that is known of it is the size of its memory
  have hkept (d' : Draft) (hsize : d'.memory.size = d.memory.size) :
      d'.receive report ((i.form.encoded operands).forM (i.writeKept line)) =
        ((i.form.encoded operands).toList.map i.keptCell).foldlM (appendCell line) d' := by
    cases i.form.encoded operands with
    | none => rfl
    | some operand =>
      rw [← hsize] at hfull
      have hwrite : d'.receive report (i.writeKept line operand) =
          d'.appendCell line (i.keptCell operand) := receive_writeKept hfull hliteral i operand
      rw [Option.toList_some, List.map_singleton, List.foldlM_cons, ← hwrite]
      exact (bind_pure _).symm
  rw [Instruction.encode_of_accepts h, receive_bind, List.foldlM_append]
  cases i.code? with
  | none => exact hkept d rfl
  | some code =>
    have hwrite : d.receive report ((some code).forM write) = d.appendByte line code :=
      receive_write hfull code
    rw [hwrite, Option.toList_some, List.map_singleton, foldlM_code]
    unfold appendByte
    cases hm : d.memory.append code with
    | error e => rfl
    | ok m => exact hkept { d with memory := m } (Memory.size_of_append hm)

/-- The assembler appends the cells of an instruction as the encoder writes it, to the same draft
or with the same refusal. -/
theorem appendInstruction_eq_encodeInstruction (d : Draft) (line : Nat) (text : List Char)
    (mnemonic : String) (operands : Operands) :
    d.appendInstruction line text mnemonic operands =
      d.encodeInstruction line text mnemonic operands := by
  unfold appendInstruction encodeInstruction
  cases hnamed : Instruction.named mnemonic with
  | nil => rfl
  | cons candidate candidates =>
    dsimp only
    rw [Instruction.findSome?_cells]
    cases hfind : (candidate :: candidates).find? fun i => i.form.accepts operands with
    | none => rfl
    | some i =>
      have haccepts := Instruction.accepts_of_find? hfind
      rw [Option.map_some]
      dsimp only
      cases d.here line with
      | error f => rfl
      | ok address =>
        let located : Draft := { d with lines := d.lines ++ [(line, address)] }
        exact (receive_encode (d := located) rfl (fun _ => rfl) haccepts).symm

/-- Once an instruction is chosen, the encoder writes it where its address is a byte. -/
theorem encodeInstruction_of_find? {mnemonic : String} {operands : Operands} {i : Instruction}
    (hfind : (Instruction.named mnemonic).find? (fun i => i.form.accepts operands) = some i)
    (d : Draft) (line : Nat) (text : List Char) :
    d.encodeInstruction line text mnemonic operands =
      d.here line >>= fun address =>
        receive { d with lines := d.lines ++ [(line, address)] }
          (EncodingError.report line mnemonic (String.ofList (Text.trimChars text)) d.memory.size)
          (i.encode line operands) := by
  unfold encodeInstruction
  cases hnamed : Instruction.named mnemonic with
  | nil =>
    rw [hnamed] at hfind
    cases hfind
  | cons candidate candidates =>
    rw [hnamed] at hfind
    dsimp only
    rw [hfind]

end Assembly.Draft

end ByteMachine
