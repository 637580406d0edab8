import ByteMachine.Proofs.Layout.FirstPass

/-!
# The fault of a line

A line may have several faults at once, and one of them is reported. They are looked for in
a fixed order, which is written down here as a list of checks, each with the condition under
which it fails and the error that it gives. The conditions speak of the address at which the
line begins, the size of memory and the parts of the line, and not of what is in memory. The
first pass over a line refuses it exactly for the first check that fails.
-/

namespace ByteMachine

namespace Layout

open Source (Line Operand)

/-- What is checked on a line that can be read, in this order. An operand that is kept is
read before there has to be room for it, but behind the code that goes in front of it. -/
inductive Check where
  /-- A label stands for an address that is a byte. -/
  | labelAddress
  /-- The mnemonic is known. -/
  | mnemonic
  /-- An instruction of this mnemonic takes the operands. -/
  | operands
  /-- An instruction begins at an address that is a byte. -/
  | instructionAddress
  /-- There is room for the code. -/
  | codeRoom
  /-- The operand that is kept can be turned into a byte. -/
  | literal
  /-- There is room for the operand. -/
  | operandRoom
  deriving DecidableEq, Repr

/-- The checks in their order. -/
def Check.order : List Check :=
  [labelAddress, mnemonic, operands, instructionAddress, codeRoom, literal, operandRoom]

/-- Whether an instruction can keep an operand as a byte: the number of a byte, or the
address of a label where there is a code in front. -/
def isReadable : Instruction → Operand → Bool
  | _, .word text => (Text.hexNumber? text.toList).any fun v => v ≤ 255
  | .op _, .label _ => true
  | .raw, .label _ => false

/-- What a check finds on a line with these parts, which begins at this address. -/
def Check.fault? (size line address : Nat) (text : List Char) (l : Line) :
    Check → Option AssemblyError
  | labelAddress =>
    if l.label.isSome ∧ 255 < address then some (.programTooLarge line size) else none
  | mnemonic => l.mnemonic.bind fun m =>
    if Instruction.named m = [] then some (.unknownMnemonic line m) else none
  | operands => l.mnemonic.bind fun m =>
    if l.instruction? = none then
      some (.invalidOperands line m (String.ofList (Text.trimChars text)))
    else none
  | instructionAddress => l.instruction?.bind fun _ =>
    if 255 < address then some (.programTooLarge line size) else none
  | codeRoom => l.instruction?.bind fun i => i.code?.bind fun _ =>
    if size ≤ address then some (.programTooLarge line size) else none
  | literal => l.instruction?.bind fun i => (i.form.encoded l.operands).bind fun o =>
    if isReadable i o then none else some (.invalidLiteral line o.spelling)
  | operandRoom => l.instruction?.bind fun i => (i.form.encoded l.operands).bind fun _ =>
    if size ≤ address + i.code?.toList.length then some (.programTooLarge line size) else none

/-- The fault of a line: that it cannot be read, or what the first check that fails finds. -/
def firstFault? (size line address : Nat) (text : List Char) : Option AssemblyError :=
  match Source.lineOfChars? text with
  | none => some (.malformedLine line (String.ofList text))
  | some l => Check.order.findSome? (Check.fault? size line address text l)

end Layout

namespace Assembly

open Layout (Check isReadable firstFault?)
open Source (Line Operand Operands)

/-- The error for which a stage of assembling refuses a source. -/
def refusal? {α : Type} : Except Failure α → Option AssemblyError
  | .ok _ => none
  | .error f => some f.error

/-- A stage behind one that goes on refuses what it refuses by itself. -/
theorem refusal?_bind_ok {α β : Type} (a : α) (f : α → Except Failure β) :
    refusal? (Except.ok a >>= f) = refusal? (f a) := rfl

/-- Where a stage has refused a source, no other is reached. -/
theorem refusal?_bind_error {α β : Type} (e : Failure) (f : α → Except Failure β) :
    refusal? (Except.error e >>= f) = some e.error := rfl

namespace Draft

variable {d : Draft} {line : Nat}

/-- An address up to 255 is a byte. -/
theorem here_of_le (h : d.memory.pointer ≤ 255) :
    d.here line = .ok (UInt8.ofNat d.memory.pointer) := by
  rw [here, if_pos h]

/-- Behind address 255 there is no address. -/
theorem here_of_lt (h : 255 < d.memory.pointer) :
    d.here line = d.refuse (.programTooLarge line d.memory.size) := by
  rw [here, if_neg (Nat.not_le.mpr h)]

/-- A byte is refused exactly where memory is full. -/
theorem refusal?_appendByte (d : Draft) (line : Nat) (value : UInt8) :
    refusal? (d.appendByte line value) =
      if d.memory.size ≤ d.memory.pointer then some (.programTooLarge line d.memory.size)
      else none := by
  unfold appendByte Memory.append
  by_cases h : d.memory.pointer < d.memory.size
  · simp [h, refusal?]
  · simp [h, refusal?, refuse, Nat.not_lt.mp h]

/-- A word is read as a byte exactly if it is the number of one. -/
theorem isSome_hexByte?_of_isPlain {text : String} (plain : (Operand.word text).IsPlain)
    (i : Instruction) :
    (Text.hexByte? text.toList).isSome = isReadable i (.word text) := by
  have hplus : '+' ∉ text.toList := Source.plus_not_mem_of_isWord plain
  have hnumber := Text.isSome_hexByte?_iff hplus
  rw [Bool.eq_iff_iff, hnumber]
  cases hvalue : Text.hexNumber? text.toList with
  | none => cases i <;> simp [isReadable, hvalue]
  | some v => cases i <;> simp [isReadable, hvalue]

/-- An operand that is kept is refused for what it says, or else for want of room. -/
theorem refusal?_appendKept (i : Instruction) {o : Operand} (plain : o.IsPlain) :
    refusal? (d.appendCell line (i.keptCell o)) =
      if isReadable i o then
        if d.memory.size ≤ d.memory.pointer then some (.programTooLarge line d.memory.size)
        else none
      else some (.invalidLiteral line o.spelling) := by
  cases o with
  | word text =>
    have hcell : i.keptCell (.word text) = .literal text := by cases i <;> rfl
    have hbyte := isSome_hexByte?_of_isPlain plain i
    rw [hcell, appendCell, ← hbyte]
    cases Text.hexByte? text.toList with
    | none => rfl
    | some value => exact refusal?_appendByte d line value
  | label name =>
    cases i with
    | op opcode => exact refusal?_appendByte _ line 0
    | raw =>
      rw [Instruction.keptCell, appendCell, Operand.hexByte?_spelling_label]
      rfl

/-- Writing the code of an instruction is refused where memory is full, and else leaves the
operand behind it to be written. -/
theorem refusal?_cells {l : Line} (plain : l.operands.ArePlain) {i : Instruction}
    (hi : l.instruction? = some i) (text : List Char) :
    refusal? ((i.code?.toList.map Cell.byte ++
        (i.form.encoded l.operands).toList.map i.keptCell).foldlM (appendCell line) d) =
      [Check.codeRoom, .literal, .operandRoom].findSome?
        (Check.fault? d.memory.size line d.memory.pointer text l) := by
  have hkept (d' : Draft) : refusal? (((i.form.encoded l.operands).toList.map i.keptCell).foldlM
      (appendCell line) d') = (i.form.encoded l.operands).bind fun o =>
        if isReadable i o then
          if d'.memory.size ≤ d'.memory.pointer then
            some (.programTooLarge line d'.memory.size)
          else none
        else some (.invalidLiteral line o.spelling) := by
    cases ho : i.form.encoded l.operands with
    | none => rfl
    | some o =>
      rw [Option.toList_some, List.map_singleton, List.foldlM_cons, Option.bind_some,
        ← refusal?_appendKept i (Instruction.isPlain_of_encoded plain ho)]
      cases d'.appendCell line (i.keptCell o) <;> rfl
  rw [List.foldlM_append, List.findSome?_cons, List.findSome?_cons, List.findSome?_singleton]
  simp only [Check.fault?, hi, Option.bind_some]
  cases hc : i.code? with
  | none =>
    have hnothing : ([] : List Cell).foldlM (appendCell line) d = .ok d := rfl
    simp only [Option.toList_none, List.map_nil, hnothing, Option.bind_none]
    rw [refusal?_bind_ok, hkept]
    cases i.form.encoded l.operands with
    | none => rfl
    | some o => by_cases ho : isReadable i o <;> simp [ho]
  | some code =>
    simp only [Option.toList_some, List.map_singleton, foldlM_code, Option.bind_some]
    unfold appendByte
    by_cases hroom : d.memory.pointer < d.memory.size
    · obtain ⟨m, hm⟩ := Memory.exists_append code hroom
      have hsize := Memory.size_of_append hm
      have hpointer := (Memory.append_eq_ok_iff.mp hm).2.1
      rw [hm, refusal?_bind_ok, hkept, if_neg (Nat.not_le.mpr hroom)]
      dsimp only
      rw [hsize, hpointer]
      cases i.form.encoded l.operands with
      | none => rfl
      | some o => by_cases ho : isReadable i o <;> simp [ho]
    · have hfull := Nat.not_lt.mp hroom
      rw [Memory.append_of_full code hfull, if_pos hfull]
      rfl

/-- Defining a label writes nothing to memory. -/
theorem memory_of_defineLabel {d' : Draft} {label : Option String}
    (h : d.defineLabel line label = .ok d') : d'.memory = d.memory := by
  cases label with
  | none =>
    cases h
    rfl
  | some name =>
    obtain ⟨address, -, hd⟩ := bind_eq_ok_iff.mp h
    cases hd
    rfl

/-- A label is refused exactly where its address would be no byte. -/
theorem refusal?_defineLabel (d : Draft) (line : Nat) (text : List Char) (l : Line) :
    refusal? (d.defineLabel line l.label) =
      Check.labelAddress.fault? d.memory.size line d.memory.pointer text l := by
  rw [Check.fault?]
  cases l.label with
  | none => rfl
  | some name =>
    by_cases h : 255 < d.memory.pointer
    · rw [defineLabel, here_of_lt h, refuse, refusal?_bind_error]
      simp [h]
    · rw [defineLabel, here_of_le (Nat.not_lt.mp h), refusal?_bind_ok]
      simp [h, refusal?, pure, Except.pure]

/-- An instruction is refused for the first of its checks that fails. -/
theorem refusal?_appendInstruction (d : Draft) (line : Nat) (text : List Char) {l : Line}
    {m : String} (hm : l.mnemonic = some m) (plain : l.operands.ArePlain) :
    refusal? (d.appendInstruction line text m l.operands) =
      [Check.mnemonic, .operands, .instructionAddress, .codeRoom, .literal,
        .operandRoom].findSome?
        (Check.fault? d.memory.size line d.memory.pointer text l) := by
  have hinstruction : l.instruction? =
      (Instruction.named m).find? fun i => i.form.accepts l.operands := by
    rw [Line.instruction?, hm, Option.bind_some]
  unfold appendInstruction
  rw [List.findSome?_cons, List.findSome?_cons, List.findSome?_cons]
  simp only [Check.fault?, hm, Option.bind_some]
  split
  · rename_i hnamed
    rw [if_pos hnamed]
    rfl
  · rename_i hnamed
    rw [if_neg hnamed, Instruction.findSome?_cells, ← hinstruction]
    cases hi : l.instruction? with
    | none => rfl
    | some i =>
      rw [if_neg (Option.some_ne_none i), Option.bind_some]
      by_cases h : 255 < d.memory.pointer
      · rw [if_pos h]
        dsimp only [Option.map_some]
        rw [here_of_lt h, refuse, refusal?_bind_error]
      · rw [if_neg h]
        dsimp only [Option.map_some]
        rw [here_of_le (Nat.not_lt.mp h), refusal?_bind_ok, refusal?_cells plain hi text]

/-- A line is refused for its first fault. -/
theorem refusal?_readLine (d : Draft) (line : Nat) (text : List Char) :
    refusal? (d.readLine (line, text)) =
      firstFault? d.memory.size line d.memory.pointer text := by
  unfold readLine firstFault?
  dsimp only
  cases hl : Source.lineOfChars? text with
  | none => rfl
  | some l =>
    have plain := Source.arePlain_of_lineOfChars? hl
    have hlabel := refusal?_defineLabel d line text l
    dsimp only
    rw [Check.order, List.findSome?_cons, ← hlabel]
    cases hd : d.defineLabel line l.label with
    | error e => rw [refusal?_bind_error, refusal?]
    | ok d' =>
      rw [refusal?_bind_ok, refusal?, ← memory_of_defineLabel hd]
      cases hm : l.mnemonic with
      | none =>
        have hi : l.instruction? = none := by rw [Line.instruction?, hm, Option.bind_none]
        simp [Check.fault?, hm, hi, refusal?, pure, Except.pure]
      | some m => exact refusal?_appendInstruction d' line text hm plain

end Draft

end Assembly

end ByteMachine
