import Mathlib.Data.List.Induction
import ByteMachine.Proofs.Layout
import ByteMachine.Proofs.Source.Words

/-!
# Instructions as cells

The assembler turns an instruction with its operands into cells before it writes bytes.
The cells exist exactly if the form takes the operands, and then they are the code,
where there is one, followed by the operand that the form keeps, where there is one.
-/

namespace ByteMachine

open Source (Operand Operands)

/-- A label as it is spelled is no number: the mark in front is no digit. -/
theorem Source.Operand.hexByte?_spelling_label (name : String) :
    Text.hexByte? (label name).spelling.toList = none := by
  simp [spelling, labelMark, Text.hexByte?, Text.hexDigits?, Text.hexValue?, Text.hexDigit?]

/-- The cell of a code is the byte itself. -/
theorem Assembly.Draft.foldlM_code (d : Draft) (line : Nat) (code : UInt8) :
    [Cell.byte code].foldlM (appendCell line) d = d.appendByte line code := by
  rw [List.foldlM_cons]
  exact bind_pure (d.appendByte line code)

/-- An operation is never laid out as data. -/
theorem Opcode.form_ne_data (o : Opcode) : o.form ≠ .data := by
  cases o <;> decide

/-- Every instruction takes at least one byte. -/
theorem Form.width_pos (form : Form) : 0 < form.width := by
  cases form <;> decide

namespace Instruction

/-- The cell of the operand that an instruction keeps. -/
def keptCell : Instruction → Operand → Assembly.Cell
  | op _, operand => .ofOperand operand
  | raw, operand => .literal operand.spelling

/-- An instruction that is chosen by its form takes the operands. -/
theorem accepts_of_find? {candidates : List Instruction} {i : Instruction} {operands : Operands}
    (h : candidates.find? (fun i => i.form.accepts operands) = some i) :
    i.form.accepts operands = true :=
  List.find?_some (p := fun i : Instruction => i.form.accepts operands) h

/-- The cells of an instruction that takes its operands: the code and what is kept. -/
theorem cells_of_accepts {i : Instruction} {operands : Operands}
    (h : i.form.accepts operands = true) :
    i.cells operands = some
      (i.code?.toList.map .byte ++ (i.form.encoded operands).toList.map i.keptCell) := by
  obtain ⟨first, second⟩ := operands
  cases i with
  | raw =>
    cases first <;> cases second <;> simp_all [form, Form.accepts, cells, code?, keptCell,
      Form.encoded]
  | op o =>
    have hdata := o.form_ne_data
    cases hform : o.form with
    | data => exact absurd hform hdata
    | _ =>
      cases first <;> cases second <;> simp_all [form, Form.accepts, cells, code?, keptCell,
        Form.encoded]

/-- Without a form that takes the operands there are no cells. -/
theorem cells_of_not_accepts {i : Instruction} {operands : Operands}
    (h : ¬i.form.accepts operands = true) : i.cells operands = none := by
  unfold cells
  rw [if_neg h]

/-- Looking for cells is looking for a form that takes the operands. -/
theorem findSome?_cells (candidates : List Instruction) (operands : Operands) :
    candidates.findSome? (fun i => i.cells operands) =
      (candidates.find? fun i => i.form.accepts operands).map fun i =>
        i.code?.toList.map .byte ++ (i.form.encoded operands).toList.map i.keptCell := by
  induction candidates with
  | nil => rfl
  | cons i candidates ih =>
    by_cases h : i.form.accepts operands = true
    · simp only [List.findSome?_cons, List.find?_cons, cells_of_accepts h, h, Option.map_some]
    · simp only [List.findSome?_cons, List.find?_cons, cells_of_not_accepts h, h]
      exact ih

/-- The width of an instruction counts its code and the operand that it keeps. -/
theorem width_of_accepts {i : Instruction} {operands : Operands}
    (h : i.form.accepts operands = true) :
    i.code?.toList.length + (i.form.encoded operands).toList.length = i.width := by
  obtain ⟨first, second⟩ := operands
  cases i with
  | raw => cases first <;> cases second <;> simp_all [form, Form.accepts, code?, width,
      Form.encoded, Form.width]
  | op o =>
    have hdata := o.form_ne_data
    cases hform : o.form with
    | data => exact absurd hform hdata
    | _ =>
      cases first <;> cases second <;> simp_all [form, Form.accepts, code?, width, Form.encoded,
        Form.width]

/-- Every instruction has a place in the lookup order. -/
theorem mem_all (i : Instruction) : i ∈ all := by
  cases i with
  | op o => exact List.mem_append_left _ (List.mem_map_of_mem (Opcode.mem_all o))
  | raw => exact List.mem_append_right _ List.mem_cons_self

theorem mem_named_iff {i : Instruction} {m : String} : i ∈ named m ↔ i.mnemonic = m := by
  rw [named, List.mem_filter, decide_eq_true_eq]
  exact ⟨fun h => h.2, fun h => ⟨mem_all i, h⟩⟩

/-- Two instructions share a mnemonic only if they move the accumulator in opposite
directions. -/
theorem eq_or_opposite_of_mnemonic_eq : ∀ i ∈ all, ∀ j ∈ all, i.mnemonic = j.mnemonic →
    i = j ∨ (i.form = .accumulatorAddress ∧ j.form = .addressAccumulator) ∨
      (i.form = .addressAccumulator ∧ j.form = .accumulatorAddress) := by
  decide

/-- The two directions of a move never take the same operands. -/
theorem not_accepts_opposite {operands : Operands}
    (h : Form.accumulatorAddress.accepts operands = true) :
    Form.addressAccumulator.accepts operands = false := by
  obtain ⟨first, second⟩ := operands
  cases first <;> cases second <;> simp_all [Form.accepts]

/-- At most one instruction of a mnemonic takes given operands. -/
theorem eq_of_accepts {i j : Instruction} {operands : Operands} (hm : i.mnemonic = j.mnemonic)
    (hi : i.form.accepts operands = true) (hj : j.form.accepts operands = true) : i = j := by
  have hcases := eq_or_opposite_of_mnemonic_eq i (mem_all i) j (mem_all j) hm
  rcases hcases with h | ⟨hfi, hfj⟩ | ⟨hfi, hfj⟩
  · exact h
  · rw [hfi] at hi
    rw [hfj, not_accepts_opposite hi] at hj
    cases hj
  · rw [hfj] at hj
    rw [hfi, not_accepts_opposite hj] at hi
    cases hi

/-- Data that takes its operands keeps one of them. -/
theorem encoded_isSome_of_raw {operands : Operands}
    (h : raw.form.accepts operands = true) : ∃ o, raw.form.encoded operands = some o := by
  obtain ⟨first, second⟩ := operands
  cases first <;> cases second <;> simp_all [form, Form.accepts, Form.encoded]

/-- Only plain operands are kept from plain operands. -/
theorem isPlain_of_encoded {form : Form} {operands : Operands} (h : operands.ArePlain)
    {o : Operand} (ho : form.encoded operands = some o) : o.IsPlain := by
  cases form with
  | bare => cases ho
  | accumulatorValue => exact h.2 o ho
  | accumulatorAddress => exact h.2 o ho
  | addressAccumulator => exact h.1 o ho
  | value => exact h.1 o ho
  | data => exact h.1 o ho

end Instruction

namespace Source.Line

/-- The instruction on a line takes the operands of the line. -/
theorem accepts_of_instruction? {l : Line} {i : Instruction} (h : l.instruction? = some i) :
    i.form.accepts l.operands = true := by
  obtain ⟨m, -, hfind⟩ := Option.bind_eq_some_iff.mp h
  exact Instruction.accepts_of_find? hfind

/-- A line holds the one instruction that its mnemonic names and its operands fit. -/
theorem instruction?_eq_some_iff {l : Line} {i : Instruction} :
    l.instruction? = some i ↔
      l.mnemonic = some i.mnemonic ∧ i.form.accepts l.operands = true := by
  constructor
  · intro h
    refine ⟨?_, accepts_of_instruction? h⟩
    obtain ⟨m, hm, hfind⟩ := Option.bind_eq_some_iff.mp h
    rw [hm, Instruction.mem_named_iff.mp (List.mem_of_find?_eq_some hfind)]
  · rintro ⟨hm, hi⟩
    have hsome : ((Instruction.named i.mnemonic).find? fun j =>
        j.form.accepts l.operands).isSome := by
      rw [List.find?_isSome]
      exact ⟨i, Instruction.mem_named_iff.mpr rfl, hi⟩
    obtain ⟨j, hj⟩ := Option.isSome_iff_exists.mp hsome
    have hline : l.instruction? = some j := by
      rw [instruction?, hm, Option.bind_some, hj]
    have hname := Instruction.mem_named_iff.mp (List.mem_of_find?_eq_some hj)
    rw [hline, Instruction.eq_of_accepts hname (accepts_of_instruction? hline) hi]

end Source.Line

namespace Layout

open Source (Line)

/-- Every row comes from a line and the instruction on it. -/
theorem row?_eq_some {index address : Nat} {l : Line} {r : Row}
    (h : row? index address l = some r) :
    ∃ i, l.instruction? = some i ∧ r = ⟨index + 1, address, i, i.form.encoded l.operands⟩ := by
  obtain ⟨i, hi, hr⟩ := Option.map_eq_some_iff.mp h
  exact ⟨i, hi, hr.symm⟩

/-- A row has as many bytes as its line is wide, whatever the labels stand for. -/
theorem length_bytes_row (labels : String → UInt8) (index address : Nat) (l : Line) :
    ((row? index address l).toList.flatMap (Row.bytes labels)).length = l.width := by
  cases hi : l.instruction? with
  | none => simp [row?, Line.width, hi]
  | some i =>
    have hwidth := Instruction.width_of_accepts (Line.accepts_of_instruction? hi)
    have hoperand : ((i.form.encoded l.operands).map (operandByte labels)).toList.length =
        (i.form.encoded l.operands).toList.length := by
      cases i.form.encoded l.operands <;> rfl
    simp only [row?, Line.width, hi, Option.map_some, Option.toList_some, List.flatMap_cons,
      List.flatMap_nil, List.append_nil, Row.bytes, List.length_append, Option.getD_some]
    omega

/-- The bytes of a program are as many as its lines are wide. -/
theorem length_bytes (labels : String → UInt8) (ls : List Line) :
    (bytes labels ls).length = length ls := by
  induction ls using List.reverseRecOn with
  | nil => rfl
  | append_singleton ls l ih =>
    rw [bytes_append_singleton, List.length_append, length_bytes_row, ih, length_append_singleton]

end Layout

end ByteMachine
