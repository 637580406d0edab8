import ByteMachine.Listing
import ByteMachine.Proofs.Layout.Encoding
import ByteMachine.Proofs.Source.Written

/-!
# Entries of a listing as source lines

Every entry of a listing is written as a line that is read back as the same instruction
with the same byte, so that the lines of a listing, taken as a source, are laid out
where the entries stand and with the same bytes.
-/

namespace ByteMachine

open Source (Line Operand)

/-- Every mnemonic is a word. -/
theorem Instruction.isWord_mnemonic (i : Instruction) : Source.IsWord i.mnemonic := by
  have hall : ∀ i ∈ all, i.mnemonic.toList ≠ [] ∧
      i.mnemonic.toList.all Source.isWordChar = true := by decide
  obtain ⟨hne, hchars⟩ := hall i (mem_all i)
  exact ⟨hne, List.all_eq_true.mp hchars⟩

/-- The two digits of a byte are a word. -/
theorem Text.isWord_showByte (b : UInt8) : Source.IsWord (showByte b) := by
  have hdigit : ∀ n < 16, Source.isWordChar (upperDigit n) = true := by decide
  have hlt := b.toNat_lt
  have hhigh := hdigit (b.toNat / 16) (by omega)
  have hlow := hdigit (b.toNat % 16) (by omega)
  constructor
  · rw [showByte, String.toList_ofList, byteDigits]
    exact List.cons_ne_nil _ _
  · intro c hc
    rw [showByte, String.toList_ofList, byteDigits] at hc
    simp only [List.mem_cons, List.not_mem_nil, or_false] at hc
    rcases hc with rfl | rfl
    · exact hhigh
    · exact hlow

/-- No byte is written like the accumulator. -/
theorem Text.showByte_ne_accumulator (b : UInt8) : showByte b ≠ "RA" := by
  intro h
  have hdigit : ∀ n < 16, upperDigit n ≠ 'R' := by decide
  have hlist := congrArg String.toList h
  rw [showByte, String.toList_ofList, byteDigits] at hlist
  have hlt := b.toNat_lt
  exact hdigit (b.toNat / 16) (by omega) (List.cons.inj hlist).1

namespace Listing

/-- An entry with an operand byte exactly where its instruction has one. -/
def Entry.IsWhole (e : Entry) : Prop :=
  match e.instruction, e.operand with
  | .op o, none => o.form = .bare
  | .op o, some _ => o.form ≠ .bare
  | .raw, operand => operand.isSome

/-- The operands of an entry's line, given how its byte is written. -/
def writtenOperands (form : Form) (byte : String) : Source.Operands :=
  match form with
  | .bare => {}
  | .accumulatorValue | .accumulatorAddress => ⟨some (.word "RA"), some (.word byte)⟩
  | .addressAccumulator => ⟨some (.word byte), some (.word "RA")⟩
  | .value | .data => ⟨some (.word byte), none⟩

/-- The parts of an entry's line. -/
def Entry.line (e : Entry) : Line where
  mnemonic := some e.instruction.mnemonic
  operands := writtenOperands e.instruction.form ((e.operand.map Text.showByte).getD "")

/-- The width of an operation tells whether it has an operand. -/
theorem width_eq_one_iff (o : Opcode) : o.width = 1 ↔ o.form = .bare := by
  cases o <;> decide

theorem isWhole_lastEntry (byte : UInt8) : (lastEntry byte).IsWhole := by
  unfold lastEntry
  split
  · rename_i o h
    split
    · rename_i hw
      exact (width_eq_one_iff o).mp hw
    · rfl
  · rfl

/-- Every entry of a listing is whole. -/
theorem isWhole_of_mem_entries (region : List UInt8) : ∀ e ∈ entries region, e.IsWhole := by
  fun_induction entries region with
  | case1 => exact fun e he => absurd he List.not_mem_nil
  | case2 byte =>
    intro e he
    rw [List.mem_singleton.mp he]
    exact isWhole_lastEntry byte
  | case3 byte next rest h ih =>
    intro e he
    rcases List.mem_cons.mp he with rfl | he
    · rfl
    · exact ih e he
  | case4 byte next rest o h hw ih =>
    intro e he
    rcases List.mem_cons.mp he with rfl | he
    · exact (width_eq_one_iff o).mp hw
    · exact ih e he
  | case5 byte next rest o h hw ih =>
    intro e he
    rcases List.mem_cons.mp he with rfl | he
    · exact fun hform => hw ((width_eq_one_iff o).mpr hform)
    · exact ih e he

/-- A whole entry is an instruction of the bare form, or one with a byte. -/
theorem Entry.IsWhole.cases {e : Entry} (h : e.IsWhole) :
    (e.instruction.form = .bare ∧ e.operand = none) ∨
      e.instruction.form ≠ .bare ∧ ∃ b, e.operand = some b := by
  obtain ⟨i, operand⟩ := e
  match i, operand, h with
  | .op o, none, h => exact .inl ⟨h, rfl⟩
  | .op o, some b, h => exact .inr ⟨h, b, rfl⟩
  | .raw, some b, _ => exact .inr ⟨nofun, b, rfl⟩

/-- The line of a whole entry is read back. -/
theorem lineOfChars?_text {e : Entry} (h : e.IsWhole) :
    Source.lineOfChars? e.text.toList = some e.line := by
  have hm := e.instruction.isWord_mnemonic
  have hra : Source.IsWord "RA" := ⟨by decide, List.all_eq_true.mp (by decide)⟩
  rcases h.cases with ⟨hform, hnone⟩ | ⟨hform, b, hb⟩
  · rw [Entry.text, Instruction.render, hform, Entry.line, hform]
    exact Source.lineOfChars?_bare hm
  · have hbyte := Text.isWord_showByte b
    rw [Entry.text, Instruction.render, hb, Entry.line, hb]
    cases hf : e.instruction.form with
    | bare => exact absurd hf hform
    | accumulatorValue =>
      simpa [writtenOperands] using Source.lineOfChars?_two hm hra hbyte
    | accumulatorAddress =>
      simpa [writtenOperands] using Source.lineOfChars?_two hm hra hbyte
    | addressAccumulator =>
      simpa [writtenOperands] using Source.lineOfChars?_two hm hbyte hra
    | value =>
      simpa [writtenOperands] using Source.lineOfChars?_one hm hbyte
    | data =>
      simpa [writtenOperands] using Source.lineOfChars?_one hm hbyte

/-- The line of a whole entry holds the instruction of the entry. -/
theorem instruction?_line {e : Entry} (h : e.IsWhole) :
    e.line.instruction? = some e.instruction := by
  rw [Line.instruction?_eq_some_iff]
  refine ⟨rfl, ?_⟩
  rcases h.cases with ⟨hform, hnone⟩ | ⟨hform, b, hb⟩
  · rw [Entry.line, hform]
    rfl
  · have hne := Text.showByte_ne_accumulator b
    rw [Entry.line, hb]
    cases hf : e.instruction.form with
    | bare => exact absurd hf hform
    | _ => simp [writtenOperands, Form.accepts, Operand.isAccumulator, hne]

/-- The line of a whole entry keeps the byte of the entry. -/
theorem encoded_line {e : Entry} (h : e.IsWhole) :
    e.instruction.form.encoded e.line.operands =
      e.operand.map fun b => .word (Text.showByte b) := by
  rcases h.cases with ⟨hform, hnone⟩ | ⟨hform, b, hb⟩
  · rw [hform, hnone]
    rfl
  · rw [Entry.line, hb]
    cases hf : e.instruction.form with
    | bare => exact absurd hf hform
    | _ => rfl

/-- No line feed is written within an entry. -/
theorem newline_not_mem_text {e : Entry} (h : e.IsWhole) : '\n' ∉ e.text.toList := by
  have hword {w : String} (hw : Source.IsWord w) : '\n' ∉ w.toList := by
    intro hmem
    cases hw.2 '\n' hmem
  have hm := hword e.instruction.isWord_mnemonic
  rcases h.cases with ⟨hform, hnone⟩ | ⟨hform, b, hb⟩
  · rw [Entry.text, Instruction.render, hform]
    exact hm
  · have hbyte := hword (Text.isWord_showByte b)
    rw [Entry.text, Instruction.render, hb]
    cases hf : e.instruction.form with
    | bare => exact absurd hf hform
    | _ => simp [hm, hbyte]

end Listing

end ByteMachine
