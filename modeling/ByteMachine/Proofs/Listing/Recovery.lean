import Mathlib.Data.List.Forall2
import ByteMachine.Proofs.Checked.Indexing
import ByteMachine.Proofs.Execution
import ByteMachine.Proofs.Layout.Order
import ByteMachine.Proofs.Listing.Reassembly
import ByteMachine.Proofs.Loading

/-!
# Listings give the source lines back

A listing knows nothing of the source. It goes through the bytes of a program, and where an
instruction begins depends on where all those in front of it have ended. It agrees with the
source as long as no byte of data can be taken for a code: then every code is found where the
assembler has put it, together with its operand, and no operand is ever taken for a code.
-/

namespace ByteMachine

open Layout (Row rows)

/-- Whether all data on these lines is too large to be the code of an operation. -/
def Source.DataBeyondCodes (ls : List Source.Line) : Prop :=
  ∀ r ∈ rows ls, r.instruction = .raw → ∀ text v, r.operand = some (.word text) →
    Text.hexNumber? text.toList = some v → 0x18 ≤ v

/-- An instruction line as a listing shows it, going by the report on the program. -/
structure Artifacts.Lists (a : Artifacts) (r : Row) (entry : UInt8 × String) : Prop where
  /-- The line is reported at this address, and at no other. -/
  address : ∀ here, (r.line, here) ∈ a.lines ↔ here = entry.1
  /-- The text is that of the instruction, with the byte of its operand where it keeps one. -/
  text : ∃ operand, entry.2 = r.instruction.render operand ∧
    Option.Rel (fun o value => a.Gives value o) r.operand operand

/-- The codes are the numbers below 24. -/
theorem Opcode.ofByte?_of_le {byte : UInt8} (h : 0x18 ≤ byte.toNat) : ofByte? byte = none := by
  cases hcode : ofByte? byte with
  | none => rfl
  | some o =>
    have hlt : o.code.toNat < 0x18 := by cases o <;> decide
    rw [code_of_ofByte? hcode] at hlt
    omega

namespace Listing

/-- Whole entries are found again in their bytes, if none of their data is a code. -/
theorem entries_flatMap_bytes {es : List Entry} (h : ∀ e ∈ es, e.IsWhole)
    (hdata : ∀ byte, (⟨.raw, some byte⟩ : Entry) ∈ es → Opcode.ofByte? byte = none) :
    entries (es.flatMap Entry.bytes) = es := by
  induction es with
  | nil => rfl
  | cons e es ih =>
    have hrest := ih (fun e he => h e (List.mem_cons_of_mem _ he))
      fun byte hb => hdata byte (List.mem_cons_of_mem _ hb)
    have hwhole := h e List.mem_cons_self
    rw [List.flatMap_cons]
    obtain ⟨i, operand⟩ := e
    match i, operand, hwhole with
    | .op o, none, hform =>
      rw [Entry.bytes_op, Option.toList_none, List.singleton_append,
        entries_of_bare (Opcode.ofByte?_code o) ((width_eq_one_iff o).mpr hform), hrest]
    | .op o, some value, hform =>
      have hwidth : o.width ≠ 1 := fun hone => hform ((width_eq_one_iff o).mp hone)
      rw [Entry.bytes_op, Option.toList_some, List.cons_append, List.singleton_append,
        entries_of_operand (Opcode.ofByte?_code o) hwidth, hrest]
    | .raw, some byte, _ =>
      rw [Entry.bytes_raw, List.singleton_append,
        entries_of_data (hdata byte List.mem_cons_self), hrest]

end Listing

namespace Layout

open Source (Line Operand)
open Listing (Entry entries located)

variable {size : Nat} {ls : List Line} {n : Memory} {a : Artifacts}

/-- The entry of a row, once labels stand for bytes. -/
def Row.listed (labels : String → UInt8) (r : Row) : Entry :=
  ⟨r.instruction, r.operand.map (operandByte labels)⟩

/-- The entries of the rows have the bytes of the program. -/
theorem flatMap_bytes_listed (labels : String → UInt8) (ls : List Line) :
    ((rows ls).map (Row.listed labels)).flatMap Entry.bytes = bytes labels ls := by
  rw [List.flatMap_map]
  rfl

/-- The entry of a row has an operand byte exactly where its instruction has one. -/
theorem isWhole_listed (labels : String → UInt8) {r : Row} (hr : r ∈ rows ls) :
    (r.listed labels).IsWhole := by
  obtain ⟨k, l, -, hrow⟩ := mem_collect_iff.mp hr
  obtain ⟨i, hi, rfl⟩ := row?_eq_some hrow
  have haccepts := Line.accepts_of_instruction? hi
  cases i with
  | raw =>
    obtain ⟨o, ho⟩ := Instruction.encoded_isSome_of_raw haccepts
    rw [Row.listed, ho]
    rfl
  | op o =>
    have haccepts' : o.form.accepts l.operands = true := haccepts
    by_cases hform : o.form = .bare
    · have hnone : (Instruction.op o).form.encoded l.operands = none := by
        rw [Instruction.form, hform]
        rfl
      rw [Row.listed, hnone]
      exact hform
    · obtain ⟨operand, hsome⟩ := Opcode.exists_encoded haccepts' hform
      have hsome' : (Instruction.op o).form.encoded l.operands = some operand := hsome
      rw [Row.listed, hsome']
      exact hform

/-- Entries of rows are located at the addresses of the rows. -/
theorem located_listed (labels : String → UInt8) (ls : List Line) :
    located 0 ((rows ls).map (Row.listed labels)) =
      (rows ls).map fun r => (r.address, r.listed labels) := by
  induction ls using List.reverseRecOn with
  | nil => rfl
  | append_singleton ls l ih =>
    rw [rows_append_singleton, List.map_append, List.map_append, Listing.located_append, ih,
      flatMap_bytes_listed, length_bytes, Nat.zero_add]
    cases hrow : row? ls.length (length ls) l with
    | none => rfl
    | some r =>
      obtain ⟨i, -, rfl⟩ := row?_eq_some hrow
      rfl

/-- The number of a byte of data is the byte in the program. -/
theorem le_operandByte_of_data (hlaid : Laid size ls n a) (hdata : Source.DataBeyondCodes ls)
    (hfits : Fits size ls) {r : Row} (hr : r ∈ rows ls) (hraw : r.instruction = .raw)
    {o : Operand} (ho : r.operand = some o) :
    0x18 ≤ (operandByte (labelByte ls) o).toNat := by
  cases o with
  | label name => exact absurd ho ((hfits.readable r hr).data hraw name)
  | word text => exact hdata r hr hraw text _ ho (hlaid.operands r hr _ ho)

/-- The entries of the program are those of the rows. -/
theorem entries_image (hlaid : Laid size ls n a) (hfits : Fits size ls)
    (hdata : Source.DataBeyondCodes ls) :
    entries (image ls) = (rows ls).map (Row.listed (labelByte ls)) := by
  rw [image, ← flatMap_bytes_listed]
  apply Listing.entries_flatMap_bytes
  · intro e he
    obtain ⟨r, hr, rfl⟩ := List.mem_map.mp he
    exact isWhole_listed (labelByte ls) hr
  · intro byte hb
    obtain ⟨r, hr, heq⟩ := List.mem_map.mp hb
    obtain ⟨hraw, hoperand⟩ := Entry.mk.inj heq
    obtain ⟨o, ho, rfl⟩ := Option.map_eq_some_iff.mp hoperand
    exact Opcode.ofByte?_of_le (le_operandByte_of_data hlaid hdata hfits hr hraw ho)

/-- The program in memory is the image of the lines. -/
theorem program_eq_image (hlaid : Laid size ls n a) : n.program = image ls := by
  rw [Memory.program, hlaid.cells, hlaid.pointer, List.take_left' hlaid.image_length]

/-- The address that is reported for a row is that of the row. -/
theorem mem_lines_iff (hlaid : Laid size ls n a) {r : Row} (hr : r ∈ rows ls) {here : UInt8} :
    (r.line, here) ∈ a.lines ↔ here.toNat = r.address := by
  have hmem : (r.line, here) ∈ a.lines ↔
      (r.line, here.toNat) ∈ (rows ls).map fun s => (s.line, s.address) := by
    rw [← hlaid.lines]
    refine ⟨fun h => List.mem_map.mpr ⟨_, h, rfl⟩, ?_⟩
    intro h
    obtain ⟨⟨line, there⟩, he, heq⟩ := List.mem_map.mp h
    obtain ⟨hline, hthere⟩ := Prod.mk.inj heq
    cases hline
    cases UInt8.toNat_inj.mp hthere
    exact he
  rw [hmem, List.mem_map]
  constructor
  · rintro ⟨s, hs, heq⟩
    obtain ⟨hline, haddress⟩ := Prod.mk.inj heq
    obtain ⟨k, l, hget, hrow⟩ := mem_collect_iff.mp hr
    obtain ⟨k', l', hget', hrow'⟩ := mem_collect_iff.mp hs
    obtain ⟨i, -, rfl⟩ := row?_eq_some hrow
    obtain ⟨i', -, rfl⟩ := row?_eq_some hrow'
    cases Nat.succ.inj hline
    exact haddress.symm
  · intro haddress
    exact ⟨r, hr, by rw [haddress]⟩

/-- A row is listed as it is reported. -/
theorem lists_of_mem_rows (hlaid : Laid size ls n a) (hfits : Fits size ls) (hsize : size ≤ 256)
    {r : Row} (hr : r ∈ rows ls) :
    a.Lists r (UInt8.ofNat r.address, (r.listed (labelByte ls)).text) := by
  have hlt := address_lt_of_mem_rows hfits hsize hr
  refine ⟨?_, r.operand.map (operandByte (labelByte ls)), rfl, ?_⟩
  · intro here
    rw [mem_lines_iff hlaid hr, ← UInt8.toNat_inj, UInt8.toNat_ofNat', Nat.mod_eq_of_lt hlt]
  · cases ho : r.operand with
    | none => exact .none
    | some o => exact .some (gives_of_operandNumber? hlaid (hlaid.operands r hr o ho))

end Layout

namespace Computer

variable {c : Computer} {source : String} {a : Artifacts} {ls : List Source.Line}

/-- A computer takes a source that its memory takes. -/
theorem exists_assemble_of_answer (h : (c.assemble source).answer = .ok a) :
    ∃ n, c.machine.memory.assemble source = (n, .ok a) := by
  cases hassemble : c.machine.memory.assemble source with
  | mk n result =>
    cases result with
    | error e =>
      rw [assemble_of_error hassemble] at h
      cases h
    | ok a' =>
      rw [assemble_of_ok hassemble] at h
      cases h
      exact ⟨n, rfl⟩

/-- Right after a source has been assembled its listing gives the instruction lines back, one
entry for each line, in order: the address is the one that is reported for the line, and the
text is the instruction that the line stands for, with the byte of its operand, a number as it
is written or the final address of a label. All that is asked of the source is that its data,
if there is any, is too large to be a code. -/
theorem listing_recovers_lines (h : (c.assemble source).answer = .ok a)
    (hlines : Source.lines? source = some ls) (hdata : Source.DataBeyondCodes ls) :
    List.Forall₂ a.Lists (rows ls) (c.assemble source).next.listing := by
  obtain ⟨n, hassemble⟩ := exists_assemble_of_answer h
  obtain ⟨ls', hls', hfits, -, hlaid⟩ :=
    Layout.laid_of_assemble (Layout.memory_assemble_eq_ok_iff.mp hassemble)
  rw [hlines] at hls'
  cases hls'
  have hlisting : (c.assemble source).next.listing =
      (rows ls).map fun r => (UInt8.ofNat r.address, (r.listed (Layout.labelByte ls)).text) := by
    rw [assemble_of_ok hassemble, listing, Layout.program_eq_image hlaid, Listing.lines,
      Layout.entries_image hlaid hfits hdata, Layout.located_listed, List.map_map]
    rfl
  rw [hlisting, List.forall₂_map_right_iff, List.forall₂_same]
  exact fun r hr => Layout.lists_of_mem_rows hlaid hfits c.machine.memory.cells_le hr

/-- A program that jumps over a byte of data, the smallest that is no code, to a label that it
has not come to yet, and then looks back at the data. Not every line holds an instruction. -/
def overData : String := "JUMP @go\n@data: BYTE 18\n\n@go: MOVE RA, @data\nSTOP"

/-- The listing of that program has the four lines, with the labels at their addresses. -/
theorem overData_listing_recovers : ∃ (c : Computer) (a : Artifacts) (ls : List Source.Line),
    ofSettings { memorySize := 6 } 0 = .ok c ∧
    Source.lines? overData = some ls ∧
    (c.assemble overData).next.listing =
      [(0, "JUMP 03"), (2, "BYTE 18"), (3, "MOVE RA, 02"), (5, "STOP")] ∧
    a.lines = [(1, 0), (2, 2), (4, 3), (5, 5)] ∧
    List.Forall₂ a.Lists (rows ls) (c.assemble overData).next.listing := by
  obtain ⟨c, a, ls, hc, hls, hanswer, hlisting, hreport, hrows⟩ :
      ∃ (c : Computer) (a : Artifacts) (ls : List Source.Line),
      ofSettings { memorySize := 6 } 0 = .ok c ∧ Source.lines? overData = some ls ∧
      (c.assemble overData).answer = .ok a ∧
      (c.assemble overData).next.listing =
        [(0, "JUMP 03"), (2, "BYTE 18"), (3, "MOVE RA, 02"), (5, "STOP")] ∧
      a.lines = [(1, 0), (2, 2), (4, 3), (5, 5)] ∧
      rows ls = [⟨1, 0, .op .jump, some (.label "go")⟩, ⟨2, 2, .raw, some (.word "18")⟩,
        ⟨4, 3, .op .load, some (.label "data")⟩, ⟨5, 5, .op .stop, none⟩] :=
    ⟨_, _, _, rfl, rfl, rfl, rfl, rfl, rfl⟩
  have hdata : Source.DataBeyondCodes ls := by
    intro r hr hraw text v htext hv
    rw [hrows] at hr
    simp only [List.mem_cons, List.not_mem_nil, or_false] at hr
    rcases hr with rfl | rfl | rfl | rfl
    · cases hraw
    · cases htext
      cases hv
      exact Nat.le_refl _
    · cases hraw
    · cases hraw
  exact ⟨c, a, ls, hc, hls, hlisting, hreport, listing_recovers_lines hanswer hls hdata⟩

end Computer

end ByteMachine
