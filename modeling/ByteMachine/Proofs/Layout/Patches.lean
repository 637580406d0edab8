import ByteMachine.Proofs.Layout.Order
import ByteMachine.Proofs.Layout.Refusal

/-!
# Where labels wait for their addresses

The first pass notes every use of a label with the address of the byte that stands for it until
labels are known. Such a byte is the operand of an instruction, so it is inside the program, and
uses are noted in the order of their addresses. The second pass therefore finds every byte that it
is to rewrite, and is refused only for a label that is not defined.
-/

namespace ByteMachine

namespace Layout

open Source (Line)
open Assembly (Patch)

variable {ls : List Line} {p : Patch}

/-- A row that uses a label leaves the byte behind its code to the second pass. -/
theorem Row.of_patch? {r : Row} (h : r.patch? = some p) :
    r.operand = some (.label p.label) ∧ r.line = p.line ∧ p.address = r.address + 1 := by
  obtain ⟨line, address, i, operand⟩ := r
  match operand, h with
  | some (.label name), h =>
    cases h
    exact ⟨rfl, rfl, rfl⟩

/-- A use of a label on the operand byte of an instruction line, which holds a zero. -/
structure Waits (ls : List Line) (m : Memory) (p : Patch) (r : Row) (o : Opcode) : Prop where
  /-- The instruction is on one of the lines. -/
  mem : r ∈ rows ls
  /-- It is an operation. -/
  instruction : r.instruction = .op o
  /-- It takes two bytes. -/
  width : o.width = 2
  /-- It is on the line that uses the label. -/
  line : r.line = p.line
  /-- The label is what it keeps. -/
  operand : r.operand = some (.label p.label)
  /-- The byte is the second one. -/
  address : p.address = r.address + 1
  /-- The first one is the code. -/
  code : m.cells[r.address]? = some o.code
  /-- The second one is a zero. -/
  zero : m.cells[p.address]? = some 0

/-- Where the bytes of all lines have been written, every use of a label waits on an operand. -/
theorem exists_waits {m : Memory} (hreadable : ∀ r ∈ rows ls, r.Readable)
    (hcells : ∀ (k : Nat) (b : UInt8), (bytes unknown ls)[k]? = some b → m.cells[k]? = some b)
    (hp : p ∈ patches ls) : ∃ r o, Waits ls m p r o := by
  obtain ⟨r, hr, hpatch⟩ := List.mem_filterMap.mp hp
  obtain ⟨hoperand, hline, haddress⟩ := Row.of_patch? hpatch
  obtain ⟨k, l, hget, hrow⟩ := mem_collect_iff.mp hr
  obtain ⟨i, hi, heq⟩ := row?_eq_some hrow
  cases i with
  | raw =>
    have hdata := (hreadable r hr).data (by rw [heq])
    exact absurd hoperand (hdata p.label)
  | op o =>
    have hinstruction : r.instruction = .op o := by rw [heq]
    have hstart : r.address = address ls k := by rw [heq]
    have hkept : (Instruction.op o).form.encoded l.operands = some (.label p.label) := by
      rw [heq] at hoperand
      exact hoperand
    have hwidth : o.width = 2 := by
      have hsum := Instruction.width_of_accepts (Source.Line.accepts_of_instruction? hi)
      rw [hkept] at hsum
      exact hsum.symm
    have hbytes : r.bytes unknown = [o.code, 0] := by
      rw [Row.bytes, hinstruction, hoperand]
      rfl
    have hcode := getElem?_bytes_of_row unknown hget hrow (i := 0) (by rw [hbytes]; rfl)
    have hzero := getElem?_bytes_of_row unknown hget hrow (i := 1) (by rw [hbytes]; rfl)
    rw [← hstart] at hcode hzero
    refine ⟨r, o, hr, hinstruction, hwidth, hline, hoperand, haddress, hcells _ _ hcode, ?_⟩
    rw [haddress]
    exact hcells _ _ hzero

/-- Uses of labels are at increasing addresses. -/
theorem pairwise_patches (ls : List Line) :
    (patches ls).Pairwise fun p q => p.address < q.address := by
  refine (pairwise_rows ls).filterMap Row.patch? ?_
  intro r s hless p hp q hq
  rw [(Row.of_patch? hp).2.2, (Row.of_patch? hq).2.2]
  exact Nat.succ_lt_succ hless.2

end Layout

namespace Assembly

open Source (Line Operand)

variable {m : Memory} {source : String} {d : Draft}

/-- The uses of labels that the first pass over these lines has noted. -/
structure Draft.PatchesInPlace (d : Draft) (ls : List Line) : Prop where
  /-- Each of them is below the pointer. -/
  below : ∀ p ∈ d.patches, p.address < d.memory.pointer
  /-- Each of them waits on the operand byte of an instruction. -/
  waiting : ∀ p ∈ d.patches, ∃ r o, Layout.Waits ls d.memory p r o
  /-- Later ones are at higher addresses. -/
  increasing : d.patches.Pairwise fun p q => p.address < q.address

/-- Once all lines have passed, the uses of labels are in place. -/
theorem patchesInPlace_of_firstPass (h : firstPass m source = .ok d) :
    ∃ ls, Source.lines? source = some ls ∧ d.PatchesInPlace ls := by
  obtain ⟨ls, hls, hfits, n, hn, rfl⟩ := Layout.firstPass_eq_ok_iff.mp h
  obtain ⟨-, hpointer, hcells⟩ := Memory.appendAll_clear_eq_ok_iff.mp hn
  refine ⟨ls, hls, ?_, ?_, Layout.pairwise_patches ls⟩
  · intro p hp
    have hlt := Layout.address_lt_of_mem_patches hfits.readable p hp
    rw [← Layout.length_bytes Layout.unknown ls, ← hpointer] at hlt
    exact hlt
  · intro p hp
    refine Layout.exists_waits hfits.readable ?_ hp
    intro k b hb
    have hk := (List.getElem?_eq_some_iff.mp hb).1
    have hcell : n.cells[k]? = some b := by
      rw [hcells, List.getElem?_append_left hk, hb]
    exact hcell

/-- The second pass complains about labels that are not defined, and about nothing else. -/
theorem exists_patch_of_resolve {f : Failure} (h : firstPass m source = .ok d)
    (hf : d.resolve = .error f) :
    ∃ p ∈ d.patches, address? d.labels p.label = none ∧
      f.error = .labelNotFound (Operand.label p.label).spelling := by
  obtain ⟨ls, -, hplace⟩ := patchesInPlace_of_firstPass h
  have hrefusal : refusal? d.resolve =
      (d.patches.find? fun p => (address? d.labels p.label).isNone).map fun p =>
        .labelNotFound (Operand.label p.label).spelling :=
    refusal?_foldlM_applyPatch d.patches hplace.below
  rw [hf] at hrefusal
  obtain ⟨p, hp, heq⟩ := Option.map_eq_some_iff.mp hrefusal.symm
  have hundefined : (address? d.labels p.label).isNone = true :=
    List.find?_some (p := fun p : Patch => (address? d.labels p.label).isNone) hp
  exact ⟨p, List.mem_of_find?_eq_some hp, Option.isNone_iff_eq_none.mp hundefined, heq.symm⟩

end Assembly

end ByteMachine
