import ByteMachine.Assembly
import ByteMachine.Listing

/-!
# Reading and writing by index

The assembler writes addresses into cells that it has passed before, and a listing goes
through the bytes of a program by their addresses. Here each access has no result where its
index is out of range, and so has an address that is no byte. As a program lies inside of
its memory, and a memory has 256 cells at most, all of them have results after all, and
these are what the assembler and the listing come to.
-/

namespace ByteMachine

namespace Checked

/-- A number as a byte, if it is one. -/
def byte? (n : Nat) : Option UInt8 := if n < UInt8.size then some (UInt8.ofNat n) else none

/-- The first so many bytes, if there are as many. -/
def slice? (bytes : List UInt8) (length : Nat) : Option (List UInt8) :=
  if length ≤ bytes.length then some (bytes.take length) else none

theorem byte?_of_lt {n : Nat} (h : n < UInt8.size) : byte? n = some (UInt8.ofNat n) := if_pos h

end Checked

namespace Memory

/-- Writes a cell by its index. -/
def checkedSet (m : Memory) (index : Nat) (value : UInt8) : Option Memory :=
  if index < m.size then some (m.setCell index value) else none

/-- Rewrites a byte of the program by its index. -/
def checkedPatch (m : Memory) (address : Nat) (value : UInt8) :
    Option (Except MemoryError Memory) :=
  if address < m.pointer then (m.checkedSet address value).map .ok
  else some (.error (.outOfBounds address m.size))

/-- Every byte of the program has a cell. -/
theorem checkedPatch_eq (m : Memory) (address : Nat) (value : UInt8) :
    m.checkedPatch address value = some (m.patch address value) := by
  unfold checkedPatch patch checkedSet
  split
  · rename_i hprogram
    have hcell : address < m.size := Nat.lt_of_lt_of_le hprogram m.pointer_le
    rw [if_pos hcell]
    rfl
  · rfl

/-- The assembled program as a slice of memory. -/
def checkedProgram (m : Memory) : Option (List UInt8) := Checked.slice? m.cells m.pointer

/-- The program lies inside of memory. -/
theorem checkedProgram_eq (m : Memory) : m.checkedProgram = some m.program := if_pos m.pointer_le

end Memory

namespace Assembly

open Draft (applyPatch)

/-- The second pass over one use of a label, by index. -/
def checkedApplyPatch (labels : List (String × UInt8)) (m : Memory) (p : Patch) :
    Option (Except Failure Memory) :=
  match address? labels p.label with
  | none => some (.error ⟨.labelNotFound ((Source.Operand.label p.label).spelling), m⟩)
  | some address =>
    (m.checkedPatch p.address address).map fun
      | .ok m => .ok m
      | .error _ => .error ⟨.programTooLarge p.line m.size, m⟩

/-- The second pass over all uses of labels, by index. -/
def checkedResolve (labels : List (String × UInt8)) (m : Memory) :
    List Patch → Option (Except Failure Memory)
  | [] => some (.ok m)
  | p :: ps =>
    (checkedApplyPatch labels m p).bind fun
      | .ok m => checkedResolve labels m ps
      | .error failure => some (.error failure)

/-- Both passes, with the second one by index. -/
def checkedAssemble (m : Memory) (source : String) : Option (Except Failure (Memory × Artifacts)) :=
  match firstPass m source with
  | .ok draft =>
    (checkedResolve draft.labels draft.memory draft.patches).map fun result =>
      result.map fun memory => (memory, ⟨draft.labels, draft.lines, memory.pointer⟩)
  | .error failure => some (.error failure)

theorem checkedApplyPatch_eq (labels : List (String × UInt8)) (m : Memory) (p : Patch) :
    checkedApplyPatch labels m p = some (applyPatch labels m p) := by
  unfold checkedApplyPatch applyPatch
  cases address? labels p.label with
  | none => rfl
  | some address => exact congrArg (Option.map _) (m.checkedPatch_eq p.address address)

theorem checkedResolve_eq (labels : List (String × UInt8)) (m : Memory) (ps : List Patch) :
    checkedResolve labels m ps = some (ps.foldlM (applyPatch labels) m) := by
  induction ps generalizing m with
  | nil => rfl
  | cons p ps ih =>
    rw [checkedResolve, checkedApplyPatch_eq, Option.bind_some, List.foldlM_cons]
    cases applyPatch labels m p with
    | ok m => exact ih m
    | error failure => rfl

/-- No write of the second pass is out of range, whatever the source. -/
theorem checkedAssemble_eq (m : Memory) (source : String) :
    checkedAssemble m source = some (assemble m source) := by
  have hassemble : assemble m source = (firstPass m source).bind fun draft =>
      draft.resolve.map fun memory => (memory, ⟨draft.labels, draft.lines, memory.pointer⟩) := by
    unfold assemble
    cases firstPass m source with
    | error failure => rfl
    | ok draft =>
      change (draft.resolve.bind fun memory => .ok (memory, _)) = draft.resolve.map _
      cases draft.resolve <;> rfl
  rw [hassemble, checkedAssemble]
  cases firstPass m source with
  | error failure => rfl
  | ok draft =>
    dsimp only
    rw [checkedResolve_eq, Option.map_some]
    rfl

end Assembly

/-- An instruction takes one or two bytes. -/
theorem Form.width_cases (form : Form) : form.width = 1 ∨ form.width = 2 := by
  cases form <;> decide

namespace Listing

/-- The lines of a region from an address on. A code counts if its whole instruction lies
inside of the region, and any other byte is data. -/
def scan? (region : List UInt8) (address : Nat) : Option (List (UInt8 × String)) :=
  if _h : address < region.length then do
    let byte ← region[address]?
    let here ← Checked.byte? address
    match (Opcode.ofByte? byte).filter fun o => address + o.width ≤ region.length with
    | some o =>
      if o.width = 2 then do
        let operand ← region[address + 1]?
        let rest ← scan? region (address + 2)
        return (here, Entry.text ⟨.op o, some operand⟩) :: rest
      else do
        let rest ← scan? region (address + 1)
        return (here, Entry.text ⟨.op o, none⟩) :: rest
    | none => do
      let rest ← scan? region (address + 1)
      return (here, Entry.text ⟨.raw, some byte⟩) :: rest
  else some []
termination_by region.length - address

section

variable {byte next : UInt8} {rest : List UInt8} {o : Opcode}

/-- A byte that is no code is data. -/
theorem entries_of_data (h : Opcode.ofByte? byte = none) :
    entries (byte :: rest) = ⟨.raw, some byte⟩ :: entries rest := by
  cases rest <;> simp [entries, lastEntry, h]

/-- A code that takes no operand is an instruction. -/
theorem entries_of_bare (h : Opcode.ofByte? byte = some o) (hwidth : o.width = 1) :
    entries (byte :: rest) = ⟨.op o, none⟩ :: entries rest := by
  cases rest <;> simp [entries, lastEntry, h, hwidth]

/-- A code that takes an operand is an instruction with the byte behind it. -/
theorem entries_of_operand (h : Opcode.ofByte? byte = some o) (hwidth : o.width ≠ 1) :
    entries (byte :: next :: rest) = ⟨.op o, some next⟩ :: entries rest := by
  simp [entries, h, hwidth]

/-- A code that takes an operand is data if there is no byte behind it. -/
theorem entries_of_cutOff (h : Opcode.ofByte? byte = some o) (hwidth : o.width ≠ 1) :
    entries [byte] = [⟨.raw, some byte⟩] := by
  simp [entries, lastEntry, h, hwidth]

end

/-- A byte that is no code of an instruction that lies inside is data. -/
theorem entries_drop_of_data {region : List UInt8} {address : Nat}
    (hinside : address < region.length)
    (h : (Opcode.ofByte? region[address]).filter
      (fun o => address + o.width ≤ region.length) = none) :
    entries (region.drop address) =
      ⟨.raw, some region[address]⟩ :: entries (region.drop (address + 1)) := by
  rw [List.drop_eq_getElem_cons hinside]
  cases hcode : Opcode.ofByte? region[address] with
  | none => exact entries_of_data hcode
  | some o =>
    -- the operand would lie behind the end
    rw [hcode, Option.filter_eq_none_iff] at h
    have hbehind := h o rfl
    rw [decide_eq_true_eq] at hbehind
    have hwidth : o.width ≠ 1 := by omega
    have hlast : region.length ≤ address + 1 := by
      have htwo : o.width = 2 := o.form.width_cases.resolve_left hwidth
      omega
    rw [List.drop_eq_nil_of_le hlast]
    exact entries_of_cutOff hcode hwidth

/-- The lines of a region that begins at this address. -/
def linesFrom (address : Nat) (region : List UInt8) : List (UInt8 × String) :=
  (located address (entries region)).map fun e => (UInt8.ofNat e.1, e.2.text)

/-- The first line is that of the first entry. -/
theorem linesFrom_of_entries {address : Nat} {region rest : List UInt8} {e : Entry}
    (h : entries region = e :: entries rest) :
    linesFrom address region =
      (UInt8.ofNat address, e.text) :: linesFrom (address + e.bytes.length) rest := by
  unfold linesFrom
  rw [h]
  rfl

/-- No index of a listing is out of range, and no address is too large for a byte: going
through a region by its addresses gives the lines of its entries. -/
theorem scan?_eq {region : List UInt8} (hsize : region.length ≤ UInt8.size) (address : Nat) :
    scan? region address = some (linesFrom address (region.drop address)) := by
  induction hleft : region.length - address using Nat.strongRecOn generalizing address with
  | ind left ih =>
    rw [scan?]
    split
    · rename_i hinside
      have hbyte : region[address]? = some region[address] := List.getElem?_eq_getElem hinside
      have hdrop := List.drop_eq_getElem_cons hinside
      have hhere := Checked.byte?_of_lt (Nat.lt_of_lt_of_le hinside hsize)
      have hnext := ih (region.length - (address + 1)) (by omega) (address + 1) rfl
      simp only [hbyte, hhere, Option.bind_eq_bind, Option.bind_some, Option.pure_def]
      split
      · rename_i o hdecoded
        obtain ⟨hcode, hfits⟩ := Option.filter_eq_some_iff.mp hdecoded
        rw [decide_eq_true_eq] at hfits
        split
        · rename_i hwidth
          -- the operand is inside as well
          have hoperand : address + 1 < region.length := by omega
          have hlater := ih (region.length - (address + 2)) (by omega) (address + 2) rfl
          have hentries : entries (region.drop address) =
              ⟨.op o, some region[address + 1]⟩ :: entries (region.drop (address + 2)) := by
            rw [hdrop, List.drop_eq_getElem_cons hoperand]
            exact entries_of_operand hcode (by omega)
          rw [List.getElem?_eq_getElem hoperand, Option.bind_some, hlater,
            linesFrom_of_entries hentries]
          rfl
        · rename_i hwidth
          have hentries : entries (region.drop address) =
              ⟨.op o, none⟩ :: entries (region.drop (address + 1)) := by
            rw [hdrop]
            exact entries_of_bare hcode (o.form.width_cases.resolve_right hwidth)
          rw [hnext, linesFrom_of_entries hentries]
          rfl
      · rename_i hdecoded
        have hentries := entries_drop_of_data hinside hdecoded
        rw [hnext, linesFrom_of_entries hentries]
        rfl
    · rename_i houtside
      rw [List.drop_eq_nil_of_le (Nat.not_lt.mp houtside)]
      rfl

end Listing

/-- The lines of the program, by the addresses of its bytes. -/
def Memory.checkedLines (m : Memory) : Option (List (UInt8 × String)) :=
  m.checkedProgram.bind fun region => Listing.scan? region 0

/-- The listing of a program is never out of range. -/
theorem Memory.checkedLines_eq (m : Memory) : m.checkedLines = some (Listing.lines m.program) := by
  have hsize : m.program.length ≤ UInt8.size := by
    have htake : m.program.length ≤ m.cells.length := List.length_take_le' _ _
    exact Nat.le_trans htake m.cells_le
  rw [checkedLines, checkedProgram_eq, Option.bind_some, Listing.scan?_eq hsize]
  rfl

end ByteMachine
