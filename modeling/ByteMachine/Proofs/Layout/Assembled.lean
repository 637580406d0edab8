import ByteMachine.Proofs.Layout.SecondPass

/-!
# What assembling a source comes to

A source is assembled exactly if it can be laid out: all lines can be read, they fit the
memory, and every label that is used is defined. Memory then holds the bytes of the
layout with zeros behind them, whatever it held before, and the labels, the lines and
the length that are reported are those of the layout.
-/

namespace ByteMachine.Layout

open Source (Line Operand)

/-- What is known about a program, read off its layout. -/
def artifacts (ls : List Line) : Artifacts where
  labels := defineAll [] (definitions ls)
  lines := (rows ls).map Row.entry
  length := length ls

/-- The number that an operand stands for: the address of a label, or the value of a word. -/
def operandNumber? (ls : List Line) : Operand → Option Nat
  | .label name => labelAddress? ls name
  | .word text => Text.hexNumber? text.toList

/-- A memory and a report on it that agree with the layout of these lines. -/
structure Laid (size : Nat) (ls : List Line) (m : Memory) (a : Artifacts) : Prop where
  /-- Memory has kept its size. -/
  size_eq : m.size = size
  /-- The program is at the front, and all bytes behind it are zero. -/
  cells : m.cells = image ls ++ List.replicate (size - length ls) 0
  /-- The bytes of the program are as many as its lines are wide. -/
  image_length : (image ls).length = length ls
  /-- The byte of an operand is the number that it stands for. -/
  operands : ∀ r ∈ rows ls, ∀ o, r.operand = some o →
    operandNumber? ls o = some (operandByte (labelByte ls) o).toNat
  /-- The pointer is behind the program. -/
  pointer : m.pointer = Layout.length ls
  /-- The length is that of all lines. -/
  length : a.length = Layout.length ls
  /-- The instruction lines are reported with their addresses. -/
  lines : a.lines.map (fun e => (e.1, e.2.toNat)) = (rows ls).map fun r => (r.line, r.address)
  /-- The labels are reported in the order of their first definitions. -/
  names : a.labels.map Prod.fst = ((definitions ls).map Prod.fst).eraseDups
  /-- Each label is reported at the address of its last definition. -/
  addresses : ∀ name,
    (Assembly.address? a.labels name).map UInt8.toNat = labelAddress? ls name

/-- The table gives every label its byte. -/
theorem getD_address?_table (ls : List Line) (name : String) :
    (Assembly.address? (defineAll [] (definitions ls)) name).getD 0 = labelByte ls name := by
  rw [address?_table, labelByte]
  cases labelAddress? ls name <;> rfl

/-- The uses of labels can all be resolved exactly if every label is defined. -/
theorem patches_resolvable_iff {ls : List Line} {size : Nat} (h : Fits size ls) {m : Memory}
    (hm : m.pointer = length ls) :
    (∀ p ∈ patches ls,
      (∃ value, Assembly.address? (defineAll [] (definitions ls)) p.label = some value) ∧
        p.address < m.pointer) ↔ Closed ls := by
  have hknown (name : String) :
      (∃ value, Assembly.address? (defineAll [] (definitions ls)) name = some value) ↔
        ∃ l ∈ ls, l.label = some name := by
    rw [← labelAddress?_isSome_iff, address?_table]
    cases labelAddress? ls name <;> simp
  constructor
  · intro hp r hr name hname
    have hpatch : r.patch? = some ⟨name, r.address + 1, r.line⟩ := by
      rw [Row.patch?, hname]
    exact (hknown name).mp (hp _ (List.mem_filterMap.mpr ⟨r, hr, hpatch⟩)).1
  · intro hclosed p hp
    rw [hm]
    refine ⟨?_, address_lt_of_mem_patches h.readable p hp⟩
    obtain ⟨r, hr, hpatch⟩ := List.mem_filterMap.mp hp
    unfold Row.patch? at hpatch
    split at hpatch
    · rename_i name hname
      cases hpatch
      exact (hknown name).mpr (hclosed r hr name hname)
    · cases hpatch

/-- Assembling succeeds exactly where there is a layout, and its result is the layout. -/
theorem assemble_eq_ok_iff {m n : Memory} {source : String} {a : Artifacts} :
    Assembly.assemble m source = .ok (n, a) ↔
      ∃ ls, Source.lines? source = some ls ∧ Fits m.size ls ∧ Closed ls ∧
        n.pointer = length ls ∧
        n.cells = image ls ++ List.replicate (m.size - length ls) 0 ∧ a = artifacts ls := by
  have hlabels (ls : List Line) : (fun name =>
      (Assembly.address? (defineAll [] (definitions ls)) name).getD 0) = labelByte ls :=
    funext (getD_address?_table ls)
  unfold Assembly.assemble
  rw [bind_eq_ok_iff]
  simp only [firstPass_eq_ok_iff, bind_eq_ok_iff]
  constructor
  · rintro ⟨-, ⟨ls, hls, hfits, k, hk, rfl⟩, n', hresolve, hdone⟩
    obtain ⟨hroom, hpointer, hcells⟩ := Memory.appendAll_clear_eq_ok_iff.mp hk
    rw [length_bytes] at hroom hpointer hcells
    obtain ⟨hpatches, hp, hc⟩ := foldlM_applyPatch_eq_ok_iff.mp hresolve
    have hclosed : Closed ls := (patches_resolvable_iff hfits hpointer).mp hpatches
    have hlength : n'.pointer = length ls := hp.trans hpointer
    cases hdone
    refine ⟨ls, hls, hfits, hclosed, hlength, ?_, ?_⟩
    · rw [hc]
      change applyPatches (fun name =>
        (Assembly.address? (defineAll [] (definitions ls)) name).getD 0) (patches ls) k.cells = _
      rw [hcells, hlabels, applyPatches_bytes hfits.readable, image]
    · rw [artifacts, hlength]
      rfl
  · rintro ⟨ls, hls, hfits, hclosed, hpointer, hcells, rfl⟩
    have hroom : (bytes unknown ls).length ≤ m.size := by
      rw [length_bytes]
      exact hfits.room
    have hk := Memory.appendAll_clear_of_le hroom
    obtain ⟨-, hp, hc⟩ := Memory.appendAll_clear_eq_ok_iff.mp hk
    rw [length_bytes] at hp hc
    refine ⟨draft ls _, ⟨ls, hls, hfits, _, hk, rfl⟩, n,
      foldlM_applyPatch_eq_ok_iff.mpr ⟨?_, ?_, ?_⟩, ?_⟩
    · exact (patches_resolvable_iff hfits hp).mpr hclosed
    · rw [hpointer]
      exact hp.symm
    · change n.cells = applyPatches (fun name =>
        (Assembly.address? (defineAll [] (definitions ls)) name).getD 0) (patches ls)
          (m.holding (bytes unknown ls) hroom).cells
      rw [hcells, hc, hlabels, applyPatches_bytes hfits.readable, image]
    · rw [artifacts, ← hpointer]
      rfl

/-- A source with a layout is assembled. -/
theorem exists_assemble {m : Memory} {source : String} {ls : List Line}
    (hls : Source.lines? source = some ls) (hfits : Fits m.size ls) (hclosed : Closed ls) :
    ∃ n, Assembly.assemble m source = .ok (n, artifacts ls) := by
  have hlength : (image ls).length = length ls := length_bytes _ ls
  have hroom : (image ls).length ≤ m.size := by
    rw [hlength]
    exact hfits.room
  refine ⟨m.holding (image ls) hroom,
    assemble_eq_ok_iff.mpr ⟨ls, hls, hfits, hclosed, hlength, ?_, rfl⟩⟩
  change image ls ++ List.replicate (m.size - (image ls).length) 0 = _
  rw [hlength]

/-- Where lines fit a memory, the address of a row is a byte. -/
theorem address_lt_of_mem_rows {size : Nat} {ls : List Line} (h : Fits size ls)
    (hsize : size ≤ 256) {r : Row} (hr : r ∈ rows ls) : r.address < 256 := by
  obtain ⟨k, l, hget, hrow⟩ := mem_collect_iff.mp hr
  have hwidth := length_bytes_row unknown k (address ls k) l
  have hsome : ((row? k (address ls k) l).toList.flatMap (Row.bytes unknown)).length ≠ 0 := by
    rw [hrow, Option.toList_some, List.flatMap_singleton]
    exact fun he => Assembly.Draft.bytes_ne_nil hrow (List.length_eq_zero_iff.mp he)
  obtain ⟨i, -, rfl⟩ := row?_eq_some hrow
  have hend := address_le_length ls (k + 1)
  rw [address_succ hget] at hend
  have hroom := h.room
  dsimp only
  omega

/-- The byte of an operand is its number, where there are no undefined labels. -/
theorem operandNumber?_eq_some {size : Nat} {ls : List Line} (h : Fits size ls)
    (hclosed : Closed ls) (hsize : size ≤ 256) {r : Row} (hr : r ∈ rows ls) {o : Operand}
    (ho : r.operand = some o) :
    operandNumber? ls o = some (operandByte (labelByte ls) o).toNat := by
  cases o with
  | label name =>
    obtain ⟨a, ha⟩ := labelAddress?_isSome_iff.mpr (hclosed r hr name ho)
    have hlt := labelAddress?_lt h hsize ha
    rw [operandNumber?, operandByte, labelByte, ha, Option.getD_some, UInt8.toNat_ofNat',
      Nat.mod_eq_of_lt hlt]
  | word text =>
    obtain ⟨v, hv, hnumber⟩ := (h.readable r hr).literal text ho
    rw [operandNumber?, operandByte, hnumber, Option.getD_some, UInt8.toNat_ofNat',
      Nat.mod_eq_of_lt (by omega)]

/-- What assembling leaves agrees with the layout in every respect. -/
theorem laid_of_assemble {m n : Memory} {source : String} {a : Artifacts}
    (h : Assembly.assemble m source = .ok (n, a)) :
    ∃ ls, Source.lines? source = some ls ∧ Fits m.size ls ∧ Closed ls ∧ Laid m.size ls n a := by
  obtain ⟨ls, hls, hfits, hclosed, hpointer, hcells, rfl⟩ := assemble_eq_ok_iff.mp h
  have hsize : m.size ≤ 256 := m.cells_le
  have hlength : (image ls).length = length ls := length_bytes _ ls
  have hroom := hfits.room
  refine ⟨ls, hls, hfits, hclosed, ?_, hcells, hlength, ?_, hpointer, rfl, ?_, ?_, ?_⟩
  · rw [Memory.size, hcells, List.length_append, hlength, List.length_replicate]
    omega
  · exact fun r hr o ho => operandNumber?_eq_some hfits hclosed hsize hr ho
  · rw [artifacts, List.map_map]
    apply List.map_congr_left
    intro r hr
    have hlt := address_lt_of_mem_rows hfits hsize hr
    rw [Function.comp_apply, Row.entry, UInt8.toNat_ofNat', Nat.mod_eq_of_lt hlt]
  · exact map_fst_defineAll (definitions ls)
  · intro name
    rw [artifacts, address?_table]
    cases ha : labelAddress? ls name with
    | none => rfl
    | some a =>
      have hlt := labelAddress?_lt hfits hsize ha
      rw [Option.map_some, Option.map_some, UInt8.toNat_ofNat', Nat.mod_eq_of_lt hlt]

/-- The assembler on a memory succeeds where assembling does, with the same result. -/
theorem memory_assemble_eq_ok_iff {m n : Memory} {source : String} {a : Artifacts} :
    m.assemble source = (n, .ok a) ↔ Assembly.assemble m source = .ok (n, a) := by
  unfold Memory.assemble
  cases Assembly.assemble m source with
  | ok r => simp [Prod.ext_iff]
  | error e => simp

/-- Assembling is laying out: a source is assembled exactly if all its lines can be read,
they fit the memory, and every label that is used is defined, and whatever memory held
before, it then holds the layout of those lines, which is also what is reported. -/
theorem assemble_realizes_layout (m : Memory) (source : String) :
    ((∃ n a, m.assemble source = (n, .ok a)) ↔
      ∃ ls, Source.lines? source = some ls ∧ Fits m.size ls ∧ Closed ls) ∧
    ∀ n a, m.assemble source = (n, .ok a) →
      ∃ ls, Source.lines? source = some ls ∧ Laid m.size ls n a := by
  refine ⟨⟨?_, ?_⟩, ?_⟩
  · rintro ⟨n, a, h⟩
    obtain ⟨ls, hls, hfits, hclosed, -⟩ := laid_of_assemble (memory_assemble_eq_ok_iff.mp h)
    exact ⟨ls, hls, hfits, hclosed⟩
  · rintro ⟨ls, hls, hfits, hclosed⟩
    obtain ⟨n, h⟩ := exists_assemble hls hfits hclosed
    exact ⟨n, artifacts ls, memory_assemble_eq_ok_iff.mpr h⟩
  · intro n a h
    obtain ⟨ls, hls, -, -, hlaid⟩ := laid_of_assemble (memory_assemble_eq_ok_iff.mp h)
    exact ⟨ls, hls, hlaid⟩

end ByteMachine.Layout
