import ByteMachine.Proofs.Layout.Encoding
import ByteMachine.Proofs.Memory
import ByteMachine.Proofs.Source.Grammar

/-!
# The first pass

The first pass succeeds exactly if every line can be read, the lines fit, and the bytes
of the layout can be appended to the cleared memory, with a zero wherever a label is
used. What it has gathered then is read off the layout: the labels in the order of
their first definitions, the instruction lines, and the uses of labels.
-/

namespace ByteMachine

namespace Layout

open Source (Line)

/-- The byte that stands for every label until labels are known. -/
def unknown (_ : String) : UInt8 := 0

/-- The use of a label that a row leaves to the second pass. -/
def Row.patch? (r : Row) : Option Assembly.Patch :=
  match r.operand with
  | some (.label name) => some ⟨name, r.address + 1, r.line⟩
  | _ => none

/-- All uses of labels, in order. -/
def patches (ls : List Line) : List Assembly.Patch := (rows ls).filterMap Row.patch?

/-- The line of a row with its address. -/
def Row.entry (r : Row) : Nat × UInt8 := (r.line, UInt8.ofNat r.address)

/-- The label table after a series of definitions. -/
def defineAll (labels : List (String × UInt8)) (ds : List (String × Nat)) :
    List (String × UInt8) :=
  ds.foldl (fun labels d => Assembly.define labels d.1 (UInt8.ofNat d.2)) labels

/-- Definitions take effect one after another. -/
theorem defineAll_append (labels : List (String × UInt8)) (ds es : List (String × Nat)) :
    defineAll labels (ds ++ es) = defineAll (defineAll labels ds) es := by
  rw [defineAll, List.foldl_append, defineAll, defineAll]

/-- What the first pass has gathered when it has written this memory. -/
def draft (ls : List Line) (m : Memory) : Assembly.Draft where
  memory := m
  labels := defineAll [] (definitions ls)
  lines := (rows ls).map Row.entry
  patches := patches ls

/-- What one line has to meet at its address, room aside. -/
structure LineFits (index address : Nat) (l : Line) : Prop where
  /-- A mnemonic names an instruction that takes the operands. -/
  known : ∀ m, l.mnemonic = some m →
    ∃ i ∈ Instruction.named m, i.form.accepts l.operands = true
  /-- An operand that is kept can be turned into a byte. -/
  readable : ∀ r ∈ row? index address l, r.Readable
  /-- A label is not defined behind the last address. -/
  addressable : ∀ d ∈ definition? index address l, d.2 ≠ 256

/-- Lines fit if all but the last do, and the last one does where the others end. -/
theorem fits_append_singleton {size : Nat} {ls : List Line} {l : Line} :
    Fits size (ls ++ [l]) ↔
      Fits size ls ∧ LineFits ls.length (length ls) l ∧ length ls + l.width ≤ size := by
  constructor
  · rintro ⟨hknown, hreadable, hroom, haddressable⟩
    rw [rows_append_singleton] at hreadable
    rw [definitions_append_singleton] at haddressable
    rw [length_append_singleton] at hroom
    refine ⟨⟨?_, ?_, by omega, ?_⟩, ⟨?_, ?_, ?_⟩, hroom⟩
    · exact fun x hx => hknown x (List.mem_append_left _ hx)
    · exact fun r hr => hreadable r (List.mem_append_left _ hr)
    · exact fun d hd => haddressable d (List.mem_append_left _ hd)
    · exact hknown l (List.mem_append_right _ List.mem_cons_self)
    · exact fun r hr => hreadable r (List.mem_append_right _ (Option.mem_toList.mpr hr))
    · exact fun d hd => haddressable d (List.mem_append_right _ (Option.mem_toList.mpr hd))
  · rintro ⟨hfits, hline, hroom⟩
    refine ⟨?_, ?_, by rw [length_append_singleton]; exact hroom, ?_⟩
    · intro x hx
      rcases List.mem_append.mp hx with hx | hx
      · exact hfits.known x hx
      · rw [List.mem_singleton.mp hx]
        exact hline.known
    · intro r hr
      rw [rows_append_singleton] at hr
      rcases List.mem_append.mp hr with hr | hr
      · exact hfits.readable r hr
      · exact hline.readable r (Option.mem_toList.mp hr)
    · intro d hd
      rw [definitions_append_singleton] at hd
      rcases List.mem_append.mp hd with hd | hd
      · exact hfits.addressable d hd
      · exact hline.addressable d (Option.mem_toList.mp hd)

/-- No lines fit everywhere. -/
theorem fits_nil (size : Nat) : Fits size [] := by
  constructor
  · intro l hl
    cases hl
  · intro r hr
    cases hr
  · exact Nat.zero_le size
  · intro d hd
    cases hd

/-- Where a mnemonic is known, the line has an instruction. -/
theorem instruction?_isSome_iff {l : Line} {m : String} (hm : l.mnemonic = some m) :
    (∃ i, l.instruction? = some i) ↔
      ∃ i ∈ Instruction.named m, i.form.accepts l.operands = true := by
  rw [← Option.isSome_iff_exists, Line.instruction?, hm, Option.bind_some, List.find?_isSome]

end Layout

namespace Assembly.Draft

open Layout (unknown operandByte Row row? definition? LineFits defineAll)
open Source (Line Operand Operands)

variable {d d' : Draft}

/-- A byte is appended where memory has room for it. -/
theorem appendByte_eq_ok_iff {line : Nat} {value : UInt8} :
    d.appendByte line value = .ok d' ↔
      ∃ m, d.memory.append value = .ok m ∧ d' = { d with memory := m } := by
  unfold appendByte
  cases d.memory.append value with
  | ok m => simp [eq_comm]
  | error e => simp [refuse]

/-- The code of an instruction is appended as it is. -/
theorem foldlM_code_eq_ok_iff {line : Nat} {code : Option UInt8} :
    (code.toList.map Cell.byte).foldlM (appendCell line) d = .ok d' ↔
      ∃ m, d.memory.appendAll code.toList = .ok m ∧ d' = { d with memory := m } := by
  cases code with
  | none =>
    constructor
    · rintro ⟨⟩
      exact ⟨d.memory, rfl, rfl⟩
    · rintro ⟨m, hm, rfl⟩
      cases hm
      rfl
  | some value =>
    simp only [Option.toList_some, List.map_cons, List.map_nil, List.foldlM_cons,
      List.foldlM_nil, bind_pure, Memory.appendAll_cons, Memory.appendAll_nil]
    rw [appendCell, appendByte_eq_ok_iff]
    simp [bind_eq_ok_iff]

/-- A word is appended as the byte whose number it is. -/
theorem appendLiteral_eq_ok_iff {line : Nat} {text : String} (h : '+' ∉ text.toList) :
    d.appendCell line (.literal text) = .ok d' ↔
      (∃ v ≤ 255, Text.hexNumber? text.toList = some v) ∧
        ∃ m, d.memory.append (operandByte unknown (.word text)) = .ok m ∧
          d' = { d with memory := m } := by
  rw [← Text.isSome_hexByte?_iff h]
  simp only [appendCell]
  cases hbyte : Text.hexByte? text.toList with
  | none => simp [refuse]
  | some value =>
    have hnumber := (Text.hexByte?_eq_some_iff h).mp hbyte
    have hval : operandByte unknown (.word text) = value := by
      rw [operandByte, hnumber, Option.getD_some, UInt8.ofNat_toNat]
    rw [hval]
    simp only [Option.isSome_some, true_and]
    exact appendByte_eq_ok_iff

/-- A label is appended as a zero, and its use is noted. -/
theorem appendAddress_eq_ok_iff {line : Nat} {name : String} :
    d.appendCell line (.address name) = .ok d' ↔
      ∃ m, d.memory.append 0 = .ok m ∧
        d' = { d with memory := m, patches := d.patches ++ [⟨name, d.memory.pointer, line⟩] } := by
  unfold appendCell
  exact appendByte_eq_ok_iff

/-- What an instruction keeps is appended if it can be turned into a byte. -/
theorem appendKept_eq_ok_iff {i : Instruction} {o : Operand} (plain : o.IsPlain)
    {line address : Nat} (h : d.memory.pointer = address + i.code?.toList.length) :
    d.appendCell line (i.keptCell o) = .ok d' ↔
      Row.Readable ⟨line, address, i, some o⟩ ∧
        ∃ m, d.memory.append (operandByte unknown o) = .ok m ∧
          d' = { d with
            memory := m
            patches := d.patches ++ (Row.patch? ⟨line, address, i, some o⟩).toList } := by
  cases o with
  | word text =>
    have hcell : i.keptCell (.word text) = .literal text := by cases i <;> rfl
    have hreadable : Row.Readable ⟨line, address, i, some (.word text)⟩ ↔
        ∃ v ≤ 255, Text.hexNumber? text.toList = some v := by
      constructor
      · exact fun hr => hr.literal text rfl
      · intro hv
        refine ⟨?_, fun _ name he => by cases he⟩
        rintro t ⟨rfl⟩
        exact hv
    rw [hcell, appendLiteral_eq_ok_iff (Source.plus_not_mem_of_isWord plain), hreadable]
    simp [Row.patch?]
  | label name =>
    cases i with
    | raw =>
      have hfault := Operand.hexByte?_spelling_label name
      have hunreadable : ¬Row.Readable ⟨line, address, .raw, some (.label name)⟩ :=
        fun hr => hr.data rfl name rfl
      simp [Instruction.keptCell, appendCell, hfault, refuse, hunreadable]
    | op opcode =>
      have hreadable : Row.Readable ⟨line, address, .op opcode, some (.label name)⟩ := by
        constructor
        · rintro t ⟨⟩
        · rintro ⟨⟩
      rw [Instruction.keptCell, Cell.ofOperand, appendAddress_eq_ok_iff, h]
      simp only [hreadable, true_and]
      rfl

/-- The cells of an instruction are appended if what it keeps can be turned into a byte
and there is room for the bytes of its row. -/
theorem foldlM_cells_eq_ok_iff {i : Instruction} {operands : Operands}
    (plain : operands.ArePlain) {line : Nat} {r : Row}
    (hr : r = ⟨line, d.memory.pointer, i, i.form.encoded operands⟩) :
    (i.code?.toList.map Cell.byte ++ (i.form.encoded operands).toList.map i.keptCell).foldlM
        (appendCell line) d = .ok d' ↔
      r.Readable ∧ ∃ m, d.memory.appendAll (r.bytes unknown) = .ok m ∧
        d' = { d with memory := m, patches := d.patches ++ r.patch?.toList } := by
  subst hr
  rw [List.foldlM_append, bind_eq_ok_iff]
  simp only [foldlM_code_eq_ok_iff, Row.bytes, Memory.appendAll_append, bind_eq_ok_iff]
  cases ho : i.form.encoded operands with
  | none =>
    have hreadable : Row.Readable ⟨line, d.memory.pointer, i, none⟩ := by
      constructor
      · rintro t ⟨⟩
      · rintro - name ⟨⟩
    simp only [hreadable, true_and]
    constructor
    · rintro ⟨-, ⟨m, hm, rfl⟩, hd⟩
      cases hd
      exact ⟨m, ⟨m, hm, rfl⟩, by simp [Row.patch?]⟩
    · rintro ⟨m, ⟨m', hm, hm'⟩, rfl⟩
      cases hm'
      exact ⟨_, ⟨m, hm, rfl⟩, by simp [Row.patch?, pure, Except.pure]⟩
  | some o =>
    have hplain := Instruction.isPlain_of_encoded plain ho
    have hpointer {m : Memory} (hm : d.memory.appendAll i.code?.toList = .ok m) :
        m.pointer = d.memory.pointer + i.code?.toList.length :=
      (Memory.appendAll_eq_ok_iff.mp hm).2.1
    simp only [Option.toList_some, List.map_cons, List.map_nil, List.foldlM_cons,
      List.foldlM_nil, bind_pure, Option.map_some, Memory.appendAll_cons, Memory.appendAll_nil]
    constructor
    · rintro ⟨-, ⟨m, hm, rfl⟩, hd⟩
      obtain ⟨hreadable, n, hn, rfl⟩ := (appendKept_eq_ok_iff hplain (hpointer hm)).mp hd
      exact ⟨hreadable, n, ⟨m, hm, bind_eq_ok_iff.mpr ⟨n, hn, rfl⟩⟩, rfl⟩
    · rintro ⟨hreadable, n, ⟨m, hm, hn⟩, rfl⟩
      obtain ⟨n', hn', he⟩ := bind_eq_ok_iff.mp hn
      cases he
      exact ⟨_, ⟨m, hm, rfl⟩,
        (appendKept_eq_ok_iff hplain (hpointer hm)).mpr ⟨hreadable, n, hn', rfl⟩⟩

/-- An address is a byte everywhere but behind the last cell of the largest memory. -/
theorem here_eq_ok_iff {line : Nat} {address : UInt8} :
    d.here line = .ok address ↔
      d.memory.pointer ≠ 256 ∧ address = UInt8.ofNat d.memory.pointer := by
  have hpointer := d.memory.pointer_le
  have hsize : d.memory.cells.length ≤ 256 := d.memory.cells_le
  unfold here
  split
  · rename_i h
    rw [Except.ok.injEq]
    exact ⟨fun he => ⟨by omega, he.symm⟩, fun he => he.2.symm⟩
  · rename_i h
    constructor
    · rintro ⟨⟩
    · rintro ⟨hne, -⟩
      omega

/-- A label is defined where the address is a byte. -/
theorem defineLabel_eq_ok_iff {index : Nat} {l : Line} :
    d.defineLabel (index + 1) l.label = .ok d' ↔
      (∀ x ∈ definition? index d.memory.pointer l, x.2 ≠ 256) ∧
        d' = { d with
          labels := defineAll d.labels (definition? index d.memory.pointer l).toList } := by
  rw [definition?]
  cases l.label with
  | none =>
    constructor
    · rintro ⟨⟩
      refine ⟨?_, rfl⟩
      rintro x ⟨⟩
    · rintro ⟨-, rfl⟩
      rfl
  | some name =>
    rw [defineLabel, bind_eq_ok_iff]
    constructor
    · rintro ⟨address, hhere, hd⟩
      obtain ⟨hne, rfl⟩ := here_eq_ok_iff.mp hhere
      cases hd
      refine ⟨?_, rfl⟩
      rintro x ⟨rfl⟩
      exact hne
    · rintro ⟨hne, rfl⟩
      exact ⟨_, here_eq_ok_iff.mpr ⟨hne _ rfl, rfl⟩, rfl⟩

/-- No row is empty. -/
theorem bytes_ne_nil {index address : Nat} {l : Line} {r : Row}
    (h : row? index address l = some r) : r.bytes unknown ≠ [] := by
  obtain ⟨i, hi, rfl⟩ := Layout.row?_eq_some h
  have haccepts := Line.accepts_of_instruction? hi
  intro hnil
  cases i with
  | op o =>
    cases (List.append_eq_nil_iff.mp hnil).1
  | raw =>
    obtain ⟨o, ho⟩ := Instruction.encoded_isSome_of_raw haccepts
    dsimp only [Row.bytes] at hnil
    rw [ho] at hnil
    cases (List.append_eq_nil_iff.mp hnil).2

/-- The instruction of a line is appended if the line has a row that can be turned into
bytes, and there is room for them. -/
theorem appendInstruction_eq_ok_iff {l : Line} {mnemonic : String}
    (hm : l.mnemonic = some mnemonic) (plain : l.operands.ArePlain) {index : Nat}
    {text : List Char} :
    d.appendInstruction (index + 1) text mnemonic l.operands = .ok d' ↔
      ∃ r, row? index d.memory.pointer l = some r ∧ r.Readable ∧
        ∃ m, d.memory.appendAll (r.bytes unknown) = .ok m ∧
          d' = { d with
            memory := m
            lines := d.lines ++ [r.entry]
            patches := d.patches ++ r.patch?.toList } := by
  have hrow : row? index d.memory.pointer l =
      ((Instruction.named mnemonic).find? fun i => i.form.accepts l.operands).map fun i =>
        ⟨index + 1, d.memory.pointer, i, i.form.encoded l.operands⟩ := by
    rw [row?, Line.instruction?, hm, Option.bind_some]
  unfold appendInstruction
  split
  · rename_i hnamed
    rw [hrow, hnamed]
    constructor
    · rintro ⟨⟩
    · rintro ⟨r, ⟨⟩, -⟩
  · rw [Instruction.findSome?_cells]
    cases hfind : (Instruction.named mnemonic).find? fun i => i.form.accepts l.operands with
    | none =>
      rw [hrow, hfind]
      constructor
      · rintro ⟨⟩
      · rintro ⟨r, ⟨⟩, -⟩
    | some i =>
      rw [hfind, Option.map_some] at hrow
      rw [Option.map_some]
      dsimp only
      rw [bind_eq_ok_iff]
      constructor
      · rintro ⟨address, hhere, hd⟩
        obtain ⟨-, rfl⟩ := here_eq_ok_iff.mp hhere
        obtain ⟨hreadable, m, hmem, rfl⟩ := (foldlM_cells_eq_ok_iff plain rfl).mp hd
        exact ⟨_, hrow, hreadable, m, hmem, rfl⟩
      · rintro ⟨r, hr, hreadable, m, hmem, rfl⟩
        have hsome := bytes_ne_nil hr
        rw [hrow] at hr
        cases hr
        -- a row has a byte, so room for it keeps the address below 256
        have hroom := (Memory.appendAll_eq_ok_iff.mp hmem).1
        have hpositive := List.length_pos_iff.mpr hsome
        have hsize : d.memory.size ≤ 256 := d.memory.cells_le
        exact ⟨_, here_eq_ok_iff.mpr ⟨by omega, rfl⟩,
          (foldlM_cells_eq_ok_iff plain rfl).mpr ⟨hreadable, m, hmem, rfl⟩⟩

/-- What has been gathered after one more line, when it has left memory like this. -/
def extend (d : Draft) (index : Nat) (l : Line) (m : Memory) : Draft where
  memory := m
  labels := defineAll d.labels (definition? index d.memory.pointer l).toList
  lines := d.lines ++ (row? index d.memory.pointer l).toList.map Row.entry
  patches := d.patches ++ (row? index d.memory.pointer l).toList.filterMap Row.patch?

/-- A line with an instruction adds one entry, and a patch where it uses a label. -/
theorem extend_of_row {index : Nat} {l : Line} {r : Row}
    (hrow : row? index d.memory.pointer l = some r) (m : Memory) :
    d.extend index l m = {
      memory := m
      labels := defineAll d.labels (definition? index d.memory.pointer l).toList
      lines := d.lines ++ [r.entry]
      patches := d.patches ++ r.patch?.toList } := by
  rw [extend, hrow]
  cases hp : r.patch? <;> simp [hp]

/-- A line without an instruction adds at most a label. -/
theorem extend_of_no_row {index : Nat} {l : Line} (hrow : row? index d.memory.pointer l = none)
    (m : Memory) :
    d.extend index l m = { d with
      memory := m
      labels := defineAll d.labels (definition? index d.memory.pointer l).toList } := by
  rw [extend, hrow]
  simp

/-- A line passes exactly if it can be read, fits, and its bytes can be appended. -/
theorem readLine_eq_ok_iff {index : Nat} {text : List Char} :
    d.readLine (index + 1, text) = .ok d' ↔
      ∃ l, Source.lineOfChars? text = some l ∧ LineFits index d.memory.pointer l ∧
        ∃ m, d.memory.appendAll
          ((row? index d.memory.pointer l).toList.flatMap (Row.bytes unknown)) = .ok m ∧
            d' = d.extend index l m := by
  unfold readLine
  cases hread : Source.lineOfChars? text with
  | none =>
    constructor
    · rintro ⟨⟩
    · rintro ⟨l, ⟨⟩, -⟩
  | some l =>
    have plain := Source.arePlain_of_lineOfChars? hread
    dsimp only
    rw [bind_eq_ok_iff]
    simp only [Option.some.injEq, exists_eq_left', defineLabel_eq_ok_iff]
    cases hm : l.mnemonic with
    | none =>
      have hrow : row? index d.memory.pointer l = none := by
        rw [row?, Line.instruction?, hm]
        rfl
      constructor
      · rintro ⟨-, ⟨haddressable, rfl⟩, hd⟩
        cases hd
        refine ⟨⟨fun m h => by simp [hm] at h, fun r h => by simp [hrow] at h, haddressable⟩,
          d.memory, ?_, (extend_of_no_row hrow d.memory).symm⟩
        rw [hrow]
        rfl
      · rintro ⟨hfits, m, hmem, rfl⟩
        rw [hrow] at hmem
        cases hmem
        rw [extend_of_no_row hrow]
        exact ⟨_, ⟨hfits.addressable, rfl⟩, rfl⟩
    | some mnemonic =>
      constructor
      · rintro ⟨-, ⟨haddressable, rfl⟩, hd⟩
        obtain ⟨r, hrow, hreadable, m, hmem, rfl⟩ := (appendInstruction_eq_ok_iff hm plain).mp hd
        dsimp only at hrow hmem
        refine ⟨⟨?_, ?_, haddressable⟩, m, ?_, (extend_of_row hrow m).symm⟩
        · intro m' hm'
          obtain ⟨i, hi, -⟩ := Layout.row?_eq_some hrow
          exact (Layout.instruction?_isSome_iff hm').mp ⟨i, hi⟩
        · intro r' hr'
          rw [hrow] at hr'
          cases hr'
          exact hreadable
        · simpa [hrow] using hmem
      · rintro ⟨hfits, m, hmem, rfl⟩
        obtain ⟨i, hi⟩ := (Layout.instruction?_isSome_iff hm).mpr (hfits.known mnemonic hm)
        obtain ⟨r, hrow⟩ : ∃ r, row? index d.memory.pointer l = some r := by
          rw [row?, hi]
          exact ⟨_, rfl⟩
        refine ⟨_, ⟨hfits.addressable, rfl⟩, (appendInstruction_eq_ok_iff hm plain).mpr
          ⟨r, hrow, hfits.readable r hrow, m, ?_, extend_of_row hrow m⟩⟩
        simpa [hrow] using hmem

end Assembly.Draft

namespace Layout

open Source (Line)

/-- A line that is read behind others adds to what was gathered as it adds to the layout. -/
theorem extend_draft {ls : List Line} {m : Memory} (h : m.pointer = length ls) (l : Line)
    (n : Memory) : (draft ls m).extend ls.length l n = draft (ls ++ [l]) n := by
  unfold Assembly.Draft.extend draft patches
  rw [rows_append_singleton, definitions_append_singleton, h, List.map_append,
    List.filterMap_append, defineAll_append]

/-- Reading each text gives as many lines as there are texts. -/
theorem length_of_mapM_eq_some {α β : Type} {f : α → Option β} {xs : List α} {ys : List β}
    (h : xs.mapM f = some ys) : ys.length = xs.length := by
  induction xs generalizing ys with
  | nil =>
    cases h
    rfl
  | cons x xs ih =>
    rw [List.mapM_cons] at h
    obtain ⟨y, -, h⟩ := Option.bind_eq_some_iff.mp h
    obtain ⟨zs, hzs, h⟩ := Option.bind_eq_some_iff.mp h
    cases h
    rw [List.length_cons, List.length_cons, ih hzs]

/-- Texts are read if all but the last are, and the last one is. -/
theorem mapM_append_singleton_eq_some_iff {α β : Type} {f : α → Option β} {xs : List α} {x : α}
    {zs : List β} : (xs ++ [x]).mapM f = some zs ↔
      ∃ ys y, xs.mapM f = some ys ∧ f x = some y ∧ zs = ys ++ [y] := by
  rw [List.mapM_append]
  cases xs.mapM f with
  | none => simp
  | some ys =>
    cases hx : f x with
    | none => simp [hx]
    | some y => simp [hx, eq_comm]

/-- The first pass over numbered texts succeeds exactly if all of them can be read, the
lines fit, and their bytes can be appended; it has then gathered the layout. -/
theorem foldlM_readLine_eq_ok_iff {m : Memory} {texts : List (List Char)}
    {d : Assembly.Draft} :
    (texts.zipIdx.map fun t => (t.2 + 1, t.1)).foldlM Assembly.Draft.readLine
        { memory := m.clear } = .ok d ↔
      ∃ ls, texts.mapM Source.lineOfChars? = some ls ∧ Fits m.size ls ∧
        ∃ n, m.clear.appendAll (bytes unknown ls) = .ok n ∧ d = draft ls n := by
  induction texts using List.reverseRecOn generalizing d with
  | nil =>
    constructor
    · rintro ⟨⟩
      exact ⟨[], rfl, fits_nil m.size, m.clear, rfl, rfl⟩
    · rintro ⟨ls, ⟨⟩, -, n, hn, rfl⟩
      cases hn
      rfl
  | append_singleton texts text ih =>
    have hpointer {ls : List Line} {n : Memory}
        (hn : m.clear.appendAll (bytes unknown ls) = .ok n) : n.pointer = length ls := by
      rw [(Memory.appendAll_clear_eq_ok_iff.mp hn).2.1, length_bytes]
    rw [List.zipIdx_append, List.map_append, List.foldlM_append, bind_eq_ok_iff]
    simp only [List.zipIdx_singleton, List.map_cons, List.map_nil, List.foldlM_cons,
      List.foldlM_nil, bind_pure, Nat.zero_add, ih, Assembly.Draft.readLine_eq_ok_iff,
      mapM_append_singleton_eq_some_iff]
    constructor
    · rintro ⟨-, ⟨ls, hls, hfits, n, hn, rfl⟩, l, hl, hline, k, hk, rfl⟩
      have hlength := length_of_mapM_eq_some hls
      have hat : (draft ls n).memory.pointer = length ls := hpointer hn
      rw [hat, ← hlength] at hline hk
      have hall : m.clear.appendAll (bytes unknown (ls ++ [l])) = .ok k := by
        rw [bytes_append_singleton, Memory.appendAll_append, bind_eq_ok_iff]
        exact ⟨n, hn, hk⟩
      have hroom := (Memory.appendAll_clear_eq_ok_iff.mp hall).1
      rw [length_bytes, length_append_singleton] at hroom
      refine ⟨ls ++ [l], ⟨ls, l, hls, hl, rfl⟩, fits_append_singleton.mpr ⟨hfits, hline, hroom⟩,
        k, hall, ?_⟩
      rw [← hlength, extend_draft (hpointer hn)]
    · rintro ⟨-, ⟨ls, l, hls, hl, rfl⟩, hfits, k, hk, rfl⟩
      have hlength := length_of_mapM_eq_some hls
      obtain ⟨hfits, hline, -⟩ := fits_append_singleton.mp hfits
      rw [bytes_append_singleton, Memory.appendAll_append, bind_eq_ok_iff] at hk
      obtain ⟨n, hn, hk⟩ := hk
      have hat : (draft ls n).memory.pointer = length ls := hpointer hn
      refine ⟨draft ls n, ⟨ls, hls, hfits, n, hn, rfl⟩, l, hl, ?_⟩
      rw [hat, ← hlength]
      exact ⟨hline, k, hk, (extend_draft (hpointer hn) l k).symm⟩

/-- The first pass over a source. -/
theorem firstPass_eq_ok_iff {m : Memory} {source : String} {d : Assembly.Draft} :
    Assembly.firstPass m source = .ok d ↔
      ∃ ls, Source.lines? source = some ls ∧ Fits m.size ls ∧
        ∃ n, m.clear.appendAll (bytes unknown ls) = .ok n ∧ d = draft ls n :=
  foldlM_readLine_eq_ok_iff

end Layout

end ByteMachine
