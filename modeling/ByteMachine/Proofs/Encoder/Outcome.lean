import ByteMachine.Proofs.Encoder

/-!
# What the encoder leaves behind

An instruction that takes its operands is never rejected. If there is room for it and its operand
can be turned into a byte, then its bytes are written behind the pointer, and a label that is kept
as an operand is noted at the zero that stands for it. Otherwise the encoder has stopped before
the last byte, and memory holds a beginning of them.
-/

namespace ByteMachine

open Source (Operand Operands)
open Assembly (Encoding EncodingError Patch Sink)
open Assembly.Encoding (write writeLiteral writeOperand)

/-- A memory in which a run of bytes has been written behind the pointer, and nothing else. -/
structure Memory.Grows (m : Memory) (bytes : List UInt8) (n : Memory) : Prop where
  /-- There are as many cells as before. -/
  size : n.size = m.size
  /-- The pointer has gone over the bytes. -/
  pointer : n.pointer = m.pointer + bytes.length
  /-- The bytes are where the pointer was. -/
  inside : ∀ k b, bytes[k]? = some b → n.cells[m.pointer + k]? = some b
  /-- All other cells are as before. -/
  outside : ∀ k, k < m.pointer ∨ m.pointer + bytes.length ≤ k → n.cells[k]? = m.cells[k]?

/-- Appended bytes are written behind the pointer. -/
theorem Memory.grows_of_appendAll {m n : Memory} {bytes : List UInt8}
    (h : m.appendAll bytes = .ok n) : m.Grows bytes n := by
  obtain ⟨hroom, hpointer, hcells⟩ := appendAll_eq_ok_iff.mp h
  have hbefore : (m.cells.take m.pointer).length = m.pointer := by
    rw [List.length_take]
    exact Nat.min_eq_left m.pointer_le
  constructor
  · rw [size] at hroom
    rw [size, size, hcells, List.length_append, List.length_append, hbefore, List.length_drop]
    omega
  · exact hpointer
  · intro k b hb
    have hk : k < bytes.length := (List.getElem?_eq_some_iff.mp hb).1
    have hle : (m.cells.take m.pointer).length ≤ m.pointer + k := by
      rw [hbefore]
      exact Nat.le_add_right _ _
    rw [hcells, List.append_assoc, List.getElem?_append_right hle, hbefore,
      Nat.add_sub_cancel_left, List.getElem?_append_left hk, hb]
  · intro k hk
    rcases hk with hfront | hback
    · have hlt : k < (m.cells.take m.pointer).length := by
        rw [hbefore]
        exact hfront
      rw [hcells, List.append_assoc, List.getElem?_append_left hlt, List.getElem?_take,
        if_pos hfront]
    · have hlength : (m.cells.take m.pointer ++ bytes).length = m.pointer + bytes.length := by
        rw [List.length_append, hbefore]
      have hle : (m.cells.take m.pointer ++ bytes).length ≤ k := by
        rw [hlength]
        exact hback
      rw [hcells, List.getElem?_append_right hle, hlength, List.getElem?_drop,
        Nat.add_sub_cancel' hback]

/-- The labels that are noted for an operand which is kept at this address. -/
def Source.Operand.patches (line address : Nat) : Operand → List Patch
  | label name => [⟨name, address, line⟩]
  | word _ => []

namespace Instruction

variable {i : Instruction} {operands : Operands} {line : Nat} {s t : Sink} {e : EncodingError}

/-- The byte that an instruction keeps of an operand, which for a label is a zero until its
address is known. Data keeps no label. -/
def keptByte? : Instruction → Operand → Option UInt8
  | _, .word text => Text.hexByte? text.toList
  | op _, .label _ => some 0
  | raw, .label _ => none

/-- The bytes of an instruction, labels being zeros: the code, where there is one, and the operand
that is kept, where there is one. -/
def bytes? (i : Instruction) (operands : Operands) : Option (List UInt8) :=
  match i.form.encoded operands with
  | none => some i.code?.toList
  | some operand => (i.keptByte? operand).map fun byte => i.code?.toList ++ [byte]

/-- A sink to which an instruction has been written. -/
structure Written (i : Instruction) (operands : Operands) (line : Nat) (s t : Sink) : Prop where
  /-- The bytes of the instruction are behind the pointer, and no other cell has changed. -/
  memory : ∃ bytes, i.bytes? operands = some bytes ∧ bytes.length = i.width ∧
    s.memory.Grows bytes t.memory
  /-- The pointer has gone on by the width. -/
  pointer : t.memory.pointer = s.memory.pointer + i.width
  /-- The first byte is the code, where there is one. -/
  code : ∀ code, i.code? = some code → t.memory.cells[s.memory.pointer]? = some code
  /-- A label that is kept is noted at the byte behind the code, which is a zero. -/
  used : ∀ name, i.form.encoded operands = some (.label name) →
    t.patches = s.patches ++ [⟨name, s.memory.pointer + 1, line⟩] ∧
      t.memory.cells[s.memory.pointer + 1]? = some 0
  /-- Nothing is noted where no label is kept. -/
  unused : (∀ name, i.form.encoded operands ≠ some (.label name)) → t.patches = s.patches

/-- A sink to which an instruction has been written in part. -/
structure Interrupted (i : Instruction) (operands : Operands) (s : Sink) (e : EncodingError)
    (t : Sink) : Prop where
  /-- There is no room for all bytes, or the operand that is kept cannot be turned into one. -/
  reason : (e = .full ∧ s.memory.size < s.memory.pointer + i.width) ∨
    ∃ operand, i.form.encoded operands = some operand ∧ i.keptByte? operand = none ∧
      e = .invalidLiteral operand.spelling
  /-- What has been written are fewer bytes than the instruction takes, with which it begins. -/
  memory : ∃ written, written <+: i.code?.toList ∧
    (∀ bytes, i.bytes? operands = some bytes → written <+: bytes) ∧
    written.length < i.width ∧ s.memory.Grows written t.memory

/-- What comes of writing an instruction. -/
structure Encodes (i : Instruction) (operands : Operands) (line : Nat) (s : Sink) : Prop where
  /-- The operands are not rejected. -/
  accepted : ∀ t, i.encode line operands s ≠ .error .rejected t
  /-- The instruction is written if the operand that is kept can be turned into a byte and there
  is room, and only then. -/
  succeeds : (∃ t, i.encode line operands s = .ok () t) ↔
    (∃ bytes, i.bytes? operands = some bytes) ∧ s.memory.pointer + i.width ≤ s.memory.size
  /-- When it is written, its bytes are behind the pointer, and a label that is kept is noted. -/
  written : ∀ t, i.encode line operands s = .ok () t → Written i operands line s t
  /-- When it is not, memory holds a beginning of its bytes. -/
  interrupted : ∀ e t, i.encode line operands s = .error e t → Interrupted i operands s e t

/-- The bytes of an instruction begin with its code. -/
theorem prefix_of_bytes? {bytes : List UInt8} (h : i.bytes? operands = some bytes) :
    i.code?.toList <+: bytes := by
  unfold bytes? at h
  split at h
  · cases h
    exact List.prefix_rfl
  · obtain ⟨byte, -, rfl⟩ := Option.map_eq_some_iff.mp h
    exact List.prefix_append _ _

/-- An instruction that takes its operands has as many bytes as it is wide. -/
theorem length_of_bytes? (h : i.form.accepts operands = true) {bytes : List UInt8}
    (hbytes : i.bytes? operands = some bytes) : bytes.length = i.width := by
  have hwidth := width_of_accepts h
  unfold bytes? at hbytes
  split at hbytes
  · rename_i hnone
    cases hbytes
    rw [hnone] at hwidth
    exact hwidth
  · rename_i operand hsome
    obtain ⟨byte, -, rfl⟩ := Option.map_eq_some_iff.mp hbytes
    rw [hsome] at hwidth
    rw [List.length_append]
    exact hwidth

/-- What is kept is written as its byte, behind a note of the label. -/
theorem writeKept_apply (line : Nat) (i : Instruction) (operand : Operand) (s : Sink) :
    i.writeKept line operand s =
      match i.keptByte? operand with
      | none => .error (.invalidLiteral operand.spelling) s
      | some byte =>
        write byte { s with patches := s.patches ++ operand.patches line s.memory.pointer } := by
  have hword (text : String) : writeLiteral (.word text) s =
      match Text.hexByte? text.toList with
      | none => .error (.invalidLiteral text) s
      | some byte => write byte { s with patches := s.patches ++ [] } := by
    rw [writeLiteral, List.append_nil]
    cases Text.hexByte? text.toList <;> rfl
  cases i with
  | op o =>
    cases operand with
    | word text => exact hword text
    | label name => rfl
  | raw =>
    cases operand with
    | word text => exact hword text
    | label name => rfl

/-- A byte is written where there is a cell for it. -/
theorem write_of_append {m : Memory} {byte : UInt8} (h : s.memory.append byte = .ok m) :
    write byte s = .ok () { s with memory := m } := by
  rw [write, h]

/-- Where there is no cell nothing is written. -/
theorem write_of_full (byte : UInt8) (h : s.memory.size ≤ s.memory.pointer) :
    write byte s = .error .full s := by
  rw [write, Memory.append_of_full byte h]

/-- The code is written where there is room for it. -/
theorem writeCode_cases (i : Instruction) (s : Sink) :
    (∃ m, s.memory.appendAll i.code?.toList = .ok m ∧
      i.code?.forM write s = .ok () { s with memory := m }) ∨
    (s.memory.size ≤ s.memory.pointer ∧ i.code?.forM write s = .error .full s) := by
  cases i.code? with
  | none => exact .inl ⟨s.memory, rfl, rfl⟩
  | some code =>
    by_cases hroom : s.memory.pointer < s.memory.size
    · obtain ⟨m, hm⟩ := Memory.exists_append code hroom
      refine .inl ⟨m, ?_, write_of_append hm⟩
      rw [Option.toList_some, Memory.appendAll_cons, hm]
      rfl
    · have hfull := Nat.not_lt.mp hroom
      exact .inr ⟨hfull, write_of_full code hfull⟩

/-- An instruction is written when its code and then what it keeps are written. -/
theorem encode_apply_of_code {m : Memory} (h : i.form.accepts operands = true)
    (hcode : i.code?.forM write s = .ok () { s with memory := m }) :
    i.encode line operands s =
      (i.form.encoded operands).forM (i.writeKept line) { s with memory := m } := by
  rw [encode_of_accepts h]
  simp only [bind, EStateM.bind, hcode]

/-- Where the code is not written, nothing else is. -/
theorem encode_apply_of_code_error (h : i.form.accepts operands = true)
    (hcode : i.code?.forM write s = .error e s) : i.encode line operands s = .error e s := by
  rw [encode_of_accepts h]
  simp only [bind, EStateM.bind, hcode]

/-- What the encoder has written if it has appended the bytes of an instruction. -/
theorem written_of_appendAll (h : i.form.accepts operands = true) {bytes : List UInt8}
    (hbytes : i.bytes? operands = some bytes) (hmemory : s.memory.appendAll bytes = .ok t.memory)
    (hpatches : t.patches = s.patches ++ (i.form.encoded operands).toList.flatMap
      (Operand.patches line (s.memory.pointer + i.code?.toList.length))) :
    Written i operands line s t := by
  have hgrows := Memory.grows_of_appendAll hmemory
  have hlength := length_of_bytes? h hbytes
  refine ⟨⟨bytes, hbytes, hlength, hgrows⟩, ?_, ?_, ?_, ?_⟩
  · rw [hgrows.pointer, hlength]
  · intro code hcode
    obtain ⟨rest, hrest⟩ := prefix_of_bytes? hbytes
    apply hgrows.inside 0
    rw [← hrest, hcode]
    rfl
  · intro name hname
    rw [bytes?, hname] at hbytes
    rw [hname] at hpatches
    cases i with
    | raw => cases hbytes
    | op o =>
      cases hbytes
      exact ⟨hpatches, hgrows.inside 1 0 rfl⟩
  · intro hunused
    rw [hpatches]
    cases hoperand : i.form.encoded operands with
    | none => exact List.append_nil _
    | some operand =>
      cases operand with
      | word text => exact List.append_nil _
      | label name => exact absurd hoperand (hunused name)

/-- Where only the code has been written, the encoder has been interrupted. -/
theorem interrupted_of_code {operand : Operand} (h : i.form.accepts operands = true)
    (hoperand : i.form.encoded operands = some operand)
    (hmemory : s.memory.appendAll i.code?.toList = .ok t.memory)
    (hreason : (e = .full ∧ s.memory.size < s.memory.pointer + i.width) ∨
      (i.keptByte? operand = none ∧ e = .invalidLiteral operand.spelling)) :
    Interrupted i operands s e t := by
  have hwidth := width_of_accepts h
  rw [hoperand, Option.toList_some, List.length_singleton] at hwidth
  constructor
  · exact hreason.imp_right fun hunreadable => ⟨operand, hoperand, hunreadable⟩
  · exact ⟨i.code?.toList, List.prefix_rfl, fun bytes hbytes => prefix_of_bytes? hbytes,
      by omega, Memory.grows_of_appendAll hmemory⟩

/-- Behind the code the operand that is kept is written, or else the encoder is interrupted. -/
theorem writeKept_cases {operand : Operand} {m : Memory} (h : i.form.accepts operands = true)
    (hoperand : i.form.encoded operands = some operand)
    (hcode : s.memory.appendAll i.code?.toList = .ok m) (line : Nat) :
    (∃ t, i.writeKept line operand { s with memory := m } = .ok () t ∧
      Written i operands line s t) ∨
    ∃ e t, i.writeKept line operand { s with memory := m } = .error e t ∧
      Interrupted i operands s e t := by
  have hwidth := width_of_accepts h
  rw [hoperand, Option.toList_some, List.length_singleton] at hwidth
  have hgrows := Memory.grows_of_appendAll hcode
  rw [writeKept_apply]
  cases hkept : i.keptByte? operand with
  | none =>
    exact .inr ⟨_, _, rfl, interrupted_of_code h hoperand hcode (.inr ⟨hkept, rfl⟩)⟩
  | some byte =>
    dsimp only
    by_cases hroom : m.pointer < m.size
    · obtain ⟨n, hn⟩ := Memory.exists_append byte hroom
      have hbytes : i.bytes? operands = some (i.code?.toList ++ [byte]) := by
        rw [bytes?, hoperand]
        dsimp only
        rw [hkept, Option.map_some]
      have hall : s.memory.appendAll (i.code?.toList ++ [byte]) = .ok n := by
        rw [Memory.appendAll_append, bind_eq_ok_iff]
        refine ⟨m, hcode, ?_⟩
        rw [Memory.appendAll_cons, hn]
        rfl
      refine .inl ⟨_, write_of_append hn, written_of_appendAll h hbytes hall ?_⟩
      rw [hoperand, Option.toList_some, List.flatMap_singleton, ← hgrows.pointer]
    · have hfull := Nat.not_lt.mp hroom
      have hshort : s.memory.size < s.memory.pointer + i.width := by
        rw [hgrows.size, hgrows.pointer] at hfull
        omega
      exact .inr ⟨_, _, write_of_full byte hfull,
        interrupted_of_code h hoperand hcode (.inl ⟨rfl, hshort⟩)⟩

/-- An instruction that takes its operands is written, or else the encoder is interrupted. -/
theorem encode_cases (h : i.form.accepts operands = true) (line : Nat) (s : Sink) :
    (∃ t, i.encode line operands s = .ok () t ∧ Written i operands line s t) ∨
      ∃ e t, i.encode line operands s = .error e t ∧ Interrupted i operands s e t := by
  rcases writeCode_cases i s with ⟨m, hm, hcode⟩ | ⟨hfull, hcode⟩
  · rw [encode_apply_of_code h hcode]
    cases hoperand : i.form.encoded operands with
    | none =>
      have hbytes : i.bytes? operands = some i.code?.toList := by rw [bytes?, hoperand]
      refine .inl ⟨_, rfl, written_of_appendAll h hbytes hm ?_⟩
      rw [hoperand]
      exact (List.append_nil _).symm
    | some operand => exact writeKept_cases h hoperand hm line
  · have hpositive := i.form.width_pos
    refine .inr ⟨.full, s, encode_apply_of_code_error h hcode, ?_, [], List.nil_prefix,
      fun bytes _ => List.nil_prefix, hpositive, Memory.grows_of_appendAll rfl⟩
    exact .inl ⟨rfl, Nat.lt_of_le_of_lt hfull (Nat.lt_add_of_pos_right hpositive)⟩

/-- What is written fits into memory. -/
theorem Written.room (h : Written i operands line s t) :
    s.memory.pointer + i.width ≤ s.memory.size := by
  obtain ⟨bytes, -, -, hgrows⟩ := h.memory
  have hle := t.memory.pointer_le
  rw [h.pointer] at hle
  have hsize : t.memory.cells.length = s.memory.size := hgrows.size
  omega

/-- An instruction that takes its operands is written exactly if the operand that is kept can be
turned into a byte and there is room for all bytes. -/
theorem exists_encode_iff (h : i.form.accepts operands = true) (line : Nat) (s : Sink) :
    (∃ t, i.encode line operands s = .ok () t) ↔
      (∃ bytes, i.bytes? operands = some bytes) ∧
        s.memory.pointer + i.width ≤ s.memory.size := by
  constructor
  · intro ⟨t, ht⟩
    rcases encode_cases h line s with ⟨t', ht', hwritten⟩ | ⟨e, t', ht', -⟩
    · obtain ⟨bytes, hbytes, -⟩ := hwritten.memory
      exact ⟨⟨bytes, hbytes⟩, hwritten.room⟩
    · rw [ht] at ht'
      cases ht'
  · intro ⟨⟨bytes, hbytes⟩, hroom⟩
    rcases encode_cases h line s with ⟨t, ht, -⟩ | ⟨e, t, -, hinterrupted⟩
    · exact ⟨t, ht⟩
    · rcases hinterrupted.reason with ⟨-, hshort⟩ | ⟨operand, hoperand, hunreadable, -⟩
      · exact absurd hroom (Nat.not_le.mpr hshort)
      · rw [bytes?, hoperand] at hbytes
        dsimp only at hbytes
        rw [hunreadable] at hbytes
        cases hbytes

/-- The encoder keeps its promise to every instruction that takes its operands. -/
theorem encodes_of_accepts (h : i.form.accepts operands = true) (line : Nat) (s : Sink) :
    Encodes i operands line s := by
  have hsucceeds := exists_encode_iff h line s
  rcases encode_cases h line s with ⟨t, ht, hwritten⟩ | ⟨e, t, ht, hinterrupted⟩
  · constructor
    · intro t' ht'
      rw [ht] at ht'
      cases ht'
    · exact hsucceeds
    · intro t' ht'
      rw [ht] at ht'
      cases ht'
      exact hwritten
    · intro e t' ht'
      rw [ht] at ht'
      cases ht'
  · constructor
    · intro t' ht'
      rw [ht] at ht'
      cases ht'
      rcases hinterrupted.reason with ⟨hfull, -⟩ | ⟨operand, -, -, hliteral⟩
      · cases hfull
      · cases hliteral
    · exact hsucceeds
    · intro t' ht'
      rw [ht] at ht'
      cases ht'
    · intro e' t' ht'
      rw [ht] at ht'
      cases ht'
      exact hinterrupted

end Instruction

end ByteMachine
