import ByteMachine.Proofs.Encoder.Outcome
import ByteMachine.Proofs.Layout.Patches

/-!
# What the choice of an instruction and its encoder agree on

The operands of a line fit at most one instruction of its mnemonic, and the encoder rejects none
whose operands fit. So the order of the lookup does not matter, and of the two places that may
refuse the operands of a line only the choice ever does. Every label that the first pass notes
waits on the operand byte of an instruction below the pointer, one behind the other, so the
second pass always finds the byte that it is to rewrite.
-/

namespace ByteMachine

namespace Instruction

open Source (Operands)

/-- A choice that does not depend on the order in which instructions are tried. -/
structure Selective (mnemonic : String) (operands : Operands) : Prop where
  /-- At most one instruction of the mnemonic takes the operands. -/
  unique : ((named mnemonic).filter fun i => i.form.accepts operands).length ≤ 1
  /-- Whatever the order of the table, the same one is found. -/
  anyOrder : ∀ table : List Instruction, table.Perm all →
    (table.filter fun i => i.mnemonic = mnemonic).find? (fun i => i.form.accepts operands) =
      (named mnemonic).find? fun i => i.form.accepts operands

/-- A list without repetitions whose members are all the same has at most one. -/
theorem length_le_one_of_nodup {α : Type} {xs : List α} (hnodup : xs.Nodup)
    (hsame : ∀ x ∈ xs, ∀ y ∈ xs, x = y) : xs.length ≤ 1 := by
  match xs with
  | [] => exact Nat.zero_le 1
  | [_] => exact Nat.le_refl 1
  | x :: y :: rest =>
    have hne : x ∉ y :: rest := (List.nodup_cons.mp hnodup).1
    have heq := hsame x List.mem_cons_self y (List.mem_cons_of_mem _ List.mem_cons_self)
    rw [heq] at hne
    exact absurd List.mem_cons_self hne

/-- Lists with the same members are the same if there is at most one. -/
theorem eq_of_perm_of_length_le_one {α : Type} {xs ys : List α} (h : xs.Perm ys)
    (hlength : ys.length ≤ 1) : xs = ys := by
  match ys with
  | [] => exact h.eq_nil
  | [y] => exact List.perm_singleton.mp h
  | _ :: _ :: _ => exact absurd (Nat.le_of_succ_le_succ hlength) (Nat.not_succ_le_zero _)

/-- The operands alone decide which instruction of a mnemonic is meant. -/
theorem selective (mnemonic : String) (operands : Operands) : Selective mnemonic operands := by
  have hunique : ((named mnemonic).filter fun i => i.form.accepts operands).length ≤ 1 := by
    have hall : all.Nodup := by decide
    apply length_le_one_of_nodup ((hall.filter _).filter _)
    intro i hi j hj
    obtain ⟨hinamed, hi⟩ := List.mem_filter.mp hi
    obtain ⟨hjnamed, hj⟩ := List.mem_filter.mp hj
    have hmnemonic := (mem_named_iff.mp hinamed).trans (mem_named_iff.mp hjnamed).symm
    exact eq_of_accepts hmnemonic hi hj
  refine ⟨hunique, ?_⟩
  intro table htable
  have hperm : ((table.filter fun i => i.mnemonic = mnemonic).filter fun i =>
      i.form.accepts operands).Perm
        ((named mnemonic).filter fun i => i.form.accepts operands) :=
    (htable.filter _).filter _
  rw [← List.head?_filter, ← List.head?_filter, eq_of_perm_of_length_le_one hperm hunique]

end Instruction

namespace Layout

open Source (Line)

/-- The one check that refuses operands fails on a mnemonic without an instruction for them. -/
theorem instruction?_of_fault? {size line address number : Nat} {text : List Char} {l : Line}
    {check : Check} {mnemonic shown : String}
    (h : check.fault? size line address text l = some (.invalidOperands number mnemonic shown)) :
    l.mnemonic = some mnemonic ∧ l.instruction? = none := by
  cases check <;>
    simp only [Check.fault?, Option.bind_eq_some_iff, Option.ite_none_right_eq_some,
      Option.ite_none_left_eq_some, Option.some.injEq, reduceCtorEq, and_false, exists_false,
      AssemblyError.invalidOperands.injEq] at h
  obtain ⟨m, hm, hnone, -, heq, -⟩ := h
  rw [heq] at hm
  exact ⟨hm, hnone⟩

/-- Operands are refused where the mnemonic is known and no instruction takes them. -/
theorem instruction?_of_firstFault? {size line address number : Nat} {text : List Char}
    {mnemonic shown : String}
    (h : firstFault? size line address text = some (.invalidOperands number mnemonic shown)) :
    ∃ l, Source.lineOfChars? text = some l ∧ l.mnemonic = some mnemonic ∧
      Instruction.named mnemonic ≠ [] ∧ l.instruction? = none := by
  unfold firstFault? at h
  cases hl : Source.lineOfChars? text with
  | none =>
    rw [hl] at h
    cases h
  | some l =>
    rw [hl] at h
    dsimp only at h
    obtain ⟨check, -, hfault⟩ := List.exists_of_findSome?_eq_some h
    obtain ⟨hm, hnone⟩ := instruction?_of_fault? hfault
    refine ⟨l, rfl, hm, ?_, hnone⟩
    -- an unknown mnemonic would have been found by the check in front
    intro hnamed
    have hunknown : Check.mnemonic.fault? size line address text l =
        some (.unknownMnemonic line mnemonic) := by
      rw [Check.fault?, hm, Option.bind_some, if_pos hnamed]
    rw [Check.order, List.findSome?_cons, List.findSome?_cons, hunknown, Check.fault?] at h
    split at h
    · rename_i e he
      rw [h] at he
      cases (Option.ite_none_right_eq_some.mp he).2
    · cases h

end Layout

namespace Assembly

open Source (Line Operand lineOfChars? splitLines)

variable {m : Memory} {source : String} {d : Draft}

/-- The instruction of a line, as it is appended to a draft. -/
structure Draft.Appends (d : Draft) (line : Nat) (text : List Char) (mnemonic : String)
    (operands : Source.Operands) : Prop where
  /-- It is chosen by its form, and then the encoder writes it. -/
  encoded : d.appendInstruction line text mnemonic operands =
    d.encodeInstruction line text mnemonic operands
  /-- Once it is chosen and appended, it is behind the pointer as the encoder writes it. -/
  written : ∀ i, (Instruction.named mnemonic).find? (fun i => i.form.accepts operands) = some i →
    ∀ d', d.appendInstruction line text mnemonic operands = .ok d' →
      i.Written operands line ⟨d.memory, d.patches⟩ ⟨d'.memory, d'.patches⟩
  /-- Once it is chosen, its operands are not refused, and a beginning of its bytes is left. -/
  refused : ∀ i, (Instruction.named mnemonic).find? (fun i => i.form.accepts operands) = some i →
    ∀ f, d.appendInstruction line text mnemonic operands = .error f →
      (∀ number name shown, f.error ≠ .invalidOperands number name shown) ∧
        ∃ bytes, bytes <+: i.code?.toList ∧ bytes.length < i.width ∧ d.memory.Grows bytes f.memory

/-- An address is refused because it is no byte, before anything is written. -/
theorem Draft.eq_of_here {line : Nat} {f : Failure} (h : d.here line = .error f) :
    f = ⟨.programTooLarge line d.memory.size, d.memory⟩ := by
  unfold here at h
  split at h
  · cases h
  · cases h
    rfl

/-- Operands are refused by the choice, and never by the encoder. -/
theorem Draft.appends (d : Draft) (line : Nat) (text : List Char) (mnemonic : String)
    (operands : Source.Operands) : d.Appends line text mnemonic operands := by
  have hencoded := appendInstruction_eq_encodeInstruction d line text mnemonic operands
  have hencodes (i : Instruction) (hfind : (Instruction.named mnemonic).find?
      (fun i => i.form.accepts operands) = some i) :
      i.Encodes operands line ⟨d.memory, d.patches⟩ :=
    Instruction.encodes_of_accepts (Instruction.accepts_of_find? hfind) line _
  refine ⟨hencoded, ?_, ?_⟩
  · intro i hfind d' hd
    rw [hencoded, encodeInstruction_of_find? hfind, bind_eq_ok_iff] at hd
    obtain ⟨address, -, hd⟩ := hd
    obtain ⟨s, hs, rfl⟩ := receive_eq_ok_iff.mp hd
    exact (hencodes i hfind).written s hs
  · intro i hfind f hf
    rw [hencoded, encodeInstruction_of_find? hfind] at hf
    cases hhere : d.here line with
    | error f' =>
      rw [hhere] at hf
      cases hf
      rw [eq_of_here hhere]
      exact ⟨fun number name shown => AssemblyError.noConfusion, [], List.nil_prefix,
        i.form.width_pos, Memory.grows_of_appendAll rfl⟩
    | ok address =>
      rw [hhere] at hf
      obtain ⟨e, s, hs, rfl⟩ := receive_eq_error_iff.mp hf
      obtain ⟨bytes, hbytes, -, hshort, hgrows⟩ := ((hencodes i hfind).interrupted e s hs).memory
      refine ⟨?_, bytes, hbytes, hshort, hgrows⟩
      intro number name shown
      cases e with
      | rejected => exact absurd hs ((hencodes i hfind).accepted s)
      | invalidLiteral literal => exact AssemblyError.noConfusion
      | full => exact AssemblyError.noConfusion

/-- A line whose operands fit no instruction of its mnemonic. -/
structure Unfit (l : Line) (mnemonic : String) : Prop where
  /-- The line has this mnemonic. -/
  named : l.mnemonic = some mnemonic
  /-- Some instruction has it. -/
  known : Instruction.named mnemonic ≠ []
  /-- None of them takes the operands. -/
  refused : ∀ i ∈ Instruction.named mnemonic, i.form.accepts l.operands = false

/-- Operands are refused only where no instruction of a known mnemonic takes them. -/
theorem exists_line_of_invalidOperands {line : Nat} {mnemonic shown : String}
    (h : (m.assemble source).2 = .error (.invalidOperands line mnemonic shown)) :
    ∃ before text l, line = before + 1 ∧ (splitLines source.toList)[before]? = some text ∧
      lineOfChars? text = some l ∧ Unfit l mnemonic := by
  rw [Memory.assemble_eq_error_iff, refusal?_assemble] at h
  cases hpass : firstPass m source with
  | ok d =>
    rw [hpass] at h
    dsimp only at h
    cases hresolve : d.resolve with
    | ok n =>
      rw [hresolve] at h
      cases h
    | error f =>
      obtain ⟨p, -, -, hlabel⟩ := exists_patch_of_resolve hpass hresolve
      rw [hresolve, refusal?, hlabel] at h
      cases h
  | error f =>
    rw [hpass] at h
    obtain ⟨before, hnumber, hrefused⟩ := refusedAt_of_firstPass hpass
    obtain ⟨text, ls, htext, -, hfault⟩ := hrefused.fault
    rw [Option.some.inj h] at hnumber hfault
    obtain ⟨l, hl, hm, hnamed, hnone⟩ := Layout.instruction?_of_firstFault? hfault
    refine ⟨before, text, l, Option.some.inj hnumber, htext, hl, hm, hnamed, ?_⟩
    rw [Line.instruction?, hm, Option.bind_some, List.find?_eq_none] at hnone
    intro i hi
    exact Bool.eq_false_of_not_eq_true (hnone i hi)

/-- The operands of a line decide which instruction of its mnemonic is meant, in whatever order
they are tried. The encoder writes every instruction that takes its operands, with one note where
it keeps a label, or stops at a beginning of its bytes for want of room or of a number, and never
because of the operands. The assembler appends an instruction as it is chosen and then encoded. So
once the first pass is through, the labels that it has noted wait on operand bytes below the
pointer, at increasing addresses, and the second pass complains of nothing but a label that is not
defined; and wherever operands are refused, no instruction of the mnemonic takes them. -/
theorem choice_and_encoder_agree :
    (∀ mnemonic operands, Instruction.Selective mnemonic operands) ∧
    (∀ (i : Instruction) (operands : Source.Operands), i.form.accepts operands = true →
      ∀ line s, Instruction.Encodes i operands line s) ∧
    (∀ (d : Draft) line text mnemonic operands, d.Appends line text mnemonic operands) ∧
    ∀ (m : Memory) (source : String),
      (∀ d, firstPass m source = .ok d →
        (∃ ls, Source.lines? source = some ls ∧ d.PatchesInPlace ls) ∧
        ∀ f, d.resolve = .error f → ∃ p ∈ d.patches, address? d.labels p.label = none ∧
          f.error = .labelNotFound (Operand.label p.label).spelling) ∧
      ∀ line mnemonic shown,
        (m.assemble source).2 = .error (.invalidOperands line mnemonic shown) →
        ∃ before text l, line = before + 1 ∧ (splitLines source.toList)[before]? = some text ∧
          lineOfChars? text = some l ∧ Unfit l mnemonic := by
  refine ⟨Instruction.selective, ?_, Draft.appends, ?_⟩
  · intro i operands haccepts line s
    exact Instruction.encodes_of_accepts haccepts line s
  · intro m source
    constructor
    · intro d hd
      exact ⟨patchesInPlace_of_firstPass hd, fun f hf => exists_patch_of_resolve hd hf⟩
    · intro line mnemonic shown h
      exact exists_line_of_invalidOperands h

/-- A memory of four cells. -/
def fourCells : Memory := .zeros 4 (by decide) (by decide)

/-- A program that fills four cells. Its first instruction loads its own code, and its second one
jumps to a label that is not defined. -/
def dangling : String := "@top: MOVE RA, @top\nJUMP @end"

/-- The jump to a label is encoded with one note, the labels of the program wait at its second and
its last byte, the second pass misses one of them, and two accumulators are no operands of a
move. -/
theorem dangling_choice_and_encoder_agree :
    (∃ t, (Instruction.op .jump).encode 2 ⟨some (.label "end"), none⟩ ⟨fourCells, []⟩ = .ok () t ∧
      t.memory.pointer = 2 ∧ t.patches = [⟨"end", 1, 2⟩]) ∧
    (∃ d f, firstPass fourCells dangling = .ok d ∧
      d.patches = [⟨"top", 1, 1⟩, ⟨"end", 3, 2⟩] ∧ (∃ ls, d.PatchesInPlace ls) ∧
      d.resolve = .error f ∧ ∃ p ∈ d.patches, f.error = .labelNotFound ("@" ++ p.label)) ∧
    ∃ l, lineOfChars? "MOVE RA, RA".toList = some l ∧ Unfit l "MOVE" := by
  obtain ⟨-, hencodes, -, hsources⟩ := choice_and_encoder_agree
  have hjump := hencodes (.op .jump) ⟨some (.label "end"), none⟩ (by decide) 2 ⟨fourCells, []⟩
  refine ⟨?_, ?_, ?_⟩
  · obtain ⟨t, ht⟩ := hjump.succeeds.mpr ⟨⟨[11, 0], rfl⟩, by decide⟩
    have hwritten := hjump.written t ht
    exact ⟨t, ht, hwritten.pointer, (hwritten.used "end" rfl).1⟩
  · obtain ⟨d, f, hd, hpatches, hf⟩ : ∃ d f, firstPass fourCells dangling = .ok d ∧
        d.patches = [⟨"top", 1, 1⟩, ⟨"end", 3, 2⟩] ∧ d.resolve = .error f := ⟨_, _, rfl, rfl, rfl⟩
    obtain ⟨⟨ls, -, hplace⟩, hresolve⟩ := (hsources fourCells dangling).1 d hd
    obtain ⟨p, hp, -, herror⟩ := hresolve f hf
    exact ⟨d, f, hd, hpatches, ⟨ls, hplace⟩, hf, p, hp, herror⟩
  · obtain ⟨before, text, l, hline, htext, hl, hunfit⟩ :=
      (hsources fourCells "MOVE RA, RA").2 1 "MOVE" "MOVE RA, RA" rfl
    cases hline
    cases htext
    exact ⟨l, hl, hunfit⟩

end Assembly

end ByteMachine
