import ByteMachine.Proofs.Layout.Labels

/-!
# The second pass

The second pass visits the uses of labels in order and writes one byte for each. Each of
them lies on the operand of a row, so what it leaves are the bytes of the layout with
every label at its address. It fails exactly if some label is used and not defined.
-/

namespace ByteMachine

namespace Layout

open Source (Line)
open Assembly (Patch)

/-- Bytes after every use of a label has been given the byte of its label. -/
def applyPatches (labels : String → UInt8) (ps : List Patch) (bs : List UInt8) : List UInt8 :=
  ps.foldl (fun bs p => bs.set p.address (labels p.label)) bs

theorem applyPatches_cons (labels : String → UInt8) (p : Patch) (ps : List Patch)
    (bs : List UInt8) : applyPatches labels (p :: ps) bs =
      applyPatches labels ps (bs.set p.address (labels p.label)) := rfl

theorem applyPatches_append (labels : String → UInt8) (ps qs : List Patch) (bs : List UInt8) :
    applyPatches labels (ps ++ qs) bs = applyPatches labels qs (applyPatches labels ps bs) :=
  List.foldl_append

/-- One use of a label is written where the label is known and the byte is in use. -/
theorem applyPatch_eq_ok_iff {table : List (String × UInt8)} {m n : Memory} {p : Patch} :
    Assembly.Draft.applyPatch table m p = .ok n ↔
      ∃ value, Assembly.address? table p.label = some value ∧ p.address < m.pointer ∧
        n = m.setCell p.address value := by
  unfold Assembly.Draft.applyPatch
  cases Assembly.address? table p.label with
  | none => simp
  | some value =>
    simp only [Option.some.injEq, exists_eq_left']
    rw [← Memory.patch_eq_ok_iff]
    cases m.patch p.address value with
    | ok k => simp
    | error e => simp

/-- All uses of labels are written where all labels are known and all bytes are in use. -/
theorem foldlM_applyPatch_eq_ok_iff {table : List (String × UInt8)} {ps : List Patch}
    {m n : Memory} :
    ps.foldlM (Assembly.Draft.applyPatch table) m = .ok n ↔
      (∀ p ∈ ps, (∃ value, Assembly.address? table p.label = some value) ∧
        p.address < m.pointer) ∧
      n.pointer = m.pointer ∧
      n.cells = applyPatches (fun name => (Assembly.address? table name).getD 0) ps m.cells := by
  induction ps generalizing m with
  | nil =>
    rw [List.foldlM_nil, applyPatches, List.foldl_nil]
    constructor
    · rintro ⟨⟩
      refine ⟨?_, rfl, rfl⟩
      rintro p ⟨⟩
    · rintro ⟨-, hp, hc⟩
      rw [Memory.ext hc hp]
      rfl
  | cons p ps ih =>
    rw [List.foldlM_cons, bind_eq_ok_iff]
    simp only [applyPatch_eq_ok_iff, ih]
    constructor
    · rintro ⟨-, ⟨value, hvalue, hlt, rfl⟩, hps, hp, hc⟩
      refine ⟨?_, hp, ?_⟩
      · intro q hq
        rcases List.mem_cons.mp hq with rfl | hq
        · exact ⟨⟨value, hvalue⟩, hlt⟩
        · exact hps q hq
      · rw [hc, applyPatches_cons, hvalue]
        rfl
    · rintro ⟨hps, hp, hc⟩
      obtain ⟨⟨value, hvalue⟩, hlt⟩ := hps p List.mem_cons_self
      refine ⟨_, ⟨value, hvalue, hlt, rfl⟩, ?_, hp, ?_⟩
      · exact fun q hq => hps q (List.mem_cons_of_mem _ hq)
      · rw [hc, applyPatches_cons, hvalue]
        rfl

/-- A row that uses a label consists of its code and the byte of the label. -/
theorem bytes_of_patch? {r : Row} {p : Patch} (h : r.patch? = some p) (hr : r.Readable) :
    ∃ o : Opcode, p.address = r.address + 1 ∧
      ∀ labels, r.bytes labels = [o.code, labels p.label] := by
  obtain ⟨line, address, i, operand⟩ := r
  match operand, h with
  | some (.label name), h =>
    cases h
    cases i with
    | raw => exact absurd rfl (hr.data rfl name)
    | op o => exact ⟨o, rfl, fun _ => rfl⟩

/-- A row without a use of a label has the same bytes whatever labels stand for. -/
theorem bytes_of_patch?_eq_none {r : Row} (h : r.patch? = none) (labels : String → UInt8) :
    r.bytes labels = r.bytes unknown := by
  obtain ⟨line, address, i, operand⟩ := r
  match operand, h with
  | none, _ => rfl
  | some (.word text), _ => rfl

/-- Uses of labels lie inside the program. -/
theorem address_lt_of_mem_patches {ls : List Line} (h : ∀ r ∈ rows ls, r.Readable) :
    ∀ p ∈ patches ls, p.address < length ls := by
  intro p hp
  obtain ⟨r, hr, hpatch⟩ := List.mem_filterMap.mp hp
  obtain ⟨k, l, hget, hrow⟩ := mem_collect_iff.mp hr
  obtain ⟨o, haddress, hbytes⟩ := bytes_of_patch? hpatch (h r hr)
  have hwidth := length_bytes_row unknown k (address ls k) l
  rw [hrow, Option.toList_some, List.flatMap_singleton, hbytes] at hwidth
  obtain ⟨i, hi, rfl⟩ := row?_eq_some hrow
  have hend := address_le_length ls (k + 1)
  rw [address_succ hget] at hend
  simp only [List.length_cons, List.length_nil] at hwidth
  dsimp only at haddress
  omega

/-- Writing every use of a label turns the bytes of the first pass into those with labels
in place, and touches nothing behind the program. -/
theorem applyPatches_bytes {ls : List Line} (h : ∀ r ∈ rows ls, r.Readable)
    (labels : String → UInt8) (rest : List UInt8) :
    applyPatches labels (patches ls) (bytes unknown ls ++ rest) = bytes labels ls ++ rest := by
  induction ls using List.reverseRecOn generalizing rest with
  | nil => rfl
  | append_singleton ls l ih =>
    rw [rows_append_singleton] at h
    have hearlier := ih fun r hr => h r (List.mem_append_left _ hr)
    have hpatches : patches (ls ++ [l]) =
        patches ls ++ (row? ls.length (length ls) l).toList.filterMap Row.patch? := by
      rw [patches, rows_append_singleton, List.filterMap_append, patches]
    rw [hpatches, applyPatches_append, bytes_append_singleton, bytes_append_singleton,
      List.append_assoc, List.append_assoc, hearlier]
    cases hrow : row? ls.length (length ls) l with
    | none => rfl
    | some r =>
      have hreadable : r.Readable := h r (List.mem_append_right _ (by rw [hrow]; simp))
      have hstart : r.address = (bytes labels ls).length := by
        obtain ⟨i, -, rfl⟩ := row?_eq_some hrow
        rw [length_bytes]
      simp only [Option.toList_some, List.flatMap_singleton]
      cases hpatch : r.patch? with
      | none =>
        rw [bytes_of_patch?_eq_none hpatch labels, List.filterMap_cons_none hpatch]
        rfl
      | some p =>
        obtain ⟨o, haddress, hbytes⟩ := bytes_of_patch? hpatch hreadable
        rw [List.filterMap_cons_some hpatch, List.filterMap_nil, applyPatches_cons, hbytes unknown,
          hbytes labels, haddress, hstart, List.set_append_right _ _ (Nat.le_succ _)]
        simp [applyPatches]

end Layout

end ByteMachine
