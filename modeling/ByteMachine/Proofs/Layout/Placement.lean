import ByteMachine.Proofs.Layout.Assembled

/-!
# Where rows stand

The rows of a layout follow one another without gaps: each ends where the next one
begins, and the last one ends where the program ends. So the bytes of a row are found at
its address, both in the image and in a memory that the image has been assembled into.
-/

namespace ByteMachine.Layout

open Source (Line)

variable {ls : List Line} {l : Line} {r : Row} {k : Nat}

/-- More lines only add bytes. -/
theorem exists_bytes_append (labels : String → UInt8) (ls ms : List Line) :
    ∃ rest, bytes labels (ls ++ ms) = bytes labels ls ++ rest := by
  induction ms using List.reverseRecOn with
  | nil => exact ⟨[], by simp⟩
  | append_singleton ms l ih =>
    obtain ⟨rest, hrest⟩ := ih
    rw [← List.append_assoc, bytes_append_singleton, hrest, List.append_assoc]
    exact ⟨_, rfl⟩

/-- In front of the bytes of a line are as many bytes as its address says. -/
theorem bytes_eq_append (labels : String → UInt8) (hget : ls[k]? = some l)
    (hrow : row? k (address ls k) l = some r) :
    ∃ before after, bytes labels ls = before ++ r.bytes labels ++ after ∧
      before.length = address ls k := by
  obtain ⟨hk, rfl⟩ := List.getElem?_eq_some_iff.mp hget
  have hlength : (ls.take k).length = k := by
    rw [List.length_take]
    omega
  have haddress : length (ls.take k) = address ls k := rfl
  have hupto : bytes labels (ls.take (k + 1)) = bytes labels (ls.take k) ++ r.bytes labels := by
    rw [List.take_succ_eq_append_getElem hk, bytes_append_singleton, hlength, haddress, hrow,
      Option.toList_some, List.flatMap_singleton]
  obtain ⟨rest, hrest⟩ := exists_bytes_append labels (ls.take (k + 1)) (ls.drop (k + 1))
  rw [List.take_append_drop, hupto] at hrest
  exact ⟨bytes labels (ls.take k), rest, hrest, length_bytes labels _⟩

/-- The bytes of a row are found at its address. -/
theorem getElem?_bytes_of_row (labels : String → UInt8) (hget : ls[k]? = some l)
    (hrow : row? k (address ls k) l = some r) {i : Nat} {b : UInt8}
    (hi : (r.bytes labels)[i]? = some b) : (bytes labels ls)[address ls k + i]? = some b := by
  obtain ⟨before, after, hbytes, hbefore⟩ := bytes_eq_append labels hget hrow
  obtain ⟨hlt, -⟩ := List.getElem?_eq_some_iff.mp hi
  rw [hbytes, List.append_assoc, ← hbefore, List.getElem?_append_right (Nat.le_add_right _ _),
    Nat.add_sub_cancel_left, List.getElem?_append_left hlt, hi]

/-- A row ends where the next one begins, or where the program ends. -/
theorem address_next_row (ls : List Line) {j : Nat} {r : Row} (h : (rows ls)[j]? = some r) :
    ((rows ls)[j + 1]?.map Row.address).getD (length ls) = r.address + r.instruction.width := by
  induction ls using List.reverseRecOn generalizing r with
  | nil => cases h
  | append_singleton ls l ih =>
    rw [rows_append_singleton] at h ⊢
    by_cases hj : j < (rows ls).length
    · rw [List.getElem?_append_left hj] at h
      have hnext := ih h
      by_cases hlast : j + 1 < (rows ls).length
      · rw [List.getElem?_append_left hlast, List.getElem?_eq_getElem hlast]
        rw [List.getElem?_eq_getElem hlast] at hnext
        exact hnext
      · -- the row was the last one so far, and the new line begins where it ends
        have hindex : j + 1 = (rows ls).length := by omega
        rw [hindex, List.getElem?_eq_none (Nat.le_refl _)] at hnext
        rw [hindex, List.getElem?_append_right (Nat.le_refl _), Nat.sub_self]
        have hend : length ls = r.address + r.instruction.width := hnext
        rw [row?, length_append_singleton, Line.width]
        cases l.instruction? with
        | none => exact hend
        | some i => exact hend
    · have hindex : j = (rows ls).length := by
        have hlt := (List.getElem?_eq_some_iff.mp h).1
        have hle : (row? ls.length (length ls) l).toList.length ≤ 1 := by
          cases row? ls.length (length ls) l <;> simp
        rw [List.length_append] at hlt
        omega
      subst hindex
      rw [List.getElem?_append_right (Nat.le_refl _), Nat.sub_self] at h
      rw [List.getElem?_append_right (Nat.le_add_right _ 1), Nat.add_sub_cancel_left,
        length_append_singleton, Line.width]
      cases hi : l.instruction? with
      | none =>
        rw [row?, hi] at h
        cases h
      | some i =>
        rw [row?, hi] at h
        rw [row?, hi]
        cases h
        rfl

/-- The instructions of the rows are those of the lines, in order. -/
theorem map_instruction_rows (ls : List Line) :
    (rows ls).map Row.instruction = ls.filterMap Line.instruction? := by
  induction ls using List.reverseRecOn with
  | nil => rfl
  | append_singleton ls l ih =>
    rw [rows_append_singleton, List.map_append, ih, List.filterMap_append, row?]
    cases hi : l.instruction? with
    | none => rw [List.filterMap_cons_none hi]; rfl
    | some i => rw [List.filterMap_cons_some hi]; rfl

/-- Where a line begins in front of the end of the program, an instruction begins. -/
theorem exists_row_at (ls : List Line) (k : Nat) (h : address ls k < length ls) :
    ∃ r ∈ rows ls, r.address = address ls k := by
  induction ls using List.reverseRecOn generalizing k with
  | nil => exact absurd h (Nat.not_lt_zero _)
  | append_singleton ls l ih =>
    rw [rows_append_singleton]
    by_cases hk : k ≤ ls.length
    · rw [address_append_of_le hk] at h ⊢
      by_cases hlt : address ls k < length ls
      · obtain ⟨r, hr, haddress⟩ := ih k hlt
        exact ⟨r, List.mem_append_left _ hr, haddress⟩
      · -- nothing but the new line is left, and it is not empty
        have hle := address_le_length ls k
        have hend : address ls k = length ls := by omega
        rw [length_append_singleton, Line.width] at h
        cases hi : l.instruction? with
        | none =>
          rw [hi, Option.map_none, Option.getD_none] at h
          omega
        | some i =>
          refine ⟨⟨ls.length + 1, length ls, i, i.form.encoded l.operands⟩, ?_, hend.symm⟩
          rw [row?, hi]
          exact List.mem_append_right _ List.mem_cons_self
    · have hlength : (ls ++ [l]).length ≤ k := by
        rw [List.length_append, List.length_singleton]
        omega
      rw [address, List.take_of_length_le hlength] at h
      exact absurd h (Nat.lt_irrefl _)

/-- A label is at the address of some line. -/
theorem exists_address_of_label {name : String} {v : Nat}
    (h : labelAddress? ls name = some v) : ∃ k, address ls k = v := by
  obtain ⟨d, hd, rfl⟩ := Option.map_eq_some_iff.mp h
  have hmem := List.mem_of_mem_filter (List.mem_of_getLast? hd)
  obtain ⟨k, l, -, hf⟩ := mem_collect_iff.mp hmem
  obtain ⟨name', -, rfl⟩ := Option.map_eq_some_iff.mp hf
  exact ⟨k, rfl⟩

end ByteMachine.Layout
