import ByteMachine.Proofs.Layout.Placement

/-!
# The order of rows

Every row takes at least one byte. So the addresses of the rows grow with their line
numbers, from zero on, and all of them lie in front of the end of the program. A label may
stand behind the last row, but no further. What is reported about a program therefore
tells where it begins, where its lines are, and that all of this is inside.
-/

namespace ByteMachine

/-- A report that agrees with a memory: the length is that of the program there, no label is
behind it, and the instruction lines are inside it, one behind the other from the start. -/
structure Artifacts.Describes (a : Artifacts) (m : Memory) : Prop where
  /-- The length is where the program ends. -/
  length : a.length = m.pointer
  /-- Every label is at a byte of the program, or behind it where a byte can tell. -/
  labels : ∀ e ∈ a.labels, e.2.toNat ≤ min a.length 255
  /-- Later lines are at higher addresses. -/
  increasing : a.lines.Pairwise fun e f => e.1 < f.1 ∧ e.2 < f.2
  /-- The first line is at address zero. -/
  first : ∀ e, a.lines.head? = some e → e.2 = 0
  /-- Every line begins in front of the end. -/
  inside : ∀ e ∈ a.lines, e.2.toNat < a.length

/-- The labels behind a definition are those in front of it and the one that it defines. -/
theorem Assembly.mem_of_mem_define {labels : List (String × UInt8)} {name : String}
    {value : UInt8} {e : String × UInt8} (he : e ∈ define labels name value) :
    e ∈ labels ∨ e = (name, value) := by
  induction labels with
  | nil => exact .inr (List.mem_singleton.mp he)
  | cons l labels ih =>
    rw [define] at he
    split at he
    · rcases List.mem_cons.mp he with heq | hmem
      · exact .inr heq
      · exact .inl (List.mem_cons_of_mem _ hmem)
    · rcases List.mem_cons.mp he with heq | hmem
      · exact .inl (heq ▸ List.mem_cons_self)
      · exact (ih hmem).imp_left (List.mem_cons_of_mem _)

namespace Layout

open Source (Line)

variable {ls : List Line} {r : Row}

/-- A row is on one of the lines, and begins in front of the end of the program. -/
theorem bounds_of_mem_rows (h : r ∈ rows ls) : r.line ≤ ls.length ∧ r.address < length ls := by
  obtain ⟨k, l, hget, hrow⟩ := mem_collect_iff.mp h
  obtain ⟨i, hi, rfl⟩ := row?_eq_some hrow
  have hline : k < ls.length := (List.getElem?_eq_some_iff.mp hget).1
  have hwidth : 0 < l.width := by
    rw [Line.width, hi]
    exact i.form.width_pos
  have hend := address_le_length ls (k + 1)
  rw [address_succ hget] at hend
  dsimp only
  omega

/-- Rows are in the order of their lines, and later ones have higher addresses. -/
theorem pairwise_rows (ls : List Line) :
    (rows ls).Pairwise fun r s => r.line < s.line ∧ r.address < s.address := by
  induction ls using List.reverseRecOn with
  | nil => exact List.Pairwise.nil
  | append_singleton ls l ih =>
    rw [rows_append_singleton]
    cases hrow : row? ls.length (length ls) l with
    | none => rwa [Option.toList_none, List.append_nil]
    | some s =>
      obtain ⟨i, -, rfl⟩ := row?_eq_some hrow
      rw [Option.toList_some, List.pairwise_append]
      refine ⟨ih, List.pairwise_singleton _ _, ?_⟩
      intro r hr s hs
      have hbounds := bounds_of_mem_rows hr
      rw [List.mem_singleton.mp hs]
      exact ⟨Nat.lt_succ_of_le hbounds.1, hbounds.2⟩

/-- The first row is at address zero. -/
theorem address_of_head?_rows (h : (rows ls).head? = some r) : r.address = 0 := by
  obtain ⟨rest, hrows⟩ : ∃ rest, rows ls = r :: rest := by
    cases hrows : rows ls with
    | nil =>
      rw [hrows] at h
      cases h
    | cons s rest =>
      rw [hrows] at h
      cases h
      exact ⟨rest, rfl⟩
  have hmem : r ∈ rows ls := by
    rw [hrows]
    exact List.mem_cons_self
  have hstart : address ls 0 < length ls := Nat.zero_lt_of_lt (bounds_of_mem_rows hmem).2
  -- some row is at address zero, and none is in front of the first one
  obtain ⟨s, hs, hzero⟩ := exists_row_at ls 0 hstart
  have haddress : s.address = 0 := hzero
  have hpairwise := pairwise_rows ls
  rw [hrows] at hs hpairwise
  rcases List.mem_cons.mp hs with heq | hlater
  · rw [← heq]
    exact haddress
  · have hless := ((List.pairwise_cons.mp hpairwise).1 s hlater).2
    omega

/-- A label is at the address of one of its definitions. -/
theorem mem_of_mem_defineAll {labels : List (String × UInt8)} {ds : List (String × Nat)}
    {e : String × UInt8} (he : e ∈ defineAll labels ds) :
    e ∈ labels ∨ ∃ d ∈ ds, e = (d.1, UInt8.ofNat d.2) := by
  induction ds using List.reverseRecOn with
  | nil => exact .inl he
  | append_singleton ds d ih =>
    rw [defineAll_append] at he
    rcases Assembly.mem_of_mem_define he with hmem | heq
    · refine (ih hmem).imp_right ?_
      rintro ⟨d', hd', heq⟩
      exact ⟨d', List.mem_append_left _ hd', heq⟩
    · exact .inr ⟨d, List.mem_append_right _ List.mem_cons_self, heq⟩

/-- No label is behind the end of the program. -/
theorem le_length_of_mem_labels {e : String × UInt8} (he : e ∈ (artifacts ls).labels) :
    e.2.toNat ≤ length ls := by
  rcases mem_of_mem_defineAll he with hmem | ⟨d, hd, rfl⟩
  · cases hmem
  · obtain ⟨k, l, -, hf⟩ := mem_collect_iff.mp hd
    obtain ⟨name, -, rfl⟩ := Option.map_eq_some_iff.mp hf
    have hmod : (UInt8.ofNat (address ls k)).toNat ≤ address ls k := by
      rw [UInt8.toNat_ofNat']
      exact Nat.mod_le _ _
    exact hmod.trans (address_le_length ls k)

/-- What is reported about a source agrees with the memory that it is assembled into. -/
theorem describes_of_assemble {m n : Memory} {source : String} {a : Artifacts}
    (h : Assembly.assemble m source = .ok (n, a)) : a.Describes n := by
  obtain ⟨ls, -, hfits, -, hpointer, -, rfl⟩ := assemble_eq_ok_iff.mp h
  have hbyte (r : Row) (hr : r ∈ rows ls) : (UInt8.ofNat r.address).toNat = r.address := by
    rw [UInt8.toNat_ofNat', Nat.mod_eq_of_lt (address_lt_of_mem_rows hfits m.cells_le hr)]
  refine ⟨hpointer.symm, ?_, ?_, ?_, ?_⟩
  · intro e he
    exact Nat.le_min.mpr ⟨le_length_of_mem_labels he, Nat.le_of_lt_succ e.2.toNat_lt⟩
  · rw [artifacts, List.pairwise_map]
    refine (pairwise_rows ls).imp_of_mem ?_
    intro r s hr hs hless
    refine ⟨hless.1, ?_⟩
    rw [UInt8.lt_iff_toNat_lt, Row.entry, Row.entry, hbyte r hr, hbyte s hs]
    exact hless.2
  · intro e he
    rw [artifacts, List.head?_map] at he
    obtain ⟨r, hr, rfl⟩ := Option.map_eq_some_iff.mp he
    rw [Row.entry, address_of_head?_rows hr]
    rfl
  · intro e he
    obtain ⟨r, hr, rfl⟩ := List.mem_map.mp he
    rw [Row.entry, hbyte r hr]
    exact (bounds_of_mem_rows hr).2

end Layout

end ByteMachine
