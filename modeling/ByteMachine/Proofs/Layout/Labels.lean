import ByteMachine.Proofs.Layout.FirstPass

/-!
# The label table

The assembler keeps a table in which a label that is defined again keeps its place and
takes the new address. After all definitions of a source the table therefore lists the
labels in the order of their first definitions, and each stands for the address of its
last one.
-/

namespace ByteMachine

namespace Assembly

/-- A definition changes the address of its own label only. -/
theorem address?_define (labels : List (String × UInt8)) (name other : String)
    (value : UInt8) :
    address? (define labels name value) other =
      if other = name then some value else address? labels other := by
  unfold address?
  induction labels with
  | nil =>
    by_cases h : other = name
    · simp [define, h]
    · simp [define, List.lookup_cons, h, beq_eq_false_iff_ne.mpr h]
  | cons l labels ih =>
    obtain ⟨key, old⟩ := l
    rw [define]
    by_cases hkey : key = name
    · subst hkey
      by_cases h : other = key
      · simp [h]
      · simp [List.lookup_cons, h, beq_eq_false_iff_ne.mpr h]
    · rw [if_neg hkey]
      by_cases h : other = key
      · subst h
        simp [hkey]
      · simp only [List.lookup_cons, beq_eq_false_iff_ne.mpr h]
        exact ih

/-- A definition puts a new label behind the others and moves no known one. -/
theorem map_fst_define (labels : List (String × UInt8)) (name : String) (value : UInt8) :
    (define labels name value).map Prod.fst =
      if name ∈ labels.map Prod.fst then labels.map Prod.fst
      else labels.map Prod.fst ++ [name] := by
  induction labels with
  | nil => simp [define]
  | cons l labels ih =>
    obtain ⟨key, old⟩ := l
    rw [define]
    by_cases hkey : key = name
    · simp [hkey]
    · have hne : ¬name = key := fun h => hkey h.symm
      rw [if_neg hkey, List.map_cons, ih]
      by_cases hmem : name ∈ labels.map Prod.fst
      · simp [hmem]
      · simp [hmem, hne]

end Assembly

namespace Layout

open Source (Line)

/-- The table holds the address of the last definition of each label. -/
theorem address?_defineAll (ds : List (String × Nat)) (name : String) :
    Assembly.address? (defineAll [] ds) name =
      ((ds.filter fun d => d.1 = name).getLast?).map fun d => UInt8.ofNat d.2 := by
  induction ds using List.reverseRecOn with
  | nil => rfl
  | append_singleton ds d ih =>
    rw [defineAll_append, defineAll, List.foldl_cons, List.foldl_nil,
      Assembly.address?_define, ih, List.filter_append]
    by_cases h : name = d.1
    · simp [h]
    · have hne : ¬d.1 = name := fun he => h he.symm
      simp [h, hne]

/-- The table lists the labels in the order of their first definitions. -/
theorem map_fst_defineAll (ds : List (String × Nat)) :
    (defineAll [] ds).map Prod.fst = (ds.map Prod.fst).eraseDups := by
  induction ds using List.reverseRecOn with
  | nil => rfl
  | append_singleton ds d ih =>
    rw [defineAll_append, defineAll, List.foldl_cons, List.foldl_nil,
      Assembly.map_fst_define, ih, List.map_append, List.eraseDups_append]
    simp only [List.mem_eraseDups, List.map_cons, List.map_nil]
    by_cases h : d.1 ∈ ds.map Prod.fst
    · have hremoved : [d.1].removeAll (ds.map Prod.fst) = [] := by
        simp only [List.removeAll, List.filter_eq_nil_iff, List.mem_singleton]
        rintro x rfl
        simpa using h
      rw [if_pos h, hremoved, List.eraseDups_nil, List.append_nil]
    · have hkept : [d.1].removeAll (ds.map Prod.fst) = [d.1] := by
        simp only [List.removeAll, List.filter_eq_self, List.mem_singleton]
        rintro x rfl
        simpa using h
      rw [if_neg h, hkept]
      rfl

/-- What the lines give is what some line gives at its address. -/
theorem mem_collect_iff {α : Type} {f : Nat → Nat → Line → Option α} {ls : List Line} {a : α} :
    a ∈ collect f ls ↔ ∃ k l, ls[k]? = some l ∧ f k (address ls k) l = some a := by
  rw [collect, List.mem_filterMap]
  constructor
  · rintro ⟨⟨l, k⟩, hmem, hf⟩
    exact ⟨k, l, List.mem_zipIdx_iff_getElem?.mp hmem, hf⟩
  · rintro ⟨k, l, hget, hf⟩
    exact ⟨(l, k), List.mem_zipIdx_iff_getElem?.mpr hget, hf⟩

/-- A line ends where the next one begins. -/
theorem address_succ {ls : List Line} {k : Nat} {l : Line} (h : ls[k]? = some l) :
    address ls (k + 1) = address ls k + l.width := by
  obtain ⟨hk, rfl⟩ := List.getElem?_eq_some_iff.mp h
  rw [address, List.take_succ_eq_append_getElem hk, List.map_append, List.sum_append, address]
  simp

/-- No line begins behind the end. -/
theorem address_le_length (ls : List Line) (k : Nat) : address ls k ≤ length ls := by
  have hsplit := congrArg (fun xs => (xs.map Line.width).sum) (List.take_append_drop k ls)
  simp only [List.map_append, List.sum_append] at hsplit
  unfold address length
  omega

/-- A label is defined exactly if some line defines it. -/
theorem labelAddress?_isSome_iff {ls : List Line} {name : String} :
    (∃ a, labelAddress? ls name = some a) ↔ ∃ l ∈ ls, l.label = some name := by
  have hlast : (∃ a, labelAddress? ls name = some a) ↔
      ∃ d ∈ definitions ls, d.1 = name := by
    rw [← Option.isSome_iff_exists, labelAddress?, Option.isSome_map, List.getLast?_isSome,
      Ne, List.filter_eq_nil_iff]
    simp
  rw [hlast]
  constructor
  · rintro ⟨d, hd, rfl⟩
    obtain ⟨k, l, hget, hf⟩ := mem_collect_iff.mp hd
    obtain ⟨name, hname, rfl⟩ := Option.map_eq_some_iff.mp hf
    exact ⟨l, List.mem_of_getElem? hget, hname⟩
  · rintro ⟨l, hl, hname⟩
    obtain ⟨k, hget⟩ := List.getElem?_of_mem hl
    exact ⟨(name, address ls k), mem_collect_iff.mpr ⟨k, l, hget, by rw [definition?, hname]; rfl⟩,
      rfl⟩

/-- Where lines fit a memory, the address of a label is a byte. -/
theorem labelAddress?_lt {size : Nat} {ls : List Line} (h : Fits size ls) (hsize : size ≤ 256)
    {name : String} {a : Nat} (ha : labelAddress? ls name = some a) : a < 256 := by
  obtain ⟨d, hd, rfl⟩ := Option.map_eq_some_iff.mp ha
  have hmem := List.mem_of_mem_filter (List.mem_of_mem_getLast? hd)
  have hne := h.addressable d hmem
  obtain ⟨k, l, hget, hf⟩ := mem_collect_iff.mp hmem
  obtain ⟨name', hname, rfl⟩ := Option.map_eq_some_iff.mp hf
  have hle := address_le_length ls k
  have hroom := h.room
  dsimp only at hne ⊢
  omega

/-- The table finds every label at its address in the layout. -/
theorem address?_table (ls : List Line) (name : String) :
    Assembly.address? (defineAll [] (definitions ls)) name =
      (labelAddress? ls name).map UInt8.ofNat := by
  rw [address?_defineAll, labelAddress?, Option.map_map]
  rfl

end Layout

end ByteMachine
