import ByteMachine.Proofs.Execution
import ByteMachine.Proofs.Machine.Footprint

/-!
# Programs that stay on their instructions

A program is disciplined if no instruction of it can write to memory, if it jumps to
labels only, and if it cannot run past its end. Once such a program has been assembled,
its instruction lines are closed under going on: at each of their addresses stands an
operation, and behind it, and at its target, stands another one.
-/

namespace ByteMachine

open Source (Line Operand)

/-- Whether an operation may go on at its operand. -/
def Opcode.branches : Opcode → Bool
  | jump | jumpLess | jumpGreater | jumpEqual | call => true
  | _ => false

/-- Whether an instruction is an operation that does not write to memory. -/
def Instruction.isReadOnly : Instruction → Bool
  | op o => !o.stores
  | raw => false

/-- Whether an operand is a label. -/
def Source.Operand.isLabel : Operand → Bool
  | label _ => true
  | word _ => false

/-- Whether a line goes to a label, if it is one that goes to its operand. -/
def Source.Line.branchesToLabel (l : Line) : Bool :=
  match l.instruction? with
  | some (.op o) => !o.branches || l.operands.first.any Operand.isLabel
  | _ => true

/-- Lines, with a report on the program they give, that keep to their instructions. -/
structure Source.Disciplined (ls : List Line) (a : Artifacts) : Prop where
  /-- Every instruction is an operation, and none writes to memory. -/
  readOnly : ∀ i ∈ ls.filterMap Line.instruction?, i.isReadOnly = true
  /-- The target of every jump and call is a label. -/
  labelled : ∀ l ∈ ls, l.branchesToLabel = true
  /-- There is a last instruction, which ends the program or jumps. -/
  closed : (ls.filterMap Line.instruction?).getLast? = some (.op .stop) ∨
    (ls.filterMap Line.instruction?).getLast? = some (.op .jump)
  /-- Every label is at an address in front of the end. -/
  inside : ∀ e ∈ a.labels, e.2.toNat < a.length

namespace Source.Disciplined

variable {ls : List Line} {a : Artifacts} {l : Line} {i : Instruction} {o : Opcode}

instance : Decidable (Disciplined ls a) :=
  decidable_of_iff
    ((∀ i ∈ ls.filterMap Line.instruction?, i.isReadOnly = true) ∧
      (∀ l ∈ ls, l.branchesToLabel = true) ∧
      ((ls.filterMap Line.instruction?).getLast? = some (.op .stop) ∨
        (ls.filterMap Line.instruction?).getLast? = some (.op .jump)) ∧
      ∀ e ∈ a.labels, e.2.toNat < a.length)
    ⟨fun h => ⟨h.1, h.2.1, h.2.2.1, h.2.2.2⟩,
      fun h => ⟨h.readOnly, h.labelled, h.closed, h.inside⟩⟩

/-- What stands on a line is an operation that does not write to memory. -/
theorem exists_operation (h : Disciplined ls a) (hl : l ∈ ls) (hi : l.instruction? = some i) :
    ∃ o, i = .op o ∧ o.stores = false := by
  have hreadOnly := h.readOnly i (List.mem_filterMap.mpr ⟨l, hl, hi⟩)
  cases i with
  | op o =>
    rw [Instruction.isReadOnly, Bool.not_eq_true'] at hreadOnly
    exact ⟨o, rfl, hreadOnly⟩
  | raw => cases hreadOnly

/-- What may go on at its operand has a label there. -/
theorem exists_label (h : Disciplined ls a) (hl : l ∈ ls) (hop : l.instruction? = some (.op o))
    (hbranches : o.branches = true) : ∃ name, l.operands.first = some (.label name) := by
  have hlabelled := h.labelled l hl
  rw [Line.branchesToLabel, hop] at hlabelled
  dsimp only at hlabelled
  rw [hbranches, Bool.not_true, Bool.false_or, Option.any_eq_true] at hlabelled
  obtain ⟨operand, hoperand, hlabel⟩ := hlabelled
  cases operand with
  | label name => exact ⟨name, hoperand⟩
  | word text => cases hlabel

end Source.Disciplined

/-- An operation with its operand that stands in memory at an address, and from which a
program goes on at one of these addresses. -/
structure Memory.Site (n : Memory) (starts : List UInt8) (here : UInt8) (o : Opcode)
    (value : UInt8) : Prop where
  /-- The code is there. -/
  code : n.load here = .ok o.code
  /-- Where there has to be an operand, it is behind the code. -/
  operand : o.form ≠ .bare → n.load (here + 1) = .ok value
  /-- The operation does not write to memory. -/
  reads : o.stores = false
  /-- A target is one of the addresses. -/
  target : o.branches = true → value ∈ starts
  /-- So is what follows, unless the operation never goes on there. -/
  next : o ≠ .stop → o ≠ .jump → here + UInt8.ofNat o.width ∈ starts

/-- A memory with addresses among which a program stays that starts at the first cell. -/
structure Memory.Tracks (n : Memory) (starts : List UInt8) : Prop where
  /-- The program starts at one of them. -/
  zero_mem : 0 ∈ starts
  /-- An operation stands at each of them. -/
  site : ∀ here ∈ starts, ∃ o value, n.Site starts here o value

/-- A jump or call is written as one value. -/
theorem Opcode.form_of_branches {o : Opcode} (h : o.branches = true) : o.form = .value := by
  cases o <;> first | rfl | cases h

namespace Layout

variable {size : Nat} {ls : List Line} {n : Memory} {a : Artifacts} {j k : Nat} {here : UInt8}
  {l : Line} {i : Instruction} {o : Opcode}

/-- The addresses that are reported are those of the rows. -/
theorem mem_map_snd_lines_iff (hlaid : Laid size ls n a) :
    here ∈ a.lines.map Prod.snd ↔ ∃ r ∈ rows ls, r.address = here.toNat := by
  have hinjective : Function.Injective UInt8.toNat := fun _ _ h => UInt8.toNat_inj.mp h
  have hmap := congrArg (List.map Prod.snd) hlaid.lines
  have haddresses : (a.lines.map Prod.snd).map UInt8.toNat = (rows ls).map Row.address := by
    rw [List.map_map, List.map_map] at hmap
    rw [List.map_map]
    exact hmap
  rw [← List.mem_map_of_injective hinjective, haddresses, List.mem_map]

/-- An entry of the report is about some instruction line. -/
theorem line_of_entry (hlaid : Laid size ls n a) {e : Nat × UInt8}
    (hentry : a.lines[j]? = some e) :
    ∃ k l i, e = (k + 1, e.2) ∧ ls[k]? = some l ∧ l.instruction? = some i := by
  have hmap := congrArg (fun xs => xs[j]?) hlaid.lines
  simp only [List.getElem?_map, hentry, Option.map_some] at hmap
  obtain ⟨r, hr, hplace⟩ := Option.map_eq_some_iff.mp hmap.symm
  obtain ⟨k, l, hget, hrow⟩ := mem_collect_iff.mp (List.mem_of_getElem? hr)
  obtain ⟨i, hi, rfl⟩ := row?_eq_some hrow
  have hnumber : k + 1 = e.1 := congrArg Prod.fst hplace
  refine ⟨k, l, i, ?_, hget, hi⟩
  rw [hnumber]

/-- The last entry of the report is about the last instruction. -/
theorem getLast?_of_last_entry (hlaid : Laid size ls n a)
    (hentry : a.lines[j]? = some (k + 1, here)) (hlast : a.lines[j + 1]? = none)
    (hline : ls[k]? = some l) (hi : l.instruction? = some i) :
    (ls.filterMap Line.instruction?).getLast? = some i := by
  obtain ⟨-, hrow⟩ := row_of_entry hlaid hentry hline hi
  have hlength : a.lines.length = (rows ls).length := by
    have hmap := congrArg List.length hlaid.lines
    rw [List.length_map, List.length_map] at hmap
    exact hmap
  have hindex : (rows ls).length - 1 = j := by
    have hlt := (List.getElem?_eq_some_iff.mp hentry).1
    have hle := List.getElem?_eq_none_iff.mp hlast
    omega
  rw [← map_instruction_rows, List.getLast?_map, List.getLast?_eq_getElem?, hindex, hrow,
    Option.map_some]

/-- Behind an instruction line that is not the last one another one begins. -/
theorem next_mem (hlaid : Laid size ls n a) (hentry : a.lines[j]? = some (k + 1, here))
    (hline : ls[k]? = some l) (hi : l.instruction? = some i)
    (hlast : (ls.filterMap Line.instruction?).getLast? ≠ some i) :
    here + UInt8.ofNat i.width ∈ a.lines.map Prod.snd := by
  have hnext := nextAddress_eq hlaid hentry hline hi
  cases he : a.lines[j + 1]? with
  | none => exact absurd (getLast?_of_last_entry hlaid hentry he hline hi) hlast
  | some e =>
    rw [Artifacts.nextAddress, he, Option.map_some, Option.getD_some] at hnext
    rw [← hnext]
    exact List.mem_map_of_mem (List.mem_of_getElem? he)

/-- A label in front of the end of the program is at an instruction line. -/
theorem label_mem (hlaid : Laid size ls n a) (hinside : ∀ e ∈ a.labels, e.2.toNat < a.length)
    {name : String} {value : UInt8} (hgives : a.Gives value (.label name)) :
    value ∈ a.lines.map Prod.snd := by
  have haddress := hlaid.addresses name
  rw [hgives, Option.map_some] at haddress
  obtain ⟨k, hk⟩ := exists_address_of_label haddress.symm
  have hlt : address ls k < length ls := by
    obtain ⟨before, after, hlabels, -⟩ := List.lookup_eq_some_iff.mp hgives
    have hmem : (name, value) ∈ a.labels := by
      rw [hlabels]
      exact List.mem_append_right _ List.mem_cons_self
    rw [hk, ← hlaid.length]
    exact hinside _ hmem
  obtain ⟨r, hr, hrow⟩ := exists_row_at ls k hlt
  exact (mem_map_snd_lines_iff hlaid).mpr ⟨r, hr, hrow.trans hk⟩

/-- The operation of a line of a disciplined program has a site among the instruction
lines. -/
theorem exists_site (hlaid : Laid size ls n a) (hdisciplined : Source.Disciplined ls a)
    (hentry : a.lines[j]? = some (k + 1, here)) (hline : ls[k]? = some l)
    (hop : l.instruction? = some (.op o)) (hreads : o.stores = false) :
    ∃ value, n.Site (a.lines.map Prod.snd) here o value := by
  have hmem := List.mem_of_getElem? hline
  obtain ⟨haddress, hentryRow⟩ := row_of_entry hlaid hentry hline hop
  have hrow : row? k (address ls k) l =
      some ⟨k + 1, address ls k, .op o, o.form.encoded l.operands⟩ := by
    rw [row?, hop]
    rfl
  have hload {q : Nat} {b : UInt8}
      (hb : ((⟨k + 1, address ls k, .op o, o.form.encoded l.operands⟩ : Row).bytes
        (labelByte ls))[q]? = some b) : n.load (here + UInt8.ofNat q) = .ok b := by
    have hcell := getElem?_cells_of_row hlaid hline hrow hb
    rw [← haddress] at hcell
    exact Memory.load_add_eq_ok hcell
  have hcode : n.load here = .ok o.code := by
    have hzero : here + UInt8.ofNat 0 = here := UInt8.add_zero here
    have hfirst := hload (q := 0) (b := o.code) rfl
    rw [hzero] at hfirst
    exact hfirst
  have hnext (hstop : o ≠ .stop) (hjump : o ≠ .jump) :
      here + UInt8.ofNat o.width ∈ a.lines.map Prod.snd := by
    have hwidth : (Instruction.op o).width = o.width := rfl
    rw [← hwidth]
    refine next_mem hlaid hentry hline hop ?_
    intro hlast
    rcases hdisciplined.closed with hend | hend
    · rw [hlast] at hend
      cases hend
      exact hstop rfl
    · rw [hlast] at hend
      cases hend
      exact hjump rfl
  cases hoperand : o.form.encoded l.operands with
  | none =>
    have hbare : o.form = .bare := by
      by_contra hform
      obtain ⟨operand, hsome⟩ := Opcode.exists_encoded (Line.accepts_of_instruction? hop) hform
      rw [hoperand] at hsome
      cases hsome
    refine ⟨0, hcode, fun hform => absurd hbare hform, hreads, ?_, hnext⟩
    intro hbranches
    rw [Opcode.form_of_branches hbranches] at hbare
    cases hbare
  | some operand =>
    have hsecond : ((⟨k + 1, address ls k, .op o, o.form.encoded l.operands⟩ : Row).bytes
        (labelByte ls))[1]? = some (operandByte (labelByte ls) operand) := by
      rw [Row.bytes, hoperand]
      rfl
    have hvalue : n.load (here + 1) = .ok (operandByte (labelByte ls) operand) := hload hsecond
    refine ⟨operandByte (labelByte ls) operand, hcode, fun _ => hvalue, hreads, ?_, hnext⟩
    intro hbranches
    obtain ⟨name, hname⟩ := hdisciplined.exists_label hmem hop hbranches
    have hlabel : operand = .label name := by
      rw [Opcode.form_of_branches hbranches, Form.encoded, hname] at hoperand
      exact (Option.some.inj hoperand).symm
    subst hlabel
    have hnumber := hlaid.operands _ (List.mem_of_getElem? hentryRow) _ hoperand
    exact label_mem hlaid hdisciplined.inside (gives_of_operandNumber? hlaid hnumber)

/-- A disciplined program has a first instruction line, at address zero. -/
theorem zero_mem_of_closed (hlaid : Laid size ls n a) (hdisciplined : Source.Disciplined ls a) :
    0 ∈ a.lines.map Prod.snd := by
  have hrows : rows ls ≠ [] := by
    intro hnil
    have hlast := hdisciplined.closed
    rw [← map_instruction_rows, hnil] at hlast
    rcases hlast with h | h <;> cases h
  have hpositive : 0 < length ls := by
    obtain ⟨r, hr⟩ := List.exists_mem_of_ne_nil _ hrows
    obtain ⟨k, l, hget, hrow⟩ := mem_collect_iff.mp hr
    have hle := address_le_length ls (k + 1)
    obtain ⟨i, hi, rfl⟩ := row?_eq_some hrow
    have hwidth : 0 < l.width := by
      rw [Line.width, hi]
      exact i.form.width_pos
    rw [address_succ hget] at hle
    omega
  obtain ⟨r, hr, haddress⟩ := exists_row_at ls 0 hpositive
  exact (mem_map_snd_lines_iff hlaid).mpr ⟨r, hr, haddress⟩

/-- The instruction lines of a disciplined program are a track. -/
theorem tracks_of_laid (hlaid : Laid size ls n a) (hdisciplined : Source.Disciplined ls a) :
    n.Tracks (a.lines.map Prod.snd) := by
  refine ⟨zero_mem_of_closed hlaid hdisciplined, ?_⟩
  intro here hhere
  obtain ⟨e, he, rfl⟩ := List.mem_map.mp hhere
  obtain ⟨j, hentry⟩ := List.getElem?_of_mem he
  obtain ⟨k, l, i, heq, hline, hi⟩ := line_of_entry hlaid hentry
  rw [heq] at hentry
  obtain ⟨o, rfl, hreads⟩ := hdisciplined.exists_operation (List.mem_of_getElem? hline) hi
  exact ⟨o, exists_site hlaid hdisciplined hentry hline hi hreads⟩

end Layout

end ByteMachine
