import ByteMachine.Computer
import ByteMachine.Proofs.Layout.Placement
import ByteMachine.Proofs.Machine.Successor

/-!
# Executing what was assembled

Assembler and machine agree about operands. Where a program counter stands on a line of
a program that is still in memory, a step executes the operation that the assembler
chose for that line, on the operand that it resolved, and goes on at the next line or at
the target.
-/

namespace ByteMachine

open Source (Line Operand)
open Layout (Row row? rows Laid address)
open ByteMachine.Action (given)

/-- The byte that a report on a program gives for an operand: the address of the label, or
the number that is written. -/
def Artifacts.Gives (a : Artifacts) (value : UInt8) : Operand → Prop
  | .label name => Assembly.address? a.labels name = some value
  | .word text => Text.hexNumber? text.toList = some value.toNat

/-- The address behind the instruction line with this index in a report: that of the next
instruction line, or of the end of the program. -/
def Artifacts.nextAddress (a : Artifacts) (index : Nat) : UInt8 :=
  (a.lines[index + 1]?.map Prod.snd).getD (UInt8.ofNat a.length)

/-- A running computer whose program counter stands on a line, with the bytes of that line
still as they were assembled into this memory. -/
structure Computer.Before (c : Computer) (here : UInt8) (l : Line) (assembled : Memory) :
    Prop where
  /-- The program runs. -/
  running : c.state = .running
  /-- The program counter is at the address of the line. -/
  pc : c.machine.registers.pc = here
  /-- The bytes of the line have not changed. -/
  held : ∀ i < l.width,
    c.machine.memory.cells[here.toNat + i]? = assembled.cells[here.toNat + i]?

/-- A computer whose step executes an operation on an operand, and if it goes through,
leaves the program where that operation has it go on. -/
structure Computer.Executes (c : Computer) (o : Opcode) (value next : UInt8) : Prop where
  /-- The step is that operation with that operand. -/
  step : c.machine.step =
    Machine.conclude (Machine.complete o (o.runWith (given value)) c.machine)
  /-- The program counter is on the successor. -/
  pc : ∀ r, c.step = some r → r.answer = .ok () →
    r.next.machine.registers.pc = o.successor c.machine.registers value next
  /-- A call remembers the address of its operand. -/
  ret : ∀ r, c.step = some r → r.answer = .ok () → o = .call →
    r.next.machine.registers.ret = c.machine.registers.pc + 1
  /-- The end of a program stops the run. -/
  stopped : ∀ r, c.step = some r → r.answer = .ok () → o = .stop → r.next.state = .stopped

namespace Layout

variable {size : Nat} {ls : List Line} {n : Memory} {a : Artifacts} {j k : Nat} {here : UInt8}
  {l : Line} {i : Instruction}

/-- An entry of the report is the row of its line. -/
theorem row_of_entry (hlaid : Laid size ls n a) (hentry : a.lines[j]? = some (k + 1, here))
    (hline : ls[k]? = some l) (hi : l.instruction? = some i) :
    here.toNat = address ls k ∧
      (rows ls)[j]? = some ⟨k + 1, address ls k, i, i.form.encoded l.operands⟩ := by
  have hmap := congrArg (fun xs => xs[j]?) hlaid.lines
  simp only [List.getElem?_map, hentry, Option.map_some] at hmap
  obtain ⟨r, hr, hplace⟩ := Option.map_eq_some_iff.mp hmap.symm
  obtain ⟨k', l', hget, hrow⟩ := mem_collect_iff.mp (List.mem_of_getElem? hr)
  obtain ⟨i', hi', rfl⟩ := row?_eq_some hrow
  obtain ⟨hindex, haddress⟩ := Prod.mk.inj hplace
  have hk : k' = k := Nat.succ.inj hindex
  subst hk
  rw [hline] at hget
  cases hget
  rw [hi] at hi'
  cases hi'
  exact ⟨haddress.symm, hr⟩

/-- The bytes of a row are found in the memory that was assembled. -/
theorem getElem?_cells_of_row (hlaid : Laid size ls n a) (hline : ls[k]? = some l) {r : Row}
    (hrow : row? k (address ls k) l = some r) {q : Nat} {b : UInt8}
    (hb : (r.bytes (labelByte ls))[q]? = some b) : n.cells[address ls k + q]? = some b := by
  have himage := getElem?_bytes_of_row (labelByte ls) hline hrow hb
  obtain ⟨hlt, -⟩ := List.getElem?_eq_some_iff.mp himage
  rw [hlaid.cells]
  exact (List.getElem?_append_left hlt).trans himage

/-- Behind an instruction line the next one begins, or the program ends. -/
theorem nextAddress_eq (hlaid : Laid size ls n a) (hentry : a.lines[j]? = some (k + 1, here))
    (hline : ls[k]? = some l) (hi : l.instruction? = some i) :
    a.nextAddress j = here + UInt8.ofNat i.width := by
  obtain ⟨haddress, hrow⟩ := row_of_entry hlaid hentry hline hi
  have hnext := address_next_row ls hrow
  have hmap := congrArg (fun xs => xs[j + 1]?) hlaid.lines
  simp only [List.getElem?_map] at hmap
  have hnat : a.nextAddress j =
      UInt8.ofNat (((rows ls)[j + 1]?.map Row.address).getD (length ls)) := by
    unfold Artifacts.nextAddress
    cases he : a.lines[j + 1]? with
    | none =>
      rw [he] at hmap
      have hnone : (rows ls)[j + 1]? = none := Option.map_eq_none_iff.mp hmap.symm
      rw [hnone, Option.map_none, Option.map_none, Option.getD_none, Option.getD_none,
        hlaid.length]
    | some e =>
      rw [he] at hmap
      obtain ⟨r, hr, hplace⟩ := Option.map_eq_some_iff.mp hmap.symm
      have hsnd : r.address = e.2.toNat := congrArg Prod.snd hplace
      rw [hr, Option.map_some, Option.map_some, Option.getD_some, Option.getD_some, hsnd,
        UInt8.ofNat_toNat]
  rw [hnat, hnext]
  dsimp only
  rw [← haddress, UInt8.ofNat_add, UInt8.ofNat_toNat]

/-- A number that the layout gives an operand is the byte that the report gives it. -/
theorem gives_of_operandNumber? (hlaid : Laid size ls n a) {o : Operand} {value : UInt8}
    (h : operandNumber? ls o = some value.toNat) : a.Gives value o := by
  cases o with
  | label name =>
    have haddress := hlaid.addresses name
    have hlabel : labelAddress? ls name = some value.toNat := h
    rw [hlabel] at haddress
    obtain ⟨v, hv, heq⟩ := Option.map_eq_some_iff.mp haddress
    rw [Artifacts.Gives, hv, UInt8.toNat_inj.mp heq]
  | word text => exact h

end Layout

namespace Computer

variable {c : Computer} {o : Opcode} {value : UInt8}

/-- A running computer with a code under its program counter, and with an operand behind it
where there has to be one, executes the operation on that operand. -/
theorem executes_of_load (hrunning : c.state = .running)
    (hcode : c.machine.memory.load c.machine.registers.pc = .ok o.code)
    (hvalue : o.form ≠ .bare →
      c.machine.memory.load (c.machine.registers.pc + 1) = .ok value) :
    c.Executes o value (c.machine.registers.pc + UInt8.ofNat o.width) := by
  have hcycle := Machine.cycle_eq_complete_given hcode hvalue
  have hstep : c.machine.step =
      Machine.conclude (Machine.complete o (o.runWith (given value)) c.machine) := by
    have hstate : c.machine.scheduler.state = .running := hrunning
    rw [Machine.step, if_pos hstate, hcycle]
  have hok (r : Reply Computer (Except Fault Unit)) (hr : c.step = some r)
      (hanswer : r.answer = .ok ()) :
      (Machine.complete o (o.runWith (given value)) c.machine).outcome = .ok () ∧
        r.next.machine = (Machine.complete o (o.runWith (given value)) c.machine).machine := by
    obtain ⟨r', hr', rfl⟩ := Option.map_eq_some_iff.mp hr
    rw [hstep] at hr'
    exact Machine.conclude_eq_some_ok hr' hanswer
  refine ⟨hstep, ?_, ?_, ?_⟩
  · intro r hr hanswer
    obtain ⟨houtcome, hmachine⟩ := hok r hr hanswer
    rw [hmachine, Machine.pc_complete houtcome]
  · intro r hr hanswer hcall
    obtain ⟨houtcome, hmachine⟩ := hok r hr hanswer
    subst hcall
    rw [hmachine, Machine.ret_complete_call houtcome]
  · intro r hr hanswer hstop
    obtain ⟨houtcome, hmachine⟩ := hok r hr hanswer
    subst hstop
    rw [state, hmachine, Machine.state_complete_stop houtcome]

end Computer

/-- The operand of an operation that is not written bare is kept as a byte. -/
theorem Opcode.exists_encoded {o : Opcode} {operands : Source.Operands}
    (h : o.form.accepts operands = true) (hform : o.form ≠ .bare) :
    ∃ operand, o.form.encoded operands = some operand := by
  obtain ⟨first, second⟩ := operands
  cases hf : o.form with
  | bare => exact absurd hf hform
  | _ =>
    rw [hf] at h
    cases first <;> cases second <;> simp_all [Form.accepts, Form.encoded]

/-- Before a line, the bytes of its row can be loaded from where the row stands. -/
theorem Computer.Before.load {size : Nat} {ls : List Line} {n : Memory} {a : Artifacts}
    {k : Nat} {l : Line} {r : Row} {here : UInt8} {c : Computer} (h : c.Before here l n)
    (hlaid : Laid size ls n a) (hline : ls[k]? = some l) (haddress : here.toNat = address ls k)
    (hrow : row? k (address ls k) l = some r) {q : Nat} {b : UInt8}
    (hb : (r.bytes (Layout.labelByte ls))[q]? = some b) :
    c.machine.memory.load (here + UInt8.ofNat q) = .ok b := by
  have hcell := Layout.getElem?_cells_of_row hlaid hline hrow hb
  rw [← haddress] at hcell
  have hq : q < l.width := by
    have hlength := Layout.length_bytes_row (Layout.labelByte ls) k (address ls k) l
    rw [hrow, Option.toList_some, List.flatMap_singleton] at hlength
    rw [← hlength]
    exact (List.getElem?_eq_some_iff.mp hb).1
  rw [← h.held q hq] at hcell
  exact Memory.load_add_eq_ok hcell

/-- Whoever assembles a source and then runs what is in memory runs that source. A step on
an instruction line executes the operation of that line on its operand, a number as it is
written or the final address of a label, and goes on at the target of a jump that is taken,
behind the call after a return, and otherwise at the next instruction line. -/
theorem step_executes_line {m n : Memory} {source : String} {a : Artifacts}
    (hassemble : m.assemble source = (n, .ok a)) {ls : List Line}
    (hlines : Source.lines? source = some ls) {k : Nat} {l : Line} (hline : ls[k]? = some l)
    {o : Opcode} (hop : l.instruction? = some (.op o)) {j : Nat} {here : UInt8}
    (hentry : a.lines[j]? = some (k + 1, here)) {c : Computer} (hbefore : c.Before here l n) :
    ∃ value, (∀ operand, o.form.encoded l.operands = some operand → a.Gives value operand) ∧
      c.Executes o value (a.nextAddress j) := by
  obtain ⟨ls', hls', -, -, hlaid⟩ :=
    Layout.laid_of_assemble (Layout.memory_assemble_eq_ok_iff.mp hassemble)
  rw [hlines] at hls'
  cases hls'
  obtain ⟨haddress, hentryRow⟩ := Layout.row_of_entry hlaid hentry hline hop
  have hrow : row? k (address ls k) l =
      some ⟨k + 1, address ls k, .op o, o.form.encoded l.operands⟩ := by
    rw [row?, hop]
    rfl
  have hload {q : Nat} {b : UInt8} := hbefore.load hlaid hline haddress hrow (q := q) (b := b)
  have hcode : c.machine.memory.load c.machine.registers.pc = .ok o.code := by
    have hzero : here + UInt8.ofNat 0 = here := UInt8.add_zero here
    have hfirst := hload (q := 0) (b := o.code) rfl
    rw [hzero] at hfirst
    rw [hbefore.pc]
    exact hfirst
  have hnext : a.nextAddress j = c.machine.registers.pc + UInt8.ofNat o.width := by
    rw [Layout.nextAddress_eq hlaid hentry hline hop, hbefore.pc]
    rfl
  rw [hnext]
  cases hoperand : o.form.encoded l.operands with
  | none =>
    refine ⟨0, fun _ hsome => absurd hsome (Option.some_ne_none _).symm,
      Computer.executes_of_load hbefore.running hcode ?_⟩
    intro hform
    have haccepts : o.form.accepts l.operands = true := Line.accepts_of_instruction? hop
    obtain ⟨operand, hsome⟩ := Opcode.exists_encoded haccepts hform
    rw [hoperand] at hsome
    cases hsome
  | some operand =>
    have hnumber := hlaid.operands _ (List.mem_of_getElem? hentryRow) operand hoperand
    refine ⟨Layout.operandByte (Layout.labelByte ls) operand, ?_,
      Computer.executes_of_load hbefore.running hcode ?_⟩
    · intro operand' hsome
      cases hsome
      exact Layout.gives_of_operandNumber? hlaid hnumber
    · intro _
      rw [hbefore.pc]
      refine hload (q := 1) ?_
      rw [Row.bytes, hoperand]
      rfl

/-- A program that counts down, with its label at address zero. -/
def countdown : String := "@x: DEC\nJGREATER @x"

/-- A computer that runs the countdown and stands before its jump, with no flag raised. -/
def counting : Computer where
  machine := {
    memory := ⟨[8, 13, 0], 3, by decide, by decide, by decide⟩
    registers := { pc := 1 }
    scheduler := { state := .running, sleepUnit := 0 }
    generator := { key := 0 } }
  settings := { memorySize := 3 }

/-- The countdown jumps to its label, which is at address zero. -/
theorem counting_executes_line : counting.Executes .jumpGreater 0 3 ∧
    ∃ r, counting.step = some r ∧ r.answer = .ok () ∧ r.next.machine.registers.pc = 0 := by
  have hassemble : (Memory.zeros 3 (by decide) (by decide)).assemble countdown =
      (counting.machine.memory, .ok ⟨[("x", 0)], [(1, 0), (2, 1)], 3⟩) := rfl
  have hlines : Source.lines? countdown = some
      [⟨some "x", some "DEC", {}, none⟩,
        ⟨none, some "JGREATER", ⟨some (.label "x"), none⟩, none⟩] := rfl
  have hbefore : counting.Before 1 ⟨none, some "JGREATER", ⟨some (.label "x"), none⟩, none⟩
      counting.machine.memory := ⟨rfl, rfl, fun i _ => rfl⟩
  obtain ⟨value, hgives, hexecutes⟩ :=
    step_executes_line hassemble hlines (k := 1) rfl (o := .jumpGreater) rfl (j := 1) rfl hbefore
  have hvalue : some 0 = some value := hgives (.label "x") rfl
  cases hvalue
  exact ⟨hexecutes, _, rfl, rfl, hexecutes.pc _ rfl rfl⟩

end ByteMachine
