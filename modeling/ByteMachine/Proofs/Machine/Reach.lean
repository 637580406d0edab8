import ByteMachine.Proofs.Histories
import ByteMachine.Proofs.Machine.Cycle
import ByteMachine.Proofs.Machine.Footprint
import ByteMachine.Proofs.Machine.Scheduling
import ByteMachine.Proofs.Machine.Stack
import ByteMachine.Proofs.Scheduler.Operations

/-!
# How far an instruction reaches

An operation writes only the registers that it is for. Three operations write a cell, one puts
a number out, and one asks for a byte. Which cell it is and what goes there, whether the port is
the right one, and so whether anything happens at all, can be told from the machine before the
operation; and the notices tell just as much as happens, also where the operation fails.
-/

namespace ByteMachine

/-- The memory that a notice shows. -/
def Notice.memory? : Notice → Option Memory
  | .memory m => some m
  | _ => none

/-- The number that a notice shows. -/
def Notice.output? : Notice → Option Int
  | .output value => some value
  | _ => none

/-- The error with which a notice says that a source has been refused. -/
def Notice.refused? : Notice → Option AssemblyError
  | .refused error => some error
  | _ => none

/-- Writes of registers show nothing but registers. -/
theorem filterMap_map_register {α : Type} {view : Notice → Option α}
    (h : ∀ r value, view (.register r value) = none) (ws : List (Register × UInt8)) :
    (ws.map fun w => Notice.register w.1 w.2).filterMap view = [] := by
  rw [List.filterMap_map, List.filterMap_eq_nil_iff]
  exact fun w _ => h w.1 w.2

/-- The byte behind the program counter, if there is one. -/
def Machine.operand? (m : Machine) : Option UInt8 :=
  (m.memory.load (m.registers.pc + 1)).toOption

theorem Machine.operand?_of_ok {m : Machine} {value : UInt8}
    (h : m.memory.load (m.registers.pc + 1) = .ok value) : m.operand? = some value := by
  rw [operand?, h]
  rfl

theorem Machine.operand?_of_error {m : Machine} {e : MemoryError}
    (h : m.memory.load (m.registers.pc + 1) = .error e) : m.operand? = none := by
  rw [operand?, h]
  rfl

namespace Opcode

/-- The cell that an operation writes, and the byte that goes there. A push writes the cell
under the stack pointer, a drop the one above it unless it is at the top of memory, and a move
to memory the one that its operand names. None of them writes beyond memory. -/
def written? (o : Opcode) (m : Machine) : Option (UInt8 × UInt8) :=
  match o with
  | push =>
    if m.registers.sp.toNat < m.memory.size then some (m.registers.sp, m.registers.ra) else none
  | pop =>
    if m.registers.sp.toNat < m.memory.size - 1 then some (m.registers.sp + 1, 0) else none
  | store => m.operand?.bind fun address =>
    if address.toNat < m.memory.size then some (address, m.registers.ra) else none
  | _ => none

/-- The number that an operation puts out: the accumulator, through one port only. -/
def putOut? (o : Opcode) (m : Machine) : Option Int :=
  match o with
  | output =>
    if m.operand? = some outputPort then some (Word.signedByte m.registers.ra) else none
  | _ => none

/-- Whether an operation asks for a byte, which it does at one port only. -/
def asks (o : Opcode) (m : Machine) : Bool :=
  match o with
  | input => m.operand? = some inputPort
  | _ => false

/-- What an operation has done outside the registers, and what its notices tell of it. -/
structure Reaches (o : Opcode) (m m' : Machine) (ns : List Notice) : Prop where
  /-- Memory has changed in the cell that is written. -/
  memory : m'.memory = (o.written? m).elim m.memory fun w => m.memory.setCell w.1.toNat w.2
  /-- Memory is shown once if a cell is written. -/
  shown : ns.filterMap Notice.memory? = (o.written? m).toList.map fun _ => m'.memory
  /-- The number that was last put out has changed if one is put out. -/
  latch : m'.latch = (o.putOut? m).getD m.latch
  /-- The number that is put out is shown. -/
  told : ns.filterMap Notice.output? = (o.putOut? m).toList
  /-- A ticket is handed out where a byte is asked for. -/
  asked : tickets ns = if o.asks m then [m.scheduler.nextTicket] else []

open ByteMachine.Action (Meets)

variable {o : Opcode} {m m' : Machine}

/-- Notices of a kind that an operation has no part for are not there. -/
theorem Uses.filterMap_notices {α β : Type} {view : Notice → Option β}
    (hregister : ∀ r value, view (.register r value) = none)
    (hmemory : o.stores = true → ∀ memory, view (.memory memory) = none)
    (houtput : o = .output → ∀ value, view (.output value) = none)
    (hinput : o = .input → ∀ ticket, view (.inputRequested ticket) = none) {x : Action α}
    (h : o.Uses x) : Meets (fun _ _ ns => ns.filterMap view = []) x := by
  induction h with
  | bind hx hf ihx ihf =>
    refine Meets.bind ihx ihf (fun m m' ns hfirst => hfirst) ?_
    intro m m' m'' ns ns' hfirst hrest
    rw [List.filterMap_append, hfirst, hrest]
    rfl
  | load address =>
    intro m
    unfold Action.load
    split <;> rfl
  | writeAll hws => exact fun m => filterMap_map_register hregister _
  | store hstores address value =>
    intro m
    unfold Action.store
    split
    · exact List.filterMap_cons_none (hmemory hstores _)
    · rfl
  | putOut houtput' value => exact fun m => List.filterMap_cons_none (houtput houtput' _)
  | sleep hsuspends timeout =>
    intro m
    unfold Action.sleep
    split <;> rfl
  | requestInput hinput' => exact fun m => List.filterMap_cons_none (hinput hinput' _)
  | pure | machine | register | randomByte | halt => exact fun m => rfl

/-- An operation that has no part for any of this does nothing of it. -/
theorem reaches_of_uses {α : Type} {x : Action α} (h : o.Uses x) (hstores : o.stores = false)
    (houtput : o ≠ .output) (hinput : o ≠ .input) :
    Meets (fun m m' ns => o.Reaches m m' ns) x := by
  intro m
  have hconfined := h.confines m
  have hwritten : o.written? m = none := by cases o <;> first | rfl | cases hstores
  have hput : o.putOut? m = none := by cases o <;> first | rfl | exact absurd rfl houtput
  have hasks : o.asks m = false := by cases o <;> first | rfl | exact absurd rfl hinput
  have hnone {β : Type} {view : Notice → Option β}
      (hregister : ∀ r value, view (.register r value) = none) :
      (x m).notices.filterMap view = [] :=
    h.filterMap_notices hregister (fun hs => absurd (hs.symm.trans hstores) nofun)
      (fun ho => absurd ho houtput) (fun ho => absurd ho hinput) m
  refine ⟨?_, ?_, ?_, ?_, ?_⟩
  · rw [hwritten]
    exact hconfined.memory hstores
  · rw [hwritten]
    exact hnone fun _ _ => rfl
  · rw [hput]
    exact hconfined.latch houtput
  · rw [hput]
    exact hnone fun _ _ => rfl
  · rw [hasks]
    exact hnone fun _ _ => rfl

/-- An operation that writes to memory does nothing else outside the registers. -/
theorem Reaches.of_stores {ns : List Notice} {w : Option (UInt8 × UInt8)}
    (hstores : o.stores = true) (hwritten : o.written? m = w)
    (hmemory : m'.memory = w.elim m.memory fun w => m.memory.setCell w.1.toNat w.2)
    (hshown : ns.filterMap Notice.memory? = w.toList.map fun _ => m'.memory)
    (hlatch : m'.latch = m.latch) (htold : ns.filterMap Notice.output? = [])
    (hasked : tickets ns = []) : o.Reaches m m' ns := by
  have hput : o.putOut? m = none := by cases o <;> first | rfl | cases hstores
  have hasks : o.asks m = false := by cases o <;> first | rfl | cases hstores
  refine ⟨?_, ?_, ?_, ?_, ?_⟩
  · rw [hwritten]
    exact hmemory
  · rw [hwritten]
    exact hshown
  · rw [hput]
    exact hlatch
  · rw [hput]
    exact htold
  · rw [hasks]
    exact hasked

/-- An operation that puts something out or asks does nothing to memory. -/
theorem Reaches.of_port {ns : List Notice} (hport : o = .output ∨ o = .input)
    (hmemory : m'.memory = m.memory) (hshown : ns.filterMap Notice.memory? = [])
    (hlatch : m'.latch = (o.putOut? m).getD m.latch)
    (htold : ns.filterMap Notice.output? = (o.putOut? m).toList)
    (hasked : tickets ns = if o.asks m then [m.scheduler.nextTicket] else []) :
    o.Reaches m m' ns := by
  have hwritten : o.written? m = none := by
    rcases hport with rfl | rfl <;> rfl
  refine ⟨?_, ?_, hlatch, htold, hasked⟩
  · rw [hwritten]
    exact hmemory
  · rw [hwritten]
    exact hshown

/-- A push writes the cell under the stack pointer, where there is one. -/
theorem reaches_run_push (m : Machine) :
    push.Reaches m (push.run m).machine (push.run m).notices := by
  by_cases hcell : m.registers.sp.toNat < m.memory.size
  · rw [run_push_of_lt hcell]
    exact .of_stores rfl (if_pos hcell) rfl rfl rfl rfl rfl
  · rw [run_push_of_le (Nat.not_lt.mp hcell)]
    exact .of_stores rfl (if_neg hcell) rfl rfl rfl rfl rfl

/-- A drop writes the cell above the stack pointer, unless the stack is empty. -/
theorem reaches_run_pop (m : Machine) :
    pop.Reaches m (pop.run m).machine (pop.run m).notices := by
  by_cases hbelow : m.registers.sp.toNat < m.memory.size - 1
  · rw [run_pop_of_lt hbelow]
    exact .of_stores rfl (if_pos hbelow) rfl rfl rfl rfl rfl
  · rw [run_pop_of_le (Nat.not_lt.mp hbelow)]
    exact .of_stores rfl (if_neg hbelow) rfl rfl rfl rfl rfl

/-- A move to memory writes the cell that its operand names, where there are both. -/
theorem reaches_run_store (m : Machine) :
    store.Reaches m (store.run m).machine (store.run m).notices := by
  cases hload : m.memory.load (m.registers.pc + 1) with
  | error e =>
    have hwritten : store.written? m = none := by
      rw [written?, Machine.operand?_of_error hload, Option.bind_none]
    rw [run, runWith, Action.bind_error (Action.operand_eq_error hload)]
    exact .of_stores rfl hwritten rfl rfl rfl rfl rfl
  | ok address =>
    have hwritten : store.written? m =
        if address.toNat < m.memory.size then some (address, m.registers.ra) else none := by
      rw [written?, Machine.operand?_of_ok hload, Option.bind_some]
    have hra : Action.register .ra m.advanced = ⟨.ok m.registers.ra, m.advanced, []⟩ := rfl
    rw [run, runWith, Action.bind_ok (Action.operand_of_ok hload), Action.bind_ok hra]
    by_cases hcell : address.toNat < m.advanced.memory.size
    · rw [Action.store_of_lt hcell]
      exact .of_stores rfl (hwritten.trans (if_pos hcell)) rfl rfl rfl rfl rfl
    · rw [Action.store_of_size_le (Nat.not_lt.mp hcell)]
      exact .of_stores rfl (hwritten.trans (if_neg hcell)) rfl rfl rfl rfl rfl

/-- Only a push, a drop and a move to memory write a cell, and each writes its own. -/
theorem written?_eq_some {address value : UInt8} (h : o.written? m = some (address, value)) :
    address.toNat < m.memory.size ∧
      ((o = .push ∧ address = m.registers.sp ∧ value = m.registers.ra) ∨
        (o = .pop ∧ m.registers.sp.toNat < m.memory.size - 1 ∧ address = m.registers.sp + 1 ∧
          value = 0) ∨
        (o = .store ∧ m.operand? = some address ∧ value = m.registers.ra)) := by
  cases o with
  | push =>
    obtain ⟨hcell, heq⟩ := Option.ite_none_right_eq_some.mp h
    cases heq
    exact ⟨hcell, .inl ⟨rfl, rfl, rfl⟩⟩
  | pop =>
    obtain ⟨hbelow, heq⟩ := Option.ite_none_right_eq_some.mp h
    cases heq
    have hsize : m.memory.size ≤ 256 := m.memory.cells_le
    have hup : (m.registers.sp + 1).toNat < m.memory.size := by
      rw [UInt8.toNat_add, UInt8.toNat_one]
      omega
    exact ⟨hup, .inr (.inl ⟨rfl, hbelow, rfl, rfl⟩)⟩
  | store =>
    obtain ⟨a, hoperand, hcase⟩ := Option.bind_eq_some_iff.mp h
    obtain ⟨hcell, heq⟩ := Option.ite_none_right_eq_some.mp hcase
    cases heq
    exact ⟨hcell, .inr (.inr ⟨rfl, hoperand, rfl⟩)⟩
  | _ => cases h

/-- Only an input at its port asks for a byte. -/
theorem eq_input_of_asks (h : o.asks m = true) :
    o = .input ∧ m.operand? = some inputPort := by
  cases o with
  | input => exact ⟨rfl, of_decide_eq_true h⟩
  | _ => cases h

theorem putOut?_of_ok {port : UInt8} (h : m.memory.load (m.registers.pc + 1) = .ok port) :
    output.putOut? m = if port = outputPort then some (Word.signedByte m.registers.ra) else none := by
  simp [putOut?, Machine.operand?_of_ok h]

theorem asks_of_ok {port : UInt8} (h : m.memory.load (m.registers.pc + 1) = .ok port) :
    input.asks m = decide (port = inputPort) := by
  simp [asks, Machine.operand?_of_ok h]

/-- Only an output at its port puts something out, which is the accumulator. -/
theorem putOut?_eq_some {value : Int} (h : o.putOut? m = some value) :
    o = .output ∧ m.operand? = some outputPort ∧ value = Word.signedByte m.registers.ra := by
  cases o with
  | output =>
    obtain ⟨hport, heq⟩ := Option.ite_none_right_eq_some.mp h
    exact ⟨rfl, hport, (Option.some.inj heq).symm⟩
  | _ => cases h

/-- An output puts the accumulator out, if its operand is the port for that. -/
theorem reaches_run_output (m : Machine) :
    output.Reaches m (output.run m).machine (output.run m).notices := by
  cases hload : m.memory.load (m.registers.pc + 1) with
  | error e =>
    have hput : output.putOut? m = none := by
      simp [putOut?, Machine.operand?_of_error hload]
    rw [run, runWith, Action.bind_error (Action.operand_eq_error hload)]
    exact .of_port (.inl rfl) rfl rfl (by rw [hput]; rfl) (by rw [hput]; rfl) rfl
  | ok port =>
    have hput := putOut?_of_ok hload
    rw [run, runWith, Action.bind_ok (Action.operand_of_ok hload)]
    by_cases hport : port = outputPort
    · rw [if_pos hport] at hput
      rw [if_pos hport]
      exact .of_port (.inl rfl) rfl rfl (by rw [hput]; rfl) (by rw [hput]; rfl) rfl
    · rw [if_neg hport] at hput
      rw [if_neg hport]
      exact .of_port (.inl rfl) rfl rfl (by rw [hput]; rfl) (by rw [hput]; rfl) rfl

/-- An input asks for a byte, if its operand is the port for that. -/
theorem reaches_run_input (m : Machine) :
    input.Reaches m (input.run m).machine (input.run m).notices := by
  cases hload : m.memory.load (m.registers.pc + 1) with
  | error e =>
    have hasks : input.asks m = false := by
      simp [asks, Machine.operand?_of_error hload]
    rw [run, runWith, Action.bind_error (Action.operand_eq_error hload)]
    exact .of_port (.inr rfl) rfl rfl rfl rfl (by rw [hasks]; rfl)
  | ok port =>
    have hasks := asks_of_ok hload
    rw [run, runWith, Action.bind_ok (Action.operand_of_ok hload)]
    by_cases hport : port = inputPort
    · rw [decide_eq_true hport] at hasks
      obtain ⟨s, hs⟩ : ∃ s, m.advanced.scheduler.sleep none = some s :=
        ⟨_, Scheduler.sleep_none_eq _⟩
      have hsleep : Action.sleep none m.advanced =
          ⟨.ok (), { m.advanced with scheduler := s }, []⟩ := by
        rw [Action.sleep, hs]
      -- a suspension counts no question, so the next ticket is still the same
      have hnumbers := Scheduler.sameNumbers_of_sleep hs
      have hticket : s.nextTicket = m.scheduler.nextTicket := by
        rw [Scheduler.nextTicket, hnumbers.generation, hnumbers.nextSequence]
        rfl
      rw [if_pos hport, Action.bind_ok hsleep]
      refine .of_port (.inr rfl) rfl rfl rfl rfl ?_
      rw [hasks, if_pos rfl, ← hticket]
      rfl
    · rw [decide_eq_false hport] at hasks
      rw [if_neg hport]
      exact .of_port (.inr rfl) rfl rfl rfl rfl (by rw [hasks]; rfl)

/-- What every operation does outside the registers. -/
theorem reaches_run (o : Opcode) (m : Machine) :
    o.Reaches m (o.run m).machine (o.run m).notices := by
  by_cases houtput : o = .output
  · subst houtput
    exact reaches_run_output m
  by_cases hinput : o = .input
  · subst hinput
    exact reaches_run_input m
  by_cases hstores : o.stores = true
  · cases o with
    | push => exact reaches_run_push m
    | pop => exact reaches_run_pop m
    | store => exact reaches_run_store m
    | _ => cases hstores
  · exact reaches_of_uses o.uses_run (Bool.eq_false_iff.mpr hstores) houtput hinput m

/-- What follows an operation does nothing outside the registers but end the run. -/
theorem reaches_complete (o : Opcode) (m : Machine) :
    o.Reaches m (Machine.complete o o.run m).machine (Machine.complete o o.run m).notices := by
  have hreached := o.reaches_run m
  cases hrun : o.run m with
  | mk outcome m' ns =>
    rw [hrun] at hreached
    cases outcome with
    | error i =>
      rw [Machine.complete, Action.bind_error hrun]
      exact hreached
    | ok u =>
      rw [Machine.complete, Action.bind_ok hrun]
      cases o.control with
      | proceed =>
        dsimp only
        rw [Action.increment_pc_apply]
        refine ⟨hreached.memory, ?_, hreached.latch, ?_, ?_⟩
        · rw [List.filterMap_append, hreached.shown]
          exact List.append_nil _
        · rw [List.filterMap_append, hreached.told]
          exact List.append_nil _
        · rw [tickets_append, hreached.asked]
          exact List.append_nil _
      | halt =>
        dsimp only [Action.update]
        rw [List.append_nil]
        exact ⟨hreached.memory, hreached.shown, hreached.latch, hreached.told, hreached.asked⟩

end Opcode

namespace Machine

variable {m : Machine}

/-- A step writes only the registers that its operation is for, and moves the generator only
if this is to draw a byte. -/
theorem confined_of_step {o : Opcode} {address : UInt8} (hdeed : m.deed = .execute address o)
    {r : Reply Machine (Except Fault Unit)} (hr : m.step = some r) :
    (∀ s ∉ Register.pc :: o.targets, r.next.registers.get s = m.registers.get s) ∧
      (o ≠ .random → r.next.generator = m.generator) := by
  obtain ⟨hrunning, hcode⟩ := load_of_deed hdeed
  have hconfined := o.uses_complete.confines m
  rw [← cycle_eq_complete hcode] at hconfined
  rcases step_cases hr with ⟨hidle, -⟩ | ⟨-, -, ⟨-, hnext⟩ | ⟨fault, -, hnext⟩⟩
  · exact absurd hrunning hidle
  · rw [hnext]
    exact ⟨hconfined.register, hconfined.generator⟩
  · rw [hnext]
    exact ⟨hconfined.register, hconfined.generator⟩

/-- What a step does outside the registers is what its operation does, whether or not it
fails. -/
theorem reaches_of_step {o : Opcode} {address : UInt8} (hdeed : m.deed = .execute address o)
    {r : Reply Machine (Except Fault Unit)} (hr : m.step = some r) :
    o.Reaches m r.next r.notices := by
  obtain ⟨hrunning, hcode⟩ := load_of_deed hdeed
  have hreached := o.reaches_complete m
  rw [← cycle_eq_complete hcode] at hreached
  rcases step_cases hr with ⟨hidle, -⟩ | ⟨-, hnotices, ⟨-, hnext⟩ | ⟨fault, -, hnext⟩⟩
  · exact absurd hrunning hidle
  · rw [hnotices, hnext]
    exact hreached
  · rw [hnotices, hnext]
    exact ⟨hreached.memory, hreached.shown, hreached.latch, hreached.told, hreached.asked⟩

/-- Without an operation to execute, a step does nothing but end the run of a program. -/
theorem step_of_rest (hrest : m.deed = .rest) {r : Reply Machine (Except Fault Unit)}
    (hr : m.step = some r) :
    r.notices = [] ∧ (r = ⟨.ok (), m, []⟩ ∨ m.scheduler.state = .running ∧ ∃ fault,
      r.answer = .error fault ∧ r.next = { m with scheduler := m.scheduler.stop }) := by
  by_cases hrunning : m.scheduler.state = .running
  · rcases m.cycle_cases with ⟨-, fault, hcycle⟩ | ⟨o, hcode, -⟩
    · rw [step, if_pos hrunning, hcycle] at hr
      cases hr
      exact ⟨rfl, .inr ⟨hrunning, fault, rfl, rfl⟩⟩
    · rw [deed_of_load hrunning hcode] at hrest
      cases hrest
  · rw [step_of_not_running hrunning] at hr
    cases hr
    exact ⟨rfl, .inl rfl⟩

/-- A deed of a machine is an operation that it executes, or none at all. -/
theorem deed_cases (m : Machine) : m.deed = .rest ∨ ∃ o, m.deed = .execute m.registers.pc o := by
  unfold deed
  split
  · exact .inr ⟨_, rfl⟩
  · exact .inl rfl

/-- A step refuses no source. -/
theorem refused_of_step {r : Reply Machine (Except Fault Unit)} (hr : m.step = some r) :
    r.notices.filterMap Notice.refused? = [] := by
  rcases m.deed_cases with hrest | ⟨o, hdeed⟩
  · rw [(step_of_rest hrest hr).1]
    rfl
  · obtain ⟨hrunning, hcode⟩ := load_of_deed hdeed
    have hquiet : (complete o o.run m).notices.filterMap Notice.refused? = [] :=
      o.uses_complete.filterMap_notices (fun _ _ => rfl) (fun _ _ => rfl) (fun _ _ => rfl)
        (fun _ _ => rfl) m
    rcases step_cases hr with ⟨hidle, -⟩ | ⟨-, hnotices, -⟩
    · exact absurd hrunning hidle
    · rw [hnotices, cycle_eq_complete hcode]
      exact hquiet

end Machine

end ByteMachine
