import ByteMachine.Proofs.Machine.Fixtures
import ByteMachine.Proofs.Machine.Suspension
import ByteMachine.Proofs.Scheduler.Consistency
import ByteMachine.Proofs.Word.Signed

/-!
# What a step may change

Of all that a computer consists of, a step changes very little, and what it may change is
settled by the operation under the program counter: at most one cell, which is shown if it is
written, the registers that the operation is for, the output at one port, the question at
another. A step that fails is no exception. The clock, the number of the run and all that an
assembly has set do not change at all.
-/

namespace ByteMachine

namespace Machine

/-- The operation that a step executes, if there is one. -/
def executed? (m : Machine) : Option Opcode := m.deed.opcode?

/-- The cell that a step writes, and the byte that goes there. -/
def written? (m : Machine) : Option (UInt8 × UInt8) := m.executed?.bind fun o => o.written? m

/-- The number that a step puts out. -/
def putOut? (m : Machine) : Option Int := m.executed?.bind fun o => o.putOut? m

/-- Whether a step asks for a byte. -/
def asks (m : Machine) : Bool := m.executed?.any fun o => o.asks m

/-- A reply to a step that has changed only what its operation may change. -/
structure ChangesOnly (m : Machine) (r : Reply Machine (Except Fault Unit)) : Prop where
  /-- Memory changes in the cell that is written and nowhere else. -/
  memory : r.next.memory = m.written?.elim m.memory fun w => m.memory.setCell w.1.toNat w.2
  /-- A push writes the accumulator under the stack pointer, a drop zero above it unless the
  stack is empty, and a move to memory the accumulator where its operand says. -/
  cell : ∀ address value, m.written? = some (address, value) → address.toNat < m.memory.size ∧
    ((m.executed? = some .push ∧ address = m.registers.sp ∧ value = m.registers.ra) ∨
      (m.executed? = some .pop ∧ m.registers.sp.toNat < m.memory.size - 1 ∧
        address = m.registers.sp + 1 ∧ value = 0) ∨
      (m.executed? = some .store ∧ m.operand? = some address ∧ value = m.registers.ra))
  /-- Memory is shown once if a cell is written, and otherwise not at all. -/
  shown : r.notices.filterMap Notice.memory? = m.written?.toList.map fun _ => r.next.memory
  /-- The program ends at the same cell. -/
  pointer : r.next.memory.pointer = m.memory.pointer
  /-- The stack pointer changes only in a push and in a drop. -/
  sp : r.next.registers.sp ≠ m.registers.sp →
    ∃ o ∈ [Opcode.push, .pop], m.executed? = some o
  /-- The return register changes only in a call. -/
  ret : r.next.registers.ret ≠ m.registers.ret → m.executed? = some .call
  /-- The accumulator changes only in moves to it, in arithmetic and with a random byte. -/
  ra : r.next.registers.ra ≠ m.registers.ra →
    ∃ o ∈ [Opcode.movei, .load, .random, .inc, .dec, .addi, .add, .subi, .sub],
      m.executed? = some o
  /-- The flags change only in arithmetic and in comparisons. -/
  flag : ∀ s : Register, s.isFlag = true → r.next.registers.get s ≠ m.registers.get s →
    ∃ o ∈ [Opcode.inc, .dec, .addi, .add, .subi, .sub, .comparei, .compare],
      m.executed? = some o
  /-- The number that was last put out changes only where one is put out. -/
  latch : r.next.latch = m.putOut?.getD m.latch
  /-- The number that is put out is shown, and no other. -/
  told : r.notices.filterMap Notice.output? = m.putOut?.toList
  /-- What is put out is the accumulator in two's complement, by an output at its port. -/
  port : ∀ value, m.putOut? = some value →
    m.executed? = some .output ∧ m.operand? = some outputPort ∧
      value = m.registers.ra.toInt8.toInt
  /-- The generator moves only with a random byte. -/
  generator : r.next.generator ≠ m.generator → m.executed? = some .random
  /-- Only an input at its port asks for a byte. -/
  question : m.asks = true → m.executed? = some .input ∧ m.operand? = some inputPort
  /-- A ticket is handed out only where a byte is asked for, which is the next one then. -/
  asked : tickets r.notices = if m.asks then [m.scheduler.nextTicket] else []
  /-- Only such a question is counted. -/
  nextSequence : r.next.scheduler.nextSequence =
    m.scheduler.nextSequence + if m.asks then 1 else 0
  /-- Only such a question is outstanding anew. -/
  outstanding : r.next.scheduler.outstanding =
    if m.asks then some m.scheduler.nextTicket else m.scheduler.outstanding
  /-- The program is suspended only by a question and by a sleep, and stopped only by its end
  and by a fault. -/
  state : r.next.scheduler.state ≠ m.scheduler.state →
    (r.next.scheduler.state = .sleeping ∧ (m.asks = true ∨ m.executed? = some .sleep)) ∨
      (r.next.scheduler.state = .stopped ∧
        (m.executed? = some .stop ∨ ∃ fault, r.answer = .error fault))
  /-- No time passes. -/
  clock : r.next.scheduler.clock = m.scheduler.clock
  /-- No run begins. -/
  generation : r.next.scheduler.generation = m.scheduler.generation

variable {m : Machine} {r : Reply Machine (Except Fault Unit)} {o : Opcode} {address : UInt8}

/-- A step without an operation changes nothing but the run state, and that only by failing. -/
theorem changesOnly_of_rest (hquestion : m.scheduler.state = .running →
    m.scheduler.outstanding = none) (hrest : m.deed = .rest) (hr : m.step = some r) :
    m.ChangesOnly r := by
  have hnone : m.executed? = none := by rw [executed?, hrest]; rfl
  have hwritten : m.written? = none := by rw [written?, hnone]; rfl
  have hput : m.putOut? = none := by rw [putOut?, hnone]; rfl
  have hasks : m.asks = false := by rw [asks, hnone]; rfl
  obtain ⟨hquiet, heq | ⟨hrunning, fault, hfault, hnext⟩⟩ := step_of_rest hrest hr
  · subst heq
    constructor <;> simp [hwritten, hput, hasks, tickets]
  · obtain ⟨answer, next, notices⟩ := r
    dsimp only at hquiet hfault hnext
    subst hquiet hfault hnext
    constructor <;> simp [hwritten, hput, hasks, Scheduler.stop, hquestion hrunning, tickets]

/-- A step that executes an operation changes only what this may change. -/
theorem changesOnly_of_execute (hquestion : m.scheduler.outstanding = none)
    (hdeed : m.deed = .execute address o) (hr : m.step = some r) : m.ChangesOnly r := by
  have hexecuted : m.executed? = some o := by rw [executed?, hdeed]; rfl
  have hwritten : m.written? = o.written? m := by rw [written?, hexecuted]; rfl
  have hput : m.putOut? = o.putOut? m := by rw [putOut?, hexecuted]; rfl
  have hasks : m.asks = o.asks m := by rw [asks, hexecuted]; rfl
  have hreached := reaches_of_step hdeed hr
  obtain ⟨hregister, hgenerator⟩ := confined_of_step hdeed hr
  have htarget {s : Register} (hpc : s ≠ .pc)
      (hchanged : r.next.registers.get s ≠ m.registers.get s) : s ∈ o.targets := by
    by_contra hother
    exact hchanged (hregister s fun hs => (List.mem_cons.mp hs).elim hpc hother)
  have hcases := scheduler_cases_of_step hdeed hr
  constructor
  case memory =>
    rw [hwritten]
    exact hreached.memory
  case cell =>
    intro address value hcell
    rw [hwritten] at hcell
    rw [hexecuted, Option.some_inj, Option.some_inj, Option.some_inj]
    exact Opcode.written?_eq_some hcell
  case shown =>
    rw [hwritten]
    exact hreached.shown
  case pointer => exact (sameFixtures_of_step hr).pointer
  case sp =>
    intro hchanged
    exact ⟨o, Opcode.sp_mem_targets_iff.mp (htarget nofun hchanged), hexecuted⟩
  case ret =>
    intro hchanged
    rw [← Opcode.ret_mem_targets_iff.mp (htarget (s := .ret) nofun hchanged)]
    exact hexecuted
  case ra =>
    intro hchanged
    exact ⟨o, Opcode.ra_mem_targets_iff.mp (htarget nofun hchanged), hexecuted⟩
  case flag =>
    intro s hflag hchanged
    have hpc : s ≠ .pc := by
      rintro rfl
      cases hflag
    exact ⟨o, (Opcode.flag_mem_targets_iff hflag).mp (htarget hpc hchanged), hexecuted⟩
  case latch =>
    rw [hput]
    exact hreached.latch
  case told =>
    rw [hput]
    exact hreached.told
  case port =>
    intro value hvalue
    rw [hput] at hvalue
    obtain ⟨rfl, hport, heq⟩ := Opcode.putOut?_eq_some hvalue
    exact ⟨hexecuted, hport, heq.trans (Word.signedByte_eq _)⟩
  case generator =>
    intro hchanged
    by_contra hother
    exact hchanged (hgenerator fun hrandom => hother (hrandom ▸ hexecuted))
  case question =>
    intro hquestion
    rw [hasks] at hquestion
    rw [hexecuted, Option.some_inj]
    exact Opcode.eq_input_of_asks hquestion
  case asked =>
    rw [hasks]
    exact hreached.asked
  case nextSequence =>
    rw [hasks]
    rcases hcases with ⟨-, hscheduler⟩ | ⟨fault, -, hquiet, hscheduler⟩
    · rw [hscheduler, Opcode.nextSequence_schedule]
    · rw [hscheduler, hquiet]
      rfl
  case outstanding =>
    rw [hasks, hquestion]
    rcases hcases with ⟨-, hscheduler⟩ | ⟨fault, -, hquiet, hscheduler⟩
    · rw [hscheduler, Opcode.outstanding_schedule hquestion]
    · rw [hscheduler, hquiet]
      rfl
  case state =>
    intro hchanged
    rw [hasks, hexecuted, Option.some_inj, Option.some_inj]
    rcases hcases with ⟨-, hscheduler⟩ | ⟨fault, hfault, -, hscheduler⟩
    · rw [hscheduler] at hchanged ⊢
      exact (Opcode.state_schedule hchanged).imp_right fun h => ⟨h.1, .inl h.2⟩
    · rw [hscheduler]
      exact .inr ⟨rfl, .inr ⟨fault, hfault⟩⟩
  case clock =>
    rcases hcases with ⟨-, hscheduler⟩ | ⟨fault, -, -, hscheduler⟩
    · rw [hscheduler, (o.clock_schedule m).1]
    · rw [hscheduler]
      rfl
  case generation =>
    rcases hcases with ⟨-, hscheduler⟩ | ⟨fault, -, -, hscheduler⟩
    · rw [hscheduler, (o.clock_schedule m).2]
    · rw [hscheduler]
      rfl

/-- With no question outstanding, a step changes only what its operation may change. -/
theorem changesOnly_of_step (hquestion : m.scheduler.outstanding = none)
    (hr : m.step = some r) : m.ChangesOnly r := by
  rcases m.deed_cases with hrest | ⟨o, hdeed⟩
  · exact changesOnly_of_rest (fun _ => hquestion) hrest hr
  · exact changesOnly_of_execute hquestion hdeed hr

/-- An operation that asks puts nothing out. -/
theorem putOut?_of_asks (h : m.asks = true) : m.putOut? = none := by
  obtain ⟨o, ho, hasks⟩ := Option.any_eq_true _ _ |>.mp h
  obtain ⟨rfl, -⟩ := Opcode.eq_input_of_asks hasks
  rw [putOut?, ho]
  rfl

/-- An operation that asks goes through. -/
theorem answer_of_asking (h : m.asks = true) (hr : m.step = some r) : r.answer = .ok () := by
  rcases m.deed_cases with hrest | ⟨o, hdeed⟩
  · rw [asks, executed?, hrest] at h
    cases h
  · rw [asks, executed?, hdeed] at h
    exact answer_of_asks hdeed hr h

end Machine

namespace Computer

variable {c : Computer} {r : Reply Computer (Except Fault Unit)}

/-- A step changes only what its operation may change, whether or not it fails. At most one cell
is written: by a push, a drop that finds something on the stack, or a move to memory. The report
about the program and the settings are not touched. -/
theorem step_changes_only_its_parts (hc : c.Reachable) (hr : c.step = some r) :
    c.machine.ChangesOnly ⟨r.answer, r.next.machine, r.notices⟩ ∧
      r.next.artifacts = c.artifacts ∧ r.next.settings = c.settings := by
  obtain ⟨r', hr', rfl⟩ := Option.map_eq_some_iff.mp hr
  have hquestion (hrunning : c.machine.scheduler.state = .running) :
      c.machine.scheduler.outstanding = none := by
    have hawake : c.machine.scheduler.state ≠ .sleeping := by
      rw [hrunning]
      exact nofun
    exact (hc.consistent.none_of_awake hawake).2
  refine ⟨?_, rfl, rfl⟩
  rcases c.machine.deed_cases with hrest | ⟨o, hdeed⟩
  · exact Machine.changesOnly_of_rest hquestion hrest hr'
  · have hrunning := (Machine.load_of_deed hdeed).1
    exact Machine.changesOnly_of_execute (hquestion hrunning) hdeed hr'

/-- A program that pushes 255 onto its stack, which has begun. -/
def pushing : List Command := [.assemble "DEC\nPUSH\nOUT 01", .run, .step]

/-- The push writes the highest cell, and memory is shown once. The output behind it puts out
minus one. -/
theorem pushing_changes_only : ∃ c r s t, ofSettings { memorySize := 5 } 0 = .ok c ∧
    c.performAll pushing = some r ∧ r.next.step = some s ∧ s.next.step = some t ∧
    s.next.machine.memory = r.next.machine.memory.setCell 4 255 ∧
    s.notices.filterMap Notice.memory? = [s.next.machine.memory] ∧
    t.next.machine.latch = -1 ∧ t.notices.filterMap Notice.output? = [-1] ∧
    t.notices.filterMap Notice.memory? = [] := by
  obtain ⟨c, r, s, t, hc, hr, hs, ht, hwritten, hquiet, hput⟩ : ∃ c r s t,
      ofSettings { memorySize := 5 } 0 = .ok c ∧ c.performAll pushing = some r ∧
      r.next.step = some s ∧ s.next.step = some t ∧
      r.next.machine.written? = some (4, 255) ∧ s.next.machine.written? = none ∧
      s.next.machine.putOut? = some (-1) :=
    ⟨_, _, _, _, rfl, rfl, rfl, rfl, rfl, rfl, rfl⟩
  have hreachable := Reachable.performAll (.built hc) hr
  have hstepped : r.next.perform .step = some (s.mapAnswer .stepped) := by
    rw [perform, hs, Option.map_some]
  have hlater : s.next.Reachable := hreachable.performed hstepped
  have hpush := (step_changes_only_its_parts hreachable hs).1
  have hout := (step_changes_only_its_parts hlater ht).1
  refine ⟨c, r, s, t, hc, hr, hs, ht, ?_, ?_, ?_, ?_, ?_⟩
  · rw [hpush.memory, hwritten]
    rfl
  · rw [hpush.shown, hwritten]
    rfl
  · rw [hout.latch, hput]
    rfl
  · rw [hout.told, hput]
    rfl
  · rw [hout.shown, hquiet]
    rfl

end Computer

end ByteMachine
