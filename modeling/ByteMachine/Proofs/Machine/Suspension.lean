import ByteMachine.Proofs.Machine.Faults
import ByteMachine.Proofs.Machine.Reach

/-!
# What an instruction does to the run state

An operation that goes through leaves the run state alone, unless it suspends the program, asks
for a byte at the right port, or ends the program; one that fails ends the run. The run state
afterwards is put down here as a function of the machine before the operation.
-/

namespace ByteMachine

/-- The run state of a program that has just asked for a byte. -/
def Scheduler.asking (s : Scheduler) : Scheduler :=
  awaitInput { s with state := .sleeping, wakeAt := none }

/-- The run state after an operation that goes through. A sleep lasts as many units as its
operand says, counted from now. -/
def Opcode.schedule (o : Opcode) (m : Machine) : Scheduler :=
  match o with
  | stop => m.scheduler.stop
  | sleep =>
    { m.scheduler with
      state := .sleeping
      wakeAt := m.operand?.map fun units =>
        m.scheduler.clock + m.scheduler.sleepUnit * units.toNat }
  | input => if input.asks m then m.scheduler.asking else m.scheduler
  | _ => m.scheduler

namespace Opcode

variable {o : Opcode} {m : Machine}

theorem schedule_sleep (m : Machine) :
    sleep.schedule m = { m.scheduler with
      state := .sleeping
      wakeAt := m.operand?.map fun units =>
        m.scheduler.clock + m.scheduler.sleepUnit * units.toNat } := rfl

theorem schedule_input (m : Machine) :
    input.schedule m = if input.asks m then m.scheduler.asking else m.scheduler := rfl

/-- No operation takes time or counts runs. -/
theorem clock_schedule (o : Opcode) (m : Machine) :
    (o.schedule m).clock = m.scheduler.clock ∧
      (o.schedule m).generation = m.scheduler.generation := by
  cases o with
  | input =>
    rw [schedule_input]
    split <;> exact ⟨rfl, rfl⟩
  | _ => exact ⟨rfl, rfl⟩

/-- Only a question is counted. -/
theorem nextSequence_schedule (o : Opcode) (m : Machine) :
    (o.schedule m).nextSequence = m.scheduler.nextSequence + if o.asks m then 1 else 0 := by
  cases o with
  | input =>
    rw [schedule_input]
    split <;> rfl
  | _ => rfl

/-- Only a question is outstanding afterwards, where there was none before. -/
theorem outstanding_schedule (h : m.scheduler.outstanding = none) :
    (o.schedule m).outstanding = if o.asks m then some m.scheduler.nextTicket else none := by
  cases o with
  | input =>
    rw [schedule_input]
    split
    · rfl
    · exact h
  | stop => rfl
  | _ => exact h

/-- An operation suspends the program to ask or to sleep, and the end of the program stops
it. -/
theorem state_schedule (h : (o.schedule m).state ≠ m.scheduler.state) :
    ((o.schedule m).state = .sleeping ∧ (o.asks m = true ∨ o = .sleep)) ∨
      ((o.schedule m).state = .stopped ∧ o = .stop) := by
  cases o with
  | stop => exact .inr ⟨rfl, rfl⟩
  | sleep => exact .inl ⟨rfl, .inr rfl⟩
  | input =>
    rw [schedule_input] at h ⊢
    split
    · rename_i hasks
      exact .inl ⟨rfl, .inl hasks⟩
    · rename_i hasks
      rw [if_neg hasks] at h
      exact absurd rfl h
  | _ => exact absurd rfl h

end Opcode

namespace Machine

variable {m : Machine} {o : Opcode} {address : UInt8}
  {r : Reply Machine (Except Fault Unit)}

/-- An operation that goes through is one that has gone through before the program counter
moves on. -/
theorem outcome_of_complete {body : Action Unit} (h : (complete o body m).outcome = .ok ()) :
    (body m).outcome = .ok () := by
  cases hbody : body m with
  | mk outcome m' ns =>
    cases outcome with
    | ok u => rfl
    | error i =>
      rw [complete, Action.bind_error hbody] at h
      cases h

/-- A step without a fault is its operation, which has gone through. -/
theorem complete_of_step (hdeed : m.deed = .execute address o) (hr : m.step = some r)
    (hok : r.answer = .ok ()) :
    (complete o o.run m).outcome = .ok () ∧ r.next = (complete o o.run m).machine := by
  obtain ⟨hrunning, hcode⟩ := load_of_deed hdeed
  rw [step, if_pos hrunning, cycle_eq_complete hcode] at hr
  exact conclude_eq_some_ok hr hok

/-- A step that fails ends the run and does no more to the run state. -/
theorem scheduler_of_step_error (hrunning : m.scheduler.state = .running) (hr : m.step = some r)
    {fault : Fault} (hfault : r.answer = .error fault) :
    r.next.scheduler = m.scheduler.stop := by
  have hfound := (step_error_iff hrunning).mp ⟨r, hr, hfault⟩
  obtain ⟨ns, hstep⟩ := step_of_fault? hrunning hfound
  cases hstep.symm.trans hr
  rfl

/-- A suspension by an operation that has gone through. -/
theorem scheduler_run_sleep (hrunning : m.scheduler.state = .running)
    (h : (Opcode.sleep.run m).outcome = .ok ()) :
    (Opcode.sleep.run m).machine.scheduler = Opcode.sleep.schedule m := by
  cases hload : m.memory.load (m.registers.pc + 1) with
  | error e =>
    rw [Opcode.run, Opcode.runWith, Action.bind_error (Action.operand_eq_error hload)] at h
    cases h
  | ok units =>
    have hmachine : Action.machine m.advanced = ⟨.ok m.advanced, m.advanced, []⟩ := rfl
    rw [Opcode.run, Opcode.runWith, Action.bind_ok (Action.operand_of_ok hload),
      Action.bind_ok hmachine] at h ⊢
    have hscheduler : m.advanced.scheduler = m.scheduler := rfl
    rw [hscheduler] at h ⊢
    unfold Action.sleep at h ⊢
    rw [hscheduler] at h ⊢
    cases hs : m.scheduler.sleep (some (m.scheduler.sleepUnit * units.toNat)) with
    | none =>
      rw [hs] at h
      cases h
    | some s =>
      have hgoing : m.scheduler.state ≠ .stopped := by
        rw [hrunning]
        decide
      have hslept := Scheduler.eq_of_sleep hs
      rw [if_neg hgoing] at hslept
      dsimp only
      rw [hslept, Opcode.schedule_sleep, operand?_of_ok hload]
      rfl

/-- A question by an operation that has gone through. -/
theorem scheduler_run_input (hrunning : m.scheduler.state = .running)
    (h : (Opcode.input.run m).outcome = .ok ()) :
    (Opcode.input.run m).machine.scheduler = Opcode.input.schedule m := by
  cases hload : m.memory.load (m.registers.pc + 1) with
  | error e =>
    rw [Opcode.run, Opcode.runWith, Action.bind_error (Action.operand_eq_error hload)] at h
    cases h
  | ok port =>
    rw [Opcode.run, Opcode.runWith, Action.bind_ok (Action.operand_of_ok hload),
      Opcode.schedule_input, Opcode.asks_of_ok hload]
    by_cases hport : port = inputPort
    · have hgoing : m.advanced.scheduler.state ≠ .stopped := by
        have hscheduler : m.advanced.scheduler = m.scheduler := rfl
        rw [hscheduler, hrunning]
        decide
      have hsleep : Action.sleep none m.advanced =
          ⟨.ok (), { m.advanced with
            scheduler := { m.scheduler with state := .sleeping, wakeAt := none } }, []⟩ := by
        rw [Action.sleep, Scheduler.sleep_none_eq, if_neg hgoing]
        rfl
      rw [if_pos hport, decide_eq_true hport, if_pos rfl, Action.bind_ok hsleep]
      rfl
    · rw [if_neg hport, decide_eq_false hport, if_neg Bool.false_ne_true]
      rfl

/-- The run state after a step without a fault. -/
theorem scheduler_of_step (hdeed : m.deed = .execute address o) (hr : m.step = some r)
    (hok : r.answer = .ok ()) : r.next.scheduler = o.schedule m := by
  obtain ⟨hcomplete, hnext⟩ := complete_of_step hdeed hr hok
  have hrunning := (load_of_deed hdeed).1
  have hrun := outcome_of_complete hcomplete
  rw [hnext, machine_complete hcomplete]
  by_cases hstop : o = .stop
  · subst hstop
    rfl
  by_cases hsleep : o = .sleep
  · subst hsleep
    exact scheduler_run_sleep hrunning hrun
  by_cases hinput : o = .input
  · subst hinput
    exact scheduler_run_input hrunning hrun
  · have hcontrol : o.control = .proceed := by
      cases o <;> first | rfl | exact absurd rfl hstop
    have hschedule : o.schedule m = m.scheduler := by
      cases o <;> first | rfl | contradiction
    rw [hcontrol, hschedule]
    exact (o.uses_run.confines m).scheduler hinput hsleep hstop

/-- An operation with its operand does not fail, unless it needs a cell besides. -/
theorem answer_of_operand (hdeed : m.deed = .execute address o) (hr : m.step = some r)
    (hdirect : o.isIndirect = false) (hpush : o ≠ .push) {value : UInt8}
    (hoperand : m.operand? = some value) : r.answer = .ok () := by
  have hcurrent : m.current? = some o := current?_eq_some_iff.mpr (load_of_deed hdeed).2
  have hload := Memory.toOption_load_eq_some_iff.mp hoperand
  have hcell := (List.getElem?_eq_some_iff.mp (Memory.load_eq_ok_iff.mp hload)).1
  apply answer_of_fault?_eq_none _ hr
  rw [fault?_of_direct hcurrent hdirect hpush, Check.fault?, hcurrent, Option.bind_some]
  split
  · rfl
  · exact beyond?_eq_none_iff.mpr hcell

/-- An operation that asks for a byte does not fail. -/
theorem answer_of_asks (hdeed : m.deed = .execute address o) (hr : m.step = some r)
    (hasks : o.asks m = true) : r.answer = .ok () := by
  obtain ⟨rfl, hoperand⟩ := Opcode.eq_input_of_asks hasks
  exact answer_of_operand hdeed hr rfl nofun hoperand

/-- The run state after a step is that of its operation, or the run has ended with a fault, and
then nothing has been asked. -/
theorem scheduler_cases_of_step (hdeed : m.deed = .execute address o) (hr : m.step = some r) :
    (r.answer = .ok () ∧ r.next.scheduler = o.schedule m) ∨
      ∃ fault, r.answer = .error fault ∧ o.asks m = false ∧
        r.next.scheduler = m.scheduler.stop := by
  cases hanswer : r.answer with
  | ok u => exact .inl ⟨rfl, scheduler_of_step hdeed hr hanswer⟩
  | error fault =>
    have hasks : o.asks m = false := by
      rw [Bool.eq_false_iff]
      intro hasks
      cases hanswer.symm.trans (answer_of_asks hdeed hr hasks)
    have hstopped := scheduler_of_step_error (load_of_deed hdeed).1 hr hanswer
    exact .inr ⟨fault, rfl, hasks, hstopped⟩

end Machine

end ByteMachine
