import ByteMachine.Proofs.Machine.Reach
import ByteMachine.Proofs.Report

/-!
# What a command does to the machine

A command that has an operation executed makes one step of the machine and reports it, a step
at once, and an update after its time has passed. A command that executes nothing may bring a
byte into the accumulator, and leaves all other registers alone. Neither makes memory larger or
smaller. What is to be remembered of a history beside its computer can be put together from
what its commands have done.
-/

namespace ByteMachine

/-- What a command answers, if it has had this outcome of an operation to report. -/
def Command.report (command : Command) (outcome : Except Fault Unit) : Answer :=
  match command with
  | .update _ => .updated (outcome.map fun _ => true)
  | _ => .stepped outcome

namespace Machine

variable {m m' : Machine} {o : Opcode} {address : UInt8} {ns : List Notice}

/-- An operation that goes through is a step, in which the program counter moves on. -/
theorem step_of_run (hdeed : m.deed = .execute address o) (hcontrol : o.control = .proceed)
    (hrun : o.run m = ⟨.ok (), m', ns⟩) :
    m.step = some ⟨.ok (), m'.advanced, ns ++ [.register .pc (m'.registers.pc + 1)]⟩ := by
  obtain ⟨hrunning, hcode⟩ := load_of_deed hdeed
  rw [step, if_pos hrunning, cycle_eq_complete hcode, complete, Action.bind_ok hrun, hcontrol]
  dsimp only
  rw [Action.increment_pc_apply, conclude]

/-- An operation that fails is a step that ends the run. -/
theorem step_of_run_error (hdeed : m.deed = .execute address o) {fault : Fault}
    (hrun : o.run m = ⟨.error (.fault fault), m', ns⟩) :
    m.step = some ⟨.error fault, { m' with scheduler := m'.scheduler.stop }, ns⟩ := by
  obtain ⟨hrunning, hcode⟩ := load_of_deed hdeed
  rw [step, if_pos hrunning, cycle_eq_complete hcode, complete, Action.bind_error hrun, conclude]

end Machine

namespace Computer

variable {c : Computer} {command : Command} {r : Reply Computer Answer}

/-- A command that has an operation executed is a step of the machine, at another moment at
most. -/
theorem perform_of_execute {address : UInt8} {o : Opcode}
    (hdeed : c.deed command = .execute address o) :
    ∃ s, s.sleepUnit = c.machine.scheduler.sleepUnit ∧
      (c.withScheduler s).machine.deed = .execute address o ∧
      c.perform command = (c.withScheduler s).machine.step.map fun r =>
        ⟨command.report r.answer, { c with machine := r.next }, r.notices⟩ := by
  cases command with
  | step =>
    refine ⟨c.machine.scheduler, rfl, hdeed, ?_⟩
    rw [perform, step, Option.map_map]
    rfl
  | update elapsed =>
    cases hs : c.machine.scheduler.advance elapsed with
    | none =>
      rw [deed, hs] at hdeed
      cases hdeed
    | some s =>
      rw [deed_update hs] at hdeed
      have hrunning : s.state = .running := (Machine.load_of_deed hdeed).1
      refine ⟨s, (Scheduler.sameNumbers_of_advance hs).sleepUnit, hdeed, ?_⟩
      rw [perform, update, hs, Option.bind_some, if_pos hrunning, step, Option.map_map,
        Option.map_map]
      rfl
  | assemble | run | stop | sleep | wakeUp | deliver => cases hdeed

/-- Only a command to run begins a run. -/
theorem eq_run_of_start (hdeed : c.deed command = .start) : command = .run := by
  have hother (m : Machine) : m.deed ≠ .start := by
    rcases m.deed_cases with hrest | ⟨o, hdeed⟩
    · rw [hrest]
      exact nofun
    · rw [hdeed]
      exact nofun
  cases command with
  | run => rfl
  | step => exact absurd hdeed (hother _)
  | update elapsed =>
    cases hs : c.machine.scheduler.advance elapsed with
    | none =>
      rw [deed, hs] at hdeed
      cases hdeed
    | some s =>
      rw [deed_update hs] at hdeed
      exact absurd hdeed (hother _)
  | assemble | stop | sleep | wakeUp | deliver => cases hdeed

/-- A delivery brings a byte into the accumulator at most. -/
theorem get_deliver (c : Computer) (ticket : Ticket) (text : String) {s : Register}
    (hra : s ≠ .ra) :
    (c.deliver ticket text).next.machine.registers.get s = c.machine.registers.get s := by
  unfold deliver
  split
  · rfl
  · split
    · rfl
    · exact RegisterFile.get_set_of_ne _ hra _

/-- A command that executes nothing leaves all registers but the accumulator alone. -/
theorem get_of_rest (hrest : c.deed command = .rest) (hr : c.perform command = some r)
    {s : Register} (hra : s ≠ .ra) :
    r.next.machine.registers.get s = c.machine.registers.get s := by
  have hstep {m : Machine} (hm : m.deed = .rest) {r : Reply Machine (Except Fault Unit)}
      (hr : m.step = some r) : r.next.registers = m.registers := by
    obtain ⟨-, rfl | ⟨-, fault, -, hnext⟩⟩ := Machine.step_of_rest hm hr
    · rfl
    · rw [hnext]
  cases performs_of_perform hr with
  | assembled source =>
    unfold assemble Reply.mapAnswer
    split <;> rfl
  | started => cases hrest
  | stepped hr' => exact congrArg (·.get s) (hstep hrest hr')
  | updated hs hrunning hr' =>
    rw [deed_update hs] at hrest
    exact congrArg (·.get s) (hstep hrest hr')
  | delivered ticket text => exact c.get_deliver ticket text hra
  | stopped | suspended | woken | passed => rfl

/-- No command makes memory larger or smaller. -/
theorem size_of_perform (hr : c.perform command = some r) :
    r.next.machine.memory.size = c.machine.memory.size := by
  by_cases hassemble : ∃ source, command = .assemble source
  · obtain ⟨source, rfl⟩ := hassemble
    cases hr
    have hsize := c.machine.memory.size_assemble source
    unfold assemble Reply.mapAnswer
    split
    · rename_i heq
      rw [heq] at hsize
      exact hsize
    · rename_i heq
      rw [heq] at hsize
      exact (Memory.size_clear _).trans hsize
  · exact (sameLoad_of_perform (fun source heq => hassemble ⟨source, heq⟩) hr).fixtures.size

/-- What an operation comes to whenever it is executed, it comes to by command. -/
theorem perform_of_step (next : Machine → Machine) {address : UInt8} {o : Opcode}
    (hdeed : c.deed command = .execute address o)
    (hstep : ∀ s, (c.withScheduler s).machine.deed = .execute address o →
      ∃ ns, (c.withScheduler s).machine.step =
        some ⟨.ok (), next (c.withScheduler s).machine, ns⟩) :
    ∃ s r, c.perform command = some r ∧ r.answer = command.report (.ok ()) ∧
      r.next.machine = next (c.withScheduler s).machine := by
  obtain ⟨s, -, hexecuted, hperform⟩ := perform_of_execute hdeed
  obtain ⟨ns, hr⟩ := hstep s hexecuted
  rw [hperform, hr]
  exact ⟨s, _, rfl, rfl, rfl⟩

variable {σ : Type} {note : Machine → σ → Deed → σ}

/-- What is remembered of a history, if one thing is noted about each of its commands: what it
has done, with the machine that has done it. -/
def noted (c : Computer) (note : Machine → σ → Deed → σ) (before : σ) : List Command → σ
  | [] => before
  | command :: commands =>
    let now := note c.machine before (c.deed command)
    match c.perform command with
    | some r => r.next.noted note now commands
    | none => now

theorem noted_cons {before : σ} {commands : List Command} (hr : c.perform command = some r) :
    c.noted note before (command :: commands) =
      r.next.noted note (note c.machine before (c.deed command)) commands := by
  rw [noted, hr]

end Computer

end ByteMachine
