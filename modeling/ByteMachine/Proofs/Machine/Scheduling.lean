import ByteMachine.Proofs.Machine.Operand

/-!
# What instructions do to the run state

Most instructions leave the scheduler alone. One suspends the program for a while, one
suspends it and asks for a byte, and one ends the run, as a fault does. So a step makes
one of four moves, and hands out a ticket exactly where it asks.
-/

namespace ByteMachine

/-- The ticket that a notice hands out. -/
def Notice.ticket? : Notice → Option Ticket
  | .inputRequested ticket => some ticket
  | _ => none

/-- The tickets that notices hand out, in order. -/
def tickets (notices : List Notice) : List Ticket := notices.filterMap Notice.ticket?

theorem tickets_append (ns ms : List Notice) : tickets (ns ++ ms) = tickets ns ++ tickets ms :=
  List.filterMap_append

/-- Writes of registers hand out no ticket. -/
theorem tickets_map_register (ws : List (Register × UInt8)) :
    tickets (ws.map fun w => .register w.1 w.2) = [] := by
  induction ws with
  | nil => rfl
  | cons w ws ih => exact ih

/-- The moves that a scheduler makes within an instruction, and the tickets handed out. -/
inductive Scheduler.Moves (s : Scheduler) : Scheduler → List Ticket → Prop where
  /-- Nothing changes. -/
  | stay : Moves s s []
  /-- The program is suspended for a while. -/
  | suspend {timeout : Option Nat} {s' : Scheduler} (h : s.sleep timeout = some s') : Moves s s' []
  /-- The program is suspended until it gets an answer. -/
  | ask {s' : Scheduler} (h : s.sleep none = some s') : Moves s s'.awaitInput [s'.nextTicket]

/-- A running program that is suspended sleeps. -/
theorem Scheduler.sleep_of_running {s s' : Scheduler} (hrunning : s.state = .running)
    {timeout : Option Nat} (h : s.sleep timeout = some s') : s'.state = .sleeping := by
  unfold sleep at h
  rw [hrunning] at h
  cases timeout with
  | none =>
    cases h
    rfl
  | some t =>
    obtain ⟨moment, -, rfl⟩ := Option.map_eq_some_iff.mp h
    rfl

/-- A move of a running program never stops it. -/
theorem Scheduler.Moves.state_ne_stopped {s s' : Scheduler} {ts : List Ticket}
    (h : s.Moves s' ts) (hrunning : s.state = .running) : s'.state ≠ .stopped := by
  have hsleep {timeout : Option Nat} {s' : Scheduler} (hs : s.sleep timeout = some s') :
      s'.state ≠ .stopped := by
    rw [sleep_of_running hrunning hs]
    exact nofun
  cases h with
  | stay =>
    rw [hrunning]
    exact nofun
  | suspend h => exact hsleep h
  | ask h =>
    have hasleep := hsleep h
    exact hasleep

namespace Action

variable {α β : Type}

/-- An action that leaves the scheduler alone and hands out no ticket. -/
def Quiet (x : Action α) : Prop :=
  Meets (fun m m' ns => m'.scheduler = m.scheduler ∧ tickets ns = []) x

/-- An action that makes one move. -/
def Schedules (x : Action α) : Prop :=
  Meets (fun m m' ns => m.scheduler.Moves m'.scheduler (tickets ns)) x

namespace Quiet

theorem pure (a : α) : Quiet (pure a : Action α) := fun _ => ⟨rfl, rfl⟩

theorem bind {x : Action α} {f : α → Action β} (hx : Quiet x) (hf : ∀ a, Quiet (f a)) :
    Quiet (x >>= f) := by
  refine Meets.bind hx hf (fun m m' ns hquiet => hquiet) ?_
  rintro m m' m'' ns ns' ⟨hscheduler, hnotices⟩ ⟨hscheduler', hnotices'⟩
  rw [tickets_append, hnotices, hnotices']
  exact ⟨hscheduler'.trans hscheduler, rfl⟩

theorem machine : Quiet Action.machine := fun _ => ⟨rfl, rfl⟩

theorem register (r : Register) : Quiet (Action.register r) := fun _ => ⟨rfl, rfl⟩

theorem fail (f : Fault) : Quiet (Action.fail f : Action α) := fun _ => ⟨rfl, rfl⟩

theorem writeAll (ws : List (Register × UInt8)) : Quiet (Action.writeAll ws) :=
  fun _ => ⟨rfl, tickets_map_register ws⟩

theorem write (r : Register) (value : UInt8) : Quiet (Action.write r value) :=
  writeAll [(r, value)]

theorem increment (r : Register) (amount : UInt8) : Quiet (Action.increment r amount) :=
  fun m => writeAll (m.registers.additionWrites r amount) m

theorem decrement (r : Register) (amount : UInt8) : Quiet (Action.decrement r amount) :=
  increment r (0 - amount)

theorem compareWith (value : UInt8) : Quiet (Action.compareWith value) :=
  fun m => writeAll _ m

theorem load (address : UInt8) : Quiet (Action.load address) := by
  intro m
  unfold Action.load
  split <;> exact ⟨rfl, rfl⟩

theorem store (address value : UInt8) : Quiet (Action.store address value) := by
  intro m
  unfold Action.store
  split <;> exact ⟨rfl, rfl⟩

theorem operand : Quiet Action.operand :=
  .bind (increment .pc 1) fun _ => .bind (register .pc) fun a => load a

theorem putOut (value : UInt8) : Quiet (Action.putOut value) := fun _ => ⟨rfl, rfl⟩

theorem randomByte : Quiet Action.randomByte := fun _ => ⟨rfl, rfl⟩

/-- What leaves the scheduler alone makes no move. -/
theorem schedules {x : Action α} (h : Quiet x) : Schedules x := by
  intro m
  obtain ⟨hscheduler, hnotices⟩ := h m
  rw [hscheduler, hnotices]
  exact .stay

end Quiet

namespace Schedules

/-- What leaves the scheduler alone may come before a move. -/
theorem quiet_bind {x : Action α} {f : α → Action β} (hx : Quiet x)
    (hf : ∀ a, Schedules (f a)) : Schedules (x >>= f) := by
  refine Meets.bind hx hf ?_ ?_
  · rintro m m' ns ⟨hscheduler, hnotices⟩
    rw [hscheduler, hnotices]
    exact .stay
  · rintro m m' m'' ns ns' ⟨hscheduler, hnotices⟩ hmoves
    rw [hscheduler] at hmoves
    rw [tickets_append, hnotices]
    exact hmoves

/-- What leaves the scheduler alone may come behind a move. -/
theorem bind_quiet {x : Action α} {f : α → Action β} (hx : Schedules x)
    (hf : ∀ a, Quiet (f a)) : Schedules (x >>= f) := by
  refine Meets.bind hx hf (fun m m' ns hmoves => hmoves) ?_
  rintro m m' m'' ns ns' hmoves ⟨hscheduler, hnotices⟩
  rw [tickets_append, hnotices, hscheduler, List.append_nil]
  exact hmoves

/-- Suspending the program is one move. -/
theorem sleep (timeout : Option Nat) : Schedules (Action.sleep timeout) := by
  intro m
  unfold Action.sleep
  cases h : m.scheduler.sleep timeout with
  | none => exact .stay
  | some s => exact .suspend h

/-- Suspending the program and asking is one move. -/
theorem sleep_requestInput : Schedules (do Action.sleep none; Action.requestInput) := by
  intro m
  rw [bind_apply]
  unfold Action.sleep
  cases h : m.scheduler.sleep none with
  | none => exact .stay
  | some s => exact .ask h

end Schedules

end Action

namespace Opcode

open ByteMachine.Action (Quiet Schedules)

theorem quiet_jumpIf (taken : Bool) : Quiet (jumpIf Action.operand taken) := by
  refine .bind .operand fun target => ?_
  cases taken with
  | true => exact .write .pc (target - 1)
  | false => exact .pure ()

/-- All operations but those that suspend the program leave the scheduler alone. -/
theorem quiet_run {o : Opcode} (hinput : o ≠ .input) (hsleep : o ≠ .sleep) : Quiet o.run := by
  cases o with
  | inc => exact .increment .ra 1
  | dec => exact .decrement .ra 1
  | addi => exact .bind .operand fun v => .increment .ra v
  | subi => exact .bind .operand fun v => .decrement .ra v
  | comparei => exact .bind .operand fun v => .compareWith v
  | movei => exact .bind .operand fun v => .write .ra v
  | add => exact .bind .operand fun v => .bind (.load v) fun w => .increment .ra w
  | sub => exact .bind .operand fun v => .bind (.load v) fun w => .decrement .ra w
  | compare => exact .bind .operand fun v => .bind (.load v) fun w => .compareWith w
  | load => exact .bind .operand fun v => .bind (.load v) fun w => .write .ra w
  | store => exact .bind .operand fun v => .bind (.register .ra) fun w => .store v w
  | jump => exact quiet_jumpIf true
  | jumpLess => exact .bind .machine fun m => quiet_jumpIf (m.registers.flag .n)
  | jumpGreater =>
    exact .bind .machine fun m => quiet_jumpIf (!m.registers.flag .n && !m.registers.flag .z)
  | jumpEqual => exact .bind .machine fun m => quiet_jumpIf (m.registers.z == 1)
  | call =>
    exact .bind (.register .pc) fun pc => .bind (.write .ret (pc + 1)) fun _ => quiet_jumpIf true
  | ret => exact .bind (.register .ret) fun a => .write .pc a
  | push =>
    exact .bind (.register .sp) fun s => .bind (.register .ra) fun a =>
      .bind (.store s a) fun _ => .decrement .sp 1
  | pop =>
    refine .bind .machine fun m => ?_
    split
    · exact .bind (.increment .sp 1) fun _ => .bind (.register .sp) fun s => .store s 0
    · exact .pure ()
  | input => exact absurd rfl hinput
  | output =>
    refine .bind .operand fun port => ?_
    split
    · exact .bind (.register .ra) fun a => .putOut a
    · exact .pure ()
  | sleep => exact absurd rfl hsleep
  | random => exact .bind .randomByte fun v => .write .ra v
  | stop => exact .pure ()

/-- Every operation makes one move at most. -/
theorem schedules_run (o : Opcode) : Schedules o.run := by
  by_cases hinput : o = .input
  · subst hinput
    refine Schedules.quiet_bind .operand fun port => ?_
    split
    · exact .sleep_requestInput
    · exact (Quiet.pure ()).schedules
  · by_cases hsleep : o = .sleep
    · subst hsleep
      exact Schedules.quiet_bind .operand fun units =>
        Schedules.quiet_bind .machine fun m => .sleep _
    · exact (quiet_run hinput hsleep).schedules

end Opcode

namespace Machine

open ByteMachine.Action (Meets Quiet Schedules)

variable {m : Machine}

theorem quiet_fetch : Quiet fetch := by
  refine .bind (.register .pc) fun address => .bind (.load address) fun byte => ?_
  split
  · exact .pure _
  · exact .fail _

/-- The scheduler after a move, with the run perhaps ended behind it. -/
def Settles (m : Machine) (scheduler : Scheduler) (ts : List Ticket) : Prop :=
  ∃ s, m.scheduler.Moves s ts ∧ (scheduler = s ∨ scheduler = s.stop)

/-- An operation makes one move at most, and the end of a program ends the run. -/
theorem settles_complete (o : Opcode) (m : Machine) :
    m.Settles (complete o o.run m).machine.scheduler (tickets (complete o o.run m).notices) := by
  by_cases hstop : o = .stop
  · subst hstop
    exact ⟨m.scheduler, .stay, .inr rfl⟩
  · have hcontrol : o.control = .proceed := by
      cases o <;> first | rfl | exact absurd rfl hstop
    have hbody : Schedules (complete o o.run) := by
      unfold complete
      rw [hcontrol]
      exact o.schedules_run.bind_quiet fun _ => .increment .pc 1
    exact ⟨_, hbody m, .inl rfl⟩

/-- A cycle makes one move at most, and perhaps ends the run. -/
theorem settles_cycle (m : Machine) :
    m.Settles (cycle m).machine.scheduler (tickets (cycle m).notices) := by
  have hcomplete (o : Opcode) :
      Meets (fun m m' ns => m.Settles m'.scheduler (tickets ns)) (complete o o.run) :=
    settles_complete o
  have hcycle : Meets (fun m m' ns => m.Settles m'.scheduler (tickets ns)) cycle := by
    refine Meets.bind quiet_fetch hcomplete ?_ ?_
    · rintro m m' ns ⟨hscheduler, hnotices⟩
      rw [hscheduler, hnotices]
      exact ⟨m.scheduler, .stay, .inl rfl⟩
    · rintro m m' m'' ns ns' ⟨hscheduler, hnotices⟩ hsettles
      unfold Settles at hsettles
      rw [hscheduler] at hsettles
      rw [tickets_append, hnotices]
      exact hsettles
  exact hcycle m

/-- Unless the program runs, a step does nothing. -/
theorem step_of_not_running (h : m.scheduler.state ≠ .running) :
    m.step = some ⟨.ok (), m, []⟩ := by
  rw [step, if_neg h]

/-- A step makes one move at most, and perhaps ends the run. -/
theorem settles_of_step {r : Reply Machine (Except Fault Unit)} (h : m.step = some r) :
    m.Settles r.next.scheduler (tickets r.notices) := by
  have hcycle := settles_cycle m
  unfold step at h
  split at h
  · unfold conclude at h
    split at h
    · cases h
      exact hcycle
    · cases h
      obtain ⟨s, hmoves, hs | hs⟩ := hcycle
      · exact ⟨s, hmoves, .inr (congrArg Scheduler.stop hs)⟩
      · have hstop : s.stop.stop = s.stop := rfl
        exact ⟨s, hmoves, .inr ((congrArg Scheduler.stop hs).trans hstop)⟩
    · cases h
  · cases h
    exact ⟨m.scheduler, .stay, .inl rfl⟩

end Machine

end ByteMachine
