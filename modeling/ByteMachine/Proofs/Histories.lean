import ByteMachine.Computer.Command

/-!
# Histories of commands

Each command has the computer do one thing at most: begin a run, or execute an operation.
What an update comes to is one of two things: either only time has passed, or the program
runs and one instruction has been executed. A computer is reachable if it has been built
from settings and has then carried out commands, each of which had a reply; so what holds
of every new computer and is kept by every command holds of all of them.
-/

namespace ByteMachine

/-- What a command has the computer do. -/
inductive Deed where
  /-- No run begins, and no operation is executed. -/
  | rest
  /-- A run begins. -/
  | start
  /-- An operation is executed, whose code stands at this address. -/
  | execute (address : UInt8) (o : Opcode)
  deriving DecidableEq, Repr

/-- The operation that is executed, if there is one. -/
def Deed.opcode? : Deed → Option Opcode
  | .execute _ o => some o
  | _ => none

/-- The operation under the program counter, if there is one. -/
def Machine.current? (m : Machine) : Option Opcode :=
  (m.memory.load m.registers.pc).toOption.bind Opcode.ofByte?

/-- What a step does: it executes the operation under the program counter of a running
program. -/
def Machine.deed (m : Machine) : Deed :=
  match m.scheduler.state, m.current? with
  | .running, some o => .execute m.registers.pc o
  | _, _ => .rest

/-- The operation under the program counter is the one whose code stands there. -/
theorem Machine.current?_eq_some_iff {m : Machine} {o : Opcode} :
    m.current? = some o ↔ m.memory.load m.registers.pc = .ok o.code := by
  unfold current?
  cases hbyte : m.memory.load m.registers.pc with
  | error e => exact ⟨nofun, nofun⟩
  | ok byte =>
    constructor
    · exact fun h => congrArg _ (Opcode.code_of_ofByte? h).symm
    · intro h
      rw [Except.ok.inj h]
      exact Opcode.ofByte?_code o

/-- A running program executes the operation whose code is under its program counter. -/
theorem Machine.deed_of_load {m : Machine} {o : Opcode} (hrunning : m.scheduler.state = .running)
    (hcode : m.memory.load m.registers.pc = .ok o.code) :
    m.deed = .execute m.registers.pc o := by
  rw [deed, hrunning, current?_eq_some_iff.mpr hcode]

/-- What is executed stands under the program counter of a running program. -/
theorem Machine.load_of_deed {m : Machine} {address : UInt8} {o : Opcode}
    (h : m.deed = .execute address o) :
    m.scheduler.state = .running ∧ m.memory.load m.registers.pc = .ok o.code := by
  unfold deed at h
  split at h
  · rename_i o' hrunning hcurrent
    cases h
    exact ⟨hrunning, current?_eq_some_iff.mp hcurrent⟩
  · cases h

/-- What is executed stands where the program counter is. -/
theorem Machine.address_of_deed {m : Machine} {address : UInt8} {o : Opcode}
    (h : m.deed = .execute address o) : address = m.registers.pc := by
  have hdeed := deed_of_load (load_of_deed h).1 (load_of_deed h).2
  cases h.symm.trans hdeed
  rfl

/-- Unless a program runs, a step does nothing. -/
theorem Machine.deed_of_not_running {m : Machine} (h : m.scheduler.state ≠ .running) :
    m.deed = .rest := by
  unfold deed
  split
  · rename_i hrunning _
    exact absurd hrunning h
  · rfl

namespace Computer

/-- What a command has a computer do. -/
def deed (c : Computer) : Command → Deed
  | .run => .start
  | .step => c.machine.deed
  | .update elapsed =>
    match c.machine.scheduler.advance elapsed with
    | some s => (c.withScheduler s).machine.deed
    | none => .rest
  | _ => .rest

/-- What commands have a computer do, one after another. -/
def deeds (c : Computer) : List Command → List Deed
  | [] => []
  | command :: commands =>
    c.deed command ::
      match c.perform command with
      | some r => r.next.deeds commands
      | none => []

/-- An update lets time pass, and executes an instruction exactly if the program then
runs. -/
theorem update_cases {c : Computer} {elapsed : Nat} {r : Reply Computer (Except Fault Bool)}
    (hr : c.update elapsed = some r) :
    ∃ s, c.machine.scheduler.advance elapsed = some s ∧
      ((s.state ≠ .running ∧ r = ⟨.ok false, c.withScheduler s, []⟩) ∨
        (s.state = .running ∧ ∃ r', (c.withScheduler s).machine.step = some r' ∧
          r = ⟨r'.answer.map fun _ => true, { c with machine := r'.next }, r'.notices⟩)) := by
  obtain ⟨s, hs, hrest⟩ := Option.bind_eq_some_iff.mp hr
  refine ⟨s, hs, ?_⟩
  dsimp only at hrest
  split at hrest
  · rename_i hrunning
    obtain ⟨r', hr', rfl⟩ := Option.map_eq_some_iff.mp hrest
    obtain ⟨r'', hr'', rfl⟩ := Option.map_eq_some_iff.mp hr'
    exact .inr ⟨hrunning, r'', hr'', rfl⟩
  · rename_i hidle
    exact .inl ⟨hidle, (Option.some.inj hrest).symm⟩

/-- What a command comes to, where it has a reply. An update is only time that passes, or
time that passes before a step. -/
inductive Performs (c : Computer) : Command → Reply Computer Answer → Prop where
  /-- A source is assembled or refused. -/
  | assembled (source : String) :
    Performs c (.assemble source) ((c.assemble source).mapAnswer .assembled)
  /-- A run begins. -/
  | started : Performs c .run (c.run.mapAnswer fun _ => .done)
  /-- The run ends. -/
  | stopped : Performs c .stop ⟨.done, c.withScheduler c.machine.scheduler.stop, []⟩
  /-- The program is suspended. -/
  | suspended {timeout : Option Nat} {s : Scheduler}
      (hs : c.machine.scheduler.sleep timeout = some s) :
    Performs c (.sleep timeout) ⟨.done, c.withScheduler s, []⟩
  /-- A suspended program goes on. -/
  | woken : Performs c .wakeUp ⟨.done, c.withScheduler c.machine.scheduler.wakeUp, []⟩
  /-- The machine makes a step. -/
  | stepped {r : Reply Machine (Except Fault Unit)} (hr : c.machine.step = some r) :
    Performs c .step ⟨.stepped r.answer, { c with machine := r.next }, r.notices⟩
  /-- Time passes, and the program does not run then. -/
  | passed {elapsed : Nat} {s : Scheduler}
      (hs : c.machine.scheduler.advance elapsed = some s) (hidle : s.state ≠ .running) :
    Performs c (.update elapsed) ⟨.updated (.ok false), c.withScheduler s, []⟩
  /-- Time passes, and the machine makes a step then. -/
  | updated {elapsed : Nat} {s : Scheduler} {r : Reply Machine (Except Fault Unit)}
      (hs : c.machine.scheduler.advance elapsed = some s) (hrunning : s.state = .running)
      (hr : (c.withScheduler s).machine.step = some r) :
    Performs c (.update elapsed)
      ⟨.updated (r.answer.map fun _ => true), { c with machine := r.next }, r.notices⟩
  /-- An answer is taken or refused. -/
  | delivered (ticket : Ticket) (text : String) :
    Performs c (.deliver ticket text) ((c.deliver ticket text).mapAnswer .delivered)

/-- The replies to commands are of these kinds. -/
theorem performs_of_perform {c : Computer} {command : Command} {r : Reply Computer Answer}
    (hr : c.perform command = some r) : c.Performs command r := by
  cases command with
  | assemble source =>
    cases hr
    exact .assembled source
  | run =>
    cases hr
    exact .started
  | stop =>
    cases hr
    exact .stopped
  | sleep timeout =>
    obtain ⟨r', hr', rfl⟩ := Option.map_eq_some_iff.mp hr
    obtain ⟨s, hs, rfl⟩ := Option.map_eq_some_iff.mp hr'
    exact .suspended hs
  | wakeUp =>
    cases hr
    exact .woken
  | step =>
    obtain ⟨r', hr', rfl⟩ := Option.map_eq_some_iff.mp hr
    obtain ⟨r'', hr'', rfl⟩ := Option.map_eq_some_iff.mp hr'
    exact .stepped hr''
  | update elapsed =>
    obtain ⟨r', hr', rfl⟩ := Option.map_eq_some_iff.mp hr
    obtain ⟨s, hs, ⟨hidle, rfl⟩ | ⟨hrunning, r'', hr'', rfl⟩⟩ := update_cases hr'
    · exact .passed hs hidle
    · exact .updated hs hrunning hr''
  | deliver ticket text =>
    cases hr
    exact .delivered ticket text

/-- Once time has passed, an update does what a step does then. -/
theorem deed_update {c : Computer} {elapsed : Nat} {s : Scheduler}
    (hs : c.machine.scheduler.advance elapsed = some s) :
    c.deed (.update elapsed) = (c.withScheduler s).machine.deed := by
  rw [deed, hs]

/-- A history is its first command and the history behind it. -/
theorem performAll_cons {c : Computer} {command : Command} {commands : List Command}
    {r : Reply Computer (List Answer)} (hr : c.performAll (command :: commands) = some r) :
    ∃ first rest, c.perform command = some first ∧
      first.next.performAll commands = some rest ∧
      r = ⟨first.answer :: rest.answer, rest.next, first.notices ++ rest.notices⟩ := by
  obtain ⟨first, hfirst, hrest⟩ := Option.bind_eq_some_iff.mp hr
  obtain ⟨rest, hlater, heq⟩ := Option.map_eq_some_iff.mp hrest
  exact ⟨first, rest, hfirst, hlater, heq.symm⟩

/-- A history of one command is that command. -/
theorem performAll_singleton (c : Computer) (command : Command) :
    c.performAll [command] =
      (c.perform command).map fun r => ⟨[r.answer], r.next, r.notices⟩ := by
  rw [performAll]
  cases c.perform command with
  | none => rfl
  | some r => simp [performAll]

/-- A history is a part of it and the history behind that part. -/
theorem performAll_append (c : Computer) (commands commands' : List Command) :
    c.performAll (commands ++ commands') = (c.performAll commands).bind fun r =>
      (r.next.performAll commands').map fun rs =>
        ⟨r.answer ++ rs.answer, rs.next, r.notices ++ rs.notices⟩ := by
  induction commands generalizing c with
  | nil => simp [performAll]
  | cons command commands ih =>
    rw [List.cons_append, performAll, performAll]
    cases c.perform command with
    | none => rfl
    | some first =>
      rw [Option.bind_some, Option.bind_some, ih]
      cases first.next.performAll commands with
      | none => rfl
      | some rest =>
        rw [Option.bind_some, Option.map_some, Option.bind_some]
        cases rest.next.performAll commands' with
        | none => rfl
        | some last => simp [List.append_assoc]

/-- A computer that was built from settings and has then carried out commands. -/
inductive Reachable : Computer → Prop where
  /-- It has just been built. -/
  | built {settings : Settings} {key : Random.Key} {c : Computer}
      (h : ofSettings settings key = .ok c) : Reachable c
  /-- It has carried out one command more. -/
  | performed {c : Computer} {command : Command} {r : Reply Computer Answer} (hc : Reachable c)
      (h : c.perform command = some r) : Reachable r.next

/-- A new computer has never run, and nothing is outstanding. -/
theorem scheduler_of_ofSettings {settings : Settings} {key : Random.Key} {c : Computer}
    (h : ofSettings settings key = .ok c) :
    c.machine.scheduler = { sleepUnit := settings.sleepUnit } := by
  unfold ofSettings at h
  split at h
  · cases h
    rfl
  · cases h

/-- An assembly leaves the run state alone. -/
@[simp]
theorem scheduler_assemble (c : Computer) (source : String) :
    (c.assemble source).next.machine.scheduler = c.machine.scheduler := by
  unfold assemble
  split <;> rfl

/-- Where a program has been assembled and started, it can be reached. -/
theorem Reachable.started {c : Computer} (hc : c.Reachable) (source : String) :
    (c.assemble source).next.run.next.Reachable := by
  have hassemble : c.perform (.assemble source) =
      some ((c.assemble source).mapAnswer .assembled) := rfl
  have hrun : (c.assemble source).next.perform .run =
      some ((c.assemble source).next.run.mapAnswer fun _ => .done) := rfl
  exact (hc.performed hassemble).performed hrun

/-- Where some time has passed, a computer can be reached. -/
theorem Reachable.updated {c : Computer} (hc : c.Reachable) {elapsed : Nat}
    {r : Reply Computer (Except Fault Bool)} (hr : c.update elapsed = some r) :
    r.next.Reachable := by
  have hperform : c.perform (.update elapsed) = some (r.mapAnswer .updated) := by
    rw [perform, hr, Option.map_some]
  exact hc.performed hperform

/-- Whole histories lead from reachable computers to reachable ones. -/
theorem Reachable.performAll {c : Computer} (hc : c.Reachable) {commands : List Command}
    {r : Reply Computer (List Answer)} (hr : c.performAll commands = some r) :
    r.next.Reachable := by
  induction commands generalizing c r with
  | nil =>
    cases hr
    exact hc
  | cons command commands ih =>
    obtain ⟨first, rest, hfirst, hlater, heq⟩ := performAll_cons hr
    have hrest : rest.next.Reachable := ih (hc.performed hfirst) hlater
    rw [heq]
    exact hrest

end Computer

end ByteMachine
