import ByteMachine.Listing
import ByteMachine.Machine.Execute
import ByteMachine.Settings

/-!
# The computer

A computer is a machine with its settings and with what is known about the program
in its memory. Its operations assemble a source, start and stop runs, let time pass
and take answers. Each one returns its answer, the computer afterwards and the
notices on the way. An operation that lets time pass has no reply at all where the
clock would run past its last moment.
-/

namespace ByteMachine

/-- A machine, its settings and its program. -/
@[ext]
structure Computer where
  /-- What instructions act on. -/
  machine : Machine
  /-- The settings it was built with. -/
  settings : Settings
  /-- What is known about the program, after a successful assembly only. -/
  artifacts : Option Artifacts := none
  deriving DecidableEq, Repr

namespace Computer

/-- A computer with these settings. Where they set no seed, the key is that of its random
bytes. -/
def ofSettings (settings : Settings) (key : Random.Key) : Except SettingsError Computer :=
  match Memory.ofSize settings.memorySize with
  | .ok memory =>
    .ok {
      machine := {
        memory
        scheduler := { sleepUnit := settings.sleepUnit }
        generator := .start settings.seed key }
      settings }
  | .error _ => .error (.invalidMemorySize settings.memorySize)

/-- What the program is doing. -/
def state (c : Computer) : RunState := c.machine.scheduler.state

/-- Whether the program waits for a byte. -/
def isAwaitingInput (c : Computer) : Bool := c.machine.scheduler.isAwaitingInput

/-- How long a timed sleep still lasts. -/
def timeToWake (c : Computer) : Option Nat := c.machine.scheduler.timeToWake

/-- The program as lines of source with their addresses. -/
def listing (c : Computer) : List (UInt8 × String) := Listing.lines c.machine.memory.program

/-- The computer with another run state. -/
def withScheduler (c : Computer) (scheduler : Scheduler) : Computer :=
  { c with machine := { c.machine with scheduler } }

/-- Assembles a source. If it is refused, nothing of any program is left in memory. -/
def assemble (c : Computer) (source : String) :
    Reply Computer (Except AssemblyError Artifacts) :=
  match c.machine.memory.assemble source with
  | (memory, .ok artifacts) =>
    ⟨.ok artifacts, { c with machine := { c.machine with memory }, artifacts := some artifacts },
      [.memory memory]⟩
  | (memory, .error error) =>
    let cleared := memory.clear
    ⟨.error error, { c with machine := { c.machine with memory := cleared }, artifacts := none },
      [.refused error, .memory cleared]⟩

/-- The registers at the start of a run: all zero but the stack pointer, which is at the
top of memory. -/
def startRegisters (m : Memory) : RegisterFile :=
  RegisterFile.zero.set .sp (UInt8.ofNat (m.size - 1))

/-- Starts the program from address zero. All registers are announced. -/
def run (c : Computer) : Reply Computer Unit :=
  let registers := startRegisters c.machine.memory
  let machine := { c.machine with registers, scheduler := c.machine.scheduler.start }
  ⟨(), { c with machine },
    .register .sp registers.sp :: registers.toList.map fun r => .register r.1 r.2⟩

/-- Ends the run. -/
def stop (c : Computer) : Reply Computer Unit :=
  ⟨(), c.withScheduler c.machine.scheduler.stop, []⟩

/-- Suspends the program. -/
def sleep (c : Computer) (timeout : Option Nat) : Option (Reply Computer Unit) :=
  (c.machine.scheduler.sleep timeout).map fun s => ⟨(), c.withScheduler s, []⟩

/-- Lets a suspended program go on. -/
def wakeUp (c : Computer) : Reply Computer Unit :=
  ⟨(), c.withScheduler c.machine.scheduler.wakeUp, []⟩

/-- Executes one instruction, if the program runs. -/
def step (c : Computer) : Option (Reply Computer (Except Fault Unit)) :=
  c.machine.step.map fun r => ⟨r.answer, { c with machine := r.next }, r.notices⟩

/-- Lets time pass and executes one instruction, if the program runs then. Says whether
it did. -/
def update (c : Computer) (elapsed : Nat) : Option (Reply Computer (Except Fault Bool)) :=
  (c.machine.scheduler.advance elapsed).bind fun s =>
    let later := c.withScheduler s
    if s.state = .running then
      later.step.map fun r => ⟨r.answer.map fun _ => true, r.next, r.notices⟩
    else some ⟨.ok false, later, []⟩

/-- Takes the answer to a question of the program. The byte goes into the accumulator,
the flags stay as they are, and the program goes on. -/
def deliver (c : Computer) (ticket : Ticket) (text : String) :
    Reply Computer (Except InputError Unit) :=
  match c.machine.scheduler.checkTicket ticket with
  | .error error => ⟨.error error, c, []⟩
  | .ok () =>
    match Text.typedByte? text with
    | none => ⟨.error (.invalidHex text), c, []⟩
    | some value =>
      let machine := { c.machine with
        registers := c.machine.registers.set .ra value
        scheduler := c.machine.scheduler.retire.wakeUp }
      ⟨.ok (), { c with machine }, [.register .ra value]⟩

end Computer

end ByteMachine
