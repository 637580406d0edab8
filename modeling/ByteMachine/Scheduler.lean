/-!
# Run states, the logical clock and input tickets

A program is stopped, running or sleeping. Time is logical and counted in
nanoseconds: it moves only when someone says how much has passed, and that is also
when a timed sleep ends. A program that waits for input sleeps without a time limit
and hands out a ticket; the answer has to name the ticket that is outstanding. A
ticket carries the number of its run and its place in that run, so tickets of
earlier runs and of earlier questions can be told apart.
-/

namespace ByteMachine

/-- The longest duration and the last moment of the clock, in nanoseconds: 2^64 seconds
less one nanosecond. -/
def lastMoment : Nat := UInt64.size * 1000000000 - 1

/-- The nanoseconds in a number of milliseconds. -/
def milliseconds (n : UInt64) : Nat := n.toNat * 1000000

/-- What a program is doing. -/
inductive RunState where
  /-- No program runs. -/
  | stopped
  /-- Instructions are executed. -/
  | running
  /-- The program is suspended. -/
  | sleeping
  deriving DecidableEq, Repr

/-- The name of a run state. -/
def RunState.name : RunState → String
  | stopped => "Stopped"
  | running => "Running"
  | sleeping => "Sleeping"

/-- Stands for one question that a program has asked. -/
structure Ticket where
  /-- The number of the run. -/
  generation : Nat
  /-- The place among the questions of the run, from zero. -/
  sequence : Nat
  deriving DecidableEq, Repr

/-- Why an answer was not taken. -/
inductive InputError where
  /-- No question is outstanding. -/
  | notAwaiting
  /-- Another question is outstanding, or the ticket is from another run. -/
  | stale
  /-- The text is no byte in hexadecimal. -/
  | invalidHex (text : String)
  deriving DecidableEq, Repr

/-- The text that reports why an answer was not taken. -/
def InputError.message : InputError → String
  | notAwaiting => "no input was requested"
  | stale => "input request belongs to an earlier run"
  | invalidHex text => "'" ++ text ++ "' is not a hexadecimal byte"

/-- The run state with everything that may end a suspension. -/
@[ext]
structure Scheduler where
  /-- What the program is doing. -/
  state : RunState := .stopped
  /-- The time that has passed. -/
  clock : Nat := 0
  /-- When a timed sleep ends. -/
  wakeAt : Option Nat := none
  /-- How many runs there have been. -/
  generation : Nat := 0
  /-- How many questions this run has asked. -/
  nextSequence : Nat := 0
  /-- The question that an answer is taken for. -/
  outstanding : Option Ticket := none
  /-- The length of one unit of sleep. -/
  sleepUnit : Nat
  deriving DecidableEq, Repr

namespace Scheduler

/-- A moment on the clock, if it is not later than the last one. -/
def moment? (s : Scheduler) (later : Nat) : Option Nat :=
  if s.clock + later ≤ lastMoment then some (s.clock + later) else none

/-- Whether a question is outstanding. -/
def isAwaitingInput (s : Scheduler) : Bool := s.outstanding.isSome

/-- How long a timed sleep still lasts. -/
def timeToWake (s : Scheduler) : Option Nat := s.wakeAt.map fun moment => moment - s.clock

/-- A new run begins. Nothing of the last one is left. -/
def start (s : Scheduler) : Scheduler :=
  { s with
    state := .running
    wakeAt := none
    generation := s.generation + 1
    nextSequence := 0
    outstanding := none }

/-- The run ends. -/
def stop (s : Scheduler) : Scheduler :=
  { s with state := .stopped, wakeAt := none, outstanding := none }

/-- The program is suspended, for a while or until it is woken. A stopped program is
left alone. There is no result if the sleep would end after the last moment. -/
def sleep (s : Scheduler) (timeout : Option Nat) : Option Scheduler :=
  match s.state with
  | .stopped => some s
  | _ =>
    match timeout with
    | none => some { s with state := .sleeping, wakeAt := none }
    | some t => (s.moment? t).map fun moment =>
      { s with state := .sleeping, wakeAt := some moment }

/-- A suspended program goes on. A question that was outstanding is dropped. -/
def wakeUp (s : Scheduler) : Scheduler :=
  match s.state with
  | .sleeping => { s with state := .running, wakeAt := none, outstanding := none }
  | _ => s

/-- Whether a timed sleep is over. -/
def isDue (s : Scheduler) : Bool :=
  match s.state, s.wakeAt with
  | .sleeping, some moment => moment ≤ s.clock
  | _, _ => false

/-- Time passes, and a sleep that is over ends. There is no result if the clock would
pass the last moment. -/
def advance (s : Scheduler) (elapsed : Nat) : Option Scheduler :=
  (s.moment? elapsed).map fun now =>
    let later := { s with clock := now }
    if later.isDue then later.wakeUp else later

/-- The ticket of the next question. -/
def nextTicket (s : Scheduler) : Ticket := ⟨s.generation, s.nextSequence⟩

/-- The next question is asked. Any earlier one is no longer outstanding. -/
def awaitInput (s : Scheduler) : Scheduler :=
  { s with nextSequence := s.nextSequence + 1, outstanding := some s.nextTicket }

/-- Whether an answer to this ticket is taken. -/
def checkTicket (s : Scheduler) (ticket : Ticket) : Except InputError Unit :=
  if ticket.generation ≠ s.generation then .error .stale
  else
    match s.outstanding with
    | none => .error .notAwaiting
    | some asked => if asked = ticket then .ok () else .error .stale

/-- The outstanding question has been answered. -/
def retire (s : Scheduler) : Scheduler := { s with outstanding := none }

end Scheduler

end ByteMachine
