import ByteMachine.Proofs.Console.Questions

/-!
# The course of a program without a clock

What a program does from its first instruction on, what it puts out and what it asks for, and
how it ends, can be told without saying how much time passes in between. It stops, or executes
an instruction, or takes the next line of the input as the answer to its question; and if it
sleeps for a while, then some time later it wakes up. There is one course at most that a program
can take with an input.
-/

namespace ByteMachine.Console

/-- How a program has ended. -/
structure Ending where
  /-- The computer then. -/
  computer : Computer
  /-- The fault that has ended it, unless it has stopped or the input has come to its end. -/
  fault : Option Fault := none

namespace Ending

/-- The exit code. -/
def code (e : Ending) : Nat := if e.fault.isSome then 1 else 0

/-- What is written when a program has ended: a report of the fault, and a snapshot if one was
asked for. -/
def closing (e : Ending) (dump : Bool) : List Write :=
  (e.fault.toList.map fun fault => report ("execution failed: " ++ fault.message)) ++
    if dump then [say e.computer.snapshot.pretty] else []

end Ending

/-- What a program does next, and what happens in the meantime. -/
inductive Move where
  /-- It gets to this computer, and leaves these lines. -/
  | goOn (happened : List Event) (computer : Computer) (lines : List String)
  /-- It ends. -/
  | finish (happened : List Event) (ending : Ending)

/-- What an instruction comes to that gets a program to this computer. -/
def Move.ofAnswer (happened : List Event) (c : Computer) (lines : List String) :
    Except Fault Unit → Move
  | .ok () => .goOn happened c lines
  | .error fault => .finish happened ⟨c, some fault⟩

/-- What a program does next that runs: it executes an instruction. -/
def stepMove? (c : Computer) (lines : List String) : Option Move :=
  c.step.map fun r => .ofAnswer (eventsOf c.machine) r.next lines r.answer

/-- What a program does next that waits for a byte: it is offered the next line, or ends if there
is none. -/
def answerMove (c : Computer) : List String → Move
  | [] => .finish [.ended] { computer := c.stop.next }
  | line :: lines =>
    match Text.typedByte? line with
    | some value => .goOn [.received line value] (c.answered value) lines
    | none => .goOn [.refused line] c lines

/-- What a program does next, if these lines are left. There is nothing that it does next if it
sleeps without end, or would sleep beyond the last moment of the clock. -/
def move? (c : Computer) (lines : List String) : Option Move :=
  match c.state with
  | .stopped => some (.finish [] { computer := c })
  | .running => stepMove? c lines
  | .sleeping =>
    if c.isAwaitingInput then some (answerMove c lines)
    else if c.machine.scheduler.wakeAt.isSome then some (.goOn [] c.wakeUp.next lines)
    else none

/-- The course of a program to its end, with these lines to answer its questions: all that
happens, and how it ends. -/
inductive Runs : Computer → List String → List Event → Ending → Prop where
  /-- It ends with the next move. -/
  | finish {c : Computer} {lines : List String} {happened : List Event} {ending : Ending}
      (hmove : move? c lines = some (.finish happened ending)) : Runs c lines happened ending
  /-- It gets from one move to the next. -/
  | goOn {c d : Computer} {lines left : List String} {happened events : List Event}
      {ending : Ending} (hmove : move? c lines = some (.goOn happened d left))
      (hrest : Runs d left events ending) : Runs c lines (happened ++ events) ending

/-- A program gets from one computer to another in some moves, in which this happens: whatever
its course is from there, it is the rest of the course from here. -/
def Leads (c : Computer) (lines : List String) (happened : List Event) (d : Computer)
    (left : List String) : Prop :=
  ∀ ⦃events ending⦄, Runs d left events ending → Runs c lines (happened ++ events) ending

section Runs

variable {c d : Computer} {lines left : List String} {events events' : List Event}
  {ending ending' : Ending}

/-- A program with an input has one course at most. -/
theorem Runs.unique (h : Runs c lines events ending) (h' : Runs c lines events' ending') :
    events = events' ∧ ending = ending' := by
  induction h generalizing events' with
  | finish hmove =>
    cases h' with
    | finish hmove' =>
      rw [hmove] at hmove'
      cases hmove'
      exact ⟨rfl, rfl⟩
    | goOn hmove' =>
      rw [hmove] at hmove'
      cases hmove'
  | goOn hmove hrest ih =>
    cases h' with
    | finish hmove' =>
      rw [hmove] at hmove'
      cases hmove'
    | goOn hmove' hrest' =>
      rw [hmove] at hmove'
      cases hmove'
      obtain ⟨rfl, rfl⟩ := ih hrest'
      exact ⟨rfl, rfl⟩

theorem Leads.refl (c : Computer) (lines : List String) : Leads c lines [] c lines :=
  fun _ _ h => h

theorem Leads.trans {e : Computer} {happened happened' : List Event} {left' : List String}
    (h : Leads c lines happened d left) (h' : Leads d left happened' e left') :
    Leads c lines (happened ++ happened') e left' := by
  intro events ending hrest
  rw [List.append_assoc]
  exact h (h' hrest)

theorem leads_of_move? {happened : List Event}
    (h : move? c lines = some (.goOn happened d left)) : Leads c lines happened d left :=
  fun _ _ hrest => .goOn h hrest

/-- A program that has stopped has come to the end of its course. -/
theorem runs_of_stopped (h : c.state = .stopped) (lines : List String) :
    Runs c lines [] { computer := c } := by
  refine .finish ?_
  rw [move?, h]

/-- A program that waits for a byte takes the next line. -/
theorem move?_of_outstanding (hsleeping : c.state = .sleeping) {ticket : Ticket}
    (hquestion : c.machine.scheduler.outstanding = some ticket) (lines : List String) :
    move? c lines = some (answerMove c lines) := by
  have hawaiting : c.isAwaitingInput = true := by
    rw [Computer.isAwaitingInput, Scheduler.isAwaitingInput, hquestion, Option.isSome_some]
  rw [move?, hsleeping]
  exact if_pos hawaiting

/-- A program that does not wait for a byte wakes up some time later, if it sleeps for a while. -/
theorem leads_wakeUp (hquestion : c.machine.scheduler.outstanding = none)
    (htimer : c.state = .sleeping → c.machine.scheduler.wakeAt.isSome = true)
    (lines : List String) : Leads c lines [] c.wakeUp.next lines := by
  by_cases hsleeping : c.state = .sleeping
  · refine leads_of_move? ?_
    have hawaiting : ¬c.isAwaitingInput = true := by
      rw [Computer.isAwaitingInput, Scheduler.isAwaitingInput, hquestion]
      exact Bool.false_ne_true
    rw [move?, hsleeping]
    dsimp only
    rw [if_neg hawaiting, if_pos (htimer hsleeping)]
  · have hsame : c.wakeUp.next = c := by
      have hstate : ¬c.machine.scheduler.state = .sleeping := hsleeping
      rw [Computer.wakeUp, Scheduler.wakeUp_eq, if_neg hstate]
      rfl
    rw [hsame]
    exact .refl c lines

end Runs

/-- The text on the stream for results when this happens: the number that is put out in decimal,
on a line of its own, and a prompt behind each question and behind each line that is refused. -/
def Event.printed : Event → String
  | shown value => toString value ++ "\n"
  | asked | refused _ => "input (hex): "
  | received _ _ | dropped _ | ended => ""

/-- What texts on one stream come to. -/
def textOn (stream : Stream) (writes : List Write) : String :=
  String.join ((writes.filter fun w => w.stream = stream).map Write.text)

theorem textOn_append (stream : Stream) (writes writes' : List Write) :
    textOn stream (writes ++ writes') = textOn stream writes ++ textOn stream writes' := by
  rw [textOn, List.filter_append, List.map_append, String.join_append]
  rfl

/-- What is printed belongs to what happens. -/
theorem textOn_writes (events : List Event) :
    textOn .out (events.flatMap Event.writes) = String.join (events.map Event.printed) := by
  induction events with
  | nil => rfl
  | cons e events ih =>
    have hfirst : textOn .out e.writes = e.printed := by
      cases e <;> simp [textOn, Event.printed, say, prompt, complaint, report]
    rw [List.flatMap_cons, textOn_append, ih, hfirst, List.map_cons, String.join_cons]

/-- At the end, nothing but the snapshot is printed. -/
theorem textOn_closing (e : Ending) (dump : Bool) :
    textOn .out (e.closing dump) = if dump then e.computer.snapshot.pretty ++ "\n" else "" := by
  obtain ⟨c, fault⟩ := e
  cases fault <;> cases dump <;> simp [textOn, Ending.closing, say, report]

end ByteMachine.Console
