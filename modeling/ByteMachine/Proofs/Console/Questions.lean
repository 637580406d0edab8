import ByteMachine.Proofs.Console.Play
import ByteMachine.Proofs.Delivery
import ByteMachine.Proofs.Loading

/-!
# Questions and answers on the console

A question of the program is put to the user as soon as it is asked, and until it is answered
nothing else happens: the program is suspended without end, and the console reads one line
after another until one of them is a byte. So the question that a line is offered to is always
the one that is outstanding, no line is given up, and the lines of the input, as far as the
program asks for them, are used up in order. What the user is told goes along with this: a
prompt for each question, and a complaint with a new prompt for each line that is no byte.
-/

namespace ByteMachine.Console

/-- The complaint about a line that is no byte. -/
def complaint (line : String) : Write :=
  report ("'" ++ Text.trim line ++ "' is not a byte in hex, try again")

/-- Whether a text is one of the reports that begin with a quotation mark. -/
def Write.complains (w : Write) : Bool :=
  w.stream = .err && w.text.toList.head? = "'".toList.head?

namespace Event

/-- What is written when this happens. A question is put again behind a complaint. -/
@[simp]
def writes : Event → List Write
  | shown value => [say (toString value)]
  | asked => [prompt]
  | refused line => [complaint line, prompt]
  | received _ _ | dropped _ | ended => []

/-- Whether this has to do with a question. -/
@[simp]
def isExchange : Event → Bool
  | shown _ => false
  | _ => true

/-- The line that is used up. -/
@[simp]
def line? : Event → Option String
  | refused line | received line _ | dropped line => some line
  | _ => none

/-- The byte that the program receives. -/
@[simp]
def value? : Event → Option UInt8
  | received _ value => some value
  | _ => none

/-- The line that is refused. -/
@[simp]
def refused? : Event → Option String
  | refused line => some line
  | _ => none

end Event

/-- What follows a question of a program that never stops asking: the lines that are no bytes
are refused, the first one that is a byte is received, and the next question is asked, until
there is no line any more. -/
def answering : List String → List Event
  | [] => [.ended]
  | line :: lines =>
    match Text.typedByte? line with
    | some value => .received line value :: .asked :: answering lines
    | none => .refused line :: answering lines

/-- The dialogue of a program that never stops asking with these lines. -/
def asking (lines : List String) : List Event := .asked :: answering lines

/-- A session with no question to put, and with this one outstanding. -/
structure Session.Awaits (s : Session) (ticket : Option Ticket) : Prop where
  /-- Its computer has got where it is by commands. -/
  reachable : s.computer.Reachable
  /-- Every question has been put. -/
  parked : s.parked = none
  /-- The answer is expected to this question. -/
  outstanding : s.computer.machine.scheduler.outstanding = ticket

/-- How a dialogue may go on from a stage, with these lines left. -/
inductive Stage.Continues (lines : List String) : Stage → List Event → Prop where
  /-- Time passes, and nothing has been asked. -/
  | idle {s : Session} (h : s.Awaits none) : Continues lines (.awaitTime s) (asking lines)
  /-- A question has been asked, and is put to the user. -/
  | waiting {s : Session} {ticket : Ticket} (h : s.Awaits (some ticket)) :
    Continues lines (.awaitLine s ticket) (answering lines)
  /-- The program has ended, and would not have to. -/
  | finished (code : Nat) : Continues lines (.finished code) (asking lines)
  /-- The lines have been used up, and this has ended the program. -/
  | usedUp (h : lines = []) : Continues lines (.finished 0) []

/-- A text that is neither a prompt nor a complaint. -/
structure Write.IsAside (w : Write) : Prop where
  /-- It is not the prompt. -/
  prompts : w ≠ prompt
  /-- It does not look like a complaint. -/
  complains : w.complains = false

/-- A turn, or several in a row, in which this happens: it is the beginning of the dialogue
that remains, and what is written is what belongs to it. Only at the end of a session something
else may be written. -/
structure Turn.Plays (turn : Turn) (happened remaining : List Event) (lines : List String) :
    Prop where
  /-- The dialogue is as far as it has got, and goes on from the stage of the turn. -/
  dialogue : ∃ later, remaining = happened.filter Event.isExchange ++ later ∧
    turn.stage.Continues lines later
  /-- Each text belongs to what happens, or closes the session. -/
  written : ∃ closing, turn.writes = happened.flatMap Event.writes ++ closing ∧
    (∀ w ∈ closing, w.IsAside) ∧ (closing = [] ∨ ∃ code, turn.stage = .finished code)

section Asides

theorem head?_append {text : String} {c : Char} (h : text.toList.head? = some c)
    (rest : String) : (text ++ rest).toList.head? = some c := by
  rw [String.toList_append, List.head?_append, h]
  rfl

end Asides

namespace Turn.Plays

variable {turn : Turn} {happened remaining : List Event} {lines : List String}

/-- More may have happened in front of a turn, if it has been written as well. -/
theorem after (h : turn.Plays happened remaining lines) (earlier : List Event) :
    (turn.after (earlier.flatMap Event.writes)).Plays (earlier ++ happened)
      (earlier.filter Event.isExchange ++ remaining) lines := by
  obtain ⟨⟨later, hdialogue, hcontinues⟩, closing, hwritten, hclosing⟩ := h
  refine ⟨⟨later, ?_, hcontinues⟩, closing, ?_, hclosing⟩
  · rw [hdialogue, List.filter_append, List.append_assoc]
  · rw [Turn.after, hwritten, List.flatMap_append, List.append_assoc]

end Turn.Plays

namespace Session

variable {s : Session} {ticket : Ticket}

/-- A line is judged as a byte, for it is offered to the question that is outstanding. -/
theorem Awaits.verdict (h : s.Awaits (some ticket)) (line : String) :
    s.computer.machine.scheduler.verdict ticket line = readAnswer line := by
  have hgeneration := (h.reachable.consistent.question ticket h.outstanding).2.1
  rw [Scheduler.verdict, h.outstanding, hgeneration, if_neg, if_neg nofun]
  rintro (hother | hother)
  · exact hother rfl
  · simp at hother

/-- A line that is a byte is taken, and any other line is complained about. -/
theorem Awaits.answer_some (h : s.Awaits (some ticket)) (line : String) :
    s.answer ticket (some line) =
      match Text.typedByte? line with
      | some value => ⟨[], .awaitTime { s with computer := s.computer.answered value }⟩
      | none => ⟨[complaint line, prompt], .awaitLine s ticket⟩ := by
  rw [answer, Computer.deliver_of_verdict h.reachable ticket line, h.verdict, readAnswer]
  cases Text.typedByte? line <;> rfl

/-- With the byte of a line, a computer is where it can be reached. -/
theorem Awaits.reachable_answered (h : s.Awaits (some ticket)) {line : String} {value : UInt8}
    (htyped : Text.typedByte? line = some value) : (s.computer.answered value).Reachable := by
  have hperform : s.computer.perform (.deliver ticket line) =
      some ((s.computer.deliver ticket line).mapAnswer .delivered) := rfl
  have hreachable : (s.computer.deliver ticket line).next.Reachable :=
    h.reachable.performed hperform
  rw [Computer.deliver_of_verdict h.reachable ticket line, h.verdict, readAnswer,
    htyped] at hreachable
  exact hreachable

/-- A question that is outstanding and has not been put yet is put. -/
theorem next_of_parked (hc : s.computer.Reachable) (hparked : s.parked = some ticket)
    (hasked : s.computer.machine.scheduler.outstanding = some ticket) :
    s.next = ⟨[prompt], .awaitLine { s with parked := none } ticket⟩ := by
  have hsleeping := (hc.consistent.question ticket hasked).1
  have hgoes : s.computer.state ≠ .stopped := by
    rw [Computer.state, hsleeping]
    exact nofun
  rw [next, if_neg hgoes, hparked]

/-- The questions that notices raise are the tickets that they hand out. -/
theorem filterMap_question? (ns : List Notice) : ns.filterMap question? = tickets ns := by
  apply List.filterMap_congr
  intro n hn
  cases n <;> rfl

/-- Of notices without a refusal the numbers are shown. -/
theorem filterMap_show? {ns : List Notice} (h : ns.filterMap Notice.refused? = []) :
    ns.filterMap show? = (ns.filterMap Notice.output?).map fun value => say (toString value) := by
  rw [List.map_filterMap]
  apply List.filterMap_congr
  intro n hn
  cases n with
  | refused error =>
    have hnone := List.filterMap_eq_nil_iff.mp h _ hn
    cases hnone
  | _ => rfl

/-- What is put out is written. -/
theorem flatMap_writes_shown (values : List Int) :
    (values.map Event.shown).flatMap Event.writes =
      values.map fun value => say (toString value) := by
  rw [List.flatMap_map]
  exact List.map_eq_flatMap.symm

/-- What a step means to the user is what its notices show, and the ticket that they hand out. -/
theorem notices_of_step {m : Machine} {r : Reply Machine (Except Fault Unit)}
    (hquestion : m.scheduler.outstanding = none) (hr : m.step = some r) :
    r.notices.filterMap show? = (m.putOut?.toList.map .shown).flatMap Event.writes ∧
      r.notices.filterMap question? = if m.asks then [m.scheduler.nextTicket] else [] := by
  have hchanges := Machine.changesOnly_of_step hquestion hr
  rw [filterMap_show? (Machine.refused_of_step hr), hchanges.told, flatMap_writes_shown,
    filterMap_question?, hchanges.asked]
  exact ⟨rfl, rfl⟩

/-- An operation that asks for a byte puts nothing out. -/
theorem eventsOf_of_asks {m : Machine} (h : m.asks = true) : eventsOf m = [.asked] := by
  rw [eventsOf, Machine.putOut?_of_asks h, if_pos h]
  rfl

/-- What is outstanding when an operation has gone through is the question that it has asked. -/
theorem outstanding_of_step {m : Machine} {r : Reply Machine (Except Fault Unit)}
    (hquestion : m.scheduler.outstanding = none) (hr : m.step = some r) :
    r.next.scheduler.outstanding = if m.asks then some m.scheduler.nextTicket else none := by
  rw [(Machine.changesOnly_of_step hquestion hr).outstanding, hquestion]

/-- When an operation has gone through, what has happened is written, and the session goes on to
wait for a line if a question has been asked, and otherwise without one. -/
theorem next_of_step {c : Computer} (hparked : s.parked = none) (hc : c.Reachable) {m : Machine}
    {r : Reply Machine (Except Fault Unit)} (hquestion : m.scheduler.outstanding = none)
    (hr : m.step = some r) (hmachine : c.machine = r.next) :
    (s.follow c r.notices).next.after (r.notices.filterMap show?) =
      if m.asks then
        ⟨(eventsOf m).flatMap Event.writes,
          .awaitLine { s with computer := c } m.scheduler.nextTicket⟩
      else { s with computer := c }.next.after ((eventsOf m).flatMap Event.writes) := by
  obtain ⟨computer, parked, dump⟩ := s
  have hnone : parked = none := hparked
  subst hnone
  obtain ⟨hshown, htickets⟩ := notices_of_step hquestion hr
  have hasked := outstanding_of_step hquestion hr
  rw [← hmachine] at hasked
  rw [follow, htickets, hshown]
  by_cases hasks : m.asks = true
  · rw [if_pos hasks] at hasked ⊢
    rw [if_pos hasks, next_of_parked hc rfl hasked, Machine.putOut?_of_asks hasks,
      eventsOf_of_asks hasks]
    rfl
  · rw [if_neg hasks, if_neg hasks, eventsOf, if_neg hasks, List.append_nil]
    rfl

/-- An operation that fails has not asked, so that what it shows is all that has happened. -/
theorem events_of_fault {m : Machine} {r : Reply Machine (Except Fault Unit)}
    (hquestion : m.scheduler.outstanding = none) (hr : m.step = some r) {fault : Fault}
    (hfault : r.answer = .error fault) :
    eventsOf m = m.putOut?.toList.map .shown ∧
      r.notices.filterMap show? = (eventsOf m).flatMap Event.writes := by
  have hasks : ¬m.asks = true := by
    intro hasks
    rw [Machine.answer_of_asking hasks hr] at hfault
    cases hfault
  have hevents : eventsOf m = m.putOut?.toList.map .shown := by
    rw [eventsOf, if_neg hasks, List.append_nil]
  rw [hevents]
  exact ⟨rfl, (notices_of_step hquestion hr).1⟩

/-- A source that is not assembled is reported. -/
theorem launch_of_error {c : Computer} {source : String} {e : AssemblyError}
    (h : (c.assemble source).answer = .error e) (dump : Bool) :
    launch c source dump = ⟨[report ("syntax error: " ++ e.message)], .finished 1⟩ := by
  cases hassemble : c.machine.memory.assemble source with
  | mk memory result =>
    cases result with
    | error e' =>
      rw [Computer.assemble_of_error hassemble] at h
      cases h
      rw [launch, Computer.assemble_of_error hassemble]
      rfl
    | ok a =>
      rw [Computer.assemble_of_ok hassemble] at h
      cases h

/-- A source that is assembled is started without a word. -/
theorem launch_of_ok {c : Computer} {source : String} {artifacts : Artifacts}
    (h : (c.assemble source).answer = .ok artifacts) (dump : Bool) :
    launch c source dump =
      ⟨[], .awaitTime { computer := (c.assemble source).next.run.next, dump }⟩ := by
  cases hassemble : c.machine.memory.assemble source with
  | mk memory result =>
    cases result with
    | error e =>
      rw [Computer.assemble_of_error hassemble] at h
      cases h
    | ok a =>
      rw [launch, Computer.assemble_of_ok hassemble]
      rfl

end Session

namespace Play

variable {p : Play} {lines : List String} {elapsed : Nat → Nat}

/-- All turns of a play as one. -/
def turn (p : Play) : Turn := ⟨p.writes, p.stage⟩

end Play

end ByteMachine.Console
