import Mathlib.Logic.Function.Iterate
import ByteMachine.Console.Session
import ByteMachine.Proofs.Frame
import ByteMachine.Proofs.Machine.Oversleep

/-!
# Sessions, turn by turn

A session is played turn by turn, and its outcome is what has been written when it is over.
Here a session that is still going on is a state of its own. It keeps what has been written and
which lines are left, and besides, what has happened between the program and its user: which
numbers the program has put out, where it has asked, and what has become of each line. What has
happened is read off the computers on both sides of a turn and not off what the turn writes, so
that the one can be compared with the other.
-/

namespace ByteMachine

namespace Machine

variable {m : Machine}

end Machine

namespace Console

/-- What happens between a program and its user. -/
inductive Event where
  /-- The program puts out a number. -/
  | shown (value : Int)
  /-- The program asks for a byte. -/
  | asked
  /-- A line is refused, because it is no byte. -/
  | refused (line : String)
  /-- A line is taken, and leaves this byte in the accumulator. -/
  | received (line : String) (value : UInt8)
  /-- A line is given up without being looked at. -/
  | dropped (line : String)
  /-- There is no line any more for a question. -/
  | ended
  deriving DecidableEq, Repr

/-- What happens when a machine executes the operation under its program counter. -/
def eventsOf (m : Machine) : List Event :=
  m.putOut?.toList.map .shown ++ if m.asks then [.asked] else []

namespace Session

/-- What happens when time passes. -/
def passed (s : Session) (elapsed : Nat) : List Event :=
  match s.computer.machine.scheduler.advance elapsed with
  | some later => eventsOf (s.computer.withScheduler later).machine
  | none => []

/-- What becomes of a line, or of the end of the input. -/
def answered (s : Session) (ticket : Ticket) : Option String → Event
  | none => .ended
  | some line =>
    let reply := s.computer.deliver ticket line
    match reply.answer with
    | .ok () => .received line reply.next.machine.registers.ra
    | .error (.invalidHex _) => .refused line
    | .error _ => .dropped line

end Session

/-- A session that has been played up to some turn. -/
structure Play where
  /-- How many times time has passed. -/
  updates : Nat := 0
  /-- Everything that has been written, in order. -/
  writes : List Write
  /-- Everything that has happened, in order. -/
  events : List Event := []
  /-- What the session does next. -/
  stage : Stage
  /-- The lines that are left. -/
  lines : List String

namespace Play

/-- The play with one turn more, in which this happens. -/
def goOn (p : Play) (turn : Turn) (happened : List Event) : Play :=
  { p with
    writes := p.writes ++ turn.writes
    events := p.events ++ happened
    stage := turn.stage }

/-- The next turn. Before update number `n` the time `elapsed n` passes. -/
def next (elapsed : Nat → Nat) (p : Play) : Play :=
  match p.stage with
  | .finished _ => p
  | .awaitLine s ticket =>
    { p with lines := p.lines.tail }.goOn (s.answer ticket p.lines.head?)
      [s.answered ticket p.lines.head?]
  | .awaitTime s =>
    { p with updates := p.updates + 1 }.goOn (s.pass (elapsed p.updates))
      (s.passed (elapsed p.updates))

/-- What the session has come to, if it is over. -/
def outcome? (p : Play) : Option Outcome :=
  match p.stage with
  | .finished code => some ⟨code, p.writes⟩
  | _ => none

variable {elapsed : Nat → Nat} {p : Play}

/-- What is over stays as it is. -/
theorem iterate_next_of_finished {code : Nat} (h : p.stage = .finished code) (turns : Nat) :
    (next elapsed)^[turns] p = p := by
  have hfixed : next elapsed p = p := by
    rw [next, h]
  exact Function.iterate_fixed hfixed turns

end Play

/-- Playing a session to its end comes to what playing it turn by turn comes to. -/
theorem play_eq_outcome? (elapsed : Nat → Nat) (fuel updates : Nat) (written : List Write)
    (turn : Turn) (lines : List String) (events : List Event) :
    play elapsed fuel updates written turn lines = ((Play.next elapsed)^[fuel]
      ⟨updates, written.reverse ++ turn.writes, events, turn.stage, lines⟩).outcome? := by
  induction fuel generalizing updates written turn lines events with
  | zero =>
    obtain ⟨writes, stage⟩ := turn
    cases stage <;> simp [play, Play.outcome?]
  | succ fuel ih =>
    obtain ⟨writes, stage⟩ := turn
    have hwritten : (writes.reverse ++ written).reverse = written.reverse ++ writes := by
      rw [List.reverse_append, List.reverse_reverse]
    have hgoOn (updates : Nat) (turn : Turn) (lines : List String) (events : List Event) :=
      ih updates (writes.reverse ++ written) turn lines events
    rw [hwritten] at hgoOn
    cases stage with
    | finished code =>
      have hover : play elapsed (fuel + 1) updates written ⟨writes, .finished code⟩ lines =
          some ⟨code, (writes.reverse ++ written).reverse⟩ := rfl
      have hstage : Play.stage ⟨updates, written.reverse ++ writes, events, .finished code, lines⟩ =
          .finished code := rfl
      rw [hover, hwritten, Play.iterate_next_of_finished hstage]
      rfl
    | awaitTime s =>
      rw [Function.iterate_succ_apply]
      exact hgoOn _ _ _ _
    | awaitLine s ticket =>
      rw [Function.iterate_succ_apply]
      cases lines with
      | nil => exact hgoOn _ _ _ _
      | cons line lines => exact hgoOn _ _ _ _

end Console

end ByteMachine
