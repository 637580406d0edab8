/-!
# A text as numbered lines

Lines are separated by line feeds, so a text always has one line more than it has
line feeds, and a last line may be empty. Lines are numbered from one.
-/

namespace ByteMachine.Source

/-- The pieces of a text between line feeds. -/
def splitLines : List Char → List (List Char)
  | [] => [[]]
  | c :: cs =>
    if c = '\n' then [] :: splitLines cs
    else
      match splitLines cs with
      | [] => [[c]]
      | line :: lines => (c :: line) :: lines

/-- The lines of a text with their numbers. -/
def numberedLines (text : String) : List (Nat × List Char) :=
  (splitLines text.toList).zipIdx.map fun l => (l.2 + 1, l.1)

theorem splitLines_ne_nil (cs : List Char) : splitLines cs ≠ [] := by
  cases cs with
  | nil => simp [splitLines]
  | cons c cs =>
    rw [splitLines]
    split
    · simp
    · split <;> simp

end ByteMachine.Source
