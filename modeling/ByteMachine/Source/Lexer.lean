import ByteMachine.Source.Line
import ByteMachine.Text.Blank

/-!
# Splitting a line into its parts

A line is white space, a label definition, an instruction and a comment, in that
order, all of them optional. Each reader below takes the characters that are left
and returns what it read with the characters behind it, so that nothing is looked
at twice. A text that does not fit is no line at all; there is no recovery.
-/

namespace ByteMachine.Source

open Text (skipBlanks isBlank)

/-- Whether a character may stand in a word: an ASCII letter or digit, or the
underscore. -/
def isWordChar (c : Char) : Bool := c.isAlphanum || c = '_'

/-- The longest word at the front, if there is one. -/
def word? (cs : List Char) : Option (String × List Char) :=
  match cs.takeWhile isWordChar with
  | [] => none
  | w => some (String.ofList w, cs.dropWhile isWordChar)

/-- One operand: a word, or a label behind its mark. -/
def operand? (cs : List Char) : Option (Operand × List Char) :=
  match cs with
  | [] => none
  | c :: rest =>
    if c = labelMark then (word? rest).map fun w => (.label w.1, w.2)
    else (word? cs).map fun w => (.word w.1, w.2)

/-- The end of a line: nothing more, or a comment that runs to the end. -/
def ending? : List Char → Option (Option String)
  | [] => some none
  | c :: rest => if c = commentMark then some (some (String.ofList (c :: rest))) else none

/-- The operand list: one operand, or two with a comma between them, up to the end of
the line. -/
def operands? (cs : List Char) : Option (Operands × Option String) := do
  let (first, rest) ← operand? cs
  match skipBlanks rest with
  | ',' :: rest =>
    let (second, rest) ← operand? (skipBlanks rest)
    let comment ← ending? (skipBlanks rest)
    return (⟨some first, some second⟩, comment)
  | rest =>
    let comment ← ending? rest
    return (⟨some first, none⟩, comment)

/-- What follows the label definition, which has been read already. The first operand
has to be set apart from the mnemonic by white space. -/
def statement? (label : Option String) (cs : List Char) : Option Line := do
  match ending? cs with
  | some comment => return { label, comment }
  | none =>
    let (mnemonic, rest) ← word? cs
    match ending? (skipBlanks rest) with
    | some comment => return { label, mnemonic, comment }
    | none =>
      if rest.head?.any isBlank then
        let (operands, comment) ← operands? (skipBlanks rest)
        return { label, mnemonic, operands, comment }
      else none

/-- The parts of a line given by its characters. -/
def lineOfChars? (cs : List Char) : Option Line :=
  match skipBlanks cs with
  | [] => statement? none []
  | c :: rest =>
    if c = labelMark then do
      let (name, rest) ← word? rest
      match rest with
      | [] => none
      | d :: rest => if d = labelEnd then statement? name (skipBlanks rest) else none
    else statement? none (c :: rest)

/-- The parts of a line, or nothing if the text has none of the accepted shapes. -/
def lexLine (text : String) : Option Line := lineOfChars? text.toList

end ByteMachine.Source
