import ByteMachine.Text.Identifier

/-!
# Blanks, marks and names in RON texts

Readers of RON take the characters that are left and return
the characters behind what they read. Between any two marks there may be white
space, comments to the end of a line, and block comments, which nest.
-/

namespace ByteMachine.Ron

/-- Whether a character is white space in RON, by the Unicode property
Pattern_White_Space. -/
def isBlank (c : Char) : Bool :=
  c ∈ [' ', '\t', '\n', '\r', '\x0B', '\x0C', '\u0085', '\u200E', '\u200F', '\u2028', '\u2029']

/-- Where a run of blanks has got to. -/
inductive BlankPlace where
  /-- Outside of comments. -/
  | outside
  /-- In a comment that ends with the line. -/
  | lineComment
  /-- In a block comment inside this many others. -/
  | blockComment (depth : Nat)

/-- Skips blanks from a place inside them. A slash that starts no comment and a block
comment without an end are refused. -/
def skipBlanksFrom : BlankPlace → List Char → Option (List Char)
  | .outside, [] => some []
  | .outside, '/' :: '/' :: cs => skipBlanksFrom .lineComment cs
  | .outside, '/' :: '*' :: cs => skipBlanksFrom (.blockComment 0) cs
  | .outside, '/' :: _ => none
  | .outside, c :: cs => if isBlank c then skipBlanksFrom .outside cs else some (c :: cs)
  | .lineComment, [] => some []
  | .lineComment, '\n' :: cs => skipBlanksFrom .outside cs
  | .lineComment, _ :: cs => skipBlanksFrom .lineComment cs
  | .blockComment _, [] => none
  | .blockComment depth, '/' :: '*' :: cs => skipBlanksFrom (.blockComment (depth + 1)) cs
  | .blockComment 0, '*' :: '/' :: cs => skipBlanksFrom .outside cs
  | .blockComment (depth + 1), '*' :: '/' :: cs => skipBlanksFrom (.blockComment depth) cs
  | .blockComment depth, _ :: cs => skipBlanksFrom (.blockComment depth) cs

/-- Skips white space and comments. -/
def skipBlanks (cs : List Char) : Option (List Char) := skipBlanksFrom .outside cs

/-- The text behind a mark, which has to come first. -/
def mark? (mark : String) (cs : List Char) : Option (List Char) := mark.toList.isPrefixOf? cs

/-- Whether the text goes on with a character that may continue a name. -/
def continuesName (cs : List Char) : Bool := cs.head?.any Text.isIdentifierPart

/-- The text behind a word, which must not be the beginning of a longer name. -/
def keyword? (word : String) (cs : List Char) : Option (List Char) :=
  (mark? word cs).filter fun rest => !continuesName rest

/-- The text behind an optional comma and the blanks around it, and whether there was
a comma. -/
def comma? (cs : List Char) : Option (Bool × List Char) := do
  match ← skipBlanks cs with
  | ',' :: rest => return (true, ← skipBlanks rest)
  | rest => return (false, rest)

/-- Whether a character may stand in a raw name. -/
def isRawNameChar (c : Char) : Bool :=
  c = '.' || c = '+' || c = '-' || Text.isIdentifierPart c

/-- Whether the text begins like a string or byte literal with a letter in front. -/
def startsLiteral (cs : List Char) : Bool :=
  ["b\"", "b'", "br#", "br\"", "r\"", "r#\"", "r##"].any fun m => (mark? m cs).isSome

/-- A raw name behind its mark, if the text has one. -/
def rawName? (cs : List Char) : Option (List Char × List Char) := do
  let body ← mark? "r#" cs
  match body.takeWhile isRawNameChar with
  | [] => none
  | name => some (name, body.dropWhile isRawNameChar)

/-- A name where a record or a field is named. A name that would go on if it were raw
is refused. -/
def name? (cs : List Char) : Option (String × List Char) :=
  if startsLiteral cs || !cs.head?.any Text.isIdentifierStart then none
  else if (mark? "r#" cs).isSome then (rawName? cs).map fun n => (String.ofList n.1, n.2)
  else
    let name := cs.takeWhile Text.isIdentifierPart
    if (cs.takeWhile isRawNameChar).length = name.length then
      some (String.ofList name, cs.dropWhile Text.isIdentifierPart)
    else none

/-- The text behind a name where a value may begin with one. -/
def skipName? (cs : List Char) : Option (List Char) :=
  if startsLiteral cs then none
  else if (mark? "r#" cs).isSome then (rawName? cs).map Prod.snd
  else if cs.head?.any Text.isIdentifierStart then some (cs.dropWhile Text.isIdentifierPart)
  else none

end ByteMachine.Ron
