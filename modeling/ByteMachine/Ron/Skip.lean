import ByteMachine.Ron.Items
import ByteMachine.Ron.Literal
import ByteMachine.Ron.Number

/-!
# Skipping values in RON texts

A field that no one knows may hold any value: a number, a literal, an option, a
record, a tuple, a list or a map, nested up to a limit. Skipping reads the value by
the same rules as if it were wanted, so what is no value is still refused.
-/

namespace ByteMachine.Ron

/-- What the attributes at the start of a text have switched on. -/
structure Extensions where
  /-- An option may be written without `Some` and its parentheses. -/
  implicitSome : Bool := false
  /-- `Some` may hold the fields of a record or tuple without further parentheses. -/
  openVariants : Bool := false
  /-- The name of a record may not be left out. -/
  explicitNames : Bool := false
  deriving DecidableEq, Repr

/-- A reader that only finds out where something ends. -/
abbrev Skipper := List Char → Option (List Char)

/-- Skips items with commas between them, and the closing mark. -/
def skipItems (item : Skipper) (closing : Char) (cs : List Char) : Option (List Char) :=
  (foldItems (fun _ cs => (item cs).map fun rest => ((), rest)) closing () cs).map Prod.snd

/-- Skips a colon and a value behind a key. -/
def skipBehindKey (item : Skipper) (cs : List Char) : Option (List Char) := do
  item (← skipBlanks (← mark? ":" (← skipBlanks cs)))

/-- Skips an entry of a map, where any value may be the key. -/
def skipEntry (item : Skipper) (cs : List Char) : Option (List Char) := do
  skipBehindKey item (← item cs)

/-- Skips a field, whose key is a name. -/
def skipField (item : Skipper) (cs : List Char) : Option (List Char) := do
  let (_, rest) ← name? cs
  skipBehindKey item rest

/-- What stands in the parentheses behind an option, where these may also be the
parentheses of its content. -/
inductive Content where
  /-- The fields of a record. -/
  | fields
  /-- The items of a tuple. -/
  | items
  /-- One value. -/
  | single
  deriving DecidableEq

/-- Skips a literal if it is there. One without an end is refused. -/
def passOver (skip : List Char → Except LiteralFault (List Char)) (cs : List Char) :
    Option (List Char) :=
  match skip cs with
  | .ok rest => some rest
  | .error .malformed => some cs
  | .error .unended => none

/-- Skips the literals that may hide brackets and commas: a character, then a string, then
a byte string, each only if it is there. -/
def skipLiterals (cs : List Char) : Option (List Char) := do
  passOver skipByteString (← passOver skipString ((skipCharacter? cs).getD cs))

/-- Looks ahead for a comma with something other than the closing parenthesis behind it,
outside of all brackets that are opened on the way. Nothing but brackets, commas, blanks
and literals is told apart. Every round takes a character, so the length of the text
bounds their number. -/
def lookForItems : (fuel depth : Nat) → List Char → Option Content
  | 0, _, _ => none
  | fuel + 1, depth, cs => do
    match ← skipLiterals (← skipBlanks cs) with
    | [] => none
    | c :: rest =>
      if c ∈ ['(', '[', '\x7b'] then lookForItems fuel (depth + 1) rest
      else if c ∈ [')', ']', '\x7d'] then
        match depth with
        | 0 => return .single
        | depth + 1 => lookForItems fuel depth rest
      else if c = ',' && depth = 0 then
        return if (← skipBlanks rest).head? = some ')' then .single else .items
      else lookForItems fuel depth rest

/-- What stands behind an opening parenthesis and its blanks. A name with a colon means
fields, and a closing parenthesis means that there are no items; otherwise the first comma
decides. -/
def contentOf? (cs : List Char) : Option Content := do
  if cs.head? = some ')' then return .items
  match skipName? cs with
  | none => lookForItems (cs.length + 1) 0 cs
  | some rest =>
    match ← skipBlanks rest with
    | ':' :: _ => return .fields
    | rest => lookForItems (rest.length + 1) 0 rest

/-- Whether what stands behind an opening parenthesis begins with the name of a field. -/
def startsFields (cs : List Char) : Bool :=
  (do
    let rest ← skipName? (← skipBlanks cs)
    mark? ":" (← skipBlanks rest)).isSome

/-- Skips what stands in parentheses, and the closing one: fields if the first item is a
name with a colon, and otherwise the items of a tuple. -/
def skipParenthesised (item : Skipper) (cs : List Char) : Option (List Char) :=
  if startsFields cs then skipItems (skipField item) ')' cs else skipItems item ')' cs

/-- Skips what stands in brackets, given how to do so with a reader for the items. The
readers for the levels below are given, the nearest first: the brackets take up one
level, and their items are on the one after. Without any level there are no brackets. -/
def skipNested (below : List Skipper) (inside : Skipper → Skipper) : Skipper :=
  match below with
  | [] => fun _ => none
  | _ :: deeper => inside (deeper.head?.getD fun _ => none)

/-- The names of values that are written as a single word. -/
def wordValues : List String :=
  ["true", "false", "None", "inf", "inff32", "inff64", "NaN", "NaNf32", "NaNf64"]

/-- Skips the rest of an option behind `Some`. Its content is one level below. -/
def skipOption (extensions : Extensions) (below : List Skipper) (cs : List Char) :
    Option (List Char) := do
  let rest ← skipBlanks cs
  match below, rest with
  | content :: deeper, '(' :: inside =>
    let inside ← skipBlanks inside
    match ← if extensions.openVariants then contentOf? inside else some .single with
    | .fields => skipNested deeper (fun item => skipItems (skipField item) ')') inside
    | .items => skipNested deeper (fun item => skipItems item ')') inside
    | .single =>
      let (_, behind) ← comma? (← content inside)
      mark? ")" behind
  | content :: _, rest => if extensions.implicitSome then content rest else none
  | [], _ => none

/-- Skips one value, with readers for the values on the levels below it, the nearest
first. The empty pair of parentheses that stands for nothing takes up no level. -/
def skipOne (extensions : Extensions) (below : List Skipper) (cs : List Char) :
    Option (List Char) :=
  match (wordValues.findSome? fun w => keyword? w cs).or (mark? "()" cs) with
  | some rest => some rest
  | none =>
    match keyword? "Some" cs with
    | some rest => skipOption extensions below rest
    | none =>
      match skipName? cs with
      | some rest => do
        match ← skipBlanks rest with
        | '(' :: inside => skipNested below skipParenthesised inside
        | rest => return rest
      | none =>
        match cs with
        | '(' :: inside => skipNested below skipParenthesised inside
        | '[' :: inside => skipNested below (fun item => skipItems item ']') inside
        | '\x7b' :: inside =>
          skipNested below (fun item => skipItems (skipEntry item) '\x7d') inside
        | '"' :: _ => (skipString cs).toOption
        | 'r' :: _ => (skipString cs).toOption
        | '\x27' :: _ => skipCharacter? cs
        | 'b' :: '\x27' :: _ => skipByte? cs
        | 'b' :: _ => (skipByteString cs).toOption
        | c :: _ => if c.isDigit || c ∈ ['+', '-', '.'] then skipNumber? cs else none
        | [] => none

/-- Readers for values, the first for those that may be nested to one level less than
`depth`, the last for those that may not be nested at all. -/
def skippers (extensions : Extensions) : (depth : Nat) → List Skipper
  | 0 => []
  | depth + 1 =>
    let below := skippers extensions depth
    skipOne extensions below :: below

@[simp]
theorem length_skippers (extensions : Extensions) (depth : Nat) :
    (skippers extensions depth).length = depth := by
  induction depth with
  | zero => rfl
  | succ depth ih => simp [skippers, ih]

/-- Skips one value that may be nested to a depth. An option counts once, brackets count
once and each item inside them once more. -/
def skipValue (extensions : Extensions) (depth : Nat) : Skipper :=
  skipOne extensions (skippers extensions depth)

end ByteMachine.Ron
