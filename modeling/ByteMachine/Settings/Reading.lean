import ByteMachine.Ron.Skip
import ByteMachine.Settings

/-!
# Settings in RON

Settings are written as a record whose fields may come in any order and may be left
out. Fields with other names are skipped, whatever they hold; a field may not be given
twice.
-/

namespace ByteMachine.Settings

open Ron

/-- The name that the record may carry. -/
def recordName : String := "EmulatorConfig"

/-- How deep the value of an unknown field may be nested. -/
def nestingLimit : Nat := 126

/-- An optional number. -/
def optional? (extensions : Extensions) (cs : List Char) : Option (Option UInt64 × List Char) :=
  let implicit (cs : List Char) : Option (Option UInt64 × List Char) :=
    if extensions.implicitSome then (unsigned? cs).map fun n => (some n.1, n.2) else none
  match keyword? "None" cs with
  | some rest => some (none, rest)
  | none =>
    match keyword? "Some" cs with
    | none => implicit cs
    | some rest => do
      match ← skipBlanks rest with
      | '(' :: inside =>
        let (value, rest) ← unsigned? (← skipBlanks inside)
        let (_, rest) ← comma? rest
        return (some value, ← mark? ")" rest)
      | rest => implicit rest

/-- Reads the value of the field with this name. -/
def field? (extensions : Extensions) (f : Fields) (name : String) (cs : List Char) :
    Option (Fields × List Char) :=
  if name = "memory_size" then
    if f.memorySize.isSome then none
    else (unsigned? cs).map fun n => ({ f with memorySize := some n.1 }, n.2)
  else if name = "step_interval_ms" then
    if f.stepIntervalMs.isSome then none
    else (unsigned? cs).map fun n => ({ f with stepIntervalMs := some n.1 }, n.2)
  else if name = "sleep_unit_ms" then
    if f.sleepUnitMs.isSome then none
    else (unsigned? cs).map fun n => ({ f with sleepUnitMs := some n.1 }, n.2)
  else if name = "rng_seed" then
    if f.seed.isSome then none
    else (optional? extensions cs).map fun n => ({ f with seed := some n.1 }, n.2)
  else (skipValue extensions nestingLimit cs).map fun rest => (f, rest)

/-- Reads a name, a colon and the value of that field. -/
def fieldAt? (extensions : Extensions) (f : Fields) (cs : List Char) : Option (Fields × List Char) := do
  let (name, rest) ← name? cs
  let rest ← mark? ":" (← skipBlanks rest)
  field? extensions f name (← skipBlanks rest)

/-- The text behind marks that follow one another with blanks behind each. -/
def marks? (marks : List String) (cs : List Char) : Option (List Char) :=
  marks.foldlM (fun cs m => (mark? m cs).bind skipBlanks) cs

/-- Switches on an extension by its name. -/
def enable? (extensions : Extensions) (name : String) : Option Extensions :=
  if name = "unwrap_newtypes" then some extensions
  else if name = "implicit_some" then some { extensions with implicitSome := true }
  else if name = "unwrap_variant_newtypes" then some { extensions with openVariants := true }
  else if name = "explicit_struct_names" then some { extensions with explicitNames := true }
  else none

/-- Reads the names of extensions, at least one and at most `fuel`. -/
def extensionNames? : (fuel : Nat) → Extensions → List Char → Option (Extensions × List Char)
  | 0, _, _ => none
  | fuel + 1, extensions, cs => do
    let (name, rest) ← name? cs
    let extensions ← enable? extensions name
    let (comma, rest) ← comma? rest
    if comma && rest.head?.any Text.isIdentifierStart then extensionNames? fuel extensions rest
    else return (extensions, rest)

/-- Reads the attributes in front of the record, at most `fuel` of them. -/
def attributes? : (fuel : Nat) → Extensions → List Char → Option (Extensions × List Char)
  | 0, _, _ => none
  | fuel + 1, extensions, cs =>
    match cs with
    | '#' :: _ => do
      let rest ← marks? ["#", "!", "[", "enable", "("] cs
      let (extensions, rest) ← extensionNames? (rest.length + 1) extensions rest
      attributes? fuel extensions (← marks? [")", "]"] (← skipBlanks rest))
    | _ => some (extensions, cs)

/-- The text behind the name of the record, which may be left out unless an attribute
asks for it. -/
def skipRecordName (extensions : Extensions) (cs : List Char) : Option (List Char) :=
  if continuesName cs then
    (name? cs).bind fun n => if n.1 = recordName then some n.2 else none
  else if extensions.explicitNames then none
  else some cs

/-- The fields of a record that makes up a whole text. -/
def fields? (cs : List Char) : Option Fields := do
  let (extensions, rest) ← attributes? (cs.length + 1) {} (← skipBlanks cs)
  let rest ← skipBlanks (← skipRecordName extensions rest)
  let (fields, rest) ← foldItems (fieldAt? extensions) ')' {} (← mark? "(" rest)
  if (← skipBlanks rest).isEmpty then return fields else none

/-- The format of settings in RON. -/
def ron : Format := fun text => fields? text.toList

/-- The settings in a text in RON. -/
def ofText (text : String) : Except SettingsError Settings := ron.read text

end ByteMachine.Settings
