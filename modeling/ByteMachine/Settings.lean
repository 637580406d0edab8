import ByteMachine.Memory
import ByteMachine.Scheduler

/-!
# Settings

How large the memory is, how long the pauses are, and where random bytes come from.
Every setting has a default. Only the memory size can be wrong by itself, and it is
looked at only once a whole text has been read. How settings are written down is up to
the format of that text.
-/

namespace ByteMachine

/-- The settings of a computer. -/
structure Settings where
  /-- The number of memory cells. -/
  memorySize : Nat := maxMemorySize
  /-- The pause between two instructions, in milliseconds. -/
  stepIntervalMs : UInt64 := 2
  /-- The length of one unit of sleep, in milliseconds. -/
  sleepUnitMs : UInt64 := 1000
  /-- The seed of the random generator, or none to take any key. -/
  seed : Option UInt64 := none
  deriving DecidableEq, Repr

/-- Why settings were refused. -/
inductive SettingsError where
  /-- No memory has this size. -/
  | invalidMemorySize (size : Nat)
  /-- The text is not in the format of settings. -/
  | malformed
  /-- The file could not be read. -/
  | unreadable (reason : String)
  deriving DecidableEq, Repr

/-- The text that reports why settings were refused. -/
def SettingsError.message : SettingsError → String
  | invalidMemorySize size => (MemoryError.invalidSize size).message
  | malformed => "could not parse config: not a settings record"
  | unreadable reason => "could not read config: " ++ reason

namespace Settings

/-- The pause between two instructions, in nanoseconds. -/
def stepInterval (s : Settings) : Nat := milliseconds s.stepIntervalMs

/-- The length of one unit of sleep, in nanoseconds. -/
def sleepUnit (s : Settings) : Nat := milliseconds s.sleepUnitMs

/-- Whether there is a memory of the size that is set. -/
def isValid (s : Settings) : Bool := 1 ≤ s.memorySize && s.memorySize ≤ maxMemorySize

/-- The settings, if they are valid. -/
def check (s : Settings) : Except SettingsError Settings :=
  if s.isValid then .ok s else .error (.invalidMemorySize s.memorySize)

/-- The fields of a record of settings that have been given so far. -/
structure Fields where
  /-- The memory size. -/
  memorySize : Option UInt64 := none
  /-- The pause between two instructions. -/
  stepIntervalMs : Option UInt64 := none
  /-- The length of one unit of sleep. -/
  sleepUnitMs : Option UInt64 := none
  /-- The seed, which may be given as none. -/
  seed : Option (Option UInt64) := none
  deriving DecidableEq, Repr

/-- The settings with these fields, and the defaults for all others. -/
def ofFields (f : Fields) : Settings :=
  let default : Settings := {}
  { memorySize := (f.memorySize.map UInt64.toNat).getD default.memorySize
    stepIntervalMs := f.stepIntervalMs.getD default.stepIntervalMs
    sleepUnitMs := f.sleepUnitMs.getD default.sleepUnitMs
    seed := f.seed.getD default.seed }

/-- A format of settings: the fields that a text gives, or none if it is no record of
settings. -/
abbrev Format := String → Option Fields

/-- The settings in a text of this format. -/
def Format.read (format : Format) (text : String) : Except SettingsError Settings :=
  match format text with
  | none => .error .malformed
  | some fields => (ofFields fields).check

section

variable {s t : Settings} {format : Format} {text : String}

theorem check_of_isValid (h : s.isValid = true) : s.check = .ok s := if_pos h

theorem check_of_not_isValid (h : ¬s.isValid = true) :
    s.check = .error (.invalidMemorySize s.memorySize) := if_neg h

/-- Settings that pass the check are valid. -/
theorem isValid_of_check (h : s.check = .ok t) : t.isValid = true := by
  by_cases hvalid : s.isValid = true
  · rw [check_of_isValid hvalid] at h
    cases h
    exact hvalid
  · rw [check_of_not_isValid hvalid] at h
    cases h

theorem Format.read_of_none (h : format text = none) : format.read text = .error .malformed := by
  rw [Format.read, h]

theorem Format.read_of_some {fields : Fields} (h : format text = some fields) :
    format.read text = (ofFields fields).check := by
  rw [Format.read, h]

/-- Whatever the format is, only valid settings are taken from a text. -/
theorem Format.isValid_of_read (h : format.read text = .ok s) : s.isValid = true := by
  cases hfields : format text with
  | none =>
    rw [read_of_none hfields] at h
    cases h
  | some fields =>
    rw [read_of_some hfields] at h
    exact isValid_of_check h

end

end Settings

end ByteMachine
