import ByteMachine.Console.Session
import ByteMachine.Settings.Reading

/-!
# The command line program

Plays a console session with the files, the input, the output and the time of the
system it runs on. What is written and what comes next is decided by the session; this
module only carries it out. It is here that settings are read in RON and that a key is
drawn.
-/

namespace ByteMachine.Console

/-- The reason that the system gives for a file that could not be read. -/
def ReadError.ofSystem : IO.Error → ReadError
  | .noFileOrDirectory .. => notFound
  | .permissionDenied _ code _ => system code.toNat "Permission denied"
  | .inappropriateType .. => isDirectory
  | error => system 5 (toString error)

/-- The text of a file on disk. -/
def readFile (path : String) : IO (Except ReadError String) := do
  try
    let bytes ← IO.FS.readBinFile path
    return decodeText bytes
  catch error => return .error (.ofSystem error)

/-- The files that a command line names, with what was read from them. -/
def readNamed (args : List String) : IO (String → Except ReadError String) := do
  match Arguments.ofList args with
  | .error _ => return fun _ => .error .notFound
  | .ok args =>
    let source ← readFile args.source
    match args.settings with
    | none => return fun _ => source
    | some path =>
      let settings ← readFile path
      return fun p => if p = path then settings else source

/-- Writes texts to their streams. -/
def emit (writes : List Write) : IO Unit := do
  for w in writes do
    match w.stream with
    | .out => IO.print w.text
    | .err => IO.eprint w.text
  (← IO.getStdout).flush

/-- The next line of the input, or none at its end. -/
def readLine : IO (Option String) := do
  try
    let line ← (← IO.getStdin).getLine
    return if line.isEmpty then none else some line
  catch _ => return none

/-- Four random bytes as one word. -/
def randomWord : IO UInt32 := do
  let bytes ← IO.getRandomBytes 4
  return bytes.toList.foldl (fun word byte => word * 256 + byte.toUInt32) 0

/-- A random key. -/
def randomKey : IO Random.Key := Vector.ofFnM fun _ => randomWord

/-- Carries out turns until the session ends. Time spent waiting for a line does not
count. -/
partial def carryOut (turn : Turn) (last : Nat) : IO UInt32 := do
  emit turn.writes
  match turn.stage with
  | .finished code => return UInt32.ofNat code
  | .awaitLine session ticket =>
    let line ← readLine
    carryOut (session.answer ticket line) (← IO.monoNanosNow)
  | .awaitTime session =>
    let now ← IO.monoNanosNow
    let turn := session.pass (now - last)
    if let .finished code := turn.stage then
      emit turn.writes
      return UInt32.ofNat code
    IO.sleep session.computer.settings.stepIntervalMs.toUInt32
    carryOut turn now

end ByteMachine.Console

/-- Runs the program that the command line names. -/
def main (args : List String) : IO UInt32 := do
  let read ← ByteMachine.Console.readNamed args
  let key ← ByteMachine.Console.randomKey
  let turn := ByteMachine.Console.start args read ByteMachine.Settings.ron key
  ByteMachine.Console.carryOut turn (← IO.monoNanosNow)
