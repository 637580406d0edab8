import ByteMachine.Computer
import ByteMachine.Console.Arguments
import ByteMachine.Console.Directory
import ByteMachine.Settings.Reading
import ByteMachine.Snapshot

/-!
# Console sessions

The console runs one program from a source file. It prints numbers as they are put
out, asks for a line whenever the program wants a byte, and lets the time that has
passed act on the computer. A session is a chain of turns: each turn writes something
and then either waits for a line, waits for time to pass, or is the end. Nothing else
comes in from outside, so that a whole session is a function of the arguments, the
files with the format of settings in them, the lines and the times.
-/

namespace ByteMachine.Console

/-- Where text is written to. -/
inductive Stream where
  /-- Results and prompts. -/
  | out
  /-- Reports of what went wrong. -/
  | err
  deriving DecidableEq, Repr

/-- A text that has been written. -/
structure Write where
  /-- Where to. -/
  stream : Stream
  /-- What. -/
  text : String
  deriving DecidableEq, Repr

/-- A line on the stream for results. -/
def say (text : String) : Write := ⟨.out, text ++ "\n"⟩

/-- A line on the stream for reports. -/
def report (text : String) : Write := ⟨.err, text ++ "\n"⟩

/-- The prompt for a byte. -/
def prompt : Write := ⟨.out, "input (hex): "⟩

/-- A program in the middle of its run. -/
structure Session where
  /-- The computer that runs it. -/
  computer : Computer
  /-- The question that has not been put to the user yet. -/
  parked : Option Ticket := none
  /-- Whether to show a snapshot at the end. -/
  dump : Bool
  deriving DecidableEq, Repr

/-- What a session does next. -/
inductive Stage where
  /-- It waits for a line that answers a question. -/
  | awaitLine (session : Session) (ticket : Ticket)
  /-- It waits for time to pass. -/
  | awaitTime (session : Session)
  /-- It has ended with this exit code. -/
  | finished (code : Nat)
  deriving DecidableEq, Repr

/-- What a session writes, and what it does then. -/
structure Turn where
  /-- The texts in order. -/
  writes : List Write
  /-- What comes then. -/
  stage : Stage
  deriving DecidableEq, Repr

/-- A turn with more texts in front. -/
def Turn.after (writes : List Write) (turn : Turn) : Turn :=
  { turn with writes := writes ++ turn.writes }

/-- What the console writes when it gets a notice. -/
def show? : Notice → Option Write
  | .output value => some (say (toString value))
  | .refused error => some (report ("syntax error: " ++ error.message))
  | _ => none

/-- The question that a notice raises. -/
def question? : Notice → Option Ticket
  | .inputRequested ticket => some ticket
  | _ => none

namespace Session

/-- The session with a computer and the questions raised on the way to it. The latest
one is kept. -/
def follow (s : Session) (computer : Computer) (notices : List Notice) : Session :=
  { s with computer, parked := ((notices.filterMap question?).getLast?).or s.parked }

/-- The end of a session, with a snapshot if one was asked for. -/
def finish (s : Session) (code : Nat) : Turn :=
  ⟨if s.dump then [say s.computer.snapshot.pretty] else [], .finished code⟩

/-- The next turn of a program that may have stopped and may have a question. -/
def next (s : Session) : Turn :=
  if s.computer.state = .stopped then s.finish 0
  else
    match s.parked with
    | some ticket => ⟨[prompt], .awaitLine { s with parked := none } ticket⟩
    | none => ⟨[], .awaitTime s⟩

/-- Takes a line, or the end of the input, as the answer to a question. A line that is
no byte is reported and the question put again; the end of the input ends the run. -/
def answer (s : Session) (ticket : Ticket) : Option String → Turn
  | none => { s with computer := s.computer.stop.next }.finish 0
  | some line =>
    let reply := s.computer.deliver ticket line
    let s := s.follow reply.next reply.notices
    match reply.answer with
    | .ok () => ⟨[], .awaitTime s⟩
    | .error (.invalidHex text) =>
      ⟨[report ("'" ++ Text.trim text ++ "' is not a byte in hex, try again"), prompt],
        .awaitLine s ticket⟩
    | .error _ => ⟨[], .awaitTime s⟩

/-- Lets time pass. A fault is reported and ends the session. So does a clock that would
run past its last moment. -/
def pass (s : Session) (elapsed : Nat) : Turn :=
  match s.computer.update elapsed with
  | none => ⟨[], .finished 101⟩
  | some reply =>
    let s := s.follow reply.next reply.notices
    let shown := reply.notices.filterMap show?
    match reply.answer with
    | .ok _ => s.next.after shown
    | .error fault =>
      (s.finish 1).after (shown ++ [report ("execution failed: " ++ fault.message)])

/-- Assembles a source and starts it. -/
def launch (computer : Computer) (source : String) (dump : Bool) : Turn :=
  let assembled := computer.assemble source
  let shown := assembled.notices.filterMap show?
  match assembled.answer with
  | .error _ => ⟨shown, .finished 1⟩
  | .ok _ =>
    let started := assembled.next.run
    let s : Session := { computer := started.next, dump }
    ((s.follow started.next started.notices).next).after shown

end Session

/-- The settings that the command line asks for, in files of this format. -/
def loadSettings (read : String → Except ReadError String) (format : Settings.Format) :
    Option String → Except SettingsError Settings
  | none => .ok {}
  | some path =>
    match read path with
    | .error error => .error (.unreadable error.message)
    | .ok text => format.read text

/-- The first turn of a session: the arguments, then the settings, then the source, then
its assembly. -/
def start (args : List String) (read : String → Except ReadError String)
    (format : Settings.Format) (key : Random.Key) : Turn :=
  match Arguments.ofList args with
  | .error error => ⟨[report error.message], .finished 2⟩
  | .ok args =>
    match loadSettings read format args.settings with
    | .error error => ⟨[report error.message], .finished 2⟩
    | .ok settings =>
      match read args.source with
      | .error error =>
        ⟨[report ("could not read " ++ args.source ++ ": " ++ error.message)], .finished 1⟩
      | .ok source =>
        match Computer.ofSettings settings key with
        | .error error => ⟨[report error.message], .finished 2⟩
        | .ok computer => Session.launch computer source args.dump

/-- What a whole session has come to. -/
structure Outcome where
  /-- The exit code. -/
  code : Nat
  /-- Everything that was written, in order. -/
  writes : List Write
  deriving DecidableEq, Repr

/-- All that was written to one stream. -/
def Outcome.text (o : Outcome) (stream : Stream) : String :=
  String.join ((o.writes.filter fun w => w.stream = stream).map Write.text)

/-- Plays a session to its end, in at most `fuel` turns. The lines are those of the
input; before update number `n` the time `elapsed n` passes. What was written before
is given with the latest first. -/
def play (elapsed : Nat → Nat) :
    (fuel : Nat) → (updates : Nat) → (written : List Write) → Turn → List String → Option Outcome
  | 0, _, written, turn, _ =>
    match turn.stage with
    | .finished code => some ⟨code, (turn.writes.reverse ++ written).reverse⟩
    | _ => none
  | fuel + 1, updates, written, turn, lines =>
    let written := turn.writes.reverse ++ written
    match turn.stage, lines with
    | .finished code, _ => some ⟨code, written.reverse⟩
    | .awaitLine s ticket, [] => play elapsed fuel updates written (s.answer ticket none) []
    | .awaitLine s ticket, line :: lines =>
      play elapsed fuel updates written (s.answer ticket (some line)) lines
    | .awaitTime s, lines =>
      play elapsed fuel (updates + 1) written (s.pass (elapsed updates)) lines

/-- The lines of an input, each with the line feed that ends it. -/
def inputLines : List Char → List (List Char)
  | [] => []
  | c :: cs =>
    if c = '\n' then [c] :: inputLines cs
    else
      match inputLines cs with
      | [] => [[c]]
      | line :: lines => (c :: line) :: lines

/-- A whole session on data: arguments, files, the text of the input, and the times that
pass. There is no outcome if it has not ended after `fuel` turns. Settings are read in RON
unless another format is given. -/
def session (args : List String) (files : Directory) (input : String) (key : Random.Key)
    (elapsed : Nat → Nat) (fuel : Nat) (format : Settings.Format := Settings.ron) :
    Option Outcome :=
  play elapsed fuel 0 [] (start args files.read format key)
    ((inputLines input.toList).map String.ofList)

end ByteMachine.Console
