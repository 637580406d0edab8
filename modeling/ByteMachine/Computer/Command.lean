import ByteMachine.Computer

/-!
# Commands and histories

The operations of a computer as data. A history is a list of commands carried out
one after another; it ends early where a command has no reply.
-/

namespace ByteMachine

/-- An operation on a computer. -/
inductive Command where
  /-- Assemble a source. -/
  | assemble (source : String)
  /-- Start the program. -/
  | run
  /-- End the run. -/
  | stop
  /-- Suspend the program, for some nanoseconds or until it is woken. -/
  | sleep (timeout : Option Nat)
  /-- Let a suspended program go on. -/
  | wakeUp
  /-- Execute one instruction. -/
  | step
  /-- Let some nanoseconds pass and execute one instruction. -/
  | update (elapsed : Nat)
  /-- Answer a question. -/
  | deliver (ticket : Ticket) (text : String)
  deriving DecidableEq, Repr

/-- What a command answers. -/
inductive Answer where
  /-- It was carried out. -/
  | done
  /-- The outcome of an assembly. -/
  | assembled (result : Except AssemblyError Artifacts)
  /-- The outcome of an instruction. -/
  | stepped (result : Except Fault Unit)
  /-- The outcome of an update: whether an instruction was executed. -/
  | updated (result : Except Fault Bool)
  /-- The outcome of a delivery. -/
  | delivered (result : Except InputError Unit)

namespace Reply

/-- A reply with its answer put differently. -/
def mapAnswer {σ α β : Type} (f : α → β) (r : Reply σ α) : Reply σ β :=
  ⟨f r.answer, r.next, r.notices⟩

end Reply

namespace Computer

/-- Carries out a command. -/
def perform (c : Computer) : Command → Option (Reply Computer Answer)
  | .assemble source => some ((c.assemble source).mapAnswer .assembled)
  | .run => some (c.run.mapAnswer fun _ => .done)
  | .stop => some (c.stop.mapAnswer fun _ => .done)
  | .sleep timeout => (c.sleep timeout).map (·.mapAnswer fun _ => .done)
  | .wakeUp => some (c.wakeUp.mapAnswer fun _ => .done)
  | .step => c.step.map (·.mapAnswer .stepped)
  | .update elapsed => (c.update elapsed).map (·.mapAnswer .updated)
  | .deliver ticket text => some ((c.deliver ticket text).mapAnswer .delivered)

/-- Carries out commands in order. The notices are those of all of them; there is no
reply if one of them has none. -/
def performAll (c : Computer) : List Command → Option (Reply Computer (List Answer))
  | [] => some ⟨[], c, []⟩
  | command :: commands =>
    (c.perform command).bind fun r =>
      (r.next.performAll commands).map fun rs =>
        ⟨r.answer :: rs.answer, rs.next, r.notices ++ rs.notices⟩

/-- What a series of updates has come to. -/
structure Progress where
  /-- How many updates there were. -/
  updates : Nat := 0
  /-- How many of them executed an instruction without a fault. -/
  stepped : Nat := 0
  /-- The fault that ended the series. -/
  fault : Option Fault := none
  deriving DecidableEq, Repr

/-- Updates a computer up to a number of times, until an instruction fails, the program
stops or it waits for a byte. -/
def runFor (c : Computer) (elapsed : Nat) : (limit : Nat) → Option (Reply Computer Progress)
  | 0 => some ⟨{}, c, []⟩
  | limit + 1 =>
    (c.update elapsed).bind fun r =>
      match r.answer with
      | .error fault => some ⟨{ updates := 1, fault := some fault }, r.next, r.notices⟩
      | .ok stepped =>
        let first := if stepped then 1 else 0
        if r.next.state = .stopped || r.next.isAwaitingInput then
          some ⟨{ updates := 1, stepped := first }, r.next, r.notices⟩
        else
          (r.next.runFor elapsed limit).map fun rest =>
            ⟨{ rest.answer with
                updates := rest.answer.updates + 1, stepped := rest.answer.stepped + first },
              rest.next, r.notices ++ rest.notices⟩

end Computer

end ByteMachine
