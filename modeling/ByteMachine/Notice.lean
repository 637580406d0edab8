import ByteMachine.Assembly
import ByteMachine.Register
import ByteMachine.Scheduler

/-!
# Notices to front ends

Whatever a front end would redraw is announced when it happens. A notice carries
the new value, so that a front end that keeps the latest of each kind shows the
machine as it is.
-/

namespace ByteMachine

/-- Something that has just happened. -/
inductive Notice where
  /-- A register has been written. -/
  | register (register : Register) (value : UInt8)
  /-- Memory has changed. -/
  | memory (memory : Memory)
  /-- The output latch has been written. -/
  | output (value : Int)
  /-- A source text has been refused. -/
  | refused (error : AssemblyError)
  /-- The program asks for a byte. -/
  | inputRequested (ticket : Ticket)
  deriving DecidableEq, Repr

/-- The answer of an operation, the state that it leaves, and what it announced, in
order. -/
structure Reply (σ α : Type) where
  /-- The operation's own answer. -/
  answer : α
  /-- The state afterwards. -/
  next : σ
  /-- What was announced on the way. -/
  notices : List Notice := []
  deriving Repr

end ByteMachine
